import Tgtc.DiskHandles

/-!
Leases in the hands of many callers at once, as for reservations. There is no
pool here: a lease is yielded by the promise of one request, and it is held until
`release` is called on it.
-/
namespace Tgtc.UpstreamHandles
open Numbers Resources Arrivals Runs Custody UpstreamQueue UpstreamMoves Maps
open Settlement
open DiskHandles (Claim)
universe u

/-- How an event settles the promise of a request, if it does. -/
def settles (request : Nat) : UpstreamEvent → Option (Except DownloadResourceException Nat)
  | .answered r result =>
    if r = request then
      match result with
      | .granted grant => some (.ok grant.lease)
      | .rejected exception => some (.error exception)
    else none
  | .left r ending =>
    if r = request then
      match ending with
      | .granted grant _ => some (.ok grant.lease)
      | .timeout e | .cancelled e | .shutdown e => some (.error e)
    else none
  | .queued _ _ _ => none

def settlement (u : Upstream) (request : Nat) : Option (Except DownloadResourceException Nat) :=
  u.log.findSome? (settles request)

def delivered (u : Upstream) (request : Nat) : Option Nat :=
  match settlement u request with
  | some (.ok lease) => some lease
  | _ => none

def isActive (u : Upstream) (id : Nat) : Bool := ((u.leases[id]?).map (·.active)).getD false

section
variable {u u' : Upstream}

variable {request : Nat} {event : UpstreamEvent}

theorem settlement_append (grown : u'.log = u.log ++ [event]) (request : Nat) :
    settlement u' request = (settlement u request).or (settles request event) := by
  simp [settlement,grown]

theorem settles_note {outcome : Except DownloadResourceException Nat}
    (done : settles request event = some outcome) :
    upstreamNote event = .answered request ∨ upstreamNote event = .left request := by
  cases event with
  | answered r result =>
    by_cases here : r = request
    · exact .inl (by rw [upstreamNote,here])
    · simp [settles,here] at done
  | left r ending =>
    by_cases here : r = request
    · exact .inr (by rw [upstreamNote,here])
    · simp [settles,here] at done
  | queued => cases done

theorem settled_arrived (settled : UpstreamSettled u) (done : settlement u request ≠ none) :
    request < u.nextRequest ∧ request ∉ waitingIds u := by
  obtain ⟨outcome,found⟩ := Option.ne_none_iff_exists'.mp done
  obtain ⟨event,member,ends⟩ := List.exists_of_findSome?_eq_some found
  have noted : upstreamNote event ∈ u.log.map upstreamNote := List.mem_map_of_mem member
  refine accounted_done settled.accounted ?_
  rcases settles_note ends with note | note
  · exact .inl (note ▸ noted)
  · exact .inr (note ▸ noted)

theorem unsettled_next (settled : UpstreamSettled u) : settlement u u.nextRequest = none := by
  by_contra done
  exact Nat.lt_irrefl _ (settled_arrived settled done).1

theorem unsettled_waiting (settled : UpstreamSettled u) (waits : request ∈ waitingIds u) :
    settlement u request = none := by
  by_contra done
  exact (settled_arrived settled done).2 waits

theorem settlement_kept (grown : u'.log = u.log ∨ ∃ event, u'.log = u.log ++ [event])
    {outcome : Except DownloadResourceException Nat} (done : settlement u request = some outcome) :
    settlement u' request = some outcome := by
  rcases grown with same | ⟨event,grown⟩
  · rw [← done]
    simp [settlement,same]
  · rw [settlement_append grown,done]
    rfl

theorem delivered_silent (grown : u'.log = u.log ++ [event])
    (silent : ∀ id, settles request event ≠ some (.ok id)) : delivered u' request = delivered u request := by
  unfold delivered
  rw [settlement_append grown]
  cases settlement u request with
  | some outcome => rfl
  | none =>
    cases ends : settles request event with
    | none => rfl
    | some outcome =>
      cases outcome with
      | error failure => rfl
      | ok id => exact absurd ends (silent id)

theorem delivered_same (same : u'.log = u.log) (request : Nat) : delivered u' request = delivered u request := by
  simp [delivered,settlement,same]

theorem delivered_to (grown : u'.log = u.log ++ [event]) {id : Nat}
    (pending : settlement u request = none) (yields : settles request event = some (.ok id)) :
    delivered u' request = some id := by
  simp [delivered,settlement_append grown,pending,yields]

end

def claimed (u : Upstream) : Claim → Option Nat
  | .nothing => none
  | .awaited request => delivered u request
  | .inHand id => some id

section
variable {ι : Type u}

structure Held (claims : ι → Claim) (u : Upstream) : Prop where
  settled : UpstreamSettled u
  apart : Apart (fun i => claimed u (claims i))
  single : ∀ i j request, claims i = .awaited request → claims j = .awaited request → i = j
  live : ∀ i id, claimed u (claims i) = some id → isActive u id = true

variable {claims : ι → Claim} {u u' : Upstream}

theorem isActive_known {id : Nat} (live : isActive u id = true) :
    ∃ record, u.leases[id]? = some record ∧ record.active = true := by
  unfold isActive at live
  cases found : u.leases[id]? with
  | none => rw [found] at live; cases live
  | some record =>
    rw [found] at live
    exact ⟨record,rfl,live⟩

theorem isActive_append {leases : List LeaseRecord} (grown : u'.leases = u.leases ++ leases) {id : Nat}
    (live : isActive u id = true) : isActive u' id = true := by
  obtain ⟨record,found,active⟩ := isActive_known live
  have known : id < u.leases.length := at_lt found
  simpa [isActive,grown,List.getElem?_append_left known] using live

theorem isActive_retire {id other : Nat} {record : LeaseRecord} (different : other ≠ id) :
    isActive (retireLease u id record) other = isActive u other := by
  simp [isActive,retireLease,different.symm]

section
variable (held : Held claims u) (settled : UpstreamSettled u')
include held settled

theorem held_same (promises : ∀ request, delivered u' request = delivered u request)
    (kept : ∀ i id, claimed u (claims i) = some id → isActive u' id = true) : Held claims u' := by
  have same : ∀ c, claimed u' c = claimed u c := by
    intro c
    cases c <;> simp [claimed,promises]
  refine ⟨settled,?_,held.single,?_⟩
  · simp only [same]
    exact held.apart
  · intro i id has
    rw [same] at has
    exact kept i id has

theorem held_deliver {request : Nat} (event : UpstreamEvent)
    (pending : settlement u request = none) (yields : settles request event = some (.ok u.leases.length))
    (elsewhere : ∀ r, r ≠ request → settles r event = none) (log : u'.log = u.log ++ [event]) {weight : Int}
    (leases : u'.leases = u.leases ++ [⟨weight,true⟩]) : Held claims u' := by
  have received := delivered_to log pending yields
  have source : ∀ i id, claimed u' (claims i) = some id →
      (claimed u (claims i) = some id ∧ id ≠ u.leases.length) ∨
        (id = u.leases.length ∧ claims i = .awaited request) := by
    intro i id has
    by_cases awaits : claims i = .awaited request
    · simp only [awaits,claimed,received,Option.some.injEq] at has
      exact .inr ⟨has.symm,awaits⟩
    have same : claimed u' (claims i) = claimed u (claims i) := by
      cases awaited : claims i with
      | nothing | inHand => rfl
      | awaited r =>
        have different : r ≠ request := fun here => awaits (by rw [awaited,here])
        exact delivered_silent log (by simp [elsewhere r different])
    rw [same] at has
    refine .inl ⟨has,?_⟩
    rintro rfl
    obtain ⟨record,found,_⟩ := isActive_known (held.live i _ has)
    simp at found
  refine ⟨settled,?_,held.single,?_⟩
  · exact apart_place held.apart u.leases.length (fun i => claims i = .awaited request)
      (fun i j awaits also => held.single i j request awaits also) source
  · intro i id has
    rcases source i id has with ⟨had,_⟩ | ⟨rfl,_⟩
    · exact isActive_append leases (held.live i id had)
    · simp [isActive,leases]

theorem held_served {ctx : Context} {id : Nat} {weight : Int}
    {reason : UpstreamGrantReason} (waits : id ∈ waitingIds u) (log : u'.log = (served ctx u id weight reason).log)
    (leases : u'.leases = (served ctx u id weight reason).leases) : Held claims u' :=
  held_deliver held settled (.left id (.granted (leaseGrant ctx (without u id) weight (waitingIds u)) reason))
    (unsettled_waiting held.settled waits) (by simp [settles,leaseGrant,without,detachWaiter])
    (fun r other => by simp [settles,Ne.symm other]) log leases

end

theorem move_held {ctx : Context} {kind : Kind} (move : Move ctx kind u u')
    (kept : ∀ i id, claimed u (claims i) = some id → isActive u' id = true) (held : Held claims u) : Held claims u' := by
  have settled := move_upstreamSettled ctx kind u u' move held.settled
  have appended : ∀ event : UpstreamEvent, u'.log = u.log ++ [event] →
      (∀ request id, settles request event ≠ some (.ok id)) → ∀ request, delivered u' request = delivered u request :=
    fun event log silent request => delivered_silent log (silent request)
  cases move with
  | reject _ e =>
    refine held_same held settled (appended _ rfl ?_) kept
    intro request id
    simp only [settles]
    split <;> simp
  | leave _ waiter member ending refusal =>
    refine held_same held settled (appended _ rfl ?_) kept
    intro request id
    cases refusal <;> simp only [settles] <;> split <;> simp
  | enqueue _ o => exact held_same held settled (appended _ rfl (fun _ _ => by simp [settles])) kept
  | grant _ o fits =>
    exact held_deliver held settled (.answered u.nextRequest (.granted (leaseGrant ctx u
      (resolveUpstreamWeight ctx.config o) (waitingIds u)))) (unsettled_next held.settled) (by simp [settles,leaseGrant])
      (fun r other => by simp [settles,Ne.symm other]) rfl rfl
  | serve _ head rest queue reason fits =>
    exact held_served held settled (by simp [waitingIds,queue]) rfl rfl
  | pass _ head rest queue policy unreserved candidate behind fits =>
    have waits : candidate.id ∈ waitingIds u := by
      rw [waitingIds,queue]
      exact List.mem_map_of_mem (List.mem_cons_of_mem _ behind)
    exact held_served held settled waits rfl rfl
  | weigh | retire | count => exact held_same held settled (fun _ => delivered_same rfl _) kept

theorem gentle_held {ctx : Context} {kind : Kind} (move : Move ctx kind u u')
    (gentle : ∀ id, isActive u id = true → isActive u' id = true) (held : Held claims u) : Held claims u' :=
  move_held move (fun i id has => gentle id (held.live i id has)) held

section
variable (ctx : Context) (held : Held claims u)
include ctx held

theorem held_pumpUpstream : Held claims (pumpUpstream ctx u) :=
  @pumpUpstreamLoop_rule ctx (fun u u' => Held claims u → Held claims u') (fun _ before => before)
    (fun first second before => second (first before))
    (fun u weight => gentle_held (@Move.weigh ctx u weight) fun _ live => live)
    (fun u head rest queue reason fits => gentle_held (.serve u head rest queue reason fits)
      fun _ live => isActive_append rfl live)
    (fun u head rest queue policy unreserved candidate behind fits =>
      gentle_held (.pass u head rest queue policy unreserved candidate behind fits)
        fun _ live => isActive_append rfl live) _ u held

theorem held_releaseLease {id : Nat} (free : ∀ i, claimed u (claims i) ≠ some id) : Held claims (releaseLease ctx u id) := by
  unfold releaseLease
  split
  · exact held
  next record found =>
  split
  · exact held
  · next active =>
    refine held_pumpUpstream ctx (move_held (@Move.retire ctx u id record found (by simpa using active)) ?_ held)
    intro i other has
    have different : other ≠ id := fun same => free i (same ▸ has)
    exact (isActive_retire different).trans (held.live i other has)

theorem held_dropWaiter (request : Nat) {ending : WaitEnd}
    (refusal : Refusal ending) : Held claims (dropWaiter ctx u request ending) := by
  unfold dropWaiter
  by_cases waits : u.waitingUpstream.any (fun w => w.id = request) = true
  · obtain ⟨waiter,member,same⟩ := List.any_eq_true.mp waits
    obtain rfl : waiter.id = request := by simpa using same
    rw [removeUpstreamWaiter_of_mem member]
    exact held_pumpUpstream ctx (gentle_held (@Move.leave ctx u waiter member ending refusal) (fun _ live => live) held)
  · rw [removeUpstreamWaiter,if_neg waits]
    exact held

end

end

section
variable {ι : Type u} [DecidableEq ι] {claims : ι → Claim} {u : Upstream}

theorem held_update (held : Held claims u) (i : ι) (c : Claim)
    (fewer : ∀ id, claimed u c = some id → claimed u (claims i) = some id)
    (single : ∀ j request, c = .awaited request → claims j = .awaited request → j = i) :
    Held (Function.update claims i c) u := by
  have fewerAt : ∀ j id, claimed u (Function.update claims i c j) = some id → claimed u (claims j) = some id := by
    intro j id has
    by_cases here : j = i
    · subst here
      rw [Function.update_self] at has
      exact fewer id has
    · rwa [Function.update_of_ne here] at has
  refine ⟨held.settled,apart_fewer held.apart fewerAt,?_,fun j id has => held.live j id (fewerAt j id has)⟩
  intro j k request awaits also
  by_cases here : j = i
  · by_cases there : k = i
    · rw [here,there]
    · rw [here,Function.update_self] at awaits
      rw [Function.update_of_ne there] at also
      exact here.trans (single k request awaits also).symm
  · rw [Function.update_of_ne here] at awaits
    by_cases there : k = i
    · rw [there,Function.update_self] at also
      exact (single j request also awaits).trans there.symm
    · rw [Function.update_of_ne there] at also
      exact held.single j k request awaits also

theorem given_up (held : Held claims u) {i : ι} {id : Nat} (had : claimed u (claims i) = some id) (j : ι) :
    claimed u (Function.update claims i .nothing j) ≠ some id := by
  by_cases here : j = i
  · subst here
    simp [claimed]
  · rw [Function.update_of_ne here]
    intro has
    exact here (held.apart j i id has had)

end

structure Onward (u u' : Upstream) : Prop where
  numbered : u.nextRequest ≤ u'.nextRequest
  longer : u.leases.length ≤ u'.leases.length
  settled : ∀ request outcome, settlement u request = some outcome → settlement u' request = some outcome
  dead : ∀ id, id < u.leases.length → isActive u id = false → isActive u' id = false

variable {u u' : Upstream} {ctx : Context}

theorem move_leases {kind : Kind} (move : Move ctx kind u u') :
    u'.leases = u.leases ∨ (∃ record, u'.leases = u.leases ++ [record]) ∨
      ∃ id, u'.leases = u.leases.modify id (fun l => { l with active := false }) := by
  cases move with
  | grant | serve | pass => exact .inr (.inl ⟨_,rfl⟩)
  | retire _ id => exact .inr (.inr ⟨id,rfl⟩)
  | _ => exact .inl rfl

theorem move_onward {kind : Kind} (move : Move ctx kind u u') : Onward u u' := by
  refine ⟨?_,?_,?_,?_⟩
  · rcases move_waitingIds move with ⟨_,later⟩ | ⟨_,_,next⟩ <;> omega
  · rcases move_leases move with same | ⟨record,grown⟩ | ⟨id,changed⟩
    · rw [same]
    · simp [grown]
    · simp [changed]
  · intro request outcome done
    refine settlement_kept ?_ done
    cases move with
    | weigh | retire | count => exact .inl rfl
    | _ => exact .inr ⟨_,rfl⟩
  · intro id known off
    unfold isActive at off ⊢
    rcases move_leases move with same | ⟨record,grown⟩ | ⟨other,changed⟩
    · rwa [same]
    · rwa [grown,List.getElem?_append_left known]
    · rw [changed,List.getElem?_modify]
      by_cases here : other = id
      · cases u.leases[id]? <;> simp [here]
      · simpa [here] using off

theorem onward_trans {u'' : Upstream} (first : Onward u u') (second : Onward u' u'') : Onward u u'' where
  numbered := first.numbered.trans second.numbered
  longer := first.longer.trans second.longer
  settled := fun request outcome done => second.settled request outcome (first.settled request outcome done)
  dead := fun id known off => second.dead id (Nat.lt_of_lt_of_le known first.longer) (first.dead id known off)

theorem onward_refl (u : Upstream) : Onward u u :=
  ⟨le_refl _,le_refl _,fun _ _ done => done,fun _ _ off => off⟩

theorem path_onward {kinds : Kind → Prop} (path : Path ctx kinds u u') : Onward u u' := by
  induction path with
  | refl => exact onward_refl _
  | tail _ change ih =>
    obtain ⟨kind,_,move⟩ := change
    exact onward_trans ih (move_onward move)

section
open Coordinator
variable {ι : Type u} {claims : ι → Claim}

theorem step_onward (s : Service) (op : Op) (unsettled : Unsettled s.upstream) :
    Onward s.upstream (step s op).upstream :=
  path_onward (step_path s op unsettled)

theorem releaseLease_inactive (ctx : Context) (u : Upstream) {id : Nat} (known : id < u.leases.length) :
    isActive (releaseLease ctx u id) id = false := by
  unfold releaseLease
  split
  · next absent => simp [isActive,absent]
  next record found =>
  split
  · next off => simpa [isActive,found] using off
  · have retired : isActive (retireLease u id record) id = false := by simp [isActive,retireLease,found]
    have steps := pumpUpstream_steps ctx (retireLease u id record)
    have later := path_onward (chain_of_kind trivial steps : Path ctx (fun _ => True) _ _)
    exact later.dead id (by simpa [retireLease] using known) retired

def Foreign (claims : ι → Claim) (u : Upstream) : Op → Prop
  | .releaseLease id => ∀ i, claimed u (claims i) ≠ some id
  | _ => True

theorem step_held (s : Service) (op : Op) (unsettled : Unsettled s.upstream) (foreign : Foreign claims s.upstream op)
    (held : Held claims s.upstream) : Held claims (step s op).upstream := by
  cases op with
  | acquireUpstreamSlot o =>
    show Held claims (acquireUpstreamSlot s.ctx s.shuttingDown s.upstream o)
    rcases acquireUpstreamSlot_cases s.ctx s.shuttingDown s.upstream o with
      ⟨e,rejected⟩ | ⟨_,_,fits,granted⟩ | ⟨_,_,queued⟩
    · rw [rejected]
      exact gentle_held (@Move.reject s.ctx s.upstream e) (fun _ live => live) held
    · rw [granted]
      exact gentle_held (.grant s.upstream o fits) (fun _ live => isActive_append rfl live) held
    · rw [queued]
      exact gentle_held (.enqueue s.upstream o) (fun _ live => live) held
  | releaseLease id => exact held_releaseLease s.ctx held foreign
  | upstreamTimeout request =>
    show Held claims (fireTimer s.ctx s.upstream request)
    unfold fireTimer
    split
    · exact held_dropWaiter s.ctx held request (.timeout _)
    · exact held
  | upstreamAbort request =>
    show Held claims (fireAbort s.ctx s.upstream request)
    unfold fireAbort
    split
    · exact held_dropWaiter s.ctx held request (.cancelled _)
    · exact held
  | configure update => exact held_pumpUpstream _ held
  | shutdown =>
    rw [step,Coordinator.shutdown]
    split
    · exact held
    · exact @shutdownWaiters_rule (fun u u' => Held claims u → Held claims u') (fun _ before => before)
        (fun first second before => second (first before))
        (fun u waiter member => gentle_held (@Move.leave s.ctx u waiter member _ (.shutdown shuttingDownError))
          fun _ live => live) _ _ rfl unsettled held
  | setActiveUpstreamCount value =>
    exact held_pumpUpstream s.ctx (gentle_held (@Move.count s.ctx s.upstream _) (fun _ live => live) held)
  | handOffToSession key id =>
    rw [step]
    split <;> exact held
  | _ => exact held

end
end Tgtc.UpstreamHandles
