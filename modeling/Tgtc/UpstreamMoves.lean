import Mathlib.Logic.Relation
import Tgtc.Arrivals
import Tgtc.Coordinator

/-!
What an operation can do to the upstream half, said once, as for the disk half:
every operation and every callback is a sequence of the elementary changes in
`Move`, with the guards under which the source makes them.
-/
namespace Tgtc.UpstreamMoves
open Numbers Resources Runs Arrivals UpstreamQueue
open Relation (ReflTransGen)

/-- Changes inside an operation; a request that joins the queue; a lease for a
    request that has not waited; the counters set by hand. -/
inductive Kind
  | inner
  | joined
  | immediate
  | hook

def without (u : Upstream) (id : Nat) : Upstream :=
  detachWaiter { u with waitingUpstream := u.waitingUpstream.eraseP (fun w => w.id = id) } id

def weighed (u : Upstream) (weight : Int) : Upstream := updateHead u (fun w => { w with effectiveWeight := weight })

inductive Refusal : WaitEnd → Prop
  | timeout (e : DownloadResourceException) : Refusal (.timeout e)
  | cancelled (e : DownloadResourceException) : Refusal (.cancelled e)
  | shutdown (e : DownloadResourceException) : Refusal (.shutdown e)

def served (ctx : Context) (u : Upstream) (id : Nat) (weight : Int) (reason : UpstreamGrantReason) : Upstream :=
  emit (grantUpstreamLease (without u id) weight)
    (.left id (.granted (leaseGrant ctx (without u id) weight (waitingIds u)) reason))

inductive Move (ctx : Context) : Kind → Upstream → Upstream → Prop
  | reject (u : Upstream) (e : DownloadResourceException) : Move ctx .inner u (answer u (.rejected e))
  | grant (u : Upstream) (o : AcquireUpstreamOptions)
      (fits : canGrantUpstream ctx.config u (resolveUpstreamWeight ctx.config o) = true) :
      Move ctx .immediate u (answer (grantUpstreamLease u (resolveUpstreamWeight ctx.config o))
        (.granted (leaseGrant ctx u (resolveUpstreamWeight ctx.config o) (waitingIds u))))
  | enqueue (u : Upstream) (o : AcquireUpstreamOptions) :
      Move ctx .joined u (enqueueUpstream ctx u o (resolveUpstreamWeight ctx.config o))
  | weigh (u : Upstream) (weight : Int) : Move ctx .inner u (weighed u weight)
  | serve (u : Upstream) (head : UpstreamWaiter) (rest : List UpstreamWaiter)
      (queue : u.waitingUpstream = head :: rest) (reason : UpstreamGrantReason)
      (fits : canGrantUpstream ctx.config u (effectiveWaiterWeight ctx.config head.weight) = true) :
      Move ctx .inner u (served ctx u head.id (effectiveWaiterWeight ctx.config head.weight) reason)
  | pass (u : Upstream) (head : UpstreamWaiter) (rest : List UpstreamWaiter)
      (queue : u.waitingUpstream = head :: rest) (policy : ctx.config.upstreamQueuePolicy = .boundedFit)
      (unreserved : isHeadReserved ctx head = false) (candidate : UpstreamWaiter) (behind : candidate ∈ rest)
      (fits : canGrantUpstream ctx.config u (effectiveWaiterWeight ctx.config candidate.weight) = true) :
      Move ctx .inner u
        (countBypass (served ctx u candidate.id (effectiveWaiterWeight ctx.config candidate.weight) .fitSkip))
  | retire (u : Upstream) (id : Nat) (record : LeaseRecord) (found : u.leases[id]? = some record)
      (active : record.active = true) : Move ctx .inner u (retireLease u id record)
  | leave (u : Upstream) (waiter : UpstreamWaiter) (member : waiter ∈ u.waitingUpstream) (ending : WaitEnd)
      (refusal : Refusal ending) : Move ctx .inner u (emit (without u waiter.id) (.left waiter.id ending))
  | count (u : Upstream) (n : Int) :
      Move ctx .hook u { u with activeUpstreams := n, activeUpstreamWeight := n }

abbrev Steps (ctx : Context) : Upstream → Upstream → Prop := ReflTransGen (Move ctx .inner)

abbrev Path (ctx : Context) (kinds : Kind → Prop) : Upstream → Upstream → Prop := Chain (Move ctx) kinds

variable {u : Upstream} {ctx : Context} {kind : Kind} {u' : Upstream}

theorem removeUpstreamWaiter_of_mem {waiter : UpstreamWaiter} (member : waiter ∈ u.waitingUpstream) :
    removeUpstreamWaiter u waiter.id = (true,without u waiter.id) := by
  have found : u.waitingUpstream.any (fun w => w.id = waiter.id) = true :=
    List.any_eq_true.mpr ⟨waiter,member,by simp⟩
  simp only [removeUpstreamWaiter,found,↓reduceIte,without]

theorem grantWaiter_of_mem (ctx : Context) {waiter : UpstreamWaiter} (member : waiter ∈ u.waitingUpstream)
    (weight : Int) (reason : UpstreamGrantReason) :
    grantWaiter ctx u waiter.id weight reason = served ctx u waiter.id weight reason := by
  rw [grantWaiter,removeUpstreamWaiter_of_mem member]
  rfl

theorem weighed_queue {head : UpstreamWaiter} {rest : List UpstreamWaiter}
    (queue : u.waitingUpstream = head :: rest) (weight : Int) :
    (weighed u weight).waitingUpstream = { head with effectiveWeight := weight } :: rest := by
  simp [weighed,updateHead,queue]

theorem findFitCandidate_some {head candidate : UpstreamWaiter}
    {rest : List UpstreamWaiter} (queue : u.waitingUpstream = head :: rest)
    (found : findFitCandidate ctx u = some candidate) :
    candidate ∈ rest ∧ canGrantUpstream ctx.config u (effectiveWaiterWeight ctx.config candidate.weight) = true := by
  unfold findFitCandidate at found
  rw [queue] at found
  refine ⟨List.mem_of_mem_take (List.mem_of_find?_eq_some found),?_⟩
  have fits := List.find?_some found
  simp only [fitsNow,Bool.and_eq_true] at fits
  exact fits.2

/-- The rounds of the pump that stop it: nobody waits, or nobody who may be served fits. -/
def Stuck (ctx : Context) (u : Upstream) (head : UpstreamWaiter) : Prop :=
  canGrantUpstream ctx.config u (effectiveWaiterWeight ctx.config head.weight) = false ∧
    (ctx.config.upstreamQueuePolicy = .boundedFit → isHeadReserved ctx head = false → findFitCandidate ctx u = none)

theorem pumpUpstreamLoop_cases (ctx : Context) (rounds : Nat) (u : Upstream) :
    (u.waitingUpstream = [] ∧ pumpUpstreamLoop ctx (rounds + 1) u = u) ∨
    ∃ (head : UpstreamWaiter) (rest : List UpstreamWaiter) (v : Upstream),
      u.waitingUpstream = head :: rest ∧ v = weighed u (effectiveWaiterWeight ctx.config head.weight) ∧
      (Stuck ctx v head ∧ pumpUpstreamLoop ctx (rounds + 1) u = v ∨
      (∃ reason, canGrantUpstream ctx.config v (effectiveWaiterWeight ctx.config head.weight) = true ∧
        pumpUpstreamLoop ctx (rounds + 1) u =
          pumpUpstreamLoop ctx rounds (served ctx v head.id (effectiveWaiterWeight ctx.config head.weight) reason)) ∨
      ∃ candidate, ctx.config.upstreamQueuePolicy = .boundedFit ∧ isHeadReserved ctx head = false ∧ candidate ∈ rest ∧
        canGrantUpstream ctx.config v (effectiveWaiterWeight ctx.config candidate.weight) = true ∧
        pumpUpstreamLoop ctx (rounds + 1) u = pumpUpstreamLoop ctx rounds
          (countBypass (served ctx v candidate.id (effectiveWaiterWeight ctx.config candidate.weight) .fitSkip))) := by
  cases queue : u.waitingUpstream with
  | nil => exact .inl ⟨rfl,by rw [pumpUpstreamLoop,queue]⟩
  | cons head rest =>
    refine .inr ⟨head,rest,_,rfl,rfl,?_⟩
    have queue' := weighed_queue queue (effectiveWaiterWeight ctx.config head.weight)
    have first : { head with effectiveWeight := effectiveWaiterWeight ctx.config head.weight } ∈
        (weighed u (effectiveWaiterWeight ctx.config head.weight)).waitingUpstream := by simp [queue']
    rw [pumpUpstreamLoop,queue]
    by_cases fits : canGrantUpstream ctx.config (weighed u (effectiveWaiterWeight ctx.config head.weight))
        (effectiveWaiterWeight ctx.config head.weight) = true
    · refine .inr (.inl ⟨if 0 < head.bypassCount then .headAfterWait else .head,fits,?_⟩)
      exact (if_pos fits).trans (congrArg (pumpUpstreamLoop ctx rounds) (grantWaiter_of_mem ctx first _ _))
    by_cases policy : ctx.config.upstreamQueuePolicy = .boundedFit
    · cases reserved : isHeadReserved ctx head with
      | true =>
        refine .inl ⟨⟨by simpa using fits,fun _ open_ => absurd (reserved.symm.trans open_) (by simp)⟩,?_⟩
        exact (if_neg fits).trans ((if_neg (not_not.mpr policy)).trans (if_pos reserved))
      | false =>
        cases found : findFitCandidate ctx (weighed u (effectiveWaiterWeight ctx.config head.weight)) with
        | none =>
          refine .inl ⟨⟨by simpa using fits,fun _ _ => found⟩,?_⟩
          refine (if_neg fits).trans ((if_neg (not_not.mpr policy)).trans ((if_neg (by simp [reserved])).trans ?_))
          unfold weighed at found
          rw [found]
          rfl
        | some candidate =>
          obtain ⟨behind,fitting⟩ := findFitCandidate_some queue' found
          refine .inr (.inr ⟨candidate,policy,rfl,behind,fitting,?_⟩)
          refine (if_neg fits).trans ((if_neg (not_not.mpr policy)).trans ((if_neg (by simp [reserved])).trans ?_))
          have inside : candidate ∈ (weighed u (effectiveWaiterWeight ctx.config head.weight)).waitingUpstream := by
            simp [queue',behind]
          unfold weighed at found
          rw [found]
          exact congrArg (fun v => pumpUpstreamLoop ctx rounds (countBypass v)) (grantWaiter_of_mem ctx inside _ _)
    · refine .inl ⟨⟨by simpa using fits,fun bounded => absurd bounded policy⟩,?_⟩
      exact (if_neg fits).trans (if_pos policy)

section
variable {ctx : Context} {rel : Upstream → Upstream → Prop} (refl : ∀ u, rel u u)
  (trans : ∀ {u u' u''}, rel u u' → rel u' u'' → rel u u'') (weigh : ∀ u weight, rel u (weighed u weight))
  (serve : ∀ u head rest, u.waitingUpstream = head :: rest → ∀ reason,
    canGrantUpstream ctx.config u (effectiveWaiterWeight ctx.config head.weight) = true →
    rel u (served ctx u head.id (effectiveWaiterWeight ctx.config head.weight) reason))
  (pass : ∀ u head rest, u.waitingUpstream = head :: rest → ctx.config.upstreamQueuePolicy = .boundedFit →
    isHeadReserved ctx head = false → ∀ candidate ∈ rest,
    canGrantUpstream ctx.config u (effectiveWaiterWeight ctx.config candidate.weight) = true →
    rel u (countBypass (served ctx u candidate.id (effectiveWaiterWeight ctx.config candidate.weight) .fitSkip)))
include refl trans weigh serve pass

theorem pumpUpstreamLoop_rule : ∀ (rounds : Nat) (u : Upstream), rel u (pumpUpstreamLoop ctx rounds u) := by
  intro rounds
  induction rounds with
  | zero => intro u; exact refl u
  | succ rounds ih =>
    intro u
    rcases pumpUpstreamLoop_cases ctx rounds u with ⟨_,same⟩ | ⟨head,rest,v,queue,rfl,turn⟩
    · rw [same]
      exact refl u
    have weighs := weigh u (effectiveWaiterWeight ctx.config head.weight)
    have queue' := weighed_queue queue (effectiveWaiterWeight ctx.config head.weight)
    rcases turn with ⟨_,stopped⟩ | ⟨reason,fits,next⟩ | ⟨candidate,policy,unreserved,behind,fits,next⟩
    · rw [stopped]
      exact weighs
    · rw [next]
      exact trans weighs (trans (serve _ _ rest queue' reason fits) (ih _))
    · rw [next]
      exact trans weighs (trans (pass _ _ rest queue' policy unreserved candidate behind fits) (ih _))

end

theorem pumpUpstream_steps (ctx : Context) (u : Upstream) : Steps ctx u (pumpUpstream ctx u) :=
  pumpUpstreamLoop_rule (fun _ => .refl) ReflTransGen.trans (fun u weight => .single (.weigh u weight))
    (fun u head rest queue reason fits => .single (.serve u head rest queue reason fits))
    (fun u head rest queue policy unreserved candidate behind fits =>
      .single (.pass u head rest queue policy unreserved candidate behind fits)) _ u

theorem releaseLease_steps (ctx : Context) (u : Upstream) (id : Nat) : Steps ctx u (releaseLease ctx u id) := by
  unfold releaseLease
  cases found : u.leases[id]? with
  | none => exact .refl
  | some record =>
    cases active : record.active with
    | false => simp only [active]; exact .refl
    | true =>
      simp only [active]
      exact .head (.retire u id record found active) (pumpUpstream_steps ctx _)

/-- A request is rejected, gets a lease because its weight fits, or joins the queue because it does not. -/
theorem acquireUpstreamSlot_cases (ctx : Context) (shuttingDown : Bool) (u : Upstream) (o : AcquireUpstreamOptions) :
    (∃ e, acquireUpstreamSlot ctx shuttingDown u o = answer u (.rejected e)) ∨
    (shuttingDown = false ∧ o.signal ≠ .aborted ∧
      canGrantUpstream ctx.config u (resolveUpstreamWeight ctx.config o) = true ∧
      acquireUpstreamSlot ctx shuttingDown u o = answer (grantUpstreamLease u (resolveUpstreamWeight ctx.config o))
        (.granted (leaseGrant ctx u (resolveUpstreamWeight ctx.config o) (waitingIds u)))) ∨
    (shuttingDown = false ∧ canGrantUpstream ctx.config u (resolveUpstreamWeight ctx.config o) = false ∧
      acquireUpstreamSlot ctx shuttingDown u o = enqueueUpstream ctx u o (resolveUpstreamWeight ctx.config o)) := by
  unfold acquireUpstreamSlot
  cases shuttingDown with
  | true => exact .inl ⟨_,rfl⟩
  | false =>
    simp only [Bool.false_eq_true,↓reduceIte]
    split
    · exact .inl ⟨_,rfl⟩
    next signal =>
    split
    · next fits => exact .inr (.inl ⟨trivial,signal,fits,rfl⟩)
    · next full =>
      split
      · exact .inl ⟨_,rfl⟩
      · exact .inr (.inr ⟨trivial,by simpa using full,rfl⟩)

theorem acquireUpstreamSlot_numbered (ctx : Context) (shuttingDown : Bool) (u : Upstream) (o : AcquireUpstreamOptions) :
    (acquireUpstreamSlot ctx shuttingDown u o).nextRequest = u.nextRequest + 1 := by
  rcases acquireUpstreamSlot_cases ctx shuttingDown u o with ⟨e,same⟩ | ⟨_,_,_,same⟩ | ⟨_,_,same⟩ <;> rw [same] <;> rfl

theorem dropWaiter_steps (ctx : Context) (u : Upstream) (request : Nat) (ending : WaitEnd) (refusal : Refusal ending) :
    Steps ctx u (dropWaiter ctx u request ending) := by
  unfold dropWaiter
  by_cases waits : u.waitingUpstream.any (fun w => w.id = request) = true
  · obtain ⟨waiter,member,same⟩ := List.any_eq_true.mp waits
    obtain rfl : waiter.id = request := by simpa using same
    rw [removeUpstreamWaiter_of_mem member]
    exact .head (.leave u waiter member ending refusal) (pumpUpstream_steps ctx _)
  · rw [removeUpstreamWaiter,if_neg waits]

theorem fireTimer_steps (ctx : Context) (u : Upstream) (request : Nat) : Steps ctx u (fireTimer ctx u request) := by
  unfold fireTimer
  split
  · exact dropWaiter_steps ctx u request _ (.timeout _)
  · exact .refl

theorem fireAbort_steps (ctx : Context) (u : Upstream) (request : Nat) : Steps ctx u (fireAbort ctx u request) := by
  unfold fireAbort
  split
  · exact dropWaiter_steps ctx u request _ (.cancelled _)
  · exact .refl

def Unsettled (u : Upstream) : Prop := ∀ w ∈ u.waitingUpstream, w.settled = false

theorem shutdownWaiters_rule {rel : Upstream → Upstream → Prop} (refl : ∀ u, rel u u)
    (trans : ∀ {u u' u''}, rel u u' → rel u' u'' → rel u u'')
    (leave : ∀ u waiter, waiter ∈ u.waitingUpstream →
      rel u (emit (without u waiter.id) (.left waiter.id (.shutdown shuttingDownError)))) :
    ∀ (waiters : List UpstreamWaiter) (u : Upstream), u.waitingUpstream = waiters → Unsettled u →
      rel u (waiters.foldl shutdownWaiter { u with waitingUpstream := [] }) := by
  intro waiters
  induction waiters with
  | nil =>
    intro u queue _
    rw [List.foldl_nil,← queue]
    exact refl u
  | cons waiter rest ih =>
    intro u queue unsettled
    have pending : waiter.settled = false := unsettled waiter (by simp [queue])
    have shorter : (without u waiter.id).waitingUpstream = rest := by simp [without,detachWaiter,queue]
    have later := ih (emit (without u waiter.id) (.left waiter.id (.shutdown shuttingDownError))) shorter (by
      intro w member
      rw [show (emit (without u waiter.id) (.left waiter.id (.shutdown shuttingDownError))).waitingUpstream = rest
        from shorter] at member
      exact unsettled w (by simp [queue,member]))
    refine trans (leave u waiter (by simp [queue])) ?_
    have turn : shutdownWaiter { u with waitingUpstream := [] } waiter =
        { emit (without u waiter.id) (.left waiter.id (.shutdown shuttingDownError)) with waitingUpstream := [] } := by
      simp only [shutdownWaiter,pending]
      rfl
    rw [List.foldl_cons,turn]
    exact later

theorem shutdown_steps (ctx : Context) (u : Upstream) (unsettled : Unsettled u) : Steps ctx u (shutdown u) :=
  shutdownWaiters_rule (fun _ => .refl) ReflTransGen.trans
    (fun u waiter member => .single (.leave u waiter member _ (.shutdown shuttingDownError))) _ u rfl unsettled

theorem shutdown_queue (u : Upstream) : (shutdown u).waitingUpstream = [] := by
  have kept : ∀ (waiters : List UpstreamWaiter) (u : Upstream),
      (waiters.foldl shutdownWaiter u).waitingUpstream = u.waitingUpstream := by
    intro waiters
    induction waiters with
    | nil => intro u; rfl
    | cons waiter rest ih =>
      intro u
      rw [List.foldl_cons,ih]
      unfold shutdownWaiter
      split <;> rfl
  exact kept _ _

theorem mem_updateHead {f : UpstreamWaiter → UpstreamWaiter} {w : UpstreamWaiter}
    (member : w ∈ (updateHead u f).waitingUpstream) : ∃ old ∈ u.waitingUpstream, w = old ∨ w = f old := by
  cases queue : u.waitingUpstream with
  | nil => simp [updateHead,queue] at member
  | cons head rest =>
    simp only [updateHead,queue,List.modify_zero_cons,List.mem_cons] at member
    rcases member with rfl | inside
    · exact ⟨head,by simp,.inr rfl⟩
    · exact ⟨w,by simp [inside],.inl rfl⟩

theorem move_waiters (move : Move ctx kind u u') {w : UpstreamWaiter}
    (member : w ∈ u'.waitingUpstream) :
    (∃ old ∈ u.waitingUpstream, w.id = old.id ∧ w.weight = old.weight ∧ w.enqueuedAt = old.enqueuedAt ∧
      w.settled = old.settled) ∨
    ∃ o, w = ⟨u.nextRequest,ctx.world.now,resolveUpstreamWeight ctx.config o,
      effectiveWaiterWeight ctx.config (resolveUpstreamWeight ctx.config o),0,false⟩ := by
  cases move with
  | enqueue _ o =>
    rcases List.mem_append.mp member with old | new
    · exact .inl ⟨w,old,rfl,rfl,rfl,rfl⟩
    · exact .inr ⟨o,List.mem_singleton.mp new⟩
  | weigh =>
    obtain ⟨old,inside,same⟩ := mem_updateHead member
    exact .inl ⟨old,inside,by rcases same with rfl | rfl <;> simp⟩
  | serve => exact .inl ⟨w,List.mem_of_mem_eraseP member,rfl,rfl,rfl,rfl⟩
  | pass =>
    obtain ⟨old,inside,same⟩ := mem_updateHead member
    exact .inl ⟨old,List.mem_of_mem_eraseP inside,by rcases same with rfl | rfl <;> simp⟩
  | leave => exact .inl ⟨w,List.mem_of_mem_eraseP member,rfl,rfl,rfl,rfl⟩
  | _ => exact .inl ⟨w,member,rfl,rfl,rfl,rfl⟩

theorem move_unsettled (move : Move ctx kind u u')
    (unsettled : Unsettled u) : Unsettled u' := by
  intro w member
  rcases move_waiters move member with ⟨old,inside,_,_,_,same⟩ | ⟨o,rfl⟩
  · rw [same]
    exact unsettled old inside
  · rfl

theorem waitingIds_updateHead (u : Upstream) (f : UpstreamWaiter → UpstreamWaiter) (same : ∀ w, (f w).id = w.id) :
    waitingIds (updateHead u f) = waitingIds u := by
  cases queue : u.waitingUpstream with
  | nil => simp [waitingIds,updateHead,queue]
  | cons head rest => simp [waitingIds,updateHead,queue,same]

theorem waitingIds_weighed (u : Upstream) (weight : Int) : waitingIds (weighed u weight) = waitingIds u :=
  waitingIds_updateHead u _ (fun _ => rfl)

theorem waitingIds_countBypass (u : Upstream) : waitingIds (countBypass u) = waitingIds u :=
  waitingIds_updateHead u (fun w => { w with bypassCount := w.bypassCount + 1 }) (fun _ => rfl)

theorem waitingIds_without (u : Upstream) (id : Nat) : (waitingIds (without u id)).Sublist (waitingIds u) :=
  List.eraseP_sublist.map _

/-- The queue stands in the order of arrival, and request numbers are never used again. -/
def Ordered (u : Upstream) : Prop := InOrder (waitingIds u) u.nextRequest

theorem move_waitingIds (move : Move ctx kind u u') :
    ((waitingIds u').Sublist (waitingIds u) ∧ u.nextRequest ≤ u'.nextRequest) ∨
      (kind = .joined ∧ waitingIds u' = waitingIds u ++ [u.nextRequest] ∧ u'.nextRequest = u.nextRequest + 1) := by
  cases move with
  | reject | grant => exact .inl ⟨List.Sublist.refl _,Nat.le_succ _⟩
  | enqueue => exact .inr ⟨rfl,by simp [waitingIds,enqueueUpstream,emit],rfl⟩
  | weigh => exact .inl ⟨by rw [waitingIds_weighed],le_refl _⟩
  | serve _ head => exact .inl ⟨waitingIds_without u head.id,le_refl _⟩
  | pass _ head rest queue policy unreserved candidate =>
    exact .inl ⟨by rw [waitingIds_countBypass]; exact waitingIds_without u candidate.id,le_refl _⟩
  | retire => exact .inl ⟨List.Sublist.refl _,le_refl _⟩
  | leave _ waiter => exact .inl ⟨waitingIds_without u waiter.id,le_refl _⟩
  | count => exact .inl ⟨List.Sublist.refl _,le_refl _⟩

theorem move_ordered (move : Move ctx kind u u') (ordered : Ordered u) :
    Ordered u' := by
  rcases move_waitingIds move with ⟨thinner,later⟩ | ⟨_,joined,next⟩
  · exact inOrder_thin ordered thinner later
  · unfold Ordered
    rw [joined,next]
    exact inOrder_join ordered

open Coordinator in
def Does : Op → Kind → Prop
  | _, .inner => True
  | .acquireUpstreamSlot _, .joined => True
  | .acquireUpstreamSlot _, .immediate => True
  | .setActiveUpstreamCount _, .hook => True
  | _, _ => False

open Coordinator in
theorem step_path (s : Service) (op : Op) (unsettled : Unsettled s.upstream) :
    Path (step s op).ctx (Does op) s.upstream (step s op).upstream := by
  cases op with
  | acquireUpstreamSlot o =>
    show Path s.ctx _ s.upstream (acquireUpstreamSlot s.ctx s.shuttingDown s.upstream o)
    rcases acquireUpstreamSlot_cases s.ctx s.shuttingDown s.upstream o with
      ⟨e,rejected⟩ | ⟨_,_,fits,granted⟩ | ⟨_,_,queued⟩
    · rw [rejected]
      exact .single ⟨.inner,trivial,.reject _ e⟩
    · rw [granted]
      exact .single ⟨.immediate,trivial,.grant _ o fits⟩
    · rw [queued]
      exact .single ⟨.joined,trivial,.enqueue _ o⟩
  | releaseLease id => exact chain_of_kind trivial (releaseLease_steps s.ctx s.upstream id)
  | upstreamTimeout request => exact chain_of_kind trivial (fireTimer_steps s.ctx s.upstream request)
  | upstreamAbort request => exact chain_of_kind trivial (fireAbort_steps s.ctx s.upstream request)
  | configure update =>
    exact chain_of_kind trivial (pumpUpstream_steps (step s (.configure update)).ctx s.upstream)
  | shutdown =>
    rw [step,Coordinator.shutdown]
    split
    · exact .refl
    · exact chain_of_kind trivial (shutdown_steps s.ctx s.upstream unsettled)
  | setActiveUpstreamCount value =>
    exact .head ⟨.hook,trivial,.count s.upstream _⟩ (chain_of_kind trivial (pumpUpstream_steps s.ctx _))
  | handOffToSession key id => rw [step]; split <;> exact .refl
  | _ => exact .refl

open Coordinator in
theorem reachable_unsettled {allowed : Service → Op → Prop} {config : Config} {world : World} {evictionHook : Bool}
    {s : Service} (reach : Reachable step allowed (Coordinator.fresh config world evictionHook) s) :
    Unsettled s.upstream := by
  induction reach with
  | start => simp [Unsettled,Coordinator.fresh,UpstreamQueue.fresh]
  | next op _ _ ih => exact chain_invariant (step_path _ op ih) (fun _ _ _ _ move => move_unsettled move) ih

open Coordinator in
theorem reachable_upstream {inv : Upstream → Prop} {kinds : Kind → Prop} {allowed : Service → Op → Prop}
    {config : Config} {world : World} {evictionHook : Bool} (base : inv UpstreamQueue.fresh)
    (among : ∀ s op, allowed s op → ∀ kind, Does op kind → kinds kind)
    (keep : ∀ ctx kind u u', kinds kind → Move ctx kind u u' → inv u → inv u') {s : Service}
    (reach : Reachable step allowed (Coordinator.fresh config world evictionHook) s) :
    inv s.upstream := by
  induction reach with
  | start => exact base
  | next op before ok ih =>
    have path := step_path _ op (reachable_unsettled before)
    exact chain_invariant path (fun kind u u' does move => keep _ kind u u' (among _ op ok kind does) move) ih

end Tgtc.UpstreamMoves
