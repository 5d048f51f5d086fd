import Tgtc.Deliveries

/-!
Handles on reservations in the hands of many callers at once. A caller has a reservation in hand or awaits the promise
that will yield it.
-/
namespace Tgtc.DiskHandles
open Numbers Resources Maps Runs Custody DiskQueue DiskMoves Settlement
open Deliveries
universe u

inductive Claim
  | nothing
  | awaited (request : Nat)
  | inHand (id : Nat)
deriving DecidableEq

def claimed (d : Disk) : Claim → Option Nat
  | .nothing => none
  | .awaited request => delivered d request
  | .inHand id => some id

section
variable {ι : Type u}

def owns (claims : ι → Claim) (d : Disk) : ι ⊕ String → Option Nat
  | .inl i => claimed d (claims i)
  | .inr key => (d.handedOffReservations.get key).map (·.reservation)

structure Separate (claims : ι → Claim) (d : Disk) : Prop where
  apart : Apart (owns claims d)
  known : ∀ holder id, owns claims d holder = some id → id < d.records.length
  single : ∀ i j request, claims i = .awaited request → claims j = .awaited request → i = j

variable {claims : ι → Claim} {d d' : Disk}

theorem separate_fewer (separate : Separate claims d) (records : d.records.length ≤ d'.records.length)
    (fewer : ∀ holder id, owns claims d' holder = some id → owns claims d holder = some id) : Separate claims d' :=
  ⟨apart_fewer separate.apart fewer,
    fun holder id has => Nat.lt_of_lt_of_le (separate.known holder id (fewer holder id has)) records,separate.single⟩

theorem owns_promises {holder : ι ⊕ String} (pool : d'.handedOffReservations = d.handedOffReservations)
    (promises : ∀ request, delivered d' request = delivered d request) :
    owns claims d' holder = owns claims d holder := by
  cases holder with
  | inl i =>
    simp only [owns]
    cases claims i <;> simp [claimed,promises]
  | inr key => simp only [owns,pool]

theorem separate_same (separate : Separate claims d) (records : d.records.length ≤ d'.records.length)
    (pool : d'.handedOffReservations = d.handedOffReservations)
    (promises : ∀ request, delivered d' request = delivered d request) : Separate claims d' := by
  refine separate_fewer separate records fun holder id has => ?_
  rwa [owns_promises pool promises] at has

theorem separate_deliver (separate : Separate claims d) {request id : Nat} (event : DiskEvent)
    (yields : event.settles request = some (.ok id)) (elsewhere : ∀ r, r ≠ request → event.settles r = none)
    (log : d'.log = d.log ++ [event]) (pending : settlement d request = none)
    (records : d.records.length ≤ d'.records.length) (known : id < d'.records.length)
    (pool : ∀ key x, owns claims d' (.inr key) = some x → owns claims d (.inr key) = some x ∧ x ≠ id)
    (free : ∀ i, owns claims d (.inl i) ≠ some id) : Separate claims d' := by
  have received : delivered d' request = some id := delivered_to log pending yields
  have source : ∀ holder x, owns claims d' holder = some x →
      (owns claims d holder = some x ∧ x ≠ id) ∨
        (x = id ∧ ∃ i, holder = .inl i ∧ claims i = .awaited request) := by
    intro holder x has
    cases holder with
    | inr key => exact .inl (pool key x has)
    | inl i =>
      by_cases awaits : claims i = .awaited request
      · simp only [owns,awaits,claimed,received,Option.some.injEq] at has
        exact .inr ⟨has.symm,i,rfl,awaits⟩
      have same : owns claims d' (.inl i) = owns claims d (.inl i) := by
        simp only [owns]
        cases awaited : claims i with
        | nothing | inHand => rfl
        | awaited r =>
          have different : r ≠ request := fun here => awaits (by rw [awaited,here])
          exact delivered_silent log (by simp [elsewhere r different])
      rw [same] at has
      exact .inl ⟨has,fun here => free i (by rw [has,here])⟩
  refine ⟨apart_place separate.apart id _ ?_ source,?_,separate.single⟩
  · rintro _ _ ⟨i,rfl,awaits⟩ ⟨j,rfl,also⟩
    rw [separate.single i j request awaits also]
  · intro holder x has
    rcases source holder x has with ⟨had,_⟩ | ⟨rfl,_⟩
    · exact Nat.lt_of_lt_of_le (separate.known holder x had) records
    · exact known

theorem owns_unpooled_fewer {key : String} {holder : ι ⊕ String} {id : Nat}
    (has : owns claims (unpooled d key) holder = some id) : owns claims d holder = some id ∧ holder ≠ .inr key := by
  cases holder with
  | inl i =>
    have same : owns claims (unpooled d key) (.inl i) = owns claims d (.inl i) := by
      cases claims i <;> rfl
    exact ⟨same ▸ has,by simp⟩
  | inr other =>
    by_cases here : other = key
    · subst here
      simp [owns,unpooled,get_delete_same] at has
    · simp only [owns,unpooled,get_delete_other d.handedOffReservations here] at has
      exact ⟨has,fun same => here (Sum.inr.inj same)⟩

theorem separate_fresh (separate : Separate claims d) (holder : ι ⊕ String) :
    owns claims d holder ≠ some d.records.length :=
  fun has => Nat.lt_irrefl _ (separate.known holder _ has)

theorem separate_created (separate : Separate claims d) (request : Nat) (event : DiskEvent)
    (yields : event.settles request = some (.ok d.records.length)) (elsewhere : ∀ r, r ≠ request → event.settles r = none)
    (log : d'.log = d.log ++ [event]) (pending : settlement d request = none)
    (pool : d'.handedOffReservations = d.handedOffReservations) (more : d.records.length < d'.records.length) :
    Separate claims d' := by
  refine separate_deliver separate event yields elsewhere log pending (Nat.le_of_lt more) more ?_
    (fun i => separate_fresh separate _)
  intro key x has
  have same : owns claims d' (.inr key) = owns claims d (.inr key) := by simp only [owns,pool]
  rw [same] at has
  exact ⟨has,fun here => separate_fresh separate _ (here ▸ has)⟩

theorem separate_put (separate : Separate claims d) (key : String) {id : Nat} (known : id < d.records.length)
    (free : ∀ holder, owns claims d holder ≠ some id) (expiresAt : Nat) :
    Separate claims { d with handedOffReservations := d.handedOffReservations.set key ⟨id,expiresAt⟩ } := by
  have source : ∀ holder x,
      owns claims { d with handedOffReservations := d.handedOffReservations.set key ⟨id,expiresAt⟩ } holder = some x →
        (owns claims d holder = some x ∧ x ≠ id) ∨ (x = id ∧ holder = .inr key) := by
    intro holder x has
    cases holder with
    | inl i => exact .inl ⟨has,fun same => free (.inl i) (same ▸ has)⟩
    | inr other =>
      by_cases here : other = key
      · subst here
        simp only [owns,get_set_same,Option.map_some,Option.some.injEq] at has
        exact .inr ⟨has.symm,rfl⟩
      · simp only [owns,get_set_other _ _ here] at has
        exact .inl ⟨has,fun same => free (.inr other) (same ▸ has)⟩
  refine ⟨apart_place separate.apart id _ (fun _ _ here there => here.trans there.symm) source,?_,separate.single⟩
  intro holder x has
  rcases source holder x has with ⟨had,_⟩ | ⟨rfl,_⟩
  · exact separate.known holder x had
  · exact known

variable {ctx : Context} {kind : Kind}

theorem move_separate (move : Move ctx kind d d') (settled : DiskSettled d)
    (unshared : ∀ id, kind = .back id → id < d.records.length ∧ ∀ holder, owns claims d holder ≠ some id)
    (separate : Separate claims d) : Separate claims d' := by
  have longer := move_length move
  have appended : ∀ event : DiskEvent, d'.log = d.log ++ [event] →
      (∀ request id, event.settles request ≠ some (.ok id)) → ∀ request, delivered d' request = delivered d request :=
    fun event log silent request => delivered_silent log (silent request)
  cases move with
  | reject _ failure | refuse _ outcome failure =>
    refine separate_same separate longer rfl (appended _ rfl ?_)
    intro request id
    simp only [DiskEvent.settles]
    split <;> simp
  | adopt _ key entry found live inTime =>
    have has : owns claims d (.inr key) = some entry.reservation := by simp [owns,found]
    refine separate_deliver separate (.answered d.nextRequest (.adopted entry.reservation)) (by simp [DiskEvent.settles])
      (fun r other => by simp [DiskEvent.settles,Ne.symm other]) rfl (unsettled_next settled) longer
      (separate.known _ _ has) ?_ ?_
    · intro other x still
      obtain ⟨had,different⟩ := @owns_unpooled_fewer _ claims d key (.inr other) x still
      exact ⟨had,fun same => different (separate.apart _ _ x had (same ▸ has))⟩
    · intro i also
      exact absurd (separate.apart _ _ _ also has) (by simp)
  | grant _ key bytes counts positive admitted =>
    exact separate_created separate d.nextRequest (.answered d.nextRequest (.granted (diskGrant ctx d key bytes counts)))
      (by simp [DiskEvent.settles,diskGrant]) (fun r other => by simp [DiskEvent.settles,Ne.symm other]) rfl
      (unsettled_next settled) rfl (by simp [answer,emit,recordDiskWaitOutcome,createReservation])
  | serve _ head rest queue admitted =>
    exact separate_created separate head.id
      (.left head.id (.granted (diskGrant ctx d head.sessionKey head.bytes head.countsTowardCache)))
      (by simp [DiskEvent.settles,diskGrant]) (fun r other => by simp [DiskEvent.settles,Ne.symm other]) rfl
      (unsettled_waiting settled (by simp [waitingIds,queue])) rfl
      (by simp [emit,recordDiskWaitOutcome,without,detachWaiter,createReservation])
  | hold _ key bytes counts positive admitted | enqueue _ o bytes positive =>
    exact separate_same separate longer rfl (appended _ rfl (fun _ _ => by simp [DiskEvent.settles]))
  | leave _ waiter member outcome waited ending leaves =>
    refine separate_same separate longer rfl (appended _ rfl ?_)
    intro request id
    cases leaves <;> simp only [DiskEvent.settles] <;> split <;> simp
  | take _ key entry found live inTime =>
    exact separate_fewer separate longer fun _ _ has => (owns_unpooled_fewer has).1
  | forget _ key dead => exact separate_fewer separate longer fun _ _ has => (owns_unpooled_fewer has).1
  | put _ key id =>
    obtain ⟨known,free⟩ := unshared id rfl
    exact separate_put separate key known free _
  | consume | retire | evict | rest | halt => exact separate_same separate longer rfl (fun _ => delivered_same rfl _)

structure Held (claims : ι → Claim) (d : Disk) : Prop where
  settled : DiskSettled d
  separate : Separate claims d
  live : ∀ i id, claimed d (claims i) = some id → isActive d id = true

theorem createReservation_active (ctx : Context) (d : Disk) (key : String) (bytes : Int) (counts : Bool) :
    isActive (createReservation ctx d key bytes counts) d.records.length = true := by
  simp [isActive,createReservation]

theorem move_claimed (move : Move ctx kind d d') {c : Claim} {id : Nat}
    (has : claimed d' c = some id) : claimed d c = some id ∨ isActive d' id = true := by
  cases c with
  | nothing => cases has
  | inHand => exact .inl has
  | awaited request =>
    have appended : ∀ event : DiskEvent, d'.log = d.log ++ [event] →
        (event.settles request = some (.ok id) → isActive d' id = true) →
        claimed d (.awaited request) = some id ∨ isActive d' id = true :=
      fun event log active => (delivered_append log has).imp_right active
    cases move with
    | adopt _ key entry found live inTime =>
      refine appended _ rfl fun yields => ?_
      simp only [DiskEvent.settles] at yields
      split at yields
      · cases yields
        exact live
      · cases yields
    | grant _ key bytes counts positive admitted =>
      refine appended _ rfl fun yields => ?_
      simp only [DiskEvent.settles] at yields
      split at yields
      · cases yields
        exact createReservation_active ctx d key bytes counts
      · cases yields
    | serve _ head rest queue admitted =>
      refine appended _ rfl fun yields => ?_
      simp only [DiskEvent.settles] at yields
      split at yields
      · cases yields
        exact createReservation_active ctx d head.sessionKey head.bytes head.countsTowardCache
      · cases yields
    | leave _ waiter member outcome waited ending leaves =>
      refine appended _ rfl fun yields => ?_
      cases leaves <;> simp only [DiskEvent.settles] at yields <;> split at yields <;> cases yields
    | reject | refuse =>
      refine appended _ rfl fun yields => ?_
      simp only [DiskEvent.settles] at yields
      split at yields <;> cases yields
    | hold | enqueue => exact appended _ rfl (by intros; contradiction)
    | take | put | consume | retire | forget | evict | rest | halt => exact .inl has

theorem move_held (move : Move ctx kind d d')
    (kept : ∀ i id, claimed d (claims i) = some id → isActive d' id = true)
    (unshared : ∀ id, kind = .back id → id < d.records.length ∧ ∀ holder, owns claims d holder ≠ some id)
    (held : Held claims d) : Held claims d' :=
  ⟨move_diskSettled ctx kind d d' move held.settled,move_separate move held.settled unshared held.separate,
    fun i id has => (move_claimed move has).elim (kept i id) fun active => active⟩

theorem gentle_held (move : Move ctx kind d d') (notBack : ∀ id, kind ≠ .back id)
    (gentle : ∀ id, isActive d id = true → isActive d' id = true) (held : Held claims d) : Held claims d' :=
  move_held move (fun i id has => gentle id (held.live i id has)) (fun id back => absurd back (notBack id)) held

theorem held_pumpDisk (ctx : Context) (held : Held claims d) : Held claims (pumpDisk ctx d) :=
  @pumpDisk_rule ctx (fun d d' => Held claims d → Held claims d') (fun _ before => before)
    (fun first second before => second (first before))
    (fun d head rest queue admitted => gentle_held (.serve d head rest queue admitted) (by simp)
      fun _ live => isActive_append live)
    (fun d inFlight last => gentle_held (@Move.evict ctx d inFlight last) (by simp) fun _ live => live)
    (fun d queue => gentle_held (@Move.rest ctx d queue) (by simp) fun _ live => live) d held

theorem held_release (ctx : Context) (held : Held claims d) {id : Nat}
    (free : ∀ i, claimed d (claims i) ≠ some id) : Held claims (releaseReservation ctx d id) := by
  cases live : isActive d id with
  | false => rwa [releaseReservation_off live]
  | true =>
    obtain ⟨record,found,active⟩ := isActive_known live
    rw [releaseReservation_on found active]
    refine held_pumpDisk ctx (move_held (@Move.retire ctx d id record found active) ?_ (by simp) held)
    intro i other has
    have different : other ≠ id := fun same => free i (same ▸ has)
    exact (isActive_retire different).trans (held.live i other has)

theorem pooled_free (held : Held claims d) {key : String} {entry : HandOff}
    (found : d.handedOffReservations.get key = some entry) (i : ι) : claimed d (claims i) ≠ some entry.reservation := by
  intro has
  have pool : owns claims d (.inr key) = some entry.reservation := by simp [owns,found]
  exact absurd (held.separate.apart (.inl i) (.inr key) _ has pool) (by simp)

theorem held_forget (ctx : Context) (held : Held claims d) {key : String}
    (dead : ∀ entry, d.handedOffReservations.get key = some entry → isActive d entry.reservation = false) :
    Held claims (unpooled d key) :=
  gentle_held (@Move.forget ctx d key dead) (by simp) (fun _ live => live) held

theorem held_discard (ctx : Context) (held : Held claims d) {key : String} {entry : HandOff}
    (found : d.handedOffReservations.get key = some entry) :
    Held claims (releaseReservation ctx (unpooled d key) entry.reservation) := by
  cases live : isActive d entry.reservation with
  | false =>
    have off : isActive (unpooled d key) entry.reservation = false := live
    rw [releaseReservation_off off]
    refine held_forget ctx held fun other same => ?_
    obtain rfl : entry = other := Option.mem_unique found same
    exact live
  | true =>
    obtain ⟨record,present,active⟩ := isActive_known live
    rw [releaseReservation_on (show (unpooled d key).records[entry.reservation]? = some record from present) active]
    have retired : Held claims (retire d entry.reservation record) := by
      refine move_held (@Move.retire ctx d entry.reservation record present active) ?_ (by simp) held
      intro i other has
      have different : other ≠ entry.reservation := fun same => pooled_free held found i (same ▸ has)
      exact (isActive_retire different).trans (held.live i other has)
    refine held_pumpDisk ctx (@held_forget _ claims (retire d entry.reservation record) ctx retired key ?_)
    intro other same
    obtain rfl : entry = other := Option.mem_unique found same
    simp [isActive,retire,present]

theorem held_evaluatedAt (ctx : Context) (held : Held claims d) {o : ReserveOptions} {bytes : Int}
    (evaluated : evaluatedAt ctx d o bytes = some d') : Held claims d' := by
  unfold evaluatedAt takeHandedOffReservation at evaluated
  cases found : d.handedOffReservations.get o.sessionKey with
  | none =>
    simp only [found,Option.some.injEq] at evaluated
    exact evaluated ▸ held
  | some entry =>
    have discarded := held_discard ctx held found
    simp only [found] at evaluated
    split at evaluated
    · next handedOff taken took =>
      split at took
      · cases took
      · cases took
        split at evaluated
        · cases evaluated
        · cases evaluated
          exact discarded
    · next taken took =>
      split at took
      · cases took
        cases evaluated
        exact discarded
      · cases took

theorem held_reserveFresh (ctx : Context) (held : Held claims d) (o : ReserveOptions) {bytes : Int}
    (positive : 0 < bytes) : Held claims (reserveFresh ctx d o bytes) := by
  unfold reserveFresh
  by_cases failed : probeAdmissionFreeBytes ctx < 0
  · simp only [failed]
    exact gentle_held (@Move.reject ctx d _ rfl) (by simp) (fun _ live => live) held
  simp only [failed,tryGrant]
  cases verdict : evaluateGrant ctx d bytes o.countsTowardCache (probeAdmissionFreeBytes ctx) with
  | ok =>
    exact gentle_held (.grant d o.sessionKey bytes o.countsTowardCache positive ⟨by omega,verdict⟩) (by simp)
      (fun _ live => isActive_append live) held
  | refused structural reason =>
    cases structural with
    | true => exact gentle_held (@Move.refuse ctx d .directDegrade _ rfl) (by simp) (fun _ live => live) held
    | false =>
      simp only [Bool.false_eq_true,↓reduceIte]
      split
      · exact gentle_held (@Move.refuse ctx d .queueFull _ rfl) (by simp) (fun _ live => live) held
      · exact gentle_held (@Move.enqueue ctx d o bytes positive) (by simp) (fun _ live => live) held

theorem held_reserve (ctx : Context) (held : Held claims d) (shuttingDown : Bool) (o : ReserveOptions) :
    Held claims (reserve ctx shuttingDown d o) := by
  unfold reserve
  split
  · exact gentle_held (@Move.reject ctx d _ rfl) (by simp) (fun _ live => live) held
  split
  · exact gentle_held (@Move.reject ctx d _ rfl) (by simp) (fun _ live => live) held
  next bytes legal =>
  split
  · exact gentle_held (@Move.reject ctx d _ rfl) (by simp) (fun _ live => live) held
  · rcases reserveAdmitted_cases ctx d o bytes with ⟨entry,found,live,inTime,_,adopted⟩ | ⟨d',evaluated,freshly⟩
    · rw [adopted]
      exact gentle_held (.adopt d o.sessionKey entry found live inTime) (by simp) (fun _ live => live) held
    · rw [freshly]
      exact held_reserveFresh ctx (held_evaluatedAt ctx held evaluated) o (legalBytes_positive legal)

theorem held_fresh (ctx : Context) (held : Held claims d) (key : String) {bytes : Number} {n : Int} (counts : Bool)
    (legal : legalBytes bytes = some n) : Held claims (if probeAdmissionFreeBytes ctx < 0 then (none,d) else
      match tryGrant ctx d key n counts (probeAdmissionFreeBytes ctx) with
      | .granted grant created => (some grant.reservation,emit created (.heldNow grant))
      | .refused _ _ => (none,d)).2 := by
  by_cases failed : probeAdmissionFreeBytes ctx < 0
  · simp only [failed]
    exact held
  simp only [failed,tryGrant]
  cases verdict : evaluateGrant ctx d n counts (probeAdmissionFreeBytes ctx) with
  | ok =>
    exact gentle_held (.hold d key n counts (legalBytes_positive legal) ⟨by omega,verdict⟩) (by simp)
      (fun _ live => isActive_append live) held
  | refused structural reason => exact held

theorem held_tryReserveNow (ctx : Context) (held : Held claims d) (shuttingDown : Bool) (key : String) (bytes : Number)
    (counts : Bool) : Held claims (tryReserveNow ctx shuttingDown d key bytes counts).2 := by
  unfold tryReserveNow
  split
  · exact held
  split
  · exact held
  next n legal =>
  unfold tryReserveAdmitted takeHandedOffReservation
  cases found : d.handedOffReservations.get key with
  | none => exact held_fresh ctx held key counts legal
  | some entry =>
    have discarded := held_discard ctx held found
    simp only
    split
    · next handedOff taken took =>
      split at took
      · cases took
      next stale =>
      cases took
      split
      · have live : isActive d entry.reservation = true := by
          by_contra off
          exact stale (.inr (by simpa [isActive] using off))
        have inTime : ctx.world.now < entry.expiresAt := by
          by_contra late
          exact stale (.inl (by omega))
        exact gentle_held (.take d key entry found live inTime) (by simp) (fun _ live => live) held
      · exact discarded
    · next taken took =>
      split at took
      · cases took
        exact held_fresh ctx discarded key counts legal
      · cases took

theorem held_purge (ctx : Context) (held : Held claims d) : Held claims (purgeExpiredHandOffs ctx d) := by
  refine @fold_entries_rule (fun d d' => Held claims d → Held claims d') (fun _ before => before)
    (fun first second before => second (first before)) (purgeHandOff ctx) ?_ (purgeHandOff_keeps ctx) _ d
    d.handedOffReservations.distinct (pool_present d) held
  intro d entry found held
  unfold purgeHandOff
  split
  · exact held
  · exact held_discard ctx held found

theorem steps_free (steps : Steps ctx d d') (settled : DiskSettled d) (separate : Separate claims d)
    {id : Nat} (known : id < d.records.length) (free : ∀ holder, owns claims d holder ≠ some id) :
    id < d'.records.length ∧ ∀ holder, owns claims d' holder ≠ some id := by
  -- one more caller has it in hand, and stays apart from the others
  let everyone : Option ι → Claim := fun caller => caller.elim (.inHand id) claims
  have before : Separate everyone d := by
    refine ⟨?_,?_,?_⟩
    · rintro ((_ | i) | key) ((_ | j) | other) x has also
      · rfl
      · cases has
        exact absurd also (free (.inl j))
      · cases has
        exact absurd also (free (.inr other))
      · cases also
        exact absurd has (free (.inl i))
      · rw [Sum.inl.inj (separate.apart (.inl i) (.inl j) x has also)]
      · exact absurd (separate.apart (.inl i) (.inr other) x has also) (by simp)
      · cases also
        exact absurd has (free (.inr key))
      · exact absurd (separate.apart (.inr key) (.inl j) x has also) (by simp)
      · rw [Sum.inr.inj (separate.apart (.inr key) (.inr other) x has also)]
    · rintro ((_ | i) | key) x has
      · cases has
        exact known
      · exact separate.known (.inl i) x has
      · exact separate.known (.inr key) x has
    · rintro (_ | i) (_ | j) request awaits also
      · rfl
      · cases awaits
      · cases also
      · rw [separate.single i j request awaits also]
  have after : DiskSettled d' ∧ Separate everyone d' := by
    induction steps with
    | refl => exact ⟨settled,before⟩
    | tail _ move ih =>
      exact ⟨move_diskSettled ctx _ _ _ move ih.1,move_separate move ih.1 (by simp) ih.2⟩
  have mine : owns everyone d' (.inl none) = some id := rfl
  refine ⟨after.2.known _ _ mine,fun holder has => ?_⟩
  cases holder with
  | inl i => exact absurd (after.2.apart (.inl (some i)) (.inl none) id has mine) (by simp)
  | inr key => exact absurd (after.2.apart (.inr key) (.inl none) id has mine) (by simp)

theorem held_handOffToSession (ctx : Context) (held : Held claims d) (key : String) {id : Nat}
    (known : id < d.records.length) (free : ∀ holder, owns claims d holder ≠ some id) :
    Held claims (handOffToSession ctx d key id) := by
  have purged := held_purge ctx held
  have cleared : Held claims (returnReplaced ctx (purgeExpiredHandOffs ctx d) key id) := by
    unfold returnReplaced
    split
    · exact purged
    · next existing found =>
      split
      · exact held_release ctx purged (pooled_free purged found)
      · exact purged
  have steps := (purgeExpiredHandOffs_steps ctx d).trans (returnReplaced_steps ctx _ key id)
  obtain ⟨stillKnown,stillFree⟩ := steps_free steps held.settled held.separate known free
  refine move_held (@Move.put ctx _ key id) (fun i other has => cleared.live i other has) ?_ cleared
  rintro other ⟨⟩
  exact ⟨stillKnown,stillFree⟩

theorem held_leave (ctx : Context) (held : Held claims d) {waiter : DiskWaiter} (member : waiter ∈ d.waitingDisk)
    {outcome : DiskWaitOutcome} {waited : Option Nat} {ending : WaitEnd} (leaves : Leaves outcome waited ending) :
    Held claims (emit (recordDiskWaitOutcome (without d waiter.id) outcome waited) (.left waiter.id ending)) :=
  gentle_held (@Move.leave ctx d waiter member outcome waited ending leaves) (by simp) (fun _ live => live) held

theorem held_fireTimer (ctx : Context) (held : Held claims d) (request : Nat) : Held claims (fireTimer ctx d request) := by
  unfold fireTimer
  split
  · unfold timeoutCallback
    cases found : waiterOf d request with
    | none => exact held
    | some waiter =>
      obtain ⟨member,rfl⟩ := waiterOf_some found
      rw [removeDiskWaiter_of_mem member]
      exact held_pumpDisk ctx (held_leave ctx held member (.timeout _ _))
  · exact held

theorem held_fireAbort (ctx : Context) (held : Held claims d) (request : Nat) : Held claims (fireAbort ctx d request) := by
  unfold fireAbort
  split
  · unfold abortCallback
    cases found : waiterOf d request with
    | none => exact held
    | some waiter =>
      obtain ⟨member,rfl⟩ := waiterOf_some found
      rw [removeDiskWaiter_of_mem member]
      exact held_pumpDisk ctx (held_leave ctx held member (.cancelled _ _))
  · exact held

theorem held_pollTick (ctx : Context) (held : Held claims d) : Held claims (pollTick ctx d) := by
  unfold pollTick
  split
  · exact held
  · split
    · next queue => exact gentle_held (@Move.rest ctx d queue) (by simp) (fun _ live => live) held
    · exact held_pumpDisk ctx held

theorem held_evictionSettled (ctx : Context) (held : Held claims d) : Held claims (evictionSettled ctx d) := by
  unfold evictionSettled
  split
  · exact held_pumpDisk ctx
      (gentle_held (@Move.evict ctx d false d.lastEvictionAt) (by simp) (fun _ live => live) held)
  · exact held

theorem held_halt (ctx : Context) (held : Held claims d) : Held claims (stopPollTimer d) :=
  gentle_held (@Move.halt ctx d) (by simp) (fun _ live => live) held

theorem held_shutdown (ctx : Context) (held : Held claims d) (unsettled : Unsettled d) :
    Held claims (DiskQueue.shutdown ctx d) := by
  have emptied := @fold_entries_rule (fun d d' => Held claims d → Held claims d') (fun _ before => before)
    (fun first second before => second (first before)) (shutdownHandOff ctx) (by
      intro d entry found held
      have released := held_release ctx held (pooled_free held found)
      refine held_forget ctx released fun other same => ?_
      rw [releaseReservation_pool,found] at same
      cases same
      exact releaseReservation_inactive ctx d entry.2.reservation) (shutdownHandOff_keeps ctx) _ (stopPollTimer d)
    d.handedOffReservations.distinct (pool_present d) (held_halt ctx held)
  have open_ : Unsettled (d.handedOffReservations.entries.foldl (shutdownHandOff ctx) (stopPollTimer d)) :=
    path_unsettled (chain_of_kind trivial (shutdownPool_steps ctx (stopPollTimer d)) : Path ctx (fun _ => True) _ _)
      unsettled
  exact @shutdownWaiters_rule (fun d d' => Held claims d → Held claims d') (fun _ before => before)
    (fun first second before => second (first before))
    (fun d waiter member held => held_leave ctx held member (.shutdown shuttingDownError)) _ _ rfl open_ emptied

end

section
variable {ι : Type u} [DecidableEq ι] {claims : ι → Claim} {d : Disk}

theorem held_update (held : Held claims d) (i : ι) (c : Claim)
    (fewer : ∀ id, claimed d c = some id → claimed d (claims i) = some id)
    (single : ∀ j request, c = .awaited request → claims j = .awaited request → j = i) :
    Held (Function.update claims i c) d := by
  have fewerAt : ∀ j id, claimed d (Function.update claims i c j) = some id → claimed d (claims j) = some id := by
    intro j id has
    by_cases here : j = i
    · subst here
      rw [Function.update_self] at has
      exact fewer id has
    · rwa [Function.update_of_ne here] at has
  have fewerOwned : ∀ holder id, owns (Function.update claims i c) d holder = some id → owns claims d holder = some id := by
    intro holder id has
    cases holder with
    | inl j => exact fewerAt j id has
    | inr key => exact has
  refine ⟨held.settled,⟨apart_fewer held.separate.apart fewerOwned,?_,?_⟩,?_⟩
  · intro holder id has
    exact held.separate.known holder id (fewerOwned holder id has)
  · intro j k request awaits also
    by_cases here : j = i
    · by_cases there : k = i
      · rw [here,there]
      · rw [here,Function.update_self] at awaits
        rw [Function.update_of_ne there] at also
        exact here.trans (single k request awaits also).symm
    · rw [Function.update_of_ne here] at awaits
      by_cases there : k = i
      · rw [there,Function.update_self] at also
        exact (single j request also awaits).trans there.symm
      · rw [Function.update_of_ne there] at also
        exact held.separate.single j k request awaits also
  · intro j id has
    exact held.live j id (fewerAt j id has)

theorem given_up (held : Held claims d) {i : ι} {id : Nat} (had : claimed d (claims i) = some id) (j : ι) :
    claimed d (Function.update claims i .nothing j) ≠ some id := by
  by_cases here : j = i
  · subst here
    simp [claimed]
  · rw [Function.update_of_ne here]
    intro has
    exact here (Sum.inl.inj (held.separate.apart (.inl j) (.inl i) id has had))

end

section
open Coordinator
variable {ι : Type u} {claims : ι → Claim}

theorem step_onward (s : Service) (op : Op) (unsettled : Unsettled s.disk) :
    Onward s.disk (step s op).disk :=
  path_onward (step_path s op unsettled)

/-- The operation uses no handle that a caller or the pool has. -/
def Foreign (claims : ι → Claim) (d : Disk) : Op → Prop
  | .release id => ∀ i, claimed d (claims i) ≠ some id
  | .handOffToSession _ id => ∀ holder, owns claims d holder ≠ some id
  | _ => True

theorem step_held (s : Service) (op : Op) (unsettled : Unsettled s.disk) (foreign : Foreign claims s.disk op)
    (held : Held claims s.disk) : Held claims (step s op).disk := by
  cases op with
  | observe | acquireUpstreamSlot | releaseLease | upstreamTimeout | upstreamAbort | setActiveUpstreamCount =>
    exact held
  | reserve o => exact held_reserve s.ctx held s.shuttingDown o
  | tryReserveNow key bytes counts => exact held_tryReserveNow s.ctx held s.shuttingDown key bytes counts
  | consume id bytes =>
    show Held claims (consumeReservation s.disk id bytes)
    rcases consumeReservation_cases s.ctx s.disk id bytes with same | ⟨record,_,_,_,_,move,_⟩
    · rwa [same]
    · exact gentle_held move (by simp) (fun other live => (consumeReservation_frame s.disk id bytes).2 other live) held
  | release id => exact held_release s.ctx held foreign
  | handOffToSession key id =>
    rw [step]
    split
    · next known => exact held_handOffToSession s.ctx held key known foreign
    · exact held
  | purgeExpiredHandOffs => exact held_purge s.ctx held
  | diskTimeout request => exact held_fireTimer s.ctx held request
  | diskAbort request => exact held_fireAbort s.ctx held request
  | pollTick => exact held_pollTick s.ctx held
  | evictionSettled => exact held_evictionSettled s.ctx held
  | configure update => exact held_pumpDisk _ held
  | shutdown =>
    rw [step,Coordinator.shutdown]
    split
    · exact held
    · exact held_shutdown s.ctx held unsettled
  | reset => exact held_halt s.ctx held

end
end Tgtc.DiskHandles
