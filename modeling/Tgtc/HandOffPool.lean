import Tgtc.DiskMoves

/-!
A reservation that lies in the hand-off pool. Only a request for its own session
takes it out, only a purge past its time returns it, and every other operation
of the disk half leaves it where it is and active.
-/
namespace Tgtc.HandOffPool
open Numbers Resources Maps DiskQueue DiskMoves

structure Pooled (key : String) (entry : HandOff) (d : Disk) : Prop where
  found : d.handedOffReservations.get key = some entry
  live : isActive d entry.reservation = true
  alone : ∀ other e, d.handedOffReservations.get other = some e → e.reservation = entry.reservation → other = key

section
variable {key : String} {entry : HandOff} {d d' : Disk}

theorem pooled_same (pooled : Pooled key entry d) (pool : d'.handedOffReservations = d.handedOffReservations)
    (live : isActive d' entry.reservation = true) : Pooled key entry d' := by
  refine ⟨?_,live,?_⟩
  · rw [pool]
    exact pooled.found
  · rw [pool]
    exact pooled.alone

theorem pooled_pumpDisk (ctx : Context) (pooled : Pooled key entry d) : Pooled key entry (pumpDisk ctx d) :=
  pooled_same pooled (pumpDisk_pool ctx d) (pumpDisk_active ctx pooled.live)

theorem pooled_releaseReservation (ctx : Context) (pooled : Pooled key entry d) {id : Nat}
    (other : id ≠ entry.reservation) : Pooled key entry (releaseReservation ctx d id) :=
  pooled_same pooled (releaseReservation_pool ctx d id) (releaseReservation_active ctx other.symm pooled.live)

theorem pooled_unpooled (pooled : Pooled key entry d) {other : String} (different : other ≠ key) :
    Pooled key entry (unpooled d other) := by
  refine ⟨(get_delete_other d.handedOffReservations different.symm).trans pooled.found,pooled.live,?_⟩
  intro k e present same
  by_cases here : k = other
  · subst here
    have gone := get_delete_same d.handedOffReservations k
    rw [show d.handedOffReservations.delete k = (unpooled d k).handedOffReservations from rfl,present] at gone
    cases gone
  · exact pooled.alone k e ((get_delete_other d.handedOffReservations here).symm.trans present) same

section
variable (ctx : Context)
include ctx

theorem pooled_discard (pooled : Pooled key entry d) {other : String} {e : HandOff}
    (different : other ≠ key) (present : d.handedOffReservations.get other = some e) :
    Pooled key entry (releaseReservation ctx (unpooled d other) e.reservation) :=
  pooled_releaseReservation ctx (pooled_unpooled pooled different) fun same =>
    different (pooled.alone other e present same)

theorem pooled_take (pooled : Pooled key entry d) {other : String} (different : other ≠ key) :
    Pooled key entry (takeHandedOffReservation ctx d other).2 ∧
      ∀ id, (takeHandedOffReservation ctx d other).1 = some id → id ≠ entry.reservation := by
  unfold takeHandedOffReservation
  cases present : d.handedOffReservations.get other with
  | none => exact ⟨pooled,fun id has => by cases has⟩
  | some e =>
    simp only
    split
    · exact ⟨pooled_discard ctx pooled different present,fun id has => by cases has⟩
    · refine ⟨pooled_unpooled pooled different,fun id has => ?_⟩
      cases has
      exact fun same => different (pooled.alone other e present same)

theorem pooled_purge (pooled : Pooled key entry d) (inTime : ctx.world.now < entry.expiresAt) :
    Pooled key entry (purgeExpiredHandOffs ctx d) := by
  have turns : ∀ (entries : List (String × HandOff)) (d : Disk), Pooled key entry d →
      (∀ e ∈ entries, (e.1 = key → e.2 = entry) ∧ (e.2.reservation = entry.reservation → e.1 = key)) →
      Pooled key entry (entries.foldl (purgeHandOff ctx) d) := by
    intro entries
    induction entries with
    | nil => intro d pooled _; exact pooled
    | cons e rest ih =>
      intro d pooled listed
      refine ih _ ?_ fun other member => listed other (List.mem_cons_of_mem _ member)
      obtain ⟨mine,reserved⟩ := listed e (by simp)
      unfold purgeHandOff
      split
      · exact pooled
      next late =>
      have different : e.1 ≠ key := by
        intro same
        rw [mine same] at late
        exact late inTime
      exact pooled_releaseReservation ctx (pooled_unpooled pooled different) fun same => different (reserved same)
  refine turns _ d pooled fun e member => ?_
  have present := pool_present d e member
  constructor
  · intro same
    rw [same,pooled.found] at present
    exact (Option.some.inj present).symm
  · exact pooled.alone e.1 e.2 present

theorem reserveFresh_frame (d : Disk) (o : ReserveOptions) (bytes : Int) :
    (reserveFresh ctx d o bytes).handedOffReservations = d.handedOffReservations ∧
      ∀ id, isActive d id = true → isActive (reserveFresh ctx d o bytes) id = true := by
  unfold reserveFresh
  by_cases failed : probeAdmissionFreeBytes ctx < 0
  · simp only [failed]
    exact ⟨rfl,fun _ live => live⟩
  simp only [failed,↓reduceIte,tryGrant]
  cases evaluateGrant ctx d bytes o.countsTowardCache (probeAdmissionFreeBytes ctx) with
  | ok => exact ⟨rfl,fun _ live => isActive_append live⟩
  | refused structural reason =>
    simp only
    split
    · exact ⟨rfl,fun _ live => live⟩
    · split
      · exact ⟨rfl,fun _ live => live⟩
      · exact ⟨rfl,fun _ live => live⟩

theorem pooled_reserveFresh (pooled : Pooled key entry d) (o : ReserveOptions) (bytes : Int) :
    Pooled key entry (reserveFresh ctx d o bytes) := by
  obtain ⟨pool,active⟩ := reserveFresh_frame ctx d o bytes
  exact pooled_same pooled pool (active _ pooled.live)

theorem pooled_reserve (pooled : Pooled key entry d) {shuttingDown : Bool} {o : ReserveOptions}
    (apart : shuttingDown = true ∨ legalBytes o.bytes = none ∨ o.sessionKey ≠ key) :
    Pooled key entry (reserve ctx shuttingDown d o) := by
  unfold reserve
  split
  · exact pooled_same pooled rfl pooled.live
  next accepting =>
  split
  · exact pooled_same pooled rfl pooled.live
  next bytes legal =>
  split
  · exact pooled_same pooled rfl pooled.live
  have different : o.sessionKey ≠ key := by
    rcases apart with closed | illegal | other
    · exact absurd closed accepting
    · rw [legal] at illegal
      cases illegal
    · exact other
  obtain ⟨taken,apart⟩ := pooled_take ctx pooled different
  unfold reserveAdmitted
  split
  · next handedOff after took =>
    rw [took] at taken apart
    split
    · exact pooled_same taken rfl taken.live
    · exact pooled_reserveFresh ctx (pooled_releaseReservation ctx taken (apart handedOff rfl)) o bytes
  · next after took =>
    rw [took] at taken
    exact pooled_reserveFresh ctx taken o bytes

theorem pooled_tryReserveNow (pooled : Pooled key entry d) {shuttingDown : Bool} {other : String}
    {bytes : Number} {counts : Bool} (apart : shuttingDown = true ∨ legalBytes bytes = none ∨ other ≠ key) :
    Pooled key entry (tryReserveNow ctx shuttingDown d other bytes counts).2 := by
  unfold tryReserveNow
  split
  · exact pooled
  next accepting =>
  split
  · exact pooled
  next n legal =>
  have different : other ≠ key := by
    rcases apart with closed | illegal | elsewhere
    · exact absurd closed accepting
    · rw [legal] at illegal
      cases illegal
    · exact elsewhere
  obtain ⟨taken,apart⟩ := pooled_take ctx pooled different
  unfold tryReserveAdmitted
  split
  · next handedOff after took =>
    rw [took] at taken apart
    split
    · exact taken
    · exact pooled_releaseReservation ctx taken (apart handedOff rfl)
  · next after took =>
    rw [took] at taken
    by_cases failed : probeAdmissionFreeBytes ctx < 0
    · simp only [failed]
      exact taken
    · simp only [failed,tryGrant]
      cases evaluateGrant ctx after n counts (probeAdmissionFreeBytes ctx) with
      | ok => exact pooled_same taken rfl (isActive_append taken.live)
      | refused structural reason => exact taken

end

theorem pooled_consume (pooled : Pooled key entry d) (id : Nat) (bytes : Number) :
    Pooled key entry (consumeReservation d id bytes) := by
  obtain ⟨pool,active⟩ := consumeReservation_frame d id bytes
  exact pooled_same pooled pool (active _ pooled.live)

section
variable (ctx : Context) (pooled : Pooled key entry d)
include ctx pooled

theorem pooled_fireTimer (request : Nat) : Pooled key entry (fireTimer ctx d request) := by
  unfold fireTimer
  split
  · unfold timeoutCallback
    cases found : waiterOf d request with
    | none => exact pooled
    | some waiter =>
      obtain ⟨member,rfl⟩ := waiterOf_some found
      rw [removeDiskWaiter_of_mem member]
      exact pooled_pumpDisk ctx (pooled_same pooled rfl pooled.live)
  · exact pooled

theorem pooled_fireAbort (request : Nat) : Pooled key entry (fireAbort ctx d request) :=
  pooled_same pooled (fireAbort_pool ctx d request) (fireAbort_active ctx request pooled.live)

theorem pooled_pollTick : Pooled key entry (pollTick ctx d) := by
  unfold pollTick
  split
  · exact pooled
  · split
    · exact pooled_same pooled rfl pooled.live
    · exact pooled_pumpDisk ctx pooled

theorem pooled_evictionSettled : Pooled key entry (evictionSettled ctx d) := by
  unfold evictionSettled
  split
  · exact pooled_pumpDisk ctx (pooled_same pooled rfl pooled.live)
  · exact pooled

end

end

end Tgtc.HandOffPool
