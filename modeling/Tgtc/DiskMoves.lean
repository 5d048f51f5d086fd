import Mathlib.Logic.Relation
import Mathlib.Tactic.Linarith
import Tgtc.Arrivals
import Tgtc.Coordinator

/-!
What an operation can do to the disk half, said once. Every operation and every callback is a sequence of the changes
listed in `Move`; an invariant is proved change by change.
-/
namespace Tgtc.DiskMoves
open Numbers Resources Maps Runs Arrivals DiskQueue
open Relation (ReflTransGen)

def Admitted (ctx : Context) (d : Disk) (bytes : Int) (countsTowardCache : Bool) : Prop :=
  0 ≤ probeAdmissionFreeBytes ctx ∧
    evaluateGrant ctx d bytes countsTowardCache (probeAdmissionFreeBytes ctx) = .ok

theorem evaluateGrant_iff (ctx : Context) (d : Disk) (bytes free : Int) (counts : Bool) :
    evaluateGrant ctx d bytes counts free = .ok ↔
      (bytes : ℚ) ≤ free - ctx.config.minFreeBytes ∧
      (bytes : ℚ) ≤ free - ctx.config.minFreeBytes - d.reservedPendingBytes ∧
      (0 < ctx.config.maxReservedBytes → (d.reservedPendingBytes : ℚ) + bytes ≤ ctx.config.maxReservedBytes) ∧
      (counts = true → ∀ cache, ctx.world.cache = some cache →
        bytes ≤ cache.maxBytes ∧ cache.committedBytes + d.cacheReservedBytes + bytes ≤ cache.maxBytes) := by
  have contention : evaluateContention ctx d bytes free = .ok ↔
      (bytes : ℚ) ≤ free - ctx.config.minFreeBytes - d.reservedPendingBytes := by
    unfold evaluateContention
    rw [← not_lt]
    split
    · next short => simp [short]
    · next enough => simp [enough]
  unfold evaluateGrant
  by_cases alone : (free : ℚ) - ctx.config.minFreeBytes < bytes
  · rw [if_pos alone]
    exact ⟨fun ok => (by cases ok),fun held => absurd held.1 (not_le.mpr alone)⟩
  rw [if_neg alone]
  by_cases limited : 0 < ctx.config.maxReservedBytes ∧
      ctx.config.maxReservedBytes < (d.reservedPendingBytes : ℚ) + bytes
  · rw [if_pos limited]
    exact ⟨fun ok => (by cases ok),fun held => absurd (held.2.2.1 limited.1) (not_le.mpr limited.2)⟩
  rw [if_neg limited]
  have bounded : 0 < ctx.config.maxReservedBytes →
      (d.reservedPendingBytes : ℚ) + bytes ≤ ctx.config.maxReservedBytes :=
    fun positive => not_lt.mp fun ended => limited ⟨positive,ended⟩
  cases published : (if counts then ctx.world.cache else none) with
  | none =>
    have uncached : counts = true → ∀ cache, ctx.world.cache ≠ some cache := by
      intro counting cache found
      rw [counting,found] at published
      cases published
    rw [contention]
    exact ⟨fun room => ⟨not_lt.mp alone,room,bounded,fun counting cache found =>
      absurd found (uncached counting cache)⟩,fun held => held.2.1⟩
  | some cache =>
    have counting : counts = true ∧ ctx.world.cache = some cache := by
      cases counts with
      | true => exact ⟨rfl,by simpa using published⟩
      | false => cases published
    simp only
    by_cases large : cache.maxBytes < bytes
    · rw [if_pos large]
      refine ⟨fun ok => (by cases ok),fun held => ?_⟩
      have := (held.2.2.2 counting.1 cache counting.2).1
      omega
    · rw [if_neg large]
      by_cases full : cache.maxBytes < cache.committedBytes + d.cacheReservedBytes + bytes
      · rw [if_pos full]
        refine ⟨fun ok => (by cases ok),fun held => ?_⟩
        have := (held.2.2.2 counting.1 cache counting.2).2
        omega
      · rw [if_neg full,contention]
        refine ⟨fun room => ⟨not_lt.mp alone,room,bounded,?_⟩,fun held => held.2.1⟩
        intro _ other found
        rw [counting.2] at found
        cases found
        exact ⟨by omega,by omega⟩

variable {d : Disk} {ctx : Context} {d' : Disk} {kind : Kind} {bytes : Int} {o : ReserveOptions}

theorem admitted_mono {counts : Bool}
    (pending : d'.reservedPendingBytes ≤ d.reservedPendingBytes) (cached : d'.cacheReservedBytes ≤ d.cacheReservedBytes)
    (admitted : Admitted ctx d bytes counts) : Admitted ctx d' bytes counts := by
  obtain ⟨alone,room,bounded,cache⟩ := (evaluateGrant_iff _ _ _ _ _).mp admitted.2
  have lower : (d'.reservedPendingBytes : ℚ) ≤ d.reservedPendingBytes := by exact_mod_cast pending
  refine ⟨admitted.1,(evaluateGrant_iff _ _ _ _ _).mpr ⟨alone,by linarith,?_,?_⟩⟩
  · intro positive
    have := bounded positive
    linarith
  · intro counting capacity published
    obtain ⟨fits,within⟩ := cache counting capacity published
    exact ⟨fits,by omega⟩

inductive Leaves : DiskWaitOutcome → Option Nat → WaitEnd → Prop
  | timeout (waited : Nat) (e : DownloadResourceException) : Leaves .timeout (some waited) (.timeout e)
  | cancelled (waited : Nat) (e : DownloadResourceException) : Leaves .cancelled (some waited) (.cancelled e)
  | shutdown (e : DownloadResourceException) : Leaves .shutdown none (.shutdown e)

/-- Changes inside an operation; a request that joins; the poll timer stopped; bytes written; a grant
without waiting; a reservation given back at once; one given to the pool. -/
inductive Kind
  | inner
  | joined
  | halted
  | drawn
  | immediate
  | out (reservation : Nat)
  | back (reservation : Nat)

def without (d : Disk) (id : Nat) : Disk :=
  detachWaiter { d with waitingDisk := d.waitingDisk.eraseP (fun w => w.id = id) } id

def unpooled (d : Disk) (key : String) : Disk :=
  { d with handedOffReservations := d.handedOffReservations.delete key }

def refusalOutcome (failure : Failure) : Option DiskWaitOutcome :=
  match failure.code with
  | some .insufficientStorage => some .directDegrade
  | some .queueFull => some .queueFull
  | _ => none

inductive Move (ctx : Context) : Kind → Disk → Disk → Prop
  | reject (d : Disk) (failure : Failure) (uncounted : refusalOutcome failure = none) :
      Move ctx .inner d (answer d (.rejected failure))
  | refuse (d : Disk) (outcome : DiskWaitOutcome) (failure : Failure)
      (counted : refusalOutcome failure = some outcome) :
      Move ctx .inner d (answer (recordDiskWaitOutcome d outcome none) (.rejected failure))
  | adopt (d : Disk) (key : String) (entry : HandOff) (found : d.handedOffReservations.get key = some entry)
      (live : isActive d entry.reservation = true) (inTime : ctx.world.now < entry.expiresAt) :
      Move ctx .inner d (answer (unpooled d key) (.adopted entry.reservation))
  | grant (d : Disk) (key : String) (bytes : Int) (counts : Bool) (positive : 0 < bytes)
      (admitted : Admitted ctx d bytes counts) :
      Move ctx .immediate d (answer (recordDiskWaitOutcome (createReservation ctx d key bytes counts) .granted none)
        (.granted (diskGrant ctx d key bytes counts)))
  | hold (d : Disk) (key : String) (bytes : Int) (counts : Bool) (positive : 0 < bytes)
      (admitted : Admitted ctx d bytes counts) :
      Move ctx (.out d.records.length) d
        (emit (createReservation ctx d key bytes counts) (.heldNow (diskGrant ctx d key bytes counts)))
  | take (d : Disk) (key : String) (entry : HandOff) (found : d.handedOffReservations.get key = some entry)
      (live : isActive d entry.reservation = true) (inTime : ctx.world.now < entry.expiresAt) :
      Move ctx (.out entry.reservation) d (unpooled d key)
  | put (d : Disk) (key : String) (id : Nat) :
      Move ctx (.back id) d
        { d with handedOffReservations := d.handedOffReservations.set key ⟨id,ctx.world.now + handoffTtlMs⟩ }
  | serve (d : Disk) (head : DiskWaiter) (rest : List DiskWaiter) (queue : d.waitingDisk = head :: rest)
      (admitted : Admitted ctx d head.bytes head.countsTowardCache) :
      Move ctx .inner d (emit (recordDiskWaitOutcome
        (without (createReservation ctx d head.sessionKey head.bytes head.countsTowardCache) head.id)
        .granted (some (ctx.world.now - head.enqueuedAt)))
        (.left head.id (.granted (diskGrant ctx d head.sessionKey head.bytes head.countsTowardCache))))
  | consume (d : Disk) (id : Nat) (record : ReservationRecord) (found : d.records[id]? = some record)
      (active : record.active = true) (amount : Int) (positive : 0 < amount) (most : amount ≤ record.remainingBytes) :
      Move ctx .drawn d { d with
        records := d.records.modify id (fun r => { r with remainingBytes := r.remainingBytes - amount })
        reservedPendingBytes := max 0 (d.reservedPendingBytes - amount) }
  | retire (d : Disk) (id : Nat) (record : ReservationRecord) (found : d.records[id]? = some record)
      (active : record.active = true) : Move ctx .inner d (retire d id record)
  | enqueue (d : Disk) (o : ReserveOptions) (bytes : Int) (positive : 0 < bytes) :
      Move ctx .joined d (ensurePollTimer (enqueueDisk ctx d o bytes))
  | leave (d : Disk) (waiter : DiskWaiter) (member : waiter ∈ d.waitingDisk) (outcome : DiskWaitOutcome)
      (waited : Option Nat) (ending : WaitEnd) (leaves : Leaves outcome waited ending) :
      Move ctx .inner d (emit (recordDiskWaitOutcome (without d waiter.id) outcome waited) (.left waiter.id ending))
  | forget (d : Disk) (key : String)
      (dead : ∀ entry, d.handedOffReservations.get key = some entry → isActive d entry.reservation = false) :
      Move ctx .inner d (unpooled d key)
  | evict (d : Disk) (inFlight : Bool) (last : Nat) :
      Move ctx .inner d { d with evictionInFlight := inFlight, lastEvictionAt := last }
  | rest (d : Disk) (queue : d.waitingDisk = []) : Move ctx .inner d (stopPollTimer d)
  | halt (d : Disk) : Move ctx .halted d (stopPollTimer d)

abbrev Steps (ctx : Context) : Disk → Disk → Prop := ReflTransGen (Move ctx .inner)

abbrev Path (ctx : Context) (kinds : Kind → Prop) : Disk → Disk → Prop := Chain (Move ctx) kinds

theorem steps_move_path {d'' : Disk} (steps : Steps ctx d d')
    (move : Move ctx kind d' d'') : Path ctx (fun _ => True) d d'' :=
  (chain_of_kind (show (fun _ : Kind => True) Kind.inner from trivial) steps).tail ⟨kind,trivial,move⟩

theorem removeDiskWaiter_of_mem {waiter : DiskWaiter} (member : waiter ∈ d.waitingDisk) :
    removeDiskWaiter d waiter.id = (true,without d waiter.id) := by
  have found : d.waitingDisk.any (fun w => w.id = waiter.id) = true :=
    List.any_eq_true.mpr ⟨waiter,member,by simp⟩
  simp only [removeDiskWaiter,found,↓reduceIte,without]

theorem move_records (move : Move ctx kind d d') :
    d'.records = d.records ∨ (∃ record, d'.records = d.records ++ [record]) ∨
      ∃ id f, d'.records = d.records.modify id f ∧
        ∀ r : ReservationRecord, ((f r).active = true → r.active = true) ∧ (f r).grantedBytes = r.grantedBytes := by
  cases move with
  | grant | hold | serve => exact .inr (.inl ⟨_,rfl⟩)
  | consume => exact .inr (.inr ⟨_,_,rfl,fun r => ⟨id,rfl⟩⟩)
  | retire => exact .inr (.inr ⟨_,_,rfl,fun r => ⟨fun on => absurd on (by simp),rfl⟩⟩)
  | _ => exact .inl rfl

theorem move_length (move : Move ctx kind d d') :
    d.records.length ≤ d'.records.length := by
  rcases move_records move with same | ⟨record,grown⟩ | ⟨id,f,changed,_⟩
  · rw [same]
  · rw [grown]; simp
  · rw [changed]; simp

theorem move_inactive (move : Move ctx kind d d') {id : Nat}
    (known : id < d.records.length) (off : isActive d id = false) : isActive d' id = false := by
  unfold isActive at *
  rcases move_records move with same | ⟨record,grown⟩ | ⟨at_id,f,changed,keeps⟩
  · rw [same]; exact off
  · rw [grown,List.getElem?_append_left known]; exact off
  · rw [changed,List.getElem?_modify]
    cases found : d.records[id]? with
    | none => simp
    | some record =>
      simp only [found,Option.map_some] at off
      by_cases here : at_id = id
      · simp only [here]
        by_contra on
        rw [(keeps record).1 (by simpa using on)] at off
        cases off
      · simpa [here] using off

theorem steps_inactive (steps : Steps ctx d d') {id : Nat}
    (known : id < d.records.length) (off : isActive d id = false) :
    id < d'.records.length ∧ isActive d' id = false := by
  induction steps with
  | refl => exact ⟨known,off⟩
  | tail _ move ih => exact ⟨Nat.lt_of_lt_of_le ih.1 (move_length move),move_inactive move ih.1 ih.2⟩

theorem isActive_known {id : Nat} (live : isActive d id = true) :
    ∃ record, d.records[id]? = some record ∧ record.active = true := by
  unfold isActive at live
  cases found : d.records[id]? with
  | none => rw [found] at live; cases live
  | some record =>
    rw [found] at live
    exact ⟨record,rfl,live⟩

theorem move_log (move : Move ctx kind d d') :
    d'.log = d.log ∨ ∃ event, d'.log = d.log ++ [event] ∧
      ∀ grant, event.grant = some grant → ∃ key bytes counts,
        Admitted ctx d bytes counts ∧ grant = diskGrant ctx d key bytes counts := by
  cases move with
  | grant _ key bytes counts _ admitted | hold _ key bytes counts _ admitted =>
    refine .inr ⟨_,rfl,?_⟩
    rintro grant ⟨⟩
    exact ⟨key,bytes,counts,admitted,rfl⟩
  | serve _ head rest queue admitted =>
    refine .inr ⟨_,rfl,?_⟩
    rintro grant ⟨⟩
    exact ⟨head.sessionKey,head.bytes,head.countsTowardCache,admitted,rfl⟩
  | leave _ waiter member outcome waited ending leaves =>
    refine .inr ⟨_,rfl,?_⟩
    intro grant reported
    cases leaves <;> cases reported
  | reject | refuse | adopt | enqueue =>
    refine .inr ⟨_,rfl,?_⟩
    rintro grant ⟨⟩
  | _ => exact .inl rfl

/-! ### The pump -/

def served (ctx : Context) (d : Disk) (head : DiskWaiter) : Disk :=
  emit (recordDiskWaitOutcome
    (without (createReservation ctx d head.sessionKey head.bytes head.countsTowardCache) head.id)
    .granted (some (ctx.world.now - head.enqueuedAt)))
    (.left head.id (.granted (diskGrant ctx d head.sessionKey head.bytes head.countsTowardCache)))

section
variable {ctx : Context} {rel : Disk → Disk → Prop} (refl : ∀ d, rel d d)
  (trans : ∀ {d d' d''}, rel d d' → rel d' d'' → rel d d'')
  (serve : ∀ d head rest, d.waitingDisk = head :: rest → Admitted ctx d head.bytes head.countsTowardCache →
    rel d (served ctx d head))
  (evict : ∀ d inFlight last, rel d { d with evictionInFlight := inFlight, lastEvictionAt := last })
  (rest : ∀ d, d.waitingDisk = [] → rel d (stopPollTimer d))
include refl trans serve evict rest

theorem pumpDiskLoop_rule (probed : 0 ≤ probeAdmissionFreeBytes ctx) : ∀ (rounds : Nat) (d : Disk),
    rel d (pumpDiskLoop ctx (probeAdmissionFreeBytes ctx) rounds d) := by
  intro rounds
  induction rounds with
  | zero => intro d; exact refl d
  | succ rounds ih =>
    intro d
    rw [pumpDiskLoop]
    split
    · next queue => exact rest d queue
    next head others queue =>
    rw [tryGrant]
    cases verdict : evaluateGrant ctx d head.bytes head.countsTowardCache (probeAdmissionFreeBytes ctx) with
    | refused structural reason =>
      simp only [requestEviction]
      split
      · exact refl d
      · split
        · exact refl d
        · exact evict d true ctx.world.now
    | ok =>
      simp only
      have member : head ∈ (createReservation ctx d head.sessionKey head.bytes head.countsTowardCache).waitingDisk := by
        simp [createReservation,queue]
      rw [removeDiskWaiter_of_mem member]
      exact trans (serve d head others queue ⟨probed,verdict⟩) (ih _)

theorem pumpDisk_rule (d : Disk) : rel d (pumpDisk ctx d) := by
  unfold pumpDisk
  split
  · next queue => exact rest d queue
  · by_cases failed : probeAdmissionFreeBytes ctx < 0
    · simp only [failed]; exact refl d
    · simp only [failed]
      exact pumpDiskLoop_rule refl trans serve evict rest (by omega) _ d

end

theorem pumpDiskLoop_steps (ctx : Context) (probed : 0 ≤ probeAdmissionFreeBytes ctx) (rounds : Nat) (d : Disk) :
    Steps ctx d (pumpDiskLoop ctx (probeAdmissionFreeBytes ctx) rounds d) :=
  pumpDiskLoop_rule (fun _ => .refl) ReflTransGen.trans
    (fun d head rest queue admitted => .single (.serve d head rest queue admitted))
    (fun d inFlight last => .single (.evict d inFlight last)) (fun d queue => .single (.rest d queue)) probed rounds d

theorem pumpDisk_steps (ctx : Context) (d : Disk) : Steps ctx d (pumpDisk ctx d) :=
  pumpDisk_rule (fun _ => .refl) ReflTransGen.trans
    (fun d head rest queue admitted => .single (.serve d head rest queue admitted))
    (fun d inFlight last => .single (.evict d inFlight last)) (fun d queue => .single (.rest d queue)) d

theorem releaseReservation_off {id : Nat} (off : isActive d id = false) :
    releaseReservation ctx d id = d := by
  unfold releaseReservation
  unfold isActive at off
  split
  · rfl
  · next record found =>
    rw [found] at off
    simp only [Option.map_some,Option.getD_some] at off
    simp [off]

theorem releaseReservation_on {id : Nat} {record : ReservationRecord}
    (found : d.records[id]? = some record) (active : record.active = true) :
    releaseReservation ctx d id = pumpDisk ctx (retire d id record) := by
  simp [releaseReservation,found,active]

theorem releaseReservation_steps (ctx : Context) (d : Disk) (id : Nat) :
    Steps ctx d (releaseReservation ctx d id) := by
  cases live : isActive d id with
  | false => rw [releaseReservation_off live]
  | true =>
    obtain ⟨record,found,active⟩ := isActive_known live
    rw [releaseReservation_on found active]
    exact .head (.retire d id record found active) (pumpDisk_steps ctx _)

theorem releaseReservation_inactive (ctx : Context) (d : Disk) (id : Nat) :
    isActive (releaseReservation ctx d id) id = false := by
  cases live : isActive d id with
  | false => rw [releaseReservation_off live,live]
  | true =>
    obtain ⟨record,found,active⟩ := isActive_known live
    rw [releaseReservation_on found active]
    have known : id < d.records.length := at_lt found
    exact (steps_inactive (pumpDisk_steps ctx (retire d id record)) (by simpa [retire] using known)
      (by simp [isActive,retire,found])).2

theorem pumpDisk_pool (ctx : Context) (d : Disk) :
    (pumpDisk ctx d).handedOffReservations = d.handedOffReservations :=
  @pumpDisk_rule ctx (fun d d' => d'.handedOffReservations = d.handedOffReservations) (fun _ => rfl)
    (fun first second => second.trans first) (fun _ _ _ _ _ => rfl) (fun _ _ _ => rfl) (fun _ _ => rfl) d

theorem releaseReservation_pool (ctx : Context) (d : Disk) (id : Nat) :
    (releaseReservation ctx d id).handedOffReservations = d.handedOffReservations := by
  unfold releaseReservation
  split
  · rfl
  · split
    · rfl
    · exact pumpDisk_pool ctx _

theorem pumpDisk_nextRequest (ctx : Context) (d : Disk) : (pumpDisk ctx d).nextRequest = d.nextRequest :=
  @pumpDisk_rule ctx (fun d d' => d'.nextRequest = d.nextRequest) (fun _ => rfl)
    (fun first second => second.trans first) (fun _ _ _ _ _ => rfl) (fun _ _ _ => rfl) (fun _ _ => rfl) d

theorem releaseReservation_nextRequest (ctx : Context) (d : Disk) (id : Nat) :
    (releaseReservation ctx d id).nextRequest = d.nextRequest := by
  cases live : isActive d id with
  | false => rw [releaseReservation_off live]
  | true =>
    obtain ⟨record,found,active⟩ := isActive_known live
    rw [releaseReservation_on found active,pumpDisk_nextRequest]
    rfl

theorem isActive_append {records : List ReservationRecord} {id : Nat} (live : isActive d id = true) :
    isActive { d with records := d.records ++ records } id = true := by
  obtain ⟨record,found,active⟩ := isActive_known live
  have known : id < d.records.length := at_lt found
  simpa [isActive,List.getElem?_append_left known] using live

theorem isActive_retire {id : Nat} {record : ReservationRecord} {other : Nat} (different : other ≠ id) :
    isActive (retire d id record) other = isActive d other := by
  simp [isActive,retire,different.symm]

theorem pumpDisk_active (ctx : Context) {id : Nat} (live : isActive d id = true) :
    isActive (pumpDisk ctx d) id = true :=
  @pumpDisk_rule ctx (fun d d' => isActive d id = true → isActive d' id = true) (fun _ held => held)
    (fun first second held => second (first held)) (fun _ _ _ _ _ held => isActive_append held) (fun _ _ _ held => held)
    (fun _ _ held => held) d live

theorem releaseReservation_active (ctx : Context) {id other : Nat} (different : other ≠ id)
    (live : isActive d other = true) : isActive (releaseReservation ctx d id) other = true := by
  cases held : isActive d id with
  | false => rwa [releaseReservation_off held]
  | true =>
    obtain ⟨record,found,active⟩ := isActive_known held
    rw [releaseReservation_on found active]
    exact pumpDisk_active ctx ((isActive_retire different).trans live)

/-! ### Hand-offs -/

theorem discard_steps (ctx : Context) (d : Disk) (key : String) (entry : HandOff)
    (found : d.handedOffReservations.get key = some entry) :
    Steps ctx d (releaseReservation ctx (unpooled d key) entry.reservation) := by
  cases live : isActive d entry.reservation with
  | false =>
    have off : isActive (unpooled d key) entry.reservation = false := live
    rw [releaseReservation_off off]
    refine .single (.forget d key ?_)
    intro other same
    obtain rfl : entry = other := Option.mem_unique found same
    exact live
  | true =>
    obtain ⟨record,held,active⟩ := isActive_known live
    have present : (unpooled d key).records[entry.reservation]? = some record := held
    rw [releaseReservation_on present active]
    -- Retiring the record and forgetting the entry commute.
    refine .head (.retire d entry.reservation record held active) (.head (.forget _ key ?_) (pumpDisk_steps ctx _))
    intro other same
    obtain rfl : entry = other := Option.mem_unique found same
    simp [isActive,retire,held]

theorem fold_entries_rule {rel : Disk → Disk → Prop} (refl : ∀ d, rel d d)
    (trans : ∀ {d d' d''}, rel d d' → rel d' d'' → rel d d'') (turn : Disk → String × HandOff → Disk)
    (turns : ∀ d entry, d.handedOffReservations.get entry.1 = some entry.2 → rel d (turn d entry))
    (keeps : ∀ d entry key, key ≠ entry.1 →
      (turn d entry).handedOffReservations.get key = d.handedOffReservations.get key) :
    ∀ (entries : List (String × HandOff)) (d : Disk), (entries.map Prod.fst).Nodup →
      (∀ entry ∈ entries, d.handedOffReservations.get entry.1 = some entry.2) → rel d (entries.foldl turn d) := by
  intro entries
  induction entries with
  | nil => intro d _ _; exact refl d
  | cons entry rest ih =>
    intro d distinct present
    obtain ⟨fresh,later⟩ := List.nodup_cons.mp distinct
    refine trans (turns d entry (present entry (by simp))) (ih (turn d entry) later ?_)
    intro other member
    have different : other.1 ≠ entry.1 := fun same => fresh (same ▸ List.mem_map_of_mem member)
    rw [keeps d entry other.1 different]
    exact present other (List.mem_cons_of_mem _ member)

theorem pool_present (d : Disk) :
    ∀ entry ∈ d.handedOffReservations.entries, d.handedOffReservations.get entry.1 = some entry.2 :=
  fun entry member => (get_eq_some_iff d.handedOffReservations entry.1 entry.2).mpr member

theorem purgeHandOff_steps (ctx : Context) (d : Disk) (entry : String × HandOff)
    (found : d.handedOffReservations.get entry.1 = some entry.2) : Steps ctx d (purgeHandOff ctx d entry) := by
  unfold purgeHandOff
  split
  · exact .refl
  · exact discard_steps ctx d entry.1 entry.2 found

theorem purgeHandOff_keeps (ctx : Context) (d : Disk) (entry : String × HandOff) (key : String)
    (other : key ≠ entry.1) :
    (purgeHandOff ctx d entry).handedOffReservations.get key = d.handedOffReservations.get key := by
  unfold purgeHandOff
  split
  · rfl
  · rw [releaseReservation_pool]
    exact get_delete_other d.handedOffReservations other

theorem purgeExpiredHandOffs_steps (ctx : Context) (d : Disk) : Steps ctx d (purgeExpiredHandOffs ctx d) :=
  fold_entries_rule (fun _ => .refl) ReflTransGen.trans (purgeHandOff ctx) (purgeHandOff_steps ctx)
    (purgeHandOff_keeps ctx) _ d d.handedOffReservations.distinct (pool_present d)

theorem purgeExpiredHandOffs_active (ctx : Context) {id : Nat} (live : isActive d id = true)
    (inTime : ∀ key entry, d.handedOffReservations.get key = some entry → entry.reservation = id →
      ctx.world.now < entry.expiresAt) : isActive (purgeExpiredHandOffs ctx d) id = true := by
  have turns : ∀ (entries : List (String × HandOff)) (d : Disk), isActive d id = true →
      (∀ entry ∈ entries, entry.2.reservation = id → ctx.world.now < entry.2.expiresAt) →
      isActive (entries.foldl (purgeHandOff ctx) d) id = true := by
    intro entries
    induction entries with
    | nil => intro d held _; exact held
    | cons entry rest ih =>
      intro d held timely
      refine ih _ ?_ (fun other member => timely other (List.mem_cons_of_mem _ member))
      unfold purgeHandOff
      split
      · exact held
      · next late =>
        refine releaseReservation_active ctx ?_ held
        intro same
        exact late (timely entry (by simp) same.symm)
  exact turns _ d live fun entry member same => inTime entry.1 entry.2 (pool_present d entry member) same

theorem takeHandedOffReservation_cases (ctx : Context) (d : Disk) (key : String) :
    (∃ entry, d.handedOffReservations.get key = some entry ∧ isActive d entry.reservation = true ∧
      ctx.world.now < entry.expiresAt ∧
      takeHandedOffReservation ctx d key = (some entry.reservation,unpooled d key)) ∨
    ∃ d', takeHandedOffReservation ctx d key = (none,d') ∧ Steps ctx d d' := by
  unfold takeHandedOffReservation
  cases found : d.handedOffReservations.get key with
  | none => exact .inr ⟨d,rfl,.refl⟩
  | some entry =>
    by_cases stale : entry.expiresAt ≤ ctx.world.now ∨ (!isActive (unpooled d key) entry.reservation) = true
    · exact .inr ⟨_,if_pos stale,discard_steps ctx d key entry found⟩
    · refine .inl ⟨entry,rfl,?_,?_,if_neg stale⟩
      · by_contra off
        exact stale (.inr (by simpa [unpooled,isActive] using off))
      · by_contra late
        exact stale (.inl (by omega))

theorem returnReplaced_steps (ctx : Context) (d : Disk) (key : String) (id : Nat) :
    Steps ctx d (returnReplaced ctx d key id) := by
  unfold returnReplaced
  split
  · exact .refl
  · split
    · exact releaseReservation_steps ctx d _
    · exact .refl

theorem handOffToSession_moves (ctx : Context) (d : Disk) (key : String) (id : Nat) :
    ∃ d', Steps ctx d d' ∧ Move ctx (.back id) d' (handOffToSession ctx d key id) :=
  ⟨returnReplaced ctx (purgeExpiredHandOffs ctx d) key id,
    (purgeExpiredHandOffs_steps ctx d).trans (returnReplaced_steps ctx _ key id),.put _ key id⟩

/-! ### Requests -/

theorem legalBytes_positive {bytes : Number} {n : Int} (legal : legalBytes bytes = some n) : 0 < n := by
  unfold legalBytes at legal
  split at legal
  · next m _ =>
    by_cases positive : 0 < m
    · rw [if_pos positive] at legal; cases legal; exact positive
    · rw [if_neg positive] at legal; cases legal
  · cases legal

def grantedNow (ctx : Context) (d : Disk) (key : String) (bytes : Int) (counts : Bool) : Disk :=
  answer (recordDiskWaitOutcome (createReservation ctx d key bytes counts) .granted none)
    (.granted (diskGrant ctx d key bytes counts))

/-- A request that adopts nothing is refused, granted because it is admitted, or joins the queue. -/
theorem reserveFresh_cases (ctx : Context) (d : Disk) (o : ReserveOptions) (bytes : Int) :
    Steps ctx d (reserveFresh ctx d o bytes) ∨
    (Admitted ctx d bytes o.countsTowardCache ∧
      reserveFresh ctx d o bytes = grantedNow ctx d o.sessionKey bytes o.countsTowardCache) ∨
    reserveFresh ctx d o bytes = ensurePollTimer (enqueueDisk ctx d o bytes) := by
  unfold reserveFresh
  by_cases failed : probeAdmissionFreeBytes ctx < 0
  · simp only [failed]
    exact .inl (.single (.reject d _ rfl))
  simp only [failed,tryGrant]
  cases verdict : evaluateGrant ctx d bytes o.countsTowardCache (probeAdmissionFreeBytes ctx) with
  | ok => exact .inr (.inl ⟨⟨by omega,verdict⟩,rfl⟩)
  | refused structural reason =>
    cases structural with
    | true => exact .inl (.single (.refuse d .directDegrade _ rfl))
    | false =>
      simp only [Bool.false_eq_true,↓reduceIte]
      split
      · exact .inl (.single (.refuse d .queueFull _ rfl))
      · exact .inr (.inr rfl)

/-- Where a well-formed request that adopts nothing is evaluated: an expired or
    too small entry of its session is back. -/
def evaluatedAt (ctx : Context) (d : Disk) (o : ReserveOptions) (bytes : Int) : Option Disk :=
  match takeHandedOffReservation ctx d o.sessionKey with
  | (some handedOff,taken) =>
    if bytes ≤ grantedBytes taken handedOff then none else some (releaseReservation ctx taken handedOff)
  | (none,taken) => some taken

theorem evaluatedAt_steps
    (evaluated : evaluatedAt ctx d o bytes = some d') : Steps ctx d d' := by
  unfold evaluatedAt at evaluated
  rcases takeHandedOffReservation_cases ctx d o.sessionKey with ⟨entry,found,_,_,taken⟩ | ⟨after,taken,steps⟩
  · rw [taken] at evaluated
    simp only at evaluated
    split at evaluated
    · cases evaluated
    · cases evaluated
      exact discard_steps ctx d o.sessionKey entry found
  · rw [taken] at evaluated
    cases evaluated
    exact steps

theorem evaluatedAt_nextRequest
    (evaluated : evaluatedAt ctx d o bytes = some d') : d'.nextRequest = d.nextRequest := by
  unfold evaluatedAt takeHandedOffReservation at evaluated
  cases found : d.handedOffReservations.get o.sessionKey with
  | none =>
    simp only [found,Option.some.injEq] at evaluated
    rw [evaluated]
  | some entry =>
    simp only [found] at evaluated
    by_cases stale : entry.expiresAt ≤ ctx.world.now ∨ (!isActive (unpooled d o.sessionKey) entry.reservation) = true
    · simp only [unpooled] at stale
      simp only [stale,↓reduceIte,Option.some.injEq] at evaluated
      rw [← evaluated,releaseReservation_nextRequest]
    · simp only [unpooled] at stale
      simp only [stale,↓reduceIte] at evaluated
      split at evaluated
      · cases evaluated
      · cases evaluated
        rw [releaseReservation_nextRequest]

theorem evaluatedAt_of_unpooled (ctx : Context) (bytes : Int)
    (absent : d.handedOffReservations.get o.sessionKey = none) : evaluatedAt ctx d o bytes = some d := by
  simp only [evaluatedAt,takeHandedOffReservation,absent]

theorem reserve_of_admitted
    (legal : legalBytes o.bytes = some bytes) (signal : o.signal ≠ .aborted)
    (evaluated : evaluatedAt ctx d o bytes = some d') (admitted : Admitted ctx d' bytes o.countsTowardCache) :
    reserve ctx false d o = grantedNow ctx d' o.sessionKey bytes o.countsTowardCache := by
  have freshly : reserveAdmitted ctx d o bytes = reserveFresh ctx d' o bytes := by
    unfold evaluatedAt at evaluated
    unfold reserveAdmitted
    rcases took : takeHandedOffReservation ctx d o.sessionKey with ⟨result,taken⟩
    cases result with
    | some handedOff =>
      simp only [took] at evaluated ⊢
      by_cases small : bytes ≤ grantedBytes taken handedOff
      · simp only [small] at evaluated
        cases evaluated
      · simp only [small,↓reduceIte,Option.some.injEq] at evaluated ⊢
        rw [evaluated]
    | none =>
      simp only [took,Option.some.injEq] at evaluated ⊢
      rw [evaluated]
  have granted : reserveFresh ctx d' o bytes = grantedNow ctx d' o.sessionKey bytes o.countsTowardCache := by
    have probed : ¬ probeAdmissionFreeBytes ctx < 0 := not_lt.mpr admitted.1
    simp only [reserveFresh,probed,tryGrant,admitted.2]
    rfl
  simp only [reserve,Bool.false_eq_true,↓reduceIte,legal,if_neg signal,freshly,granted]

theorem reserveAdmitted_cases (ctx : Context) (d : Disk) (o : ReserveOptions) (bytes : Int) :
    (∃ entry, d.handedOffReservations.get o.sessionKey = some entry ∧ isActive d entry.reservation = true ∧
      ctx.world.now < entry.expiresAt ∧ bytes ≤ grantedBytes d entry.reservation ∧
      reserveAdmitted ctx d o bytes = answer (unpooled d o.sessionKey) (.adopted entry.reservation)) ∨
    ∃ d', evaluatedAt ctx d o bytes = some d' ∧ reserveAdmitted ctx d o bytes = reserveFresh ctx d' o bytes := by
  unfold reserveAdmitted evaluatedAt
  rcases takeHandedOffReservation_cases ctx d o.sessionKey with ⟨entry,found,live,inTime,taken⟩ | ⟨after,taken,_⟩
  · rw [taken]
    by_cases enough : bytes ≤ grantedBytes (unpooled d o.sessionKey) entry.reservation
    · exact .inl ⟨entry,found,live,inTime,enough,if_pos enough⟩
    · exact .inr ⟨_,if_neg enough,if_neg enough⟩
  · rw [taken]
    exact .inr ⟨after,rfl,rfl⟩

/-- A request settles inside the operation, is granted a new reservation at once
    because it is admitted, or joins the queue. -/
theorem reserve_cases (ctx : Context) (shuttingDown : Bool) (d : Disk) (o : ReserveOptions) :
    Steps ctx d (reserve ctx shuttingDown d o) ∨
      ∃ bytes d', shuttingDown = false ∧ legalBytes o.bytes = some bytes ∧ o.signal ≠ .aborted ∧
        evaluatedAt ctx d o bytes = some d' ∧
        ((Admitted ctx d' bytes o.countsTowardCache ∧
          reserve ctx shuttingDown d o = grantedNow ctx d' o.sessionKey bytes o.countsTowardCache) ∨
        reserve ctx shuttingDown d o = ensurePollTimer (enqueueDisk ctx d' o bytes)) := by
  unfold reserve
  cases shuttingDown with
  | true => exact .inl (.single (.reject d _ rfl))
  | false =>
    cases legal : legalBytes o.bytes with
    | none => exact .inl (.single (.reject d _ rfl))
    | some bytes =>
      simp only
      by_cases aborted : o.signal = .aborted
      · rw [if_pos aborted]
        exact .inl (.single (.reject d _ rfl))
      rw [if_neg aborted]
      rcases reserveAdmitted_cases ctx d o bytes with ⟨entry,found,live,inTime,_,adopted⟩ | ⟨d',evaluated,freshly⟩
      · rw [adopted]
        exact .inl (.single (.adopt d o.sessionKey entry found live inTime))
      · rw [freshly]
        rcases reserveFresh_cases ctx d' o bytes with inside | decided
        · exact .inl ((evaluatedAt_steps evaluated).trans inside)
        · exact .inr ⟨bytes,d',trivial,rfl,aborted,evaluated,decided⟩

theorem reserve_numbered (ctx : Context) (shuttingDown : Bool) (d : Disk) (o : ReserveOptions) :
    (reserve ctx shuttingDown d o).nextRequest = d.nextRequest + 1 := by
  have freshly : ∀ (d' : Disk) (bytes : Int), (reserveFresh ctx d' o bytes).nextRequest = d'.nextRequest + 1 := by
    intro d' bytes
    unfold reserveFresh
    by_cases failed : probeAdmissionFreeBytes ctx < 0
    · simp only [failed]
      rfl
    simp only [failed,↓reduceIte,tryGrant]
    cases evaluateGrant ctx d' bytes o.countsTowardCache (probeAdmissionFreeBytes ctx) with
    | ok => rfl
    | refused structural reason =>
      simp only
      split
      · rfl
      · split <;> rfl
  unfold reserve
  split
  · rfl
  split
  · rfl
  next bytes legal =>
  split
  · rfl
  · rcases reserveAdmitted_cases ctx d o bytes with ⟨entry,_,_,_,_,adopted⟩ | ⟨d',evaluated,same⟩
    · rw [adopted]
      rfl
    · rw [same,freshly,evaluatedAt_nextRequest evaluated]

theorem reserve_path (ctx : Context) {kinds : Kind → Prop} (inner : kinds .inner) (immediate : kinds .immediate)
    (joined : kinds .joined) (shuttingDown : Bool) (d : Disk) (o : ReserveOptions) :
    Path ctx kinds d (reserve ctx shuttingDown d o) := by
  rcases reserve_cases ctx shuttingDown d o with steps | ⟨bytes,d',_,legal,_,evaluated,decided⟩
  · exact chain_of_kind inner steps
  have before := chain_of_kind inner (evaluatedAt_steps evaluated)
  have positive := legalBytes_positive legal
  rcases decided with ⟨admitted,granted⟩ | queued
  · rw [granted]
    exact before.tail ⟨.immediate,immediate,.grant d' o.sessionKey bytes o.countsTowardCache positive admitted⟩
  · rw [queued]
    exact before.tail ⟨.joined,joined,.enqueue d' o bytes positive⟩

theorem tryReserveNow_moves (ctx : Context) (shuttingDown : Bool) (d : Disk) (key : String) (bytes : Number)
    (counts : Bool) :
    ((tryReserveNow ctx shuttingDown d key bytes counts).1 = none ∧
      Steps ctx d (tryReserveNow ctx shuttingDown d key bytes counts).2) ∨
    ∃ id d', (tryReserveNow ctx shuttingDown d key bytes counts).1 = some id ∧ Steps ctx d d' ∧
      Move ctx (.out id) d' (tryReserveNow ctx shuttingDown d key bytes counts).2 := by
  unfold tryReserveNow
  cases shuttingDown with
  | true => exact .inl ⟨rfl,.refl⟩
  | false =>
    simp only [Bool.false_eq_true,↓reduceIte]
    cases legal : legalBytes bytes with
    | none => exact .inl ⟨rfl,.refl⟩
    | some n =>
      unfold tryReserveAdmitted
      rcases takeHandedOffReservation_cases ctx d key with ⟨entry,found,live,inTime,taken⟩ | ⟨after,taken,steps⟩
      · rw [taken]
        simp only
        split
        · exact .inr ⟨entry.reservation,d,rfl,.refl,.take d key entry found live inTime⟩
        · exact .inl ⟨rfl,discard_steps ctx d key entry found⟩
      · rw [taken]
        by_cases failed : probeAdmissionFreeBytes ctx < 0
        · simp only [failed,↓reduceIte]
          exact .inl ⟨trivial,steps⟩
        simp only [failed,tryGrant]
        cases verdict : evaluateGrant ctx after n counts (probeAdmissionFreeBytes ctx) with
        | refused structural reason => exact .inl ⟨rfl,steps⟩
        | ok =>
          exact .inr ⟨after.records.length,after,rfl,steps,
            .hold after key n counts (legalBytes_positive legal) ⟨by omega,verdict⟩⟩

theorem consumedBytes_le (record : ReservationRecord) (bytes : Number) (nonneg : 0 ≤ record.remainingBytes) :
    consumedBytes record bytes ≤ record.remainingBytes := by
  unfold consumedBytes
  split
  · split
    · exact nonneg
    · exact min_le_left _ _
  · exact nonneg

theorem consumeReservation_cases (ctx : Context) (d : Disk) (id : Nat) (bytes : Number) :
    consumeReservation d id bytes = d ∨
      ∃ record, d.records[id]? = some record ∧ record.active = true ∧ 0 < consumedBytes record bytes ∧
        consumedBytes record bytes ≤ record.remainingBytes ∧
        Move ctx .drawn d (consumeReservation d id bytes) ∧
        consumeReservation d id bytes = { d with
          records := d.records.modify id
            (fun r => { r with remainingBytes := r.remainingBytes - consumedBytes record bytes })
          reservedPendingBytes := max 0 (d.reservedPendingBytes - consumedBytes record bytes) } := by
  unfold consumeReservation
  cases found : d.records[id]? with
  | none => exact .inl rfl
  | some record =>
    cases active : record.active with
    | false => simp only [active,Bool.not_false,↓reduceIte]; exact .inl trivial
    | true =>
      simp only [active]
      by_cases nothing : consumedBytes record bytes ≤ 0
      · rw [if_pos nothing]
        exact .inl rfl
      rw [if_neg nothing]
      have most : consumedBytes record bytes ≤ record.remainingBytes := by
        unfold consumedBytes at nothing ⊢
        split
        · next q =>
          by_cases negative : q ≤ 0
          · simp [negative] at nothing
          · rw [if_neg negative]; exact min_le_left _ _
        · simp at nothing
      exact .inr ⟨record,rfl,active,by omega,most,.consume d id record found active _ (by omega) most,rfl⟩

theorem consumeReservation_frame (d : Disk) (id : Nat) (bytes : Number) :
    (consumeReservation d id bytes).handedOffReservations = d.handedOffReservations ∧
      ∀ other, isActive d other = true → isActive (consumeReservation d id bytes) other = true := by
  unfold consumeReservation
  split
  · exact ⟨rfl,fun _ live => live⟩
  split
  · exact ⟨rfl,fun _ live => live⟩
  split
  · exact ⟨rfl,fun _ live => live⟩
  refine ⟨rfl,fun other live => ?_⟩
  unfold isActive at live ⊢
  simp only [List.getElem?_modify]
  cases found : d.records[other]? with
  | none => simp [found] at live
  | some record =>
    rw [found] at live
    by_cases here : id = other
    · simpa [here] using live
    · simpa [here] using live

theorem waiterOf_some {request : Nat} {waiter : DiskWaiter} (found : waiterOf d request = some waiter) :
    waiter ∈ d.waitingDisk ∧ waiter.id = request :=
  ⟨List.mem_of_find?_eq_some found,by simpa using List.find?_some found⟩

theorem timeoutCallback_steps (ctx : Context) (d : Disk) (request : Nat) :
    Steps ctx d (timeoutCallback ctx d request) := by
  unfold timeoutCallback
  cases found : waiterOf d request with
  | none => exact .refl
  | some waiter =>
    obtain ⟨member,rfl⟩ := waiterOf_some found
    rw [removeDiskWaiter_of_mem member]
    exact .head (.leave d waiter member _ _ _ (.timeout _ _)) (pumpDisk_steps ctx _)

theorem abortCallback_steps (ctx : Context) (d : Disk) (request : Nat) :
    Steps ctx d (abortCallback ctx d request) := by
  unfold abortCallback
  cases found : waiterOf d request with
  | none => exact .refl
  | some waiter =>
    obtain ⟨member,rfl⟩ := waiterOf_some found
    rw [removeDiskWaiter_of_mem member]
    exact .head (.leave d waiter member _ _ _ (.cancelled _ _)) (pumpDisk_steps ctx _)

theorem fireTimer_steps (ctx : Context) (d : Disk) (request : Nat) : Steps ctx d (fireTimer ctx d request) := by
  unfold fireTimer
  split
  · exact timeoutCallback_steps ctx d request
  · exact .refl

theorem fireAbort_steps (ctx : Context) (d : Disk) (request : Nat) : Steps ctx d (fireAbort ctx d request) := by
  unfold fireAbort
  split
  · exact abortCallback_steps ctx d request
  · exact .refl

theorem fireAbort_active (ctx : Context) (request : Nat) {id : Nat} (live : isActive d id = true) :
    isActive (fireAbort ctx d request) id = true := by
  unfold fireAbort
  split
  · unfold abortCallback
    cases found : waiterOf d request with
    | none => exact live
    | some waiter =>
      obtain ⟨member,rfl⟩ := waiterOf_some found
      rw [removeDiskWaiter_of_mem member]
      exact pumpDisk_active ctx live
  · exact live

theorem fireAbort_pool (ctx : Context) (d : Disk) (request : Nat) :
    (fireAbort ctx d request).handedOffReservations = d.handedOffReservations := by
  unfold fireAbort
  split
  · unfold abortCallback
    cases found : waiterOf d request with
    | none => rfl
    | some waiter =>
      obtain ⟨member,rfl⟩ := waiterOf_some found
      rw [removeDiskWaiter_of_mem member,pumpDisk_pool]
      rfl
  · rfl

theorem pollTick_steps (ctx : Context) (d : Disk) : Steps ctx d (pollTick ctx d) := by
  unfold pollTick
  split
  · exact .refl
  · split
    · next queue => exact .single (.rest d queue)
    · exact pumpDisk_steps ctx d

theorem evictionSettled_steps (ctx : Context) (d : Disk) : Steps ctx d (evictionSettled ctx d) := by
  unfold evictionSettled
  split
  · exact .head (.evict d false d.lastEvictionAt) (pumpDisk_steps ctx _)
  · exact .refl

/-! ### Shutdown -/

theorem shutdownHandOff_steps (ctx : Context) (d : Disk) (entry : String × HandOff)
    (found : d.handedOffReservations.get entry.1 = some entry.2) : Steps ctx d (shutdownHandOff ctx d entry) := by
  refine (releaseReservation_steps ctx d entry.2.reservation).tail (.forget _ entry.1 ?_)
  intro other same
  rw [releaseReservation_pool,found] at same
  cases same
  exact releaseReservation_inactive ctx d entry.2.reservation

theorem shutdownHandOff_keeps (ctx : Context) (d : Disk) (entry : String × HandOff) (key : String)
    (other : key ≠ entry.1) :
    (shutdownHandOff ctx d entry).handedOffReservations.get key = d.handedOffReservations.get key := by
  unfold shutdownHandOff
  simp only
  rw [releaseReservation_pool]
  exact get_delete_other d.handedOffReservations other

def Unsettled (d : Disk) : Prop := ∀ w ∈ d.waitingDisk, w.settled = false

theorem shutdownWaiters_rule {rel : Disk → Disk → Prop} (refl : ∀ d, rel d d)
    (trans : ∀ {d d' d''}, rel d d' → rel d' d'' → rel d d'')
    (leave : ∀ d waiter, waiter ∈ d.waitingDisk → rel d (emit (recordDiskWaitOutcome (without d waiter.id) .shutdown none)
      (.left waiter.id (.shutdown shuttingDownError)))) : ∀ (waiters : List DiskWaiter) (d : Disk),
    d.waitingDisk = waiters → Unsettled d → rel d (waiters.foldl shutdownWaiter { d with waitingDisk := [] }) := by
  intro waiters
  induction waiters with
  | nil =>
    intro d queue _
    rw [List.foldl_nil,← queue]
    exact refl d
  | cons waiter rest ih =>
    intro d queue unsettled
    have pending : waiter.settled = false := unsettled waiter (by simp [queue])
    have shorter : (without d waiter.id).waitingDisk = rest := by simp [without,detachWaiter,queue]
    have later := ih (emit (recordDiskWaitOutcome (without d waiter.id) .shutdown none)
      (.left waiter.id (.shutdown shuttingDownError))) shorter (by
        intro w member
        rw [show (emit (recordDiskWaitOutcome (without d waiter.id) .shutdown none)
          (.left waiter.id (.shutdown shuttingDownError))).waitingDisk = rest from shorter] at member
        exact unsettled w (by simp [queue,member]))
    refine trans (leave d waiter (by simp [queue])) ?_
    have turn : shutdownWaiter { d with waitingDisk := [] } waiter =
        { emit (recordDiskWaitOutcome (without d waiter.id) .shutdown none)
          (.left waiter.id (.shutdown shuttingDownError)) with waitingDisk := [] } := by
      simp only [shutdownWaiter,pending]
      rfl
    rw [List.foldl_cons,turn]
    exact later

theorem move_unsettled (move : Move ctx kind d d')
    (unsettled : Unsettled d) : Unsettled d' := by
  cases move with
  | serve _ head rest queue | leave _ waiter member outcome waited ending leaves =>
    intro w member
    exact unsettled w (List.mem_of_mem_eraseP member)
  | enqueue _ o bytes positive =>
    intro w member
    rcases List.mem_append.mp member with old | new
    · exact unsettled w old
    · rw [List.mem_singleton.mp new]
  | _ => exact unsettled

theorem path_unsettled {kinds : Kind → Prop} (path : Path ctx kinds d d')
    (unsettled : Unsettled d) : Unsettled d' :=
  chain_invariant path (fun _ _ _ _ move => move_unsettled move) unsettled

theorem shutdownPool_steps (ctx : Context) (d : Disk) :
    Steps ctx d (d.handedOffReservations.entries.foldl (shutdownHandOff ctx) d) :=
  fold_entries_rule (fun _ => .refl) ReflTransGen.trans (shutdownHandOff ctx) (shutdownHandOff_steps ctx)
    (shutdownHandOff_keeps ctx) _ d d.handedOffReservations.distinct (pool_present d)

theorem shutdown_steps (ctx : Context) (d : Disk) (unsettled : Unsettled d) :
    Steps ctx (stopPollTimer d) (shutdown ctx d) := by
  have pool := shutdownPool_steps ctx (stopPollTimer d)
  have inside : Path ctx (fun _ => True) (stopPollTimer d) _ := chain_of_kind trivial pool
  exact pool.trans (shutdownWaiters_rule (fun _ => .refl) ReflTransGen.trans
    (fun d waiter member => .single (.leave d waiter member .shutdown none _ (.shutdown shuttingDownError))) _ _ rfl
    (path_unsettled inside unsettled))

theorem shutdown_queue (ctx : Context) (d : Disk) : (shutdown ctx d).waitingDisk = [] := by
  have kept : ∀ (waiters : List DiskWaiter) (d : Disk),
      (waiters.foldl shutdownWaiter d).waitingDisk = d.waitingDisk := by
    intro waiters
    induction waiters with
    | nil => intro d; rfl
    | cons waiter rest ih =>
      intro d
      rw [List.foldl_cons,ih]
      unfold shutdownWaiter
      split <;> rfl
  exact kept _ _

theorem waitingIds_without (d : Disk) (id : Nat) : (waitingIds (without d id)).Sublist (waitingIds d) :=
  List.eraseP_sublist.map _

/-- The queue stands in the order of arrival, and request numbers are never used again. -/
def Ordered (d : Disk) : Prop := InOrder (waitingIds d) d.nextRequest

theorem move_waitingIds (move : Move ctx kind d d') :
    ((waitingIds d').Sublist (waitingIds d) ∧ d.nextRequest ≤ d'.nextRequest) ∨
      (kind = .joined ∧ waitingIds d' = waitingIds d ++ [d.nextRequest] ∧ d'.nextRequest = d.nextRequest + 1) := by
  cases move with
  | enqueue => exact .inr ⟨rfl,by simp [waitingIds,enqueueDisk,ensurePollTimer,emit],rfl⟩
  | serve _ head => exact .inl ⟨waitingIds_without d head.id,le_refl _⟩
  | leave _ waiter => exact .inl ⟨waitingIds_without d waiter.id,le_refl _⟩
  | reject | refuse | adopt | grant => exact .inl ⟨List.Sublist.refl _,Nat.le_succ _⟩
  | _ => exact .inl ⟨List.Sublist.refl _,le_refl _⟩

theorem move_ordered (move : Move ctx kind d d') (ordered : Ordered d) :
    Ordered d' := by
  rcases move_waitingIds move with ⟨thinner,later⟩ | ⟨_,joined,next⟩
  · exact inOrder_thin ordered thinner later
  · unfold Ordered
    rw [joined,next]
    exact inOrder_join ordered

open Coordinator in
/-- The kinds of changes an operation makes to the disk half. -/
def Does : Op → Kind → Prop
  | _, .inner => True
  | .consume _ _, .drawn => True
  | .reserve _, .joined => True
  | .reserve _, .immediate => True
  | .tryReserveNow _ _ _, .out _ => True
  | .handOffToSession _ id, .back other => other = id
  | .shutdown, .halted => True
  | .reset, .halted => True
  | _, _ => False

open Coordinator in
theorem step_path (s : Service) (op : Op) (unsettled : Unsettled s.disk) :
    Path (step s op).ctx (Does op) s.disk (step s op).disk := by
  cases op with
  | observe | acquireUpstreamSlot | releaseLease | upstreamTimeout | upstreamAbort | setActiveUpstreamCount =>
    exact .refl
  | reserve o => exact reserve_path s.ctx trivial trivial trivial s.shuttingDown s.disk o
  | tryReserveNow key bytes counts =>
    rcases tryReserveNow_moves s.ctx s.shuttingDown s.disk key bytes counts with ⟨_,steps⟩ | ⟨id,d',_,steps,move⟩
    · exact chain_of_kind trivial steps
    · exact (chain_of_kind trivial steps).tail ⟨.out id,trivial,move⟩
  | consume id bytes =>
    rcases consumeReservation_cases s.ctx s.disk id bytes with same | ⟨record,_,_,_,_,move,_⟩
    · show Path _ _ s.disk (consumeReservation s.disk id bytes)
      rw [same]
    · exact .single ⟨.drawn,trivial,move⟩
  | release id => exact chain_of_kind trivial (releaseReservation_steps s.ctx s.disk id)
  | handOffToSession key id =>
    rw [step]
    split
    · obtain ⟨d',steps,move⟩ := handOffToSession_moves s.ctx s.disk key id
      exact (chain_of_kind trivial steps).tail ⟨.back id,rfl,move⟩
    · exact .refl
  | purgeExpiredHandOffs => exact chain_of_kind trivial (purgeExpiredHandOffs_steps s.ctx s.disk)
  | diskTimeout request => exact chain_of_kind trivial (fireTimer_steps s.ctx s.disk request)
  | diskAbort request => exact chain_of_kind trivial (fireAbort_steps s.ctx s.disk request)
  | pollTick => exact chain_of_kind trivial (pollTick_steps s.ctx s.disk)
  | evictionSettled => exact chain_of_kind trivial (evictionSettled_steps s.ctx s.disk)
  | configure update => exact chain_of_kind trivial (pumpDisk_steps (step s (.configure update)).ctx s.disk)
  | shutdown =>
    rw [step,Coordinator.shutdown]
    split
    · exact .refl
    · exact .head ⟨.halted,trivial,.halt s.disk⟩ (chain_of_kind trivial (shutdown_steps s.ctx s.disk unsettled))
  | reset => exact .single ⟨.halted,trivial,.halt s.disk⟩

open Coordinator in
theorem reachable_disk {inv : Disk → Prop} {allowed : Service → Op → Prop} {config : Config} {world : World}
    {evictionHook : Bool} (base : inv (DiskQueue.fresh evictionHook))
    (keep : ∀ ctx kind d d', Move ctx kind d d' → inv d → inv d') {s : Service}
    (reach : Reachable step allowed (Coordinator.fresh config world evictionHook) s) :
    Unsettled s.disk ∧ inv s.disk := by
  induction reach with
  | start => exact ⟨by simp [Unsettled,Coordinator.fresh,DiskQueue.fresh],base⟩
  | next op _ _ ih =>
    have path := step_path _ op ih.1
    exact ⟨path_unsettled path ih.1,chain_invariant path (fun kind d d' _ move => keep _ kind d d' move) ih.2⟩

end Tgtc.DiskMoves
