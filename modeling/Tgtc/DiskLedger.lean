import Mathlib.Tactic.Ring
import Tgtc.DiskMoves
import Tgtc.Store

/-!
The ledger of disk reservations. `reservedPendingBytes` and `cacheReservedBytes` are kept by hand on six paths that
call each other; in every state they are the sums over the active records.
-/
namespace Tgtc.DiskLedger
open Numbers Resources DiskQueue DiskMoves Coordinator Runs
open Store (amount total total_open total_close total_modify amount_of_found amount_le_total)

def pendingPart (_ : Nat) (record : ReservationRecord) : Int := record.remainingBytes

def cachePart (_ : Nat) (record : ReservationRecord) : Int :=
  if record.countsTowardCache then record.grantedBytes else 0

structure Ledger (d : Disk) : Prop where
  distinct : d.reservations.Nodup
  known : ∀ id ∈ d.reservations, id < d.records.length
  live : ∀ (id : Nat) (record : ReservationRecord), d.records[id]? = some record → (id ∈ d.reservations ↔ record.active = true)
  bounds : ∀ (id : Nat) (record : ReservationRecord), d.records[id]? = some record →
    0 ≤ record.remainingBytes ∧ record.remainingBytes ≤ record.grantedBytes
  pending : d.reservedPendingBytes = total pendingPart d.records d.reservations
  cached : d.cacheReservedBytes = total cachePart d.records d.reservations
  asked : ∀ w ∈ d.waitingDisk, 0 < w.bytes

theorem ledger_fresh (evictionHook : Bool) : Ledger (fresh evictionHook) := by
  refine ⟨List.nodup_nil,?_,?_,?_,rfl,rfl,?_⟩
  · intro id member; cases member
  · intro id record found; cases found
  · intro id record found; cases found
  · intro w member; cases member

variable {d : Disk} {record : ReservationRecord}

theorem ledger_record (ledger : Ledger d) {id : Nat} (member : id ∈ d.reservations) :
    ∃ record, d.records[id]? = some record :=
  ⟨_,List.getElem?_eq_getElem (ledger.known id member)⟩

theorem cachePart_nonneg (ledger : Ledger d) {id : Nat}
    (found : d.records[id]? = some record) : 0 ≤ cachePart id record := by
  have := ledger.bounds id record found
  unfold cachePart
  split <;> omega

theorem remaining_le_pending (ledger : Ledger d) {id : Nat}
    (found : d.records[id]? = some record) (active : record.active = true) :
    record.remainingBytes ≤ d.reservedPendingBytes := by
  have nonneg : ∀ other ∈ d.reservations, 0 ≤ amount pendingPart d.records other := by
    intro other member
    obtain ⟨r,at_other⟩ := ledger_record ledger member
    rw [amount_of_found pendingPart at_other]
    exact (ledger.bounds other r at_other).1
  have part := amount_le_total pendingPart nonneg ((ledger.live id record found).mpr active)
  rw [amount_of_found pendingPart found,← ledger.pending] at part
  exact part

theorem cachePart_le_cached (ledger : Ledger d) {id : Nat}
    (found : d.records[id]? = some record) (active : record.active = true) :
    cachePart id record ≤ d.cacheReservedBytes := by
  have nonneg : ∀ other ∈ d.reservations, 0 ≤ amount cachePart d.records other := by
    intro other member
    obtain ⟨r,at_other⟩ := ledger_record ledger member
    rw [amount_of_found cachePart at_other]
    exact cachePart_nonneg ledger at_other
  have part := amount_le_total cachePart nonneg ((ledger.live id record found).mpr active)
  rw [amount_of_found cachePart found,← ledger.cached] at part
  exact part

theorem ledger_open (ctx : Context) (ledger : Ledger d) (key : String) {bytes : Int} (positive : 0 < bytes)
    (counts : Bool) : Ledger (createReservation ctx d key bytes counts) := by
  have fresh : d.records.length ∉ d.reservations := fun member =>
    absurd (ledger.known _ member) (Nat.lt_irrefl _)
  refine ⟨?_,?_,?_,?_,?_,?_,ledger.asked⟩
  · exact ledger.distinct.append (List.nodup_singleton _) (by simpa using fresh)
  · intro id member
    simp only [createReservation,List.length_append,List.length_singleton]
    rcases List.mem_append.mp member with old | new
    · have := ledger.known id old; omega
    · rw [List.mem_singleton.mp new]; omega
  · intro id record found
    simp only [createReservation,List.mem_append,List.mem_singleton] at found ⊢
    rcases Nat.lt_trichotomy id d.records.length with old | new | beyond
    · rw [List.getElem?_append_left old] at found
      rw [← ledger.live id record found]
      exact ⟨fun h => h.resolve_right (by omega),.inl⟩
    · subst new
      simp only [List.getElem?_concat_length,Option.some.injEq] at found
      subst found
      simp
    · rw [List.getElem?_eq_none (by simp; omega)] at found
      cases found
  · intro id record found
    simp only [createReservation] at found
    by_cases old : id < d.records.length
    · rw [List.getElem?_append_left old] at found
      exact ledger.bounds id record found
    have member := List.mem_of_getElem? found
    rcases List.mem_append.mp member with earlier | new
    · rw [List.getElem?_append_right (by omega)] at found
      rw [List.mem_singleton.mp (List.mem_of_getElem? found)]
      exact ⟨by show 0 ≤ bytes; omega,le_refl _⟩
    · rw [List.mem_singleton.mp new]
      exact ⟨by show 0 ≤ bytes; omega,le_refl _⟩
  · simp only [createReservation]
    rw [total_open pendingPart ledger.known,ledger.pending]
    rfl
  · simp only [createReservation]
    rw [total_open cachePart ledger.known,ledger.cached]
    cases counts with
    | true => rfl
    | false => simp [cachePart]

theorem modify_found {records : List ReservationRecord} {at_id id : Nat} {f : ReservationRecord → ReservationRecord}
    (found : (records.modify at_id f)[id]? = some record) :
    ∃ old, records[id]? = some old ∧ record = if at_id = id then f old else old := by
  rw [List.getElem?_modify] at found
  cases before : records[id]? with
  | none => rw [before] at found; cases found
  | some old =>
    rw [before] at found
    exact ⟨old,rfl,by simpa using found.symm⟩

theorem ledger_consume (ledger : Ledger d) {id : Nat}
    (found : d.records[id]? = some record) (active : record.active = true) {spent : Int} (positive : 0 < spent)
    (most : spent ≤ record.remainingBytes) :
    Ledger { d with
      records := d.records.modify id (fun r => { r with remainingBytes := r.remainingBytes - spent })
      reservedPendingBytes := max 0 (d.reservedPendingBytes - spent) } := by
  have member : id ∈ d.reservations := (ledger.live id record found).mpr active
  have part := remaining_le_pending ledger found active
  refine ⟨ledger.distinct,?_,?_,?_,?_,?_,ledger.asked⟩
  · intro other inside
    simpa using ledger.known other inside
  · intro other r at_other
    obtain ⟨old,before,rfl⟩ := modify_found at_other
    rw [ledger.live other old before]
    split <;> rfl
  · intro other r at_other
    obtain ⟨old,before,rfl⟩ := modify_found at_other
    have old_bounds := ledger.bounds other old before
    split
    · next same =>
      subst same
      rw [found] at before
      cases before
      exact ⟨by show 0 ≤ record.remainingBytes - spent; omega,
        by show record.remainingBytes - spent ≤ record.grantedBytes; omega⟩
    · exact old_bounds
  · rw [total_modify pendingPart ledger.distinct member found,← ledger.pending]
    simp only [pendingPart]
    omega
  · rw [total_modify cachePart ledger.distinct member found,← ledger.cached]
    simp only [cachePart]
    omega

theorem ledger_retire (ledger : Ledger d) {id : Nat}
    (found : d.records[id]? = some record) (active : record.active = true) : Ledger (retire d id record) := by
  have member : id ∈ d.reservations := (ledger.live id record found).mpr active
  have pendingPart_le := remaining_le_pending ledger found active
  have cachePart_le := cachePart_le_cached ledger found active
  have off : id ∉ d.reservations.filter (· ≠ id) := by simp
  refine ⟨ledger.distinct.filter _,?_,?_,?_,?_,?_,ledger.asked⟩
  · intro other inside
    simpa [retire] using ledger.known other (List.mem_of_mem_filter inside)
  · intro other r at_other
    obtain ⟨old,before,rfl⟩ := modify_found at_other
    simp only [retire,List.mem_filter,ledger.live other old before]
    by_cases same : id = other
    · simp [same]
    · simp [same,Ne.symm same]
  · intro other r at_other
    obtain ⟨old,before,rfl⟩ := modify_found at_other
    have old_bounds := ledger.bounds other old before
    split
    · exact ⟨le_refl _,by show (0 : Int) ≤ old.grantedBytes; omega⟩
    · exact old_bounds
  · simp only [retire]
    rw [Store.total_modify_absent pendingPart off,total_close pendingPart ledger.distinct member,
      amount_of_found pendingPart found,← ledger.pending]
    simp only [pendingPart]
    omega
  · simp only [retire]
    rw [Store.total_modify_absent cachePart off,total_close cachePart ledger.distinct member,
      amount_of_found cachePart found,← ledger.cached]
    simp only [cachePart] at cachePart_le ⊢
    split at cachePart_le
    · next counts => simp only [counts,↓reduceIte]; omega
    · next counts => simp only [counts,Bool.false_eq_true,↓reduceIte]; omega

theorem move_ledger (ctx : Context) (kind : Kind) (d d' : Disk) (move : Move ctx kind d d') (ledger : Ledger d) :
    Ledger d' := by
  cases move with
  | grant _ key bytes counts positive | hold _ key bytes counts positive =>
    have opened := ledger_open ctx ledger key positive counts
    exact { opened with }
  | serve _ head rest queue =>
    have opened := ledger_open ctx ledger head.sessionKey (ledger.asked head (by simp [queue])) head.countsTowardCache
    exact ⟨opened.distinct,opened.known,opened.live,opened.bounds,opened.pending,opened.cached,
      fun w member => ledger.asked w (List.mem_of_mem_eraseP member)⟩
  | consume _ id record found active spent positive most => exact ledger_consume ledger found active positive most
  | retire _ id record found active => exact ledger_retire ledger found active
  | enqueue _ o bytes positive =>
    refine ⟨ledger.distinct,ledger.known,ledger.live,ledger.bounds,ledger.pending,ledger.cached,?_⟩
    intro w member
    rcases List.mem_append.mp member with old | new
    · exact ledger.asked w old
    · rw [List.mem_singleton.mp new]; exact positive
  | leave _ waiter member outcome waited ending leaves =>
    exact ⟨ledger.distinct,ledger.known,ledger.live,ledger.bounds,ledger.pending,ledger.cached,
      fun w inside => ledger.asked w (List.mem_of_mem_eraseP inside)⟩
  | _ => exact { ledger with }

/-- The clamps at zero leave every value as it is on an active record. -/
def ClampsIdle (d : Disk) : Prop :=
  ∀ (id : Nat) (record : ReservationRecord), d.records[id]? = some record → record.active = true →
    (∀ bytes : Number, max 0 (d.reservedPendingBytes - consumedBytes record bytes) =
      d.reservedPendingBytes - consumedBytes record bytes) ∧
    max 0 (d.reservedPendingBytes - record.remainingBytes) = d.reservedPendingBytes - record.remainingBytes ∧
    (record.countsTowardCache = true →
      max 0 (d.cacheReservedBytes - record.grantedBytes) = d.cacheReservedBytes - record.grantedBytes)

theorem ledger_clampsIdle (ledger : Ledger d) : ClampsIdle d := by
  intro id record found active
  have pending := remaining_le_pending ledger found active
  have cached := cachePart_le_cached ledger found active
  refine ⟨?_,?_,?_⟩
  · intro bytes
    have most := consumedBytes_le record bytes (ledger.bounds id record found).1
    omega
  · omega
  · intro counts
    simp only [cachePart,counts,↓reduceIte] at cached
    omega

/-- In every state that an operation passes through the counters are the sums they stand for and no
clamp acts. -/
theorem ledger_reachable (config : Config) (world : World) (evictionHook : Bool) (s : Service)
    (reach : Reachable step (fun _ _ => True) (Coordinator.fresh config world evictionHook) s) :
    Ledger s.disk ∧ ClampsIdle s.disk ∧
      ∀ op, Path (step s op).ctx (Does op) s.disk (step s op).disk ∧
        ∀ d, Path (step s op).ctx (Does op) s.disk d → Ledger d ∧ ClampsIdle d := by
  obtain ⟨unsettled,ledger⟩ := reachable_disk (ledger_fresh evictionHook) move_ledger reach
  refine ⟨ledger,ledger_clampsIdle ledger,fun op => ⟨step_path s op unsettled,?_⟩⟩
  intro d path
  have inside := chain_invariant path (fun kind d d' _ move => move_ledger _ kind d d' move) ledger
  exact ⟨inside,ledger_clampsIdle inside⟩

theorem ledger_after_fractional_consume :
    Ledger (after defaultConfig 100 [.reserve ⟨"file:1",.whole 60,true,.absent⟩,
      .reserve ⟨"file:2",.whole 70,false,.pending⟩,.consume 0 (.finite (7 / 2)),.release 0,.release 0]).disk :=
  (ledger_reachable defaultConfig (volume 0 100) false _ (reachable_run .start _ (by simp [Legal]))).1

end Tgtc.DiskLedger
