import Tgtc.Maps

/-!
Counters of attempts, each a row of one table. A check counts an attempt, and locks the key when there have been too
many in the window; all of it is one statement.
-/
namespace Tgtc.RateLimits
open Maps
universe u

structure RateLimit where
  attemptCount : Nat
  firstAttemptAt : Nat
  lockedUntil : Option Nat
  updatedAt : Nat

def MAX_WINDOW_MS : Nat := 24 * 60 * 60 * 1000

def CLEANUP_CUTOFF_MS : Nat := 24 * 60 * 60 * 1000

def INT_MAX : Nat := 2147483647

/-- No later attempt can go on before `lockedUntil` is over. -/
def RateLimit.locked (row : RateLimit) (now : Nat) : Bool := row.lockedUntil.any fun till => now ≤ till

inductive Upsert where
  | skipped
  | thrown
  | written (row : RateLimit)

/-- The statement of `checkAndIncrement`. -/
def upsert (asked now maxAttempts lockDurationMs windowMs : Nat) : Option RateLimit → Upsert
  | none => .written ⟨1,asked,if maxAttempts ≤ 1 then some (now + lockDurationMs) else none,now⟩
  | some row =>
    if row.locked now then .skipped
    else if row.firstAttemptAt + windowMs < asked then .written ⟨1,asked,none,now⟩
    else if INT_MAX ≤ row.attemptCount then .thrown
    else .written ⟨row.attemptCount + 1,row.firstAttemptAt,
      if maxAttempts ≤ row.attemptCount + 1 then some (now + lockDurationMs) else row.lockedUntil,now⟩

/-- The statement of `incrementCounter`. A lock that is not over stays. -/
def increment (asked now windowMs : Nat) : Option RateLimit → Option RateLimit
  | none => some ⟨1,asked,none,now⟩
  | some row =>
    let lockedUntil := row.lockedUntil.filter fun till => now < till
    if row.firstAttemptAt + windowMs < asked then some ⟨1,asked,lockedUntil,now⟩
    else if INT_MAX ≤ row.attemptCount then none
    else some ⟨row.attemptCount + 1,row.firstAttemptAt,lockedUntil,now⟩

section
variable {Key : Type u} [DecidableEq Key]

def checkAndIncrement (asked now : Nat) (rows : OrderedMap Key RateLimit) (key : Key) (maxAttempts lockDurationMs windowMs : Nat) :
    Option (OrderedMap Key RateLimit × Bool) :=
  if lockDurationMs = 0 || MAX_WINDOW_MS < lockDurationMs then none
  else match upsert asked now maxAttempts lockDurationMs windowMs (rows.get key) with
    | .skipped => some (rows,false)
    | .thrown => none
    | .written row => some (rows.set key row,!row.lockedUntil.any fun till => asked < till)

def incrementCounter (asked now : Nat) (rows : OrderedMap Key RateLimit) (key : Key) (threshold windowMs : Nat) :
    Option (OrderedMap Key RateLimit × Nat × Bool) :=
  if threshold = 0 || windowMs = 0 || MAX_WINDOW_MS < windowMs then none
  else (increment asked now windowMs (rows.get key)).map fun row =>
    (rows.set key row,row.attemptCount,threshold ≤ row.attemptCount)

def reset (rows : OrderedMap Key RateLimit) (key : Key) : OrderedMap Key RateLimit := rows.delete key

def RateLimit.stale (asked : Nat) (row : RateLimit) : Bool := match row.lockedUntil with
  | some till => till < asked
  | none => row.updatedAt + CLEANUP_CUTOFF_MS < asked

def cleanupExpired (asked : Nat) (rows : OrderedMap Key RateLimit) : OrderedMap Key RateLimit :=
  rows.filter fun e => !e.2.stale asked

variable {asked now maxAttempts lockDurationMs windowMs threshold : Nat} {rows rows' : OrderedMap Key RateLimit} {key other : Key}
  {allowed reached : Bool} {count : Nat} {row row' : RateLimit}

inductive Rewritten (asked now maxAttempts lockDurationMs windowMs : Nat) (row : RateLimit) : RateLimit → Prop
  | restarts (ended : row.firstAttemptAt + windowMs < asked) :
      Rewritten asked now maxAttempts lockDurationMs windowMs row ⟨1,asked,none,now⟩
  | locks (within : asked ≤ row.firstAttemptAt + windowMs) (many : maxAttempts ≤ row.attemptCount + 1) :
      Rewritten asked now maxAttempts lockDurationMs windowMs row
        ⟨row.attemptCount + 1,row.firstAttemptAt,some (now + lockDurationMs),now⟩
  | counts (within : asked ≤ row.firstAttemptAt + windowMs) (few : row.attemptCount + 1 < maxAttempts) :
      Rewritten asked now maxAttempts lockDurationMs windowMs row ⟨row.attemptCount + 1,row.firstAttemptAt,row.lockedUntil,now⟩

theorem upsert_written (written : upsert asked now maxAttempts lockDurationMs windowMs (some row) = .written row') :
    row.locked now = false ∧ row'.attemptCount ≤ INT_MAX ∧ Rewritten asked now maxAttempts lockDurationMs windowMs row row' := by
  unfold upsert at written
  dsimp only at written
  split at written
  · cases written
  next open_ =>
  refine ⟨by simpa using open_,?_⟩
  split at written
  · next ended =>
    cases written
    exact ⟨by simp [INT_MAX],.restarts ended⟩
  · next within =>
    split at written
    · cases written
    next fits =>
    cases written
    refine ⟨by dsimp only; omega,?_⟩
    split
    · next many => exact .locks (by omega) many
    · next few => exact .counts (by omega) (by omega)

theorem upsert_skipped {found : Option RateLimit} (skipped : upsert asked now maxAttempts lockDurationMs windowMs found = .skipped) :
    ∃ row, found = some row ∧ row.locked now = true := by
  cases found with
  | none => cases skipped
  | some row =>
    refine ⟨row,rfl,?_⟩
    by_contra unlocked
    simp only [upsert,if_neg unlocked] at skipped
    split at skipped
    · cases skipped
    · split at skipped <;> cases skipped

theorem check_other (apart : other ≠ key)
    (checked : checkAndIncrement asked now rows key maxAttempts lockDurationMs windowMs = some (rows',allowed)) :
    rows'.get other = rows.get other := by
  unfold checkAndIncrement at checked
  split at checked
  · cases checked
  · split at checked <;> cases checked
    · rfl
    · exact get_set_other _ _ apart

theorem check_locked (there : rows.get key = some row) (locked : row.locked now = true)
    (checked : checkAndIncrement asked now rows key maxAttempts lockDurationMs windowMs = some (rows',allowed)) :
    rows' = rows ∧ allowed = false := by
  unfold checkAndIncrement at checked
  split at checked
  · cases checked
  · simp only [there,upsert,locked,if_true,Option.some.injEq,Prod.mk.injEq] at checked
    exact ⟨checked.1.symm,checked.2.symm⟩

theorem check_unlocked (unlocked : ∀ row, rows.get key = some row → row.locked now = false)
    (checked : checkAndIncrement asked now rows key maxAttempts lockDurationMs windowMs = some (rows',allowed)) :
    ∃ row', rows'.get key = some row' ∧ (lockDurationMs ≠ 0 ∧ allowed = !row'.lockedUntil.any fun till => asked < till) ∧
      (rows.get key = none ∧ row' = ⟨1,asked,if maxAttempts ≤ 1 then some (now + lockDurationMs) else none,now⟩ ∨
        ∃ row, rows.get key = some row ∧ row'.attemptCount ≤ INT_MAX ∧
          Rewritten asked now maxAttempts lockDurationMs windowMs row row') := by
  unfold checkAndIncrement at checked
  split at checked
  · cases checked
  next valid =>
  split at checked
  · next skipped =>
    obtain ⟨row,found,locked⟩ := upsert_skipped skipped
    rw [unlocked row found] at locked
    cases locked
  · cases checked
  · next row' written =>
    cases checked
    refine ⟨row',get_set_same _ _ _,⟨fun zero => valid (by simp [zero]),rfl⟩,?_⟩
    cases found : rows.get key with
    | none =>
      rw [found] at written
      cases written
      exact .inl ⟨rfl,rfl⟩
    | some row =>
      rw [found] at written
      exact .inr ⟨row,rfl,(upsert_written written).2⟩

theorem increment_other (apart : other ≠ key)
    (incremented : incrementCounter asked now rows key threshold windowMs = some (rows',count,reached)) :
    rows'.get other = rows.get other := by
  unfold incrementCounter at incremented
  split at incremented
  · cases incremented
  · obtain ⟨row,_,same⟩ := Option.map_eq_some_iff.mp incremented
    cases same
    exact get_set_other _ _ apart

theorem get_cleanup : (cleanupExpired asked rows).get key = (rows.get key).filter fun row => !row.stale asked := by
  rw [cleanupExpired,get_filter]

end
end Tgtc.RateLimits
