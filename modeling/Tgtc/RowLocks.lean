import Mathlib.Tactic.Common

/-!
One row of a table, with the transaction that has its lock. The transaction has a version of the row of its own, which
the others do not see before it commits; nobody else can write the row until then.
-/
namespace Tgtc.RowLocks
universe u

structure Record (Row : Type u) where
  committed : Option Row
  holder : Option (Nat × Option Row)
deriving DecidableEq

section
variable {Row : Type u} {r : Record Row} {n m : Nat} {v : Option Row}

def Record.Holds (r : Record Row) (n : Nat) : Prop := r.holder.map Prod.fst = some n

instance (r : Record Row) (n : Nat) : Decidable (r.Holds n) := inferInstanceAs (Decidable (_ = some n))

def Record.blocked (r : Record Row) (n : Nat) : Bool := r.holder.any fun h => h.1 ≠ n

def Record.version (r : Record Row) (n : Nat) : Option Row := match r.holder with
  | some (m,v) => if m = n then v else r.committed
  | none => r.committed

def Record.write (r : Record Row) (n : Nat) (v : Option Row) : Record Row := { r with holder := some (n,v) }

/-- `SELECT … FOR UPDATE`, before anything is written -/
def Record.lock (r : Record Row) (n : Nat) : Record Row := r.write n r.committed

def Record.commit (r : Record Row) (n : Nat) : Record Row := match r.holder with
  | some (m,v) => if m = n then ⟨v,none⟩ else r
  | none => r

def Record.rollback (r : Record Row) (n : Nat) : Record Row := if r.Holds n then { r with holder := none } else r

def Record.put (r : Record Row) (v : Option Row) : Record Row := { r with committed := v }

/-- What a column gets when an entity is saved: a column that is the same in the row that `save` has found stays as it is. -/
def column {Value : Type u} [DecidableEq Value] (mine found current : Value) : Value := if mine = found then current else mine

@[simp] theorem column_found {Value : Type u} [DecidableEq Value] (mine current : Value) : column mine current current = mine := by
  by_cases same : mine = current <;> simp [column,same]

@[simp] theorem column_same {Value : Type u} [DecidableEq Value] (mine current : Value) : column mine mine current = current := by
  simp [column]

@[simp] theorem holds_write : (r.write n v).Holds m ↔ n = m := by simp [Record.Holds,Record.write]

@[simp] theorem holds_lock : (r.lock n).Holds m ↔ n = m := holds_write

@[simp] theorem version_write : (r.write n v).version n = v := by simp [Record.version,Record.write]

@[simp] theorem committed_write : (r.write n v).committed = r.committed := rfl

@[simp] theorem committed_lock : (r.lock n).committed = r.committed := rfl

theorem holds_unique (one : r.Holds n) (other : r.Holds m) : n = m := Option.mem_unique one other

theorem not_holds_of_free (free : r.holder = none) : ¬ r.Holds n := by simp [Record.Holds,free]

theorem blocked_of_holds (held : r.Holds m) (other : n ≠ m) : r.blocked n = true := by
  obtain ⟨h,found,rfl⟩ := Option.map_eq_some_iff.mp held
  simp [Record.blocked,found,Ne.symm other]

theorem not_blocked_of_holds (held : r.Holds n) : r.blocked n = false := by
  obtain ⟨h,found,rfl⟩ := Option.map_eq_some_iff.mp held
  simp [Record.blocked,found]

theorem commit_other (held : r.Holds m) (other : n ≠ m) : r.commit n = r := by
  obtain ⟨h,found,rfl⟩ := Option.map_eq_some_iff.mp held
  simp [Record.commit,found,Ne.symm other]

theorem commit_free (unheld : ¬ r.Holds n) : r.commit n = r := by
  unfold Record.commit
  split
  · next found => simp [Record.Holds,found] at unheld; simp [unheld]
  · rfl

theorem commit_held (held : r.Holds n) : r.commit n = ⟨r.version n,none⟩ := by
  obtain ⟨h,found,rfl⟩ := Option.map_eq_some_iff.mp held
  simp [Record.commit,Record.version,found]

theorem rollback_other (held : r.Holds m) (other : n ≠ m) : r.rollback n = r :=
  if_neg fun mine => other (holds_unique mine held)

@[simp] theorem committed_rollback : (r.rollback n).committed = r.committed := by
  unfold Record.rollback
  split <;> rfl

/-- What a statement of transaction `n` can make of the row. -/
inductive Record.Moved (r : Record Row) (n : Nat) : Record Row → Prop
  | stays : r.Moved n r
  | writes (v : Option Row) (unblocked : r.blocked n = false) : r.Moved n (r.write n v)
  | commits : r.Moved n (r.commit n)
  | rollsBack : r.Moved n (r.rollback n)

variable {r' : Record Row}

theorem moved_other (moved : r.Moved n r') (held : r.Holds m) (other : n ≠ m) : r' = r := by
  cases moved with
  | stays => rfl
  | writes v unblocked => rw [blocked_of_holds held other] at unblocked; cases unblocked
  | commits => exact commit_other held other
  | rollsBack => exact rollback_other held other

theorem moved_held (moved : r.Moved n r') (other : n ≠ m) (held : r'.Holds m) : r.Holds m := by
  cases moved with
  | stays => exact held
  | writes v unblocked => exact absurd (holds_write.mp held) other
  | commits =>
    by_cases mine : r.Holds n
    · rw [commit_held mine] at held
      exact absurd held (not_holds_of_free rfl)
    · rwa [commit_free mine] at held
  | rollsBack =>
    by_cases mine : r.Holds n
    · rw [Record.rollback,if_pos mine] at held
      exact absurd held (not_holds_of_free rfl)
    · rwa [Record.rollback,if_neg mine] at held

end
end Tgtc.RowLocks
