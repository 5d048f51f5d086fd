import Mathlib

/-!
Totals over the live places of an append-only list of records. Opening a record
appends it and adds its place, an update rewrites one place, closing takes the
place off the live ones; each lemma says what that does to a total, so that a
counter kept on the side can be compared with it.
-/
namespace Tgtc.Store
universe u

section
variable {Record : Type u} (f : Nat → Record → Int)

def amount (records : List Record) (id : Nat) : Int := ((records[id]?).map (f id)).getD 0

def total (records : List Record) (live : List Nat) : Int := (live.map (amount f records)).sum

theorem amount_of_found {records : List Record} {id : Nat} {r : Record} (found : records[id]? = some r) :
    amount f records id = f id r := by
  simp [amount,found]

theorem total_congr {records records' : List Record} {live : List Nat}
    (same : ∀ id ∈ live, amount f records' id = amount f records id) :
    total f records' live = total f records live := by
  unfold total
  rw [List.map_congr_left same]

theorem total_open {records : List Record} {live : List Nat} (known : ∀ id ∈ live, id < records.length) (r : Record) :
    total f (records ++ [r]) (live ++ [records.length]) = total f records live + f records.length r := by
  have old : total f (records ++ [r]) live = total f records live := by
    apply total_congr
    intro id member
    rw [amount,amount,List.getElem?_append_left (known id member)]
  have new : amount f (records ++ [r]) records.length = f records.length r := by simp [amount]
  rw [total,List.map_append,List.sum_append,← total,old]
  simp [new]

theorem total_close {records : List Record} {live : List Nat} (distinct : live.Nodup) {id : Nat} (member : id ∈ live) :
    total f records (live.filter (· ≠ id)) = total f records live - amount f records id := by
  induction live with
  | nil => cases member
  | cons first rest ih =>
    obtain ⟨fresh,later⟩ := List.nodup_cons.mp distinct
    by_cases here : first = id
    · subst here
      have unchanged : rest.filter (· ≠ first) = rest := by
        apply List.filter_eq_self.mpr
        intro other inside
        simp only [decide_not,Bool.not_eq_eq_eq_not,Bool.not_true,decide_eq_false_iff_not]
        exact fun same => fresh (same ▸ inside)
      simp only [List.filter_cons]
      have shape : rest.filter (fun x => decide (¬x = first)) = rest := unchanged
      rw [shape]
      simp [total]
    · have tail := ih later ((List.mem_cons.mp member).resolve_left (fun same => here same.symm))
      simp only [List.filter_cons,ne_eq,here,not_false_eq_true,decide_true,↓reduceIte]
      simp only [total,List.map_cons,List.sum_cons] at tail ⊢
      simp only [ne_eq] at tail
      omega

theorem total_modify_absent {records : List Record} {live : List Nat} {id : Nat} (absent : id ∉ live)
    (g : Record → Record) : total f (records.modify id g) live = total f records live := by
  apply total_congr
  intro other member
  have different : id ≠ other := fun same => absent (same ▸ member)
  simp [amount,different]

theorem total_modify {records : List Record} {live : List Nat} (distinct : live.Nodup) {id : Nat} (member : id ∈ live)
    {r : Record} (found : records[id]? = some r) (g : Record → Record) :
    total f (records.modify id g) live = total f records live - f id r + f id (g r) := by
  have split : ∀ records' : List Record,
      total f records' live = total f records' (live.filter (· ≠ id)) + amount f records' id := by
    intro records'
    have closed : total f records' (live.filter (· ≠ id)) = total f records' live - amount f records' id :=
      total_close f distinct member
    omega
  have others : total f (records.modify id g) (live.filter (· ≠ id)) = total f records (live.filter (· ≠ id)) :=
    total_modify_absent f (by simp) g
  have new : amount f (records.modify id g) id = f id (g r) := by simp [amount,found]
  rw [split,split records,amount_of_found f found]
  omega

theorem amount_le_total {records : List Record} {live : List Nat} (nonneg : ∀ id ∈ live, 0 ≤ amount f records id)
    {id : Nat} (member : id ∈ live) : amount f records id ≤ total f records live :=
  List.single_le_sum (fun _ inside => by
    obtain ⟨other,at_other,rfl⟩ := List.mem_map.mp inside
    exact nonneg other at_other) _ (List.mem_map_of_mem member)

theorem sum_le_total {records : List Record} {live places : List Nat} (nonneg : ∀ id ∈ live, 0 ≤ amount f records id)
    (distinct : places.Nodup) (among : ∀ id ∈ places, id ∈ live) :
    (places.map (amount f records)).sum ≤ total f records live := by
  obtain ⟨reordered,same,sub⟩ := List.subperm_of_subset distinct among
  have kept := (same.map (amount f records)).sum_eq
  rw [← kept]
  refine (sub.map (amount f records)).sum_le_sum ?_
  intro part inside
  obtain ⟨id,member,rfl⟩ := List.mem_map.mp inside
  exact nonneg id member

theorem total_differ_at (g : Nat → Record → Int) {records : List Record} {live : List Nat} (distinct : live.Nodup)
    {id : Nat} (member : id ∈ live)
    (same : ∀ other, other ≠ id → amount f records other = amount g records other) :
    total f records live = total g records live - amount g records id + amount f records id := by
  have others : total f records (live.filter (· ≠ id)) = total g records (live.filter (· ≠ id)) := by
    unfold total
    rw [List.map_congr_left]
    intro other elsewhere
    exact same other (by simpa using (List.mem_filter.mp elsewhere).2)
  have withF : total f records (live.filter (· ≠ id)) = total f records live - amount f records id :=
    total_close f distinct member
  have withG : total g records (live.filter (· ≠ id)) = total g records live - amount g records id :=
    total_close g distinct member
  omega

theorem total_le_total (g : Nat → Record → Int) {records : List Record} {live : List Nat}
    (le : ∀ id ∈ live, amount f records id ≤ amount g records id) : total f records live ≤ total g records live :=
  List.sum_le_sum le

end
end Tgtc.Store
