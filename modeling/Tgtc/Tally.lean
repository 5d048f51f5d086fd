import Mathlib
import Tgtc.Maps

/-!
Counting by key in a map. An entry is made with the first item of its key, goes up and
down with them and leaves the map with the last. Whatever is counted so agrees with the
items, key by key and in the sum, and no entry is ever zero.
-/
namespace Tgtc.Tally
open Maps
universe u

section
variable {Key : Type u} [DecidableEq Key]

/-- `map.get(key) || fallback`: an absent entry and a zero give the fallback. -/
def countOr (m : OrderedMap Key Int) (k : Key) (fallback : Int) : Int :=
  match m.get k with
  | some n => if n = 0 then fallback else n
  | none => fallback

def up (m : OrderedMap Key Int) (k : Key) : OrderedMap Key Int := m.set k (countOr m k 0 + 1)

def down (m : OrderedMap Key Int) (k : Key) : OrderedMap Key Int :=
  let remaining := countOr m k 1 - 1
  if remaining > 0 then m.set k remaining else m.delete k

def sum (m : OrderedMap Key Int) : Int := (m.entries.map Prod.snd).sum

structure Counts (m : OrderedMap Key Int) (keys : List Key) : Prop where
  entry : ∀ k, m.get k = if keys.count k = 0 then none else some (keys.count k : Int)
  sum : sum m = keys.length

variable {m : OrderedMap Key Int} {keys keys' : List Key} {k : Key}

theorem sum_append_absent {entries : List (Key × Int)} (absent : k ∉ entries.map Prod.fst) (n : Int) :
    ((setEntries entries k n).map Prod.snd).sum = (entries.map Prod.snd).sum + n := by
  rw [setEntries,if_neg absent,List.map_append]
  simp

theorem sum_replace {entries : List (Key × Int)} {n : Int} (distinct : (entries.map Prod.fst).Nodup)
    (member : (k,n) ∈ entries) (n' : Int) :
    ((entries.map (fun e => if e.1 = k then (k,n') else e)).map Prod.snd).sum = (entries.map Prod.snd).sum - n + n' := by
  induction entries with
  | nil => cases member
  | cons e rest ih =>
    obtain ⟨absent,later⟩ := List.nodup_cons.mp distinct
    rcases List.mem_cons.mp member with here | there
    · subst here
      have others : rest.map (fun e => if e.1 = k then (k,n') else e) = rest := by
        refine (List.map_congr_left fun e listed => ?_).trans (List.map_id rest)
        exact if_neg fun same => absent (List.mem_map.mpr ⟨e,listed,same⟩)
      simp [others]
      omega
    · have other : e.1 ≠ k := fun same => absent (same ▸ List.mem_map_of_mem there)
      simp only [List.map_cons,other,if_false,List.sum_cons]
      rw [ih later there]
      omega

theorem sum_remove {entries : List (Key × Int)} {n : Int} (distinct : (entries.map Prod.fst).Nodup)
    (member : (k,n) ∈ entries) :
    ((entries.filter (fun e => e.1 ≠ k)).map Prod.snd).sum = (entries.map Prod.snd).sum - n := by
  induction entries with
  | nil => cases member
  | cons e rest ih =>
    obtain ⟨absent,later⟩ := List.nodup_cons.mp distinct
    rcases List.mem_cons.mp member with here | there
    · subst here
      have others : rest.filter (fun e => e.1 ≠ k) = rest := by
        rw [List.filter_eq_self]
        intro e listed
        exact decide_eq_true fun same => absent (List.mem_map.mpr ⟨e,listed,same⟩)
      rw [List.filter_cons_of_neg (by simp),others]
      simp
    · have other : e.1 ≠ k := fun same => absent (same ▸ List.mem_map_of_mem there)
      rw [List.filter_cons_of_pos (by simpa using other),List.map_cons,List.sum_cons,ih later there,List.map_cons,
        List.sum_cons]
      omega

theorem sum_set_new (absent : m.get k = none) (n : Int) : sum (m.set k n) = sum m + n := by
  refine sum_append_absent (fun listed => ?_) n
  obtain ⟨e,member,rfl⟩ := List.mem_map.mp listed
  rw [(get_eq_some_iff m e.1 e.2).mpr member] at absent
  cases absent

theorem sum_set_old {n : Int} (found : m.get k = some n) (n' : Int) : sum (m.set k n') = sum m - n + n' := by
  have member := (get_eq_some_iff m k n).mp found
  show ((setEntries m.entries k n').map Prod.snd).sum = _
  rw [setEntries,if_pos (List.mem_map_of_mem member)]
  exact sum_replace m.distinct member n'

theorem sum_delete {n : Int} (found : m.get k = some n) : sum (m.delete k) = sum m - n :=
  sum_remove m.distinct ((get_eq_some_iff m k n).mp found)

theorem counts_empty : Counts (.empty : OrderedMap Key Int) [] := ⟨fun _ => rfl,rfl⟩

section
variable (counts : Counts m keys)
include counts

theorem counts_found (occurs : k ∈ keys) : m.get k = some (keys.count k : Int) := by
  rw [counts.entry,if_neg (Nat.pos_iff_ne_zero.mp (List.count_pos_iff.mpr occurs))]

theorem counts_missing (absent : k ∉ keys) : m.get k = none := by
  rw [counts.entry,if_pos (List.count_eq_zero.mpr absent)]

theorem countOr_zero (k : Key) : countOr m k 0 = keys.count k := by
  unfold countOr
  by_cases occurs : k ∈ keys
  · rw [counts_found counts occurs]
    dsimp only
    split_ifs with zero
    · exact zero.symm
    · rfl
  · rw [counts_missing counts occurs,List.count_eq_zero.mpr occurs]
    rfl

theorem counts_positive {n : Int} (found : m.get k = some n) : 0 < n := by
  rw [counts.entry] at found
  split_ifs at found with zero
  cases found
  exact_mod_cast Nat.pos_of_ne_zero zero

theorem counts_up (more : keys'.Perm (k :: keys)) : Counts (up m k) keys' := by
  constructor
  · intro k'
    rw [up,countOr_zero counts,more.count_eq]
    by_cases same : k' = k
    · subst same
      rw [get_set_same,List.count_cons_self]
      rfl
    · rw [get_set_other _ _ same,counts.entry,List.count_cons_of_ne (Ne.symm same)]
  · rw [up,countOr_zero counts,more.length_eq,List.length_cons]
    by_cases occurs : k ∈ keys
    · rw [sum_set_old (counts_found counts occurs),counts.sum]
      omega
    · rw [sum_set_new (counts_missing counts occurs),counts.sum,List.count_eq_zero.mpr occurs]
      omega

theorem counts_down (fewer : keys.Perm (k :: keys')) : Counts (down m k) keys' := by
  have occurs : k ∈ keys := fewer.mem_iff.mpr List.mem_cons_self
  have found := counts_found counts occurs
  have number : keys.count k = keys'.count k + 1 := by rw [fewer.count_eq,List.count_cons_self]
  have value : countOr m k 1 - 1 = keys'.count k := by
    rw [countOr,found]
    dsimp only
    omega
  have length : keys.length = keys'.length + 1 := fewer.length_eq
  have others : ∀ k', k' ≠ k → keys.count k' = keys'.count k' := by
    intro k' other
    rw [fewer.count_eq,List.count_cons_of_ne (Ne.symm other)]
  unfold down
  simp only [value]
  split_ifs with remains
  · refine ⟨fun k' => ?_,?_⟩
    · by_cases same : k' = k
      · subst same
        rw [get_set_same,if_neg (by omega)]
      · rw [get_set_other _ _ same,counts.entry,others k' same]
    · rw [sum_set_old found,counts.sum]
      omega
  · refine ⟨fun k' => ?_,?_⟩
    · by_cases same : k' = k
      · subst same
        rw [get_delete_same,if_pos (by omega)]
      · rw [get_delete_other _ same,counts.entry,others k' same]
    · rw [sum_delete found,counts.sum]
      omega

end

end
end Tgtc.Tally
