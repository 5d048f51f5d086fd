import Mathlib.Data.List.Nodup
import Mathlib.Data.List.Perm.Basic

/-!
Maps that remember insertion order, as the `Map` of the source language does:
setting a known key replaces its value in place, a new key goes to the end,
and iteration follows `entries`. No key occurs twice, which the structure carries.
-/
namespace Tgtc.Maps
universe u v

structure OrderedMap (Key : Type u) (Value : Type v) where
  entries : List (Key × Value)
  distinct : (entries.map Prod.fst).Nodup

section
variable {Key : Type u} {Value : Type v}

def OrderedMap.empty : OrderedMap Key Value := ⟨[],List.nodup_nil⟩

variable [DecidableEq Key]

def OrderedMap.get (m : OrderedMap Key Value) (k : Key) : Option Value :=
  (m.entries.find? (fun e => e.1 = k)).map Prod.snd

def OrderedMap.delete (m : OrderedMap Key Value) (k : Key) : OrderedMap Key Value :=
  ⟨m.entries.filter (fun e => e.1 ≠ k),m.distinct.sublist (List.filter_sublist.map _)⟩

/-- The entries with `v` at `k`. -/
def setEntries (entries : List (Key × Value)) (k : Key) (v : Value) : List (Key × Value) :=
  if k ∈ entries.map Prod.fst then entries.map (fun e => if e.1 = k then (k,v) else e) else entries ++ [(k,v)]

theorem setEntries_distinct (entries : List (Key × Value)) (k : Key) (v : Value)
    (distinct : (entries.map Prod.fst).Nodup) : ((setEntries entries k v).map Prod.fst).Nodup := by
  unfold setEntries
  split
  · have same : (entries.map (fun e => if e.1 = k then (k,v) else e)).map Prod.fst = entries.map Prod.fst := by
      rw [List.map_map]
      apply List.map_congr_left
      intro e _
      by_cases here : e.1 = k
      · simp [here]
      · simp [here]
    rw [same]
    exact distinct
  · next missing =>
    rw [List.map_append]
    exact distinct.append (List.nodup_singleton k) (by simpa using missing)

def OrderedMap.set (m : OrderedMap Key Value) (k : Key) (v : Value) : OrderedMap Key Value :=
  ⟨setEntries m.entries k v,setEntries_distinct m.entries k v m.distinct⟩

theorem get_eq_some_iff (m : OrderedMap Key Value) (k : Key) (v : Value) :
    m.get k = some v ↔ (k,v) ∈ m.entries := by
  obtain ⟨entries,distinct⟩ := m
  simp only [OrderedMap.get]
  induction entries with
  | nil => simp
  | cons e rest ih =>
    obtain ⟨absent,later⟩ := List.nodup_cons.mp distinct
    by_cases here : e.1 = k
    · subst here
      simp only [List.find?_cons,decide_true,Option.map_some,Option.some.injEq,List.mem_cons]
      constructor
      · rintro rfl; exact .inl rfl
      · rintro (same | member)
        · exact (congrArg Prod.snd same).symm
        · exact absurd (List.mem_map_of_mem member) absent
    · simp only [List.find?_cons,here,decide_false,ih later,List.mem_cons]
      constructor
      · exact .inr
      · rintro (same | member)
        · exact absurd (congrArg Prod.fst same).symm here
        · exact member

theorem mem_delete (m : OrderedMap Key Value) (k : Key) (e : Key × Value) :
    e ∈ (m.delete k).entries ↔ e ∈ m.entries ∧ e.1 ≠ k := by
  simp [OrderedMap.delete]

variable {k k' : Key} {m : OrderedMap Key Value}

theorem get_delete_other (m : OrderedMap Key Value) (other : k' ≠ k) :
    (m.delete k).get k' = m.get k' := by
  apply Option.ext
  intro v
  rw [get_eq_some_iff,get_eq_some_iff,mem_delete]
  exact ⟨And.left,fun member => ⟨member,other⟩⟩

theorem get_delete_same (m : OrderedMap Key Value) (k : Key) : (m.delete k).get k = none := by
  rw [Option.eq_none_iff_forall_not_mem]
  intro v found
  rw [Option.mem_def,get_eq_some_iff,mem_delete] at found
  exact found.2 rfl

theorem eq_empty_of_get (absent : ∀ k, m.get k = none) : m = .empty := by
  obtain ⟨entries,distinct⟩ := m
  cases entries with
  | nil => rfl
  | cons e rest =>
    have found := (get_eq_some_iff ⟨e :: rest,distinct⟩ e.1 e.2).mpr (by simp)
    rw [absent] at found
    cases found

theorem mem_setEntries (entries : List (Key × Value)) (k : Key) (v : Value) (e : Key × Value) :
    e ∈ setEntries entries k v ↔ e = (k,v) ∨ (e ∈ entries ∧ e.1 ≠ k) := by
  unfold setEntries
  split
  · next known =>
    obtain ⟨old,oldMember,oldKey⟩ := List.mem_map.mp known
    rw [List.mem_map]
    constructor
    · rintro ⟨e',member,rfl⟩
      by_cases here : e'.1 = k
      · simp [here]
      · simp [here,member]
    · rintro (rfl | ⟨member,other⟩)
      · exact ⟨old,oldMember,by simp [oldKey]⟩
      · exact ⟨e,member,by simp [other]⟩
  · next missing =>
    rw [List.mem_append,List.mem_singleton]
    constructor
    · rintro (member | rfl)
      · exact .inr ⟨member,fun here => missing (here ▸ List.mem_map_of_mem member)⟩
      · exact .inl rfl
    · rintro (rfl | ⟨member,_⟩)
      · exact .inr rfl
      · exact .inl member

theorem get_set_same (m : OrderedMap Key Value) (k : Key) (v : Value) : (m.set k v).get k = some v := by
  rw [get_eq_some_iff]
  exact (mem_setEntries m.entries k v (k,v)).mpr (.inl rfl)

theorem get_set_other (m : OrderedMap Key Value) (v : Value) (other : k' ≠ k) :
    (m.set k v).get k' = m.get k' := by
  apply Option.ext
  intro w
  rw [get_eq_some_iff,get_eq_some_iff]
  show (k',w) ∈ setEntries m.entries k v ↔ _
  rw [mem_setEntries]
  constructor
  · rintro (same | ⟨member,_⟩)
    · exact absurd (congrArg Prod.fst same) other
    · exact member
  · exact fun member => .inr ⟨member,other⟩

theorem get_of_delete {v : Value} (found : (m.delete k).get k' = some v) :
    k' ≠ k ∧ m.get k' = some v := by
  by_cases same : k' = k
  · rw [same,get_delete_same] at found
    cases found
  · exact ⟨same,by rwa [get_delete_other _ same] at found⟩

theorem get_of_set {v w : Value} (found : (m.set k v).get k' = some w) :
    k' = k ∧ w = v ∨ k' ≠ k ∧ m.get k' = some w := by
  by_cases same : k' = k
  · rw [same,get_set_same] at found
    exact .inl ⟨same,(Option.some.inj found).symm⟩
  · exact .inr ⟨same,by rwa [get_set_other _ _ same] at found⟩

def OrderedMap.filter (m : OrderedMap Key Value) (pass : Key × Value → Bool) : OrderedMap Key Value :=
  ⟨m.entries.filter pass,m.distinct.sublist (List.filter_sublist.map _)⟩

theorem get_filter (m : OrderedMap Key Value) (pass : Key × Value → Bool) (k : Key) :
    (m.filter pass).get k = (m.get k).filter (fun v => pass (k,v)) := by
  apply Option.ext
  intro v
  rw [get_eq_some_iff,Option.filter_eq_some_iff,get_eq_some_iff]
  simp [OrderedMap.filter]

def OrderedMap.modify (m : OrderedMap Key Value) (k : Key) (f : Value → Value) : OrderedMap Key Value :=
  match m.get k with
  | some v => m.set k (f v)
  | none => m

theorem get_modify (m : OrderedMap Key Value) (k k' : Key) (f : Value → Value) :
    (m.modify k f).get k' = if k' = k then (m.get k').map f else m.get k' := by
  unfold OrderedMap.modify
  cases found : m.get k with
  | none =>
    split_ifs with same
    · rw [same,found]
      rfl
    · rfl
  | some v =>
    split_ifs with same
    · rw [same,get_set_same,found]
      rfl
    · exact get_set_other m _ same

end

section
variable {Entry : Type u} {table : List Entry} {n i : Nat} {x y : Entry}

theorem at_of_set (found : (table.set n x)[i]? = some y) : i = n ∧ y = x ∨ i ≠ n ∧ table[i]? = some y := by
  by_cases here : i = n
  · subst here
    obtain ⟨bound,_⟩ := List.getElem?_eq_some_iff.mp found
    rw [List.getElem?_set_self (by simpa using bound)] at found
    exact .inl ⟨rfl,(Option.some.inj found).symm⟩
  · rw [List.getElem?_set_ne (Ne.symm here)] at found
    exact .inr ⟨here,found⟩

theorem at_lt (found : table[i]? = some x) : i < table.length := (List.getElem?_eq_some_iff.mp found).1

theorem at_set (known : table[i]? = some y) : (table.set i x)[i]? = some x :=
  List.getElem?_set_self (at_lt known)

theorem at_modify (known : table[i]? = some y) (change : Entry → Entry) : (table.modify i change)[i]? = some (change y) := by
  rw [List.getElem?_modify_eq,known]
  rfl

theorem at_of_modify {change : Entry → Entry} (found : (table.modify n change)[i]? = some y) :
    (i = n ∧ ∃ old, table[i]? = some old ∧ y = change old) ∨ i ≠ n ∧ table[i]? = some y := by
  by_cases here : i = n
  · subst here
    rw [List.getElem?_modify_eq] at found
    obtain ⟨old,known,rfl⟩ := Option.map_eq_some_iff.mp found
    exact .inl ⟨rfl,old,known,rfl⟩
  · rw [List.getElem?_modify_ne _ _ (Ne.symm here)] at found
    exact .inr ⟨here,found⟩

theorem at_of_append (found : (table ++ [x])[i]? = some y) : table[i]? = some y ∨ i = table.length ∧ y = x := by
  by_cases known : i < table.length
  · rw [List.getElem?_append_left known] at found
    exact .inl found
  obtain ⟨bound,_⟩ := List.getElem?_eq_some_iff.mp found
  have last : i = table.length := by
    simp only [List.length_append,List.length_singleton] at bound
    omega
  subst last
  rw [List.getElem?_concat_length] at found
  exact .inr ⟨rfl,(Option.some.inj found).symm⟩

theorem mem_save {Key : Type v} [DecidableEq Key] (key : Entry → Key) :
    y ∈ table.map (fun z => if key z = key x then x else z) ↔ (y = x ∧ ∃ z ∈ table, key z = key x) ∨ y ∈ table ∧ key y ≠ key x := by
  rw [List.mem_map]
  constructor
  · rintro ⟨z,member,rfl⟩
    by_cases same : key z = key x
    · exact .inl ⟨if_pos same,z,member,same⟩
    · rw [if_neg same]
      exact .inr ⟨member,same⟩
  · rintro (⟨rfl,z,member,same⟩ | ⟨member,other⟩)
    · exact ⟨z,member,if_pos same⟩
    · exact ⟨y,member,if_neg other⟩

theorem perm_replace (found : table[n]? = some x) :
    table.Perm (x :: table.eraseIdx n) ∧ (table.set n y).Perm (y :: table.eraseIdx n) := by
  obtain ⟨within,rfl⟩ := List.getElem?_eq_some_iff.mp found
  exact ⟨(List.getElem_cons_eraseIdx_perm within).symm,List.set_perm_cons_eraseIdx within y⟩

theorem countP_replace (counts : Entry → Bool) (found : table[n]? = some x) :
    (table.set n y).countP counts + (if counts x then 1 else 0) = table.countP counts + (if counts y then 1 else 0) := by
  obtain ⟨bound,value⟩ := List.getElem?_eq_some_iff.mp found
  rw [List.countP_set bound,value]
  by_cases counted : counts x = true
  · have positive : 0 < table.countP counts := List.countP_pos_iff.mpr ⟨x,List.mem_of_getElem? found,counted⟩
    simp only [counted,if_true]
    omega
  · simp [counted]

theorem countP_set_out (counts : Entry → Bool) (found : table[n]? = some x) (out : counts y = false) :
    (table.set n y).countP counts + (if counts x then 1 else 0) = table.countP counts := by
  simpa [out] using countP_replace (y := y) counts found

end
end Tgtc.Maps
