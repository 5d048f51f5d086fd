import Mathlib.Data.Nat.Find

/-!
Forests given by a parent of each node. What is above a node is reached by following the parents; a forest in which
every way up has a bounded length has no cycle.
-/
namespace Tgtc.Forests
universe u

section
variable {Node : Type u}

def up (parent : Node → Option Node) : Nat → Node → Option Node
  | 0, a => some a
  | k + 1, a => (parent a).bind (up parent k)

def Bounded (parent : Node → Option Node) (limit : Nat) : Prop := ∀ (k : Nat) (a : Node), up parent k a ≠ none → k ≤ limit

def Acyclic (parent : Node → Option Node) : Prop := ∀ (k : Nat) (a : Node), 0 < k → up parent k a ≠ some a

variable {parent parent' : Node → Option Node} {limit : Nat} {x p : Node}

theorem up_one (a : Node) : up parent 1 a = parent a := Option.bind_fun_some (parent a)

theorem up_add (j k : Nat) (a : Node) : up parent (j + k) a = (up parent j a).bind (up parent k) := by
  induction j generalizing a with
  | zero => rw [Nat.zero_add]; rfl
  | succ j ih =>
    rw [Nat.succ_add]
    show (parent a).bind (up parent (j + k)) = ((parent a).bind (up parent j)).bind (up parent k)
    cases parent a with
    | none => rfl
    | some b => exact ih b

variable {j k : Nat} {a b : Node}

theorem up_from (reaches : up parent j a = some b) : up parent (j + k) a = up parent k b := by
  rw [up_add,reaches]
  rfl

theorem up_succ (reaches : up parent j a = some b) : up parent (j + 1) a = parent b := by
  rw [up_from reaches]
  exact up_one b

theorem up_below (fewer : j ≤ k) (there : up parent k a ≠ none) : ∃ b, up parent j a = some b := by
  obtain ⟨more,rfl⟩ := Nat.exists_eq_add_of_le fewer
  rw [up_add] at there
  cases reached : up parent j a with
  | none =>
    rw [reached] at there
    exact absurd rfl there
  | some b => exact ⟨b,rfl⟩

theorem acyclic_of_bounded (bounded : Bounded parent limit) : Acyclic parent := by
  intro k a positive cycle
  have again : ∀ times, up parent (times * k) a = some a := by
    intro times
    induction times with
    | zero => rw [Nat.zero_mul]; rfl
    | succ times ih =>
      rw [Nat.succ_mul,up_from ih]
      exact cycle
  have long := bounded ((limit + 1) * k) a (by rw [again]; exact Option.some_ne_none a)
  have longer : limit + 1 ≤ (limit + 1) * k := Nat.le_mul_of_pos_right _ positive
  omega

theorem up_unique (acyclic : Acyclic parent) (first : up parent j a = some b) (second : up parent k a = some b) :
    j = k := by
  by_contra apart
  rcases Nat.lt_or_gt_of_ne apart with less | more
  · obtain ⟨between,rfl⟩ := Nat.exists_eq_add_of_lt less
    rw [Nat.add_assoc,up_from first] at second
    exact acyclic _ b (Nat.succ_pos _) second
  · obtain ⟨between,rfl⟩ := Nat.exists_eq_add_of_lt more
    rw [Nat.add_assoc,up_from second] at first
    exact acyclic _ b (Nat.succ_pos _) first

theorem up_same (same : ∀ a, a ≠ x → parent' a = parent a) (around : ∀ i < k, up parent i a ≠ some x) :
    up parent' k a = up parent k a := by
  induction k generalizing a with
  | zero => rfl
  | succ k ih =>
    have other : a ≠ x := fun here => around 0 (Nat.succ_pos k) (congrArg some here)
    show (parent' a).bind (up parent' k) = (parent a).bind (up parent k)
    rw [same a other]
    cases above : parent a with
    | none => rfl
    | some b =>
      refine ih fun i less => ?_
      have later := around (i + 1) (Nat.succ_lt_succ less)
      rw [Nat.add_comm,up_from ((up_one a).trans above)] at later
      exact later

theorem up_meets (parent : Node → Option Node) (x : Node) (k : Nat) (a : Node) : (∀ i < k, up parent i a ≠ some x) ∨
    ∃ i < k, up parent i a = some x ∧ ∀ j < i, up parent j a ≠ some x := by
  by_cases meets : ∃ i, i < k ∧ up parent i a = some x
  · classical
    obtain ⟨less,first⟩ := Nat.find_spec meets
    refine .inr ⟨Nat.find meets,less,first,fun j earlier there => Nat.find_min meets earlier ⟨Nat.lt_trans earlier less,there⟩⟩
  · exact .inl fun i less there => meets ⟨i,less,there⟩

section
variable (bounded : Bounded parent limit) (same : ∀ a, a ≠ x → parent' a = parent a)
include bounded same

theorem bounded_cut (cut : parent' x = none) : Bounded parent' limit := by
  intro k a there
  rcases up_meets parent x k a with around | ⟨i,less,first,before⟩
  · rw [up_same same around] at there
    exact bounded k a there
  · have reaches : up parent' i a = some x := (up_same same before).trans first
    obtain ⟨b,above⟩ := up_below (Nat.succ_le_of_lt less) there
    rw [up_succ reaches,cut] at above
    cases above

theorem bounded_reparent (put : parent' x = some p) (apart : ∀ k, up parent k p ≠ some x)
    (fits : ∀ (j k : Nat) (d : Node), up parent j p ≠ none → up parent k d = some x → j + 1 + k ≤ limit) : Bounded parent' limit := by
  intro k a there
  rcases up_meets parent x k a with around | ⟨i,less,first,before⟩
  · rw [up_same same around] at there
    exact bounded k a there
  have reaches : up parent' i a = some x := (up_same same before).trans first
  obtain ⟨j,rfl⟩ := Nat.exists_eq_add_of_lt less
  have onward : up parent' (i + 1) a = some p := (up_succ reaches).trans put
  rw [Nat.add_right_comm,up_from onward,up_same same fun m _ => apart m] at there
  have room := fits j i a there first
  omega

end

theorem apart_of_bounded (bounded : Bounded parent' limit) (same : ∀ a, a ≠ x → parent' a = parent a) (put : parent' x = some p) :
    ∀ k, up parent k p ≠ some x := by
  intro k below
  rcases up_meets parent x k p with around | ⟨i,_,first,before⟩
  · have reaches : up parent' (1 + k) x = some x := by
      rw [up_from ((up_one x).trans put),up_same same around]
      exact below
    exact acyclic_of_bounded bounded (1 + k) x (by omega) reaches
  · have reaches : up parent' (1 + i) x = some x := by
      rw [up_from ((up_one x).trans put),up_same same before]
      exact first
    exact acyclic_of_bounded bounded (1 + i) x (by omega) reaches

theorem fits_of_bounded (bounded : Bounded parent' limit) (acyclic : Acyclic parent) (same : ∀ a, a ≠ x → parent' a = parent a)
    (put : parent' x = some p) {d : Node} (there : up parent j p ≠ none) (below : up parent k d = some x) :
    j + 1 + k ≤ limit := by
  have apart := apart_of_bounded bounded same put
  have around : ∀ i < k, up parent i d ≠ some x := fun i less first => Nat.ne_of_lt less (up_unique acyclic first below)
  have reaches : up parent' (k + 1) d = some p := (up_succ ((up_same same around).trans below)).trans put
  have long : up parent' (k + 1 + j) d ≠ none := by
    rw [up_from reaches,up_same same fun m _ => apart m]
    exact there
  have bound := bounded _ d long
  omega

def Grounded (parent : Node → Option Node) : Prop := ∀ a, Acc (fun b a => parent a = some b) a

theorem grounded_reparent (grounded : Grounded parent) (same : ∀ a, a ≠ x → parent' a = parent a)
    (apart : ∀ q, parent' x = some q → ∀ k, up parent k q ≠ some x) : Grounded parent' := by
  have elsewhere : ∀ a, (∀ k, up parent k a ≠ some x) → Acc (fun b a => parent' a = some b) a := by
    intro a
    induction grounded a with
    | intro a _ ih =>
      intro never
      refine ⟨a,fun b above => ?_⟩
      rw [same a fun here => never 0 (congrArg some here)] at above
      refine ih b above fun k there => never (1 + k) ?_
      rw [up_from ((up_one a).trans above)]
      exact there
  have there : Acc (fun b a => parent' a = some b) x := ⟨x,fun b above => elsewhere b (apart b above)⟩
  intro a
  induction grounded a with
  | intro a _ ih =>
    by_cases here : a = x
    · rw [here]
      exact there
    · refine ⟨a,fun b above => ih b ?_⟩
      rwa [same a here] at above

end
end Tgtc.Forests
