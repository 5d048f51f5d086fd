import Mathlib.Data.Char
import Mathlib.Data.List.Lex
import Mathlib.Data.List.Sort
import Mathlib.Data.Prod.Lex
import Mathlib.Data.Sum.Order
import Mathlib.Order.Compare
import Mathlib.Order.WithBot

/-!
Precedence of semantic versions. A version is ranked by its three numbers and then by its
identifiers, of which a release has none and stands above; the ranks are ordered from the orders of
their parts, so that a comparison that goes part by part compares the ranks.
-/
namespace Tgtc.Precedence
universe u v

def sign : Ordering → Int
  | .lt => -1
  | .eq => 0
  | .gt => 1

theorem sign_then (o p : Ordering) : sign (o.then p) = if sign o ≠ 0 then sign o else sign p := by cases o <;> rfl

theorem sign_swap (o : Ordering) : sign o.swap = -sign o := by cases o <;> rfl

theorem sign_pos {o : Ordering} : 0 < sign o ↔ o = .gt := by cases o <;> decide

section
variable {α : Type u} {β : Type v} {o p : Ordering}

theorem compares_toLex [LT α] [LT β] {a c : α} {b d : β} (first : o.Compares a c) (second : p.Compares b d) :
    (o.then p).Compares (toLex (a,b)) (toLex (c,d)) := by
  cases o with
  | lt | gt => exact Prod.Lex.toLex_lt_toLex.mpr (.inl first)
  | eq =>
    obtain rfl : a = c := first
    cases p with
    | lt | gt => exact Prod.Lex.toLex_lt_toLex.mpr (.inr ⟨rfl,second⟩)
    | eq => exact congrArg (fun y => toLex (a,y)) second

theorem compares_cons [LT α] {x y : α} {xs ys : List α} (first : o.Compares x y) (second : p.Compares xs ys) :
    (o.then p).Compares (x :: xs) (y :: ys) := by
  cases o with
  | lt | gt => exact List.Lex.rel first
  | eq =>
    obtain rfl : x = y := first
    cases p with
    | lt | gt => exact List.Lex.cons second
    | eq => exact congrArg (x :: ·) second

theorem head_highest [LinearOrder β] {r : α → α → Prop} [DecidableRel r] {rank : α → β} {l rest : List α} {top : α}
    (agrees : ∀ x ∈ l,∀ y ∈ l,r x y ↔ rank y ≤ rank x) (sorted : l.insertionSort r = top :: rest) :
    top ∈ l ∧ ∀ y ∈ l,rank y ≤ rank top := by
  induction l generalizing top rest with
  | nil => cases sorted
  | cons x l ih =>
    rw [List.insertionSort_cons] at sorted
    cases others : l.insertionSort r with
    | nil =>
      obtain rfl : l = [] := by
        have := (List.perm_insertionSort r l).length_eq
        rw [others] at this
        exact List.length_eq_zero_iff.mp this.symm
      obtain ⟨rfl,_⟩ := List.cons.inj sorted
      exact ⟨List.mem_cons_self,fun y member => (List.mem_singleton.mp member) ▸ le_rfl⟩
    | cons next more =>
      obtain ⟨among,above⟩ := ih (fun y here z there => agrees y (List.mem_cons_of_mem _ here) z (List.mem_cons_of_mem _ there)) others
      have here := agrees x List.mem_cons_self next (List.mem_cons_of_mem _ among)
      rw [others,List.orderedInsert_cons] at sorted
      split at sorted
      · rename_i first
        obtain ⟨rfl,_⟩ := List.cons.inj sorted
        refine ⟨List.mem_cons_self,fun y member => ?_⟩
        rcases List.mem_cons.mp member with rfl | later
        · exact le_rfl
        · exact (above y later).trans (here.mp first)
      · rename_i second
        obtain ⟨rfl,_⟩ := List.cons.inj sorted
        refine ⟨List.mem_cons_of_mem _ among,fun y member => ?_⟩
        rcases List.mem_cons.mp member with rfl | later
        · exact (not_le.mp fun le => second (here.mpr le)).le
        · exact above y later

end

abbrev Identifier := Nat ⊕ₗ List Char

structure Version where
  major : Nat
  minor : Nat
  patch : Nat
  prerelease : WithTop (List Identifier)

abbrev Rank := Nat ×ₗ Nat ×ₗ Nat ×ₗ WithTop (List Identifier)

def Version.rank (v : Version) : Rank := toLex (v.major,toLex (v.minor,toLex (v.patch,v.prerelease)))

theorem compares_rank {v w : Version} {major minor patch prerelease : Ordering} (first : major.Compares v.major w.major)
    (second : minor.Compares v.minor w.minor) (third : patch.Compares v.patch w.patch)
    (last : prerelease.Compares v.prerelease w.prerelease) :
    (major.then (minor.then (patch.then prerelease))).Compares v.rank w.rank :=
  compares_toLex first (compares_toLex second (compares_toLex third last))

end Tgtc.Precedence
