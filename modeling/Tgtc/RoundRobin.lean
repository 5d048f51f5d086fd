import Mathlib.Data.Int.CardIntervalMod
import Mathlib.Data.List.MinMax
import Mathlib.Data.List.Rotate

/-!
A cursor that goes round a list. Each turn moves it on by one place and takes, from there on and
then from the start, the first element of the highest score.
-/
namespace Tgtc.RoundRobin
open List
universe u v

section
variable {α : Type u} {β : Type v} [DecidableEq α] [LinearOrder β]

def pick (f : α → β) (l : List α) (cursor : Nat) : Option α := (l.rotate cursor).argmax f

def picks (f : α → β) (l : List α) : Nat → Nat → List α
  | _, 0 => []
  | cursor, k + 1 => (pick f l ((cursor + 1) % l.length)).toList ++ picks f l ((cursor + 1) % l.length) k

def Top (f : α → β) (l : List α) (x : α) : Prop := x ∈ l ∧ ∀ y ∈ l, f y ≤ f x

/-- Over any turns the elements of the highest score have their turns equally often, up to one. -/
def Even (f : α → β) (l : List α) : Prop :=
  ∀ cursor k x y, Top f l x → Top f l y → (picks f l cursor k).count x ≤ (picks f l cursor k).count y + 1

variable {f : α → β} {l : List α}

omit [DecidableEq α] in
theorem pick_mod (cursor : Nat) : pick f l (cursor % l.length) = pick f l cursor := by
  unfold pick
  rw [rotate_mod]

omit [DecidableEq α] in
theorem top_pick {cursor : Nat} {x : α} (taken : pick f l cursor = some x) : Top f l x :=
  ⟨mem_rotate.mp (argmax_mem taken),fun _ member => le_of_mem_argmax (mem_rotate.mpr member) taken⟩

omit [DecidableEq α] in
theorem top_picks {x : α} (k : Nat) : ∀ {cursor}, x ∈ picks f l cursor k → Top f l x := by
  induction k with
  | zero => exact nofun
  | succ k ih =>
    intro cursor member
    rcases mem_append.mp member with now | later
    · exact top_pick (Option.mem_toList.mp now)
    · exact ih later

omit [DecidableEq α] in
/-- From a place without the highest score the pick is that of the next place. -/
theorem pick_low {i : Nat} {x : α} (there : l[i]? = some x) (low : ¬ Top f l x) : pick f l i = pick f l (i + 1) := by
  obtain ⟨inside,rfl⟩ := List.getElem?_eq_some_iff.mp there
  obtain ⟨rest,turned⟩ : ∃ rest, l.rotate i = l[i] :: rest :=
    ⟨l.drop (i + 1) ++ l.take i,by rw [rotate_eq_drop_append_take inside.le,drop_eq_getElem_cons inside,cons_append]⟩
  unfold pick
  rw [← rotate_rotate,turned,rotate_cons_succ,rotate_zero,argmax_cons,argmax_concat]
  cases best : rest.argmax f with
  | none => rfl
  | some m =>
    have less : f l[i] < f m := by
      by_contra least
      refine low ⟨getElem_mem inside,fun y member => ?_⟩
      have shown : y ∈ l[i] :: rest := turned ▸ mem_rotate.mpr member
      rcases mem_cons.mp shown with rfl | later
      · exact le_refl _
      · exact (le_of_mem_argmax later best).trans (le_of_not_gt least)
    simp only [less,not_lt_of_gt less,if_true,if_false]

omit [DecidableEq α] in
theorem pick_tied (tied : ∀ x ∈ l, Top f l x) (i : Nat) : pick f l i = l[i % l.length]? := by
  have first : ∀ {l' : List α}, (∀ x ∈ l', Top f l x) → l'.argmax f = l'.head? := by
    intro l' tops
    cases l' with
    | nil => rfl
    | cons x rest =>
      rw [argmax_cons]
      cases best : rest.argmax f with
      | none => rfl
      | some m =>
        have least : f m ≤ f x := (tops x mem_cons_self).2 m (tops m (mem_cons_of_mem _ (argmax_mem best))).1
        simp only [not_lt_of_ge least,if_false,head?_cons]
  rw [pick,first fun x member => tied x (mem_rotate.mp member),← rotate_mod]
  rcases l.length.eq_zero_or_pos with none | some
  · rw [length_eq_zero_iff.mp none]
    rfl
  · exact head?_rotate (Nat.mod_lt _ some)

theorem count_picks (tied : ∀ x ∈ l, Top f l x) (x : α) (k : Nat) : ∀ cursor,
    (picks f l cursor k).count x = Nat.count (fun j => l[(cursor + 1 + j) % l.length]? = some x) k := by
  induction k with
  | zero => intro cursor; rfl
  | succ k ih =>
    intro cursor
    have later : ∀ j, ((cursor + 1) % l.length + 1 + j) % l.length = (cursor + 1 + (j + 1)) % l.length := fun j => by
      rw [Nat.add_assoc _ 1 j,Nat.mod_add_mod,Nat.add_comm 1 j]
    rw [picks,count_append,pick_mod,pick_tied tied,ih,Nat.count_succ',Nat.add_comm]
    simp only [later]
    cases l[(cursor + 1) % l.length]? with
    | none => simp
    | some y => simp [count_singleton]

/-- Turns are even when there is one element of the highest score, and when there is no other. -/
theorem even_iff (distinct : l.Nodup) :
    Even f l ↔ (∀ x y, Top f l x → Top f l y → x = y) ∨ ∀ x ∈ l, Top f l x := by
  constructor
  · intro even
    by_contra uneven
    push Not at uneven
    obtain ⟨⟨x,y,top,top',apart⟩,z,member,low⟩ := uneven
    obtain ⟨i,there⟩ := List.mem_iff_getElem?.mp member
    have inside := (List.getElem?_eq_some_iff.mp there).1
    obtain ⟨m,taken⟩ : ∃ m, pick f l i = some m := by
      refine Option.ne_none_iff_exists'.mp fun none => ?_
      rw [pick,argmax_eq_none,rotate_eq_nil_iff] at none
      rw [none] at member
      cases member
    have turns : picks f l (i + (l.length - 1)) 2 = [m,m] := by
      have start : (i + (l.length - 1) + 1) % l.length = i := by
        rw [show i + (l.length - 1) + 1 = i + l.length by omega,Nat.add_mod_right,Nat.mod_eq_of_lt inside]
      simp only [picks,start,pick_mod,← pick_low there low,taken]
      rfl
    -- one of the two is not `m`, and has had no turn
    have once : ∀ y, Top f l y → m = y := by
      intro y top
      by_contra other
      have counts := even (i + (l.length - 1)) 2 m y (top_pick taken) top
      simp [turns,other] at counts
    exact apart ((once x top).symm.trans (once y top'))
  · rintro (single | tied) cursor k x y top top'
    · rw [single x y top top']
      exact Nat.le_succ _
    · have turns : ∀ x ∈ l, ∃ v, (picks f l cursor k).count x = k / l.length + if v % l.length < k % l.length then 1 else 0 := by
        intro x member
        obtain ⟨p,inside,rfl⟩ := List.getElem_of_mem member
        have some_ : 0 < l.length := Nat.zero_lt_of_lt inside
        refine ⟨p + (cursor + 1) * (l.length - 1),?_⟩
        have around : cursor + 1 + (p + (cursor + 1) * (l.length - 1)) = p + (cursor + 1) * l.length := by
          obtain ⟨n,equal⟩ : ∃ n, l.length = n + 1 := ⟨l.length - 1,by omega⟩
          rw [equal,Nat.add_sub_cancel]
          ring
        have turn : ∀ j, l[(cursor + 1 + j) % l.length]? = some l[p] ↔ j ≡ p + (cursor + 1) * (l.length - 1) [MOD l.length] := by
          intro j
          rw [List.getElem?_eq_getElem (Nat.mod_lt _ some_),Option.some.injEq,distinct.getElem_inj_iff]
          constructor
          · intro here
            refine Nat.ModEq.add_left_cancel' (cursor + 1) ?_
            rw [around,Nat.ModEq,here,Nat.add_mul_mod_self_right,Nat.mod_eq_of_lt inside]
          · intro same
            have shifted := same.add_left (cursor + 1)
            rw [around,Nat.ModEq,Nat.add_mul_mod_self_right,Nat.mod_eq_of_lt inside] at shifted
            exact shifted
        rw [count_picks tied,← Nat.count_modEq_card _ some_]
        simp only [turn]
      obtain ⟨v,first⟩ := turns x top.1
      obtain ⟨w,second⟩ := turns y top'.1
      rw [first]
      split_ifs <;> omega

end
end Tgtc.RoundRobin
