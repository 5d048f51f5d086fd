import Mathlib.Logic.Relation

/-!
Runs of a system that answers labels one after the other. The system is a step function together with the labels
allowed in each state; its runs are the lists of labels that stay allowed as they are taken.
-/
namespace Tgtc.Runs
universe u v

section
variable {State : Type u} {Label : Type v}

/-- Every label of the list is allowed in the state where it is taken. -/
def Legal (step : State → Label → State) (allowed : State → Label → Prop) : State → List Label → Prop
  | _, [] => True
  | s, l :: rest => allowed s l ∧ Legal step allowed (step s l) rest

/-- Whether a list is a run can be found out by running it. -/
instance decidableLegal (step : State → Label → State) (allowed : State → Label → Prop)
    [∀ s l, Decidable (allowed s l)] : ∀ (s : State) (labels : List Label), Decidable (Legal step allowed s labels)
  | _, [] => isTrue trivial
  | s, l :: rest => @instDecidableAnd _ _ _ (decidableLegal step allowed (step s l) rest)

/-- The states that runs from `start` pass through. -/
inductive Reachable (step : State → Label → State) (allowed : State → Label → Prop) (start : State) : State → Prop
  | start : Reachable step allowed start start
  | next {s : State} (l : Label) : Reachable step allowed start s → allowed s l →
      Reachable step allowed start (step s l)

variable {step : State → Label → State} {allowed : State → Label → Prop} {start : State}

theorem reachable_invariant {inv : State → Prop} (base : inv start)
    (keep : ∀ s l, inv s → allowed s l → inv (step s l)) {s : State}
    (reach : Reachable step allowed start s) : inv s := by
  induction reach with
  | start => exact base
  | next l _ ok ih => exact keep _ l ih ok

theorem reachable_trans {s s' : State} (first : Reachable step allowed start s) (second : Reachable step allowed s s') :
    Reachable step allowed start s' := by
  induction second with
  | start => exact first
  | next l _ ok ih => exact ih.next l ok

theorem reachable_run {s : State} (reach : Reachable step allowed start s) :
    ∀ labels : List Label, Legal step allowed s labels → Reachable step allowed start (labels.foldl step s) := by
  intro labels
  induction labels generalizing s with
  | nil => intro _; exact reach
  | cons l rest ih => intro legal; exact ih (reach.next l legal.1) legal.2

end

section
variable {State : Type u} {Label : Type v}

/-- What holds of every state that a run passes through, and from each of them to the next. -/
def Throughout (step : State → Label → State) (holds : State → Prop) (keeps : State → State → Prop) : State → List Label → Prop
  | s, [] => holds s
  | s, l :: rest => holds s ∧ keeps s (step s l) ∧ Throughout step holds keeps (step s l) rest

variable {step : State → Label → State} {allowed fits : State → Label → Prop} {inv holds : State → Prop} {keeps : State → State → Prop}

variable {s : State} {labels : List Label}

theorem throughout_here (all : Throughout step holds keeps s labels) : holds s := by
  cases labels with
  | nil => exact all
  | cons => exact all.1

theorem throughout_of_fits (sound : ∀ s, inv s → holds s)
    (keep : ∀ s l, inv s → allowed s l → fits s l → inv (step s l) ∧ keeps s (step s l))
    (base : inv s) (legal : Legal step allowed s labels) (fit : Legal step fits s labels) : Throughout step holds keeps s labels := by
  induction labels generalizing s with
  | nil => exact sound s base
  | cons l rest ih =>
    obtain ⟨kept,keeps⟩ := keep s l base legal.1 fit.1
    exact ⟨sound s base,keeps,ih kept legal.2 fit.2⟩

theorem fits_of_throughout (keep : ∀ s l, inv s → allowed s l → inv (step s l))
    (shown : ∀ s l, inv s → allowed s l → holds (step s l) → fits s l)
    (base : inv s) (legal : Legal step allowed s labels) (all : Throughout step holds keeps s labels) : Legal step fits s labels := by
  induction labels generalizing s with
  | nil => trivial
  | cons l rest ih =>
    exact ⟨shown s l base legal.1 (throughout_here all.2.2),ih (keep s l base legal.1) legal.2 all.2.2⟩

end

section
variable {State : Type u} {Kind : Type v}

abbrev Chain (move : Kind → State → State → Prop) (kinds : Kind → Prop) : State → State → Prop :=
  Relation.ReflTransGen (fun s s' => ∃ kind, kinds kind ∧ move kind s s')

variable {move : Kind → State → State → Prop} {kinds : Kind → Prop}

theorem chain_of_kind {kind : Kind} (among : kinds kind) {s s' : State}
    (steps : Relation.ReflTransGen (move kind) s s') : Chain move kinds s s' :=
  Relation.ReflTransGen.mono (fun _ _ change => ⟨kind,among,change⟩) _ _ steps

theorem chain_mono {more : Kind → Prop} (among : ∀ kind, kinds kind → more kind) {s s' : State}
    (chain : Chain move kinds s s') : Chain move more s s' :=
  Relation.ReflTransGen.mono (fun _ _ change => change.imp fun kind held => ⟨among kind held.1,held.2⟩) _ _ chain

theorem chain_invariant {inv : State → Prop} {s s' : State} (chain : Chain move kinds s s')
    (keep : ∀ kind t t', kinds kind → move kind t t' → inv t → inv t') (holds : inv s) : inv s' := by
  induction chain with
  | refl => exact holds
  | tail _ change ih =>
    obtain ⟨kind,among,change⟩ := change
    exact keep kind _ _ among change ih

end
end Tgtc.Runs
