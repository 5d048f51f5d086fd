import Mathlib.Init
import Mathlib.Tactic.TypeStar

/-!
What can be seen of a state by running programs on it. A program reads and writes the state and may stop with an
error, after which what it has written stays.
-/
namespace Tgtc.Observations

abbrev Action (State Error : Type) : Type → Type := ExceptT Error (StateM State)

section
variable {State Part Error Result Next : Type}

def outcome (m : Action State Error Result) (s : State) : Except Error Result × State := Id.run (StateT.run (ExceptT.run m) s)

@[simp] theorem outcome_pure (a : Result) (s : State) : outcome (pure a : Action State Error Result) s = (.ok a,s) := rfl

@[simp] theorem outcome_throw (e : Error) (s : State) : outcome (throw e : Action State Error Result) s = (.error e,s) := rfl

@[simp] theorem outcome_get (s : State) : outcome (get : Action State Error State) s = (.ok s,s) := rfl

@[simp] theorem outcome_set (s s' : State) : outcome (set s' : Action State Error PUnit) s = (.ok ⟨⟩,s') := rfl

@[simp] theorem outcome_modify (f : State → State) (s : State) : outcome (modify f : Action State Error PUnit) s = (.ok ⟨⟩,f s) := rfl

@[simp] theorem outcome_adapt (report : Error → Error) (m : Action State Error Result) (s : State) :
    outcome (ExceptT.adapt report m) s = ((outcome m s).1.mapError report,(outcome m s).2) := rfl

theorem outcome_bind (m : Action State Error Result) (f : Result → Action State Error Next) (s : State) :
    outcome (m >>= f) s = match outcome m s with
      | (.ok a,s') => outcome (f a) s'
      | (.error e,s') => (.error e,s') := by
  show Id.run (StateT.run (ExceptT.run m >>= ExceptT.bindCont f) s) = _
  simp only [StateT.run_bind,Id.run_bind]
  unfold outcome
  split
  · next a s' done => rw [done]; rfl
  · next e s' done => rw [done]; rfl

/-- From a state as it is asked for, it comes to an answer and a state as they are promised. -/
def Keeps (pre : State → Prop) (m : Action State Error Result) (post : Except Error Result → State → Prop) : Prop :=
  ∀ s, pre s → post (outcome m s).1 (outcome m s).2

variable {pre : State → Prop} {m : Action State Error Result} {f : Result → Action State Error Next}
  {mid : Except Error Result → State → Prop} {post : Except Error Next → State → Prop}

theorem keeps_pure {a : Next} (holds : ∀ s, pre s → post (.ok a) s) : Keeps pre (pure a : Action State Error Next) post := holds

theorem keeps_throw {e : Error} (holds : ∀ s, pre s → post (.error e) s) : Keeps pre (throw e : Action State Error Next) post := holds

theorem keeps_bind (first : Keeps pre m mid) (next : ∀ a, Keeps (mid (.ok a)) (f a) post)
    (stops : ∀ e s, mid (.error e) s → post (.error e) s) : Keeps pre (m >>= f) post := by
  intro s holds
  have held := first s holds
  rw [outcome_bind]
  generalize outcome m s = result at held ⊢
  obtain ⟨answer,s'⟩ := result
  cases answer with
  | ok a => exact next a s' held
  | error e => exact stops e s' held

/-- In two states with the same part it answers the same, and leaves the same part, as it is promised. -/
def Blind (part : State → Part) (pre : Part → Prop) (m : Action State Error Result) (post : Except Error Result → Part → Prop) : Prop :=
  ∀ s t, part s = part t → pre (part s) → (outcome m s).1 = (outcome m t).1 ∧ part (outcome m s).2 = part (outcome m t).2 ∧
    post (outcome m s).1 (part (outcome m s).2)

variable {part : State → Part} {pre : Part → Prop} {mid : Except Error Result → Part → Prop} {post : Except Error Next → Part → Prop}

theorem blind_bind (first : Blind part pre m mid) (next : ∀ a, Blind part (mid (.ok a)) (f a) post)
    (stops : ∀ e l, mid (.error e) l → post (.error e) l) : Blind part pre (m >>= f) post := by
  intro s t same holds
  obtain ⟨answers,parts,held⟩ := first s t same holds
  rw [outcome_bind,outcome_bind]
  generalize outcome m s = left at answers parts held ⊢
  generalize outcome m t = right at answers parts held ⊢
  obtain ⟨answer,s'⟩ := left
  obtain ⟨answer',t'⟩ := right
  obtain rfl : answer = answer' := answers
  cases answer with
  | ok a => exact next a s' t' parts held
  | error e => exact ⟨rfl,parts,stops e _ held⟩

theorem blind_pure {a : Next} (holds : ∀ l, pre l → post (.ok a) l) : Blind part pre (pure a : Action State Error Next) post :=
  fun _ _ same held => ⟨rfl,same,holds _ held⟩

theorem blind_adapt {report : Error → Error} {m : Action State Error Next} (blind : Blind part pre m post)
    (same : ∀ e l, post (.error e) l → post (.error (report e)) l) : Blind part pre (ExceptT.adapt report m) post := by
  intro s t parts holds
  obtain ⟨answers,after,held⟩ := blind s t parts holds
  rw [outcome_adapt,outcome_adapt]
  refine ⟨by rw [answers],after,?_⟩
  generalize (outcome m s).1 = answer at held ⊢
  cases answer with
  | ok a => exact held
  | error e => exact same e _ held

def zoom (part : State → Part) (put : Part → State → State) (m : Action Part Error Result) : Action State Error Result :=
  ExceptT.mk fun s => (fun result : Except Error Result × Part => (result.1,put result.2 s)) (outcome m (part s))

variable {put : Part → State → State}

@[simp] theorem outcome_zoom (m : Action Part Error Result) (s : State) :
    outcome (zoom part put m) s = ((outcome m (part s)).1,put (outcome m (part s)).2 s) := rfl

theorem blind_zoom {m : Action Part Error Next} (lawful : ∀ l s, part (put l s) = l) (kept : Keeps pre m post) :
    Blind part pre (zoom part put m) post := by
  intro s t same holds
  simp only [outcome_zoom,lawful,← same]
  exact ⟨trivial,trivial,kept _ holds⟩

end

section
variable {State Part Error Result Call : Type} {act : Call → Action State Error Result} {part : State → Part} {allowed : Part → Call → Prop}

def answers (act : Call → Action State Error Result) : List Call → State → List (Except Error Result) × State
  | [], s => ([],s)
  | call :: rest, s =>
    let first := outcome (act call) s
    let others := answers act rest first.2
    (first.1 :: others.1,others.2)

def Allowed (act : Call → Action State Error Result) (part : State → Part) (allowed : Part → Call → Prop) : State → List Call → Prop
  | _, [] => True
  | s, call :: rest => allowed (part s) call ∧ Allowed act part allowed (outcome (act call) s).2 rest

end
end Tgtc.Observations
