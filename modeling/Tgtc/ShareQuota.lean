import Tgtc.Runs
import Tgtc.ShareRequests

/-!
How often a link is used. Every use is counted by a statement that looks at the bound itself, but
a row that is saved whole takes the count along, if it is not the one that the save has found.
-/
namespace Tgtc.ShareQuota
open Runs Maps RowLocks ShareLinks ShareRequests

def Keeps : Label → Prop
  | .change (.update dto) => dto.maxAccessCount = none
  | _ => True

instance : ∀ l, Decidable (Keeps l)
  | .change (.update dto) => inferInstanceAs (Decidable (dto.maxAccessCount = none))
  | .change .cancel => isTrue trivial
  | .tick _ | .ask _ | .run _ | .fail _ | .prune _ => isTrue trivial

def Stage.Current : Stage → Prop
  | .updating mine found _ => mine.currentAccessCount = found.currentAccessCount
  | _ => True

instance : ∀ stage, Decidable (Stage.Current stage) := fun stage => by
  cases stage <;> unfold Stage.Current <;> infer_instance

/-- A save that can be carried out has found the count that has been read. -/
def Current (s : State) : Label → Prop
  | .run n => s.link.blocked n = true ∨ ∀ r ∈ s.requests[n]?, Stage.Current r.stage
  | _ => True

instance (s : State) : ∀ l, Decidable (Current s l) := fun l => by
  cases l <;> unfold Current <;> infer_instance

def count (s : State) : Nat := s.link.committed.elim 0 ShareLink.currentAccessCount

def consumed (s : State) : Nat := s.grants.countP Grant.consumed

abbrev Reached (link : ShareLink) : State → Prop := Reachable step (fun s l => Keeps l ∧ Current s l) (.start link)

section
variable {s : State} {n i : Nat} {link row row' : ShareLink} {stage : Stage} {event : Option Event} {r : Request}

def charge : Option Event → Nat
  | some (.granted _ true) => 1
  | _ => 0

theorem charge_le : charge event ≤ 1 := by
  unfold charge
  split <;> decide

theorem consumed_record : consumed (s.record r event) = consumed s + charge event := by
  match event with
  | none => rfl
  | some (.granted credential true) => simp [State.record,consumed,charge]
  | some (.granted credential false) => simp [State.record,consumed,charge]
  | some (.issued _) | some .ticketed | some (.changed _) => rfl

def Copy (n total : Nat) (link : ShareLink) : Prop := link.maxAccessCount = n ∧ link.currentAccessCount ≤ total

def Stage.Fits (n total : Nat) : Stage → Prop
  | .inShare link _ | .startingClock link _ | .incrementing link _ => Copy n total link
  | .readingOwn change => Keeps (.change change)
  | .changing link change => Copy n total link ∧ Keeps (.change change)
  | .saving mine _ => Copy n total mine
  | .updating mine found _ => Copy n found.currentAccessCount mine ∧ Copy n total found
  | _ => True

theorem copy_mono {total more : Nat} (le : total ≤ more) (copy : Copy n total link) : Copy n more link :=
  ⟨copy.1,Nat.le_trans copy.2 le⟩

theorem fits_mono {total more : Nat} (le : total ≤ more) (fits : Stage.Fits n total stage) : Stage.Fits n more stage := by
  cases stage with
  | changing link change => exact ⟨copy_mono le fits.1,fits.2⟩
  | updating mine found change => exact ⟨fits.1,copy_mono le fits.2⟩
  | inShare | startingClock | incrementing | saving => exact copy_mono le fits
  | readingOwn => exact fits
  | _ => trivial

theorem fits_write {total : Nat} {next : Stage} (before : Stage.Fits n total stage) (after : Stage.Fits n total next) :
    Stage.Fits n total (s.write i stage row next event).next := by
  unfold State.write
  split
  · exact before
  · exact after

theorem fits_counting {total : Nat} {purpose : Purpose} (copy : Copy n total link) : Stage.Fits n total (counting link purpose) := by
  cases purpose <;> trivial

theorem fits_read {purpose : Purpose} (there : s.link.committed = some row) (copy : Copy n row.currentAccessCount row) :
    Stage.Fits n row.currentAccessCount (s.read purpose) := by
  unfold State.read
  split
  · trivial
  split
  · trivial
  next found =>
  obtain ⟨rfl,_⟩ := row_eq there found
  split
  · unfold State.admitted
    split <;> first | exact copy | (split <;> trivial)
  next refused =>
  split
  · next saves =>
    obtain ⟨_,rfl⟩ := useless_saves refused saves
    exact copy
  · trivial

theorem copy_changed {total now : Nat} {change : Change} (copy : Copy n total link) (keeps : Keeps (.change change)) :
    Copy n total (changed now link change) := by
  cases change with
  | cancel => exact copy
  | update dto =>
    have same : dto.maxAccessCount = none := keeps
    simpa [Copy,changed,same] using copy

theorem fits_advance (there : s.link.committed = some row) (copy : Copy n row.currentAccessCount row)
    (fits : Stage.Fits n row.currentAccessCount stage) : Stage.Fits n row.currentAccessCount (s.advance i stage).next := by
  unfold State.advance
  cases stage with
  | reading purpose => exact fits_read there copy
  | inShare link purpose =>
    cases purpose <;> dsimp only <;> first | trivial | (split <;> first | exact fits | exact fits_counting fits)
  | startingClock link purpose =>
    dsimp only
    split
    · trivial
    · exact fits_write fits (fits_counting fits)
  | incrementing link cookie => dsimp only; split <;> split <;> first | trivial | exact fits_write fits trivial
  | exhausting => dsimp only; split <;> first | trivial | exact fits_write fits trivial
  | previewing phase key purpose | ticketing => dsimp only; split <;> trivial
  | readingOwn change =>
    dsimp only
    split
    · trivial
    · next found =>
      obtain ⟨rfl,_⟩ := row_eq there found
      exact ⟨copy,fits⟩
  | changing link change => exact copy_changed fits.1 fits.2
  | saving mine change =>
    simp only [there]
    exact ⟨fits,copy⟩
  | updating mine found change => dsimp only; split <;> first | trivial | exact fits_write fits trivial
  | _ => trivial

theorem effect_count (effect : Effect s stage row row' event) (bound : row.maxAccessCount = n)
    (fits : Stage.Fits n row.currentAccessCount stage) (current : Stage.Current stage) :
    row'.maxAccessCount = n ∧ row'.currentAccessCount = row.currentAccessCount + charge event ∧
      (charge event = 0 ∨ row.currentAccessCount < n) := by
  cases effect with
  | passes link cookie _ unlimited =>
    have := fits.1
    omega
  | counts link cookie _ below =>
    have := fits.1
    refine ⟨bound,rfl,.inr ?_⟩
    omega
  | charges phase key purpose _ admits =>
    have below := admits_below admits (by omega)
    exact ⟨bound,rfl,.inr (by omega)⟩
  | saves mine found change =>
    have same : mine.currentAccessCount = found.currentAccessCount := current
    obtain ⟨⟨one,_⟩,other,_⟩ := fits
    have free : charge (change.map .changed) = 0 := by cases change <;> rfl
    exact ⟨by simp [saved,one,other,bound],by simp [saved,same,free],.inl free⟩
  | _ => exact ⟨bound,rfl,.inl rfl⟩

theorem old_lost (there : s.link.committed = some row) (fits : Stage.Fits n row.currentAccessCount stage)
    (old : ¬ Stage.Current stage) (free : s.link.blocked i = false) :
    ∃ row', (s.advance i stage).link.committed = some row' ∧ row'.currentAccessCount < row.currentAccessCount := by
  cases stage with
  | updating mine found change =>
    have other : mine.currentAccessCount ≠ found.currentAccessCount := old
    obtain ⟨⟨_,before⟩,_,reached⟩ := fits
    refine ⟨saved mine found row,by simp [State.advance,there,State.write,free,Record.put],?_⟩
    simp only [saved,column,if_neg other]
    omega
  | _ => exact absurd trivial old

structure Inv (n start : Nat) (s : State) : Prop where
  locked : Locked s
  row : ∃ row, s.link.committed = some row ∧ row.maxAccessCount = n ∧ start + consumed s ≤ row.currentAccessCount ∧
    (consumed s = 0 ∨ row.currentAccessCount ≤ n)
  fits : ∀ (i : Nat) (r : Request), s.requests[i]? = some r → Stage.Fits n (count s) r.stage

variable {start : Nat}

theorem inv_start (limited : link.maxAccessCount = n) : Inv n link.currentAccessCount (.start link) :=
  ⟨locked_start,⟨link,rfl,limited,Nat.le_refl _,.inl rfl⟩,fun _ _ found => nomatch found⟩

theorem count_eq (there : s.link.committed = some row) : count s = row.currentAccessCount := by simp [count,there]

section
variable (inv : Inv n start s) (found : s.requests[i]? = some r) (current : s.link.blocked i = true ∨ Stage.Current r.stage)
include inv found current

theorem run_count : ∃ row row', s.link.committed = some row ∧ (s.run i r).link.committed = some row' ∧ row'.maxAccessCount = n ∧
      row'.currentAccessCount = row.currentAccessCount + charge (s.advance i r.stage).event ∧
      (charge (s.advance i r.stage).event = 0 ∨ row.currentAccessCount < n) := by
  obtain ⟨row,there,bound,_⟩ := inv.row
  have fits := inv.fits i r found
  rw [count_eq there] at fits
  obtain ⟨row',after,effect⟩ := advance_effect there (inv.locked.holding i r found)
  refine ⟨row,row',there,after,?_⟩
  by_cases fresh : Stage.Current r.stage
  · exact effect_count effect bound fits fresh
  -- the save waits for the lock
  have blocked := current.resolve_right fresh
  cases stage : r.stage with
  | updating mine found change =>
    have waits : s.advance i (.updating mine found change) = ⟨s.link,.updating mine found change,none⟩ := by
      simp [State.advance,there,State.write,blocked]
    rw [stage,waits] at after
    rw [waits]
    obtain rfl : row = row' := Option.mem_unique there after
    exact ⟨bound,rfl,.inl rfl⟩
  | _ => rw [stage] at fresh; exact absurd trivial fresh

theorem inv_run : Inv n start (s.run i r) := by
  obtain ⟨row,row',there,after,bound,counted,room⟩ := run_count inv found current
  obtain ⟨_,same,limited,reached,below⟩ := inv.row
  obtain rfl := Option.mem_unique there same
  have charged : consumed (s.run i r) = consumed s + charge (s.advance i r.stage).event := consumed_record
  have once : charge (s.advance i r.stage).event ≤ 1 := charge_le
  have grows : count s ≤ count (s.run i r) := by
    rw [count_eq there,count_eq after]
    omega
  refine ⟨locked_run inv.locked found,⟨row',after,bound,by omega,by omega⟩,fun j r' found' => ?_⟩
  rcases at_of_set found' with ⟨rfl,rfl⟩ | ⟨_,before⟩
  · have fits := inv.fits j r found
    rw [count_eq there] at fits grows
    exact fits_mono grows (fits_advance there ⟨limited,Nat.le_refl _⟩ fits)
  · exact fits_mono grows (inv.fits j r' before)

end

theorem inv_step (inv : Inv n start s) (l : Label) (allowed : Keeps l ∧ Current s l) : Inv n start (step s l) := by
  have locked := locked_step inv.locked l
  have appended : ∀ new : Request, Stage.Fits n (count s) new.stage →
      ∀ (i : Nat) (r : Request), (s.requests ++ [new])[i]? = some r → Stage.Fits n (count s) r.stage := by
    intro new fits i r found
    rcases at_of_append found with before | ⟨_,rfl⟩
    · exact inv.fits i r before
    · exact fits
  cases l with
  | ask purpose => exact ⟨locked,inv.row,appended _ trivial⟩
  | change change => exact ⟨locked,inv.row,appended _ allowed.1⟩
  | run i =>
    unfold step
    dsimp only
    split
    · next r found => exact inv_run inv found (allowed.2.imp_right fun current => current r found)
    · exact inv
  | fail i =>
    unfold step at locked ⊢
    dsimp only at locked ⊢
    split at locked
    · obtain ⟨row,there,rest⟩ := inv.row
      refine ⟨locked,⟨row,by simpa using there,rest⟩,fun j r' found => ?_⟩
      rcases at_of_set found with ⟨_,rfl⟩ | ⟨_,before⟩
      · trivial
      · simpa [count] using inv.fits j r' before
    · exact inv
  | _ => exact ⟨locked,inv.row,inv.fits⟩

/-- No more is granted than there was left, and the count goes back exactly when an old one is saved. -/
theorem quota_kept (limited : link.maxAccessCount = n) (reach : Reached link s) :
    consumed s ≤ n - link.currentAccessCount ∧ ∀ l, Keeps l → (count s ≤ count (step s l) ↔ Current s l) := by
  have inv : Inv n link.currentAccessCount s := reachable_invariant (inv_start limited) (fun _ l inv ok => inv_step inv l ok) reach
  obtain ⟨row,there,_,reached,below⟩ := inv.row
  refine ⟨by omega,fun l keeps => ⟨fun stays => ?_,fun current => ?_⟩⟩
  · cases l with
    | run i =>
      by_contra old
      simp only [Current,not_or,not_forall,Bool.not_eq_true] at old
      obtain ⟨free,r,found,old⟩ := old
      have fits := inv.fits i r found
      rw [count_eq there] at fits
      obtain ⟨row',after,less⟩ := old_lost there fits old free
      have goes : step s (.run i) = s.run i r := by
        have found : s.requests[i]? = some r := found
        simp [step,found]
      rw [goes,count_eq there,count_eq after] at stays
      omega
    | _ => trivial
  · cases l with
    | run i =>
      unfold step
      dsimp only
      split
      · next r found =>
        obtain ⟨row,row',there,after,_,counted,_⟩ := run_count inv found (current.imp_right fun current => current r found)
        rw [count_eq there,count_eq after]
        omega
      · exact Nat.le_refl _
    | fail i =>
      unfold step
      dsimp only
      split
      · simp [count]
      · exact Nat.le_refl _
    | _ => exact Nat.le_refl _

def onceLink : ShareLink := ⟨"share","token",.folder,1,1,none,1,0,none,none,.active,false⟩

def validity : Change := .update ⟨none,none,some none⟩

def changedBetween : List Label :=
  [.ask (.consume none),.run 0,.run 0,.run 0,.change validity,.run 1,.run 1,.run 1,.run 1,.ask (.consume none),.run 2,.run 2]

theorem changed_between : ∃ s, Reached onceLink s ∧ consumed s = 1 ∧ consumed s ≤ 1 - onceLink.currentAccessCount :=
  have reach := reachable_run .start changedBetween (by decide +kernel)
  ⟨_,reach,by decide +kernel,(quota_kept (by rfl) reach).1⟩

def changedMeanwhile : List Label :=
  [.change validity,.run 0,.ask (.consume none),.run 1,.run 1,.run 1,.run 0,.run 0,.run 0,.ask (.consume none),.run 2,.run 2,.run 2]

theorem granted_twice : ¬ ∀ s, Reachable step (fun _ l => Keeps l) (.start onceLink) s → consumed s ≤ 1 := by
  intro always
  have legal : Legal step (fun _ l => Keeps l) (.start onceLink) changedMeanwhile := by decide +kernel
  exact absurd (always _ (reachable_run .start changedMeanwhile legal)) (by decide +kernel)

end
end Tgtc.ShareQuota
