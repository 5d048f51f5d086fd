import Tgtc.Runs

/-!
One cache build session and its runner. The runner creates the temporary file, fetches the upstream, writes it chunk
by chunk, closes the file, compares sizes, renames the file onto the cache path with a few retries and then registers
it.
-/
namespace Tgtc.BuildSession
open Runs
universe u

inductive Phase where
  | unlinking
  | creating
  | fetching
  | reading
  | writing (length : Nat)
  | ending
  | stating
  | attempting (attempt : Nat)
  | backingOff (attempt : Nat)
  | renamed
  | unwinding
  | finished

structure Session (Version : Type u) where
  fileId : String
  expectedSize : Nat
  contentVersion : Option Version
  bytesWritten : Nat
  completed : Bool
  error : Option String
  outputError : Option String
  deadline : Option String
  phase : Phase
  renames : Nat
  /-- how often `registerCache` was called -/
  registrations : Nat

section
variable {Version : Type u}

def begin (fileId : String) (expectedSize : Nat) (contentVersion : Option Version) : Session Version :=
  { fileId, expectedSize, contentVersion, bytesWritten := 0, completed := false, error := none, outputError := none
    deadline := none, phase := .unlinking, renames := 0, registrations := 0 }

def Session.abort (s : Session Version) (error : String) : Session Version :=
  if s.error.isSome ∨ s.completed = true then s else { s with error := some error }

/-- What the runner's `catch` does before it waits. -/
def Session.throw (s : Session Version) (error : String) : Session Version := { s with error := some error, phase := .unwinding }

def Session.throwIf (s : Session Version) (error : Option String) (onward : Session Version) : Session Version :=
  match error with
  | some error => s.throw error
  | none => onward

inductive RenameCode where
  | EPERM | EBUSY | EACCES
  | other (code : String)
deriving DecidableEq

def RenameCode.retryable : RenameCode → Bool
  | .EPERM | .EBUSY | .EACCES => true
  | .other _ => false

def RenameCode.text : RenameCode → String
  | .EPERM => "EPERM"
  | .EBUSY => "EBUSY"
  | .EACCES => "EACCES"
  | .other code => code

def maxAttempts : Nat := 5

inductive Event where
  | unlinked
  | created (failure : Option String)
  | fetched (fileSize : Nat)
  | fetchFailed (error : String)
  | raceLost
  | chunk (length : Nat)
  | streamEnds
  | streamFails (error : String)
  | written (failure : Option String)
  | ended (failure : Option String)
  | stated (size : Nat)
  | statFails (error : String)
  | renameDone
  | renameFails (code : RenameCode)
  | retried
  | published
  | tmpUnlinked
  /-- the idle timer, an invalidation, a newer version, no-cache mode or shutdown -/
  | abort (error : String)
  | deadline (error : String)
  | outputBreaks (error : String)
deriving DecidableEq

def sizeMismatch (what : String) (expected actual : Nat) : String :=
  what ++ ": 期望 " ++ toString expected ++ ", 实际 " ++ toString actual

def step (s : Session Version) : Event → Session Version
  | .unlinked => { s with phase := .creating }
  | .created failure => s.throwIf failure { s with phase := .fetching }
  | .fetched fileSize =>
    if fileSize = s.expectedSize then { s with phase := .reading }
    else s.throw (sizeMismatch "上游文件大小不一致" s.expectedSize fileSize)
  | .fetchFailed error => s.throw error
  | .raceLost => s.throwIf s.deadline s
  | .chunk length =>
    s.throwIf s.error <| s.throwIf s.outputError <|
      if s.bytesWritten + length > s.expectedSize then s.throw "上游流超过预期文件大小"
      else { s with phase := .writing length }
  | .streamEnds => s.throwIf s.outputError { s with phase := .ending }
  | .streamFails error => s.throw error
  | .written failure =>
    match s.phase with
    | .writing length => s.throwIf (failure.or s.outputError)
        { s with bytesWritten := s.bytesWritten + length, phase := .reading }
    | _ => s
  | .ended failure =>
    -- the last look at the session's error
    s.throwIf (failure.or s.outputError) <| s.throwIf s.error { s with phase := .stating }
  | .stated size =>
    if s.bytesWritten ≠ s.expectedSize ∨ size ≠ s.expectedSize then
      s.throw (sizeMismatch "缓存文件大小不一致" s.expectedSize size)
    else { s with phase := .attempting 1 }
  | .statFails error => s.throw error
  | .renameDone => { s with phase := .renamed, renames := s.renames + 1 }
  | .renameFails code =>
    match s.phase with
    | .attempting attempt =>
      if maxAttempts ≤ attempt ∨ code.retryable = false then s.throw code.text
      else { s with phase := .backingOff attempt }
    | _ => s
  | .retried =>
    match s.phase with
    | .backingOff attempt => { s with phase := .attempting (attempt + 1) }
    | _ => s
  | .published => { s with phase := .finished, completed := true, registrations := s.registrations + 1 }
  | .tmpUnlinked => { s with phase := .finished }
  | .abort error => s.abort error
  | .deadline error => { s.abort error with deadline := some error }
  | .outputBreaks error => { s with outputError := some error }

/-- The runner's steps come in the phase that awaits them; the rest comes at any time. -/
def Allowed (s : Session Version) : Event → Prop
  | .unlinked => s.phase = .unlinking
  | .created _ => s.phase = .creating
  | .fetched _ | .fetchFailed _ => s.phase = .fetching
  | .raceLost => s.phase = .fetching ∧ s.deadline ≠ none
  | .chunk _ | .streamEnds | .streamFails _ => s.phase = .reading
  | .written _ => ∃ length, s.phase = .writing length
  | .ended _ => s.phase = .ending
  | .stated _ | .statFails _ => s.phase = .stating
  | .renameDone | .renameFails _ => ∃ attempt, s.phase = .attempting attempt
  | .retried => ∃ attempt, s.phase = .backingOff attempt
  | .published => s.phase = .renamed
  | .tmpUnlinked => s.phase = .unwinding
  | .abort _ | .deadline _ | .outputBreaks _ => True

def Phase.Running : Phase → Prop
  | .unwinding | .finished => False
  | _ => True

/-- A step that neither renames nor ends the runner: it throws, goes on, or leaves an error for later. -/
inductive Quiet (s : Session Version) : Session Version → Prop
  | throws (error : String) : s.phase.Running → Quiet s (s.throw error)
  | goes (phase : Phase) (bytesWritten : Nat) : s.phase.Running → phase.Running → phase ≠ .renamed →
      Quiet s { s with phase := phase, bytesWritten := bytesWritten }
  | aborts (error : String) (deadline : Option String) : Quiet s { s.abort error with deadline := deadline }
  | breaks (error : String) : Quiet s { s with outputError := some error }

variable {s : Session Version} {event : Event} {s' : Session Version}

theorem throwIf_quiet {onward : Session Version} (running : s.phase.Running) (error : Option String)
    (otherwise : error = none → Quiet s onward) : Quiet s (s.throwIf error onward) := by
  cases error with
  | some error => exact .throws error running
  | none => exact otherwise rfl

theorem step_quiet (ok : Allowed s event) (noRename : event ≠ .renameDone)
    (noPublication : event ≠ .published) (noEnd : event ≠ .tmpUnlinked) : Quiet s (step s event) := by
  have at_phase : ∀ {phase : Phase}, s.phase = phase → phase.Running → s.phase.Running := by
    rintro phase rfl running
    exact running
  cases event with
  | unlinked => exact .goes .creating s.bytesWritten (at_phase ok trivial) trivial (by simp)
  | created failure =>
    exact throwIf_quiet (at_phase ok trivial) failure fun _ =>
      .goes .fetching s.bytesWritten (at_phase ok trivial) trivial (by simp)
  | fetched fileSize =>
    by_cases same : fileSize = s.expectedSize
    · simpa [step,same] using Quiet.goes .reading s.bytesWritten (at_phase ok trivial) trivial (by simp)
    · simpa [step,same] using Quiet.throws _ (at_phase ok trivial)
  | fetchFailed error => exact .throws error (at_phase ok trivial)
  | raceLost => exact throwIf_quiet (at_phase ok.1 trivial) s.deadline fun absent => absurd absent ok.2
  | chunk length =>
    have running := at_phase ok trivial
    refine throwIf_quiet running s.error fun _ => throwIf_quiet running s.outputError fun _ => ?_
    split
    · exact .throws _ running
    · exact .goes (.writing length) s.bytesWritten running trivial (by simp)
  | streamEnds =>
    exact throwIf_quiet (at_phase ok trivial) s.outputError fun _ =>
      .goes .ending s.bytesWritten (at_phase ok trivial) trivial (by simp)
  | streamFails error => exact .throws error (at_phase ok trivial)
  | written failure =>
    obtain ⟨length,phase⟩ := ok
    simp only [step,phase]
    exact throwIf_quiet (at_phase phase trivial) _ fun _ =>
      .goes .reading (s.bytesWritten + length) (at_phase phase trivial) trivial (by simp)
  | ended failure =>
    have running := at_phase ok trivial
    exact throwIf_quiet running _ fun _ => throwIf_quiet running s.error fun _ =>
      .goes .stating s.bytesWritten running trivial (by simp)
  | stated size =>
    have running := at_phase ok trivial
    simp only [step]
    split
    · exact .throws _ running
    · exact .goes (.attempting 1) s.bytesWritten running trivial (by simp)
  | statFails error => exact .throws error (at_phase ok trivial)
  | renameDone => exact absurd rfl noRename
  | renameFails code =>
    obtain ⟨attempt,phase⟩ := ok
    have running := at_phase phase trivial
    simp only [step,phase]
    split
    · exact .throws _ running
    · exact .goes (.backingOff attempt) s.bytesWritten running trivial (by simp)
  | retried =>
    obtain ⟨attempt,phase⟩ := ok
    simp only [step,phase]
    exact .goes (.attempting (attempt + 1)) s.bytesWritten (at_phase phase trivial) trivial (by simp)
  | published => exact absurd rfl noPublication
  | tmpUnlinked => exact absurd rfl noEnd
  | abort error => exact .aborts error (s.abort error).deadline
  | deadline error => exact .aborts error (some error)
  | outputBreaks error => exact .breaks error

@[simp] theorem abort_phase (s : Session Version) (error : String) : (s.abort error).phase = s.phase := by
  unfold Session.abort; split <;> rfl

@[simp] theorem abort_completed (s : Session Version) (error : String) : (s.abort error).completed = s.completed := by
  unfold Session.abort; split <;> rfl

@[simp] theorem abort_bytesWritten (s : Session Version) (error : String) :
    (s.abort error).bytesWritten = s.bytesWritten := by
  unfold Session.abort; split <;> rfl

@[simp] theorem abort_expectedSize (s : Session Version) (error : String) :
    (s.abort error).expectedSize = s.expectedSize := by
  unfold Session.abort; split <;> rfl

@[simp] theorem abort_renames (s : Session Version) (error : String) : (s.abort error).renames = s.renames := by
  unfold Session.abort; split <;> rfl

@[simp] theorem abort_registrations (s : Session Version) (error : String) :
    (s.abort error).registrations = s.registrations := by
  unfold Session.abort; split <;> rfl

theorem abort_fields (s : Session Version) (error : String) :
    s.abort error = s ∨ (s.completed = false ∧ s.abort error = { s with error := some error }) := by
  unfold Session.abort
  split
  · exact .inl rfl
  · next open_session =>
    refine .inr ⟨?_,rfl⟩
    simp only [not_or,Bool.not_eq_true] at open_session
    exact open_session.2

theorem quiet_frame (quiet : Quiet s s') :
    s'.fileId = s.fileId ∧ s'.contentVersion = s.contentVersion ∧ s'.completed = s.completed ∧
      s'.renames = s.renames ∧ s'.registrations = s.registrations ∧ (s.error ≠ none → s'.error ≠ none) ∧
      (s'.phase = .finished ↔ s.phase = .finished) := by
  cases quiet with
  | throws error running =>
    cases phase : s.phase with
    | finished => simp [phase,Phase.Running] at running
    | _ => simp [Session.throw]
  | goes phase bytesWritten running onward _ =>
    refine ⟨rfl,rfl,rfl,rfl,rfl,id,?_⟩
    constructor
    · rintro rfl
      exact absurd onward id
    · intro past
      simp [past,Phase.Running] at running
  | aborts error deadline =>
    rcases abort_fields s error with same | ⟨_,same⟩
    · rw [same]
      exact ⟨rfl,rfl,rfl,rfl,rfl,id,Iff.rfl⟩
    · rw [same]
      exact ⟨rfl,rfl,rfl,rfl,rfl,fun _ => by simp,Iff.rfl⟩
  | breaks error => exact ⟨rfl,rfl,rfl,rfl,rfl,id,Iff.rfl⟩

theorem step_identity (ok : Allowed s event) :
    (step s event).fileId = s.fileId ∧ (step s event).contentVersion = s.contentVersion := by
  by_cases rename : event = .renameDone
  · subst rename
    exact ⟨rfl,rfl⟩
  by_cases publication : event = .published
  · subst publication
    exact ⟨rfl,rfl⟩
  by_cases ending : event = .tmpUnlinked
  · subst ending
    exact ⟨rfl,rfl⟩
  · obtain ⟨file,version,_⟩ := quiet_frame (step_quiet ok rename publication ending)
    exact ⟨file,version⟩

def Session.Out (s : Session Version) : Prop := s.phase = .renamed ∨ s.completed = true

theorem step_out (ok : Allowed s event) (noRename : event ≠ .renameDone)
    (out : (step s event).Out) : s.Out := by
  by_cases publication : event = .published
  · subst publication
    exact .inl ok
  by_cases ending : event = .tmpUnlinked
  · subst ending
    rcases out with renamed | done
    · cases renamed
    · exact .inr done
  · have quiet := step_quiet ok noRename publication ending
    rcases out with renamed | done
    · left
      generalize step s event = s' at quiet renamed
      cases quiet with
      | throws error running => cases renamed
      | goes phase bytesWritten running onward other => exact absurd renamed other
      | aborts error deadline => exact (abort_phase s error).symm.trans renamed
      | breaks error => exact renamed
    · obtain ⟨_,_,completed,_⟩ := quiet_frame quiet
      exact .inr (completed.symm.trans done)

/-- A runner that unwinds or has ended has an error to show, or its session is complete, which it is only then. -/
def Session.Ended (s : Session Version) : Prop :=
  (s.phase = .unwinding → s.error ≠ none) ∧ (s.phase = .finished → s.error ≠ none ∨ s.completed = true) ∧
    (s.completed = true → s.phase = .finished)

theorem quiet_ended (ended : s.Ended) (quiet : Quiet s s') : s'.Ended := by
  obtain ⟨_,_,completed,_,_,_,phase⟩ := quiet_frame quiet
  have complete : s'.completed = true → s'.phase = .finished := fun done =>
    phase.mpr (ended.2.2 (completed.symm.trans done))
  cases quiet with
  | throws error running => exact ⟨by simp [Session.throw],by simp [Session.throw],complete⟩
  | goes phase bytesWritten running onward _ =>
    refine ⟨?_,?_,complete⟩
    · rintro rfl
      exact absurd onward id
    · rintro rfl
      exact absurd onward id
  | aborts error deadline =>
    rcases abort_fields s error with same | ⟨_,same⟩
    · rw [same]
      exact ended
    · rw [same] at complete ⊢
      exact ⟨by simp,by simp,complete⟩
  | breaks error => exact ended

theorem step_ended (ended : s.Ended) (ok : Allowed s event) :
    (step s event).Ended := by
  by_cases rename : event = .renameDone
  · subst rename
    obtain ⟨attempt,phase⟩ := ok
    refine ⟨by simp [step],by simp [step],?_⟩
    intro done
    have past := ended.2.2 done
    rw [phase] at past
    cases past
  by_cases publication : event = .published
  · subst publication
    simp [Session.Ended,step]
  by_cases ending : event = .tmpUnlinked
  · subst ending
    have caught := ended.1 ok
    simp [Session.Ended,step,caught]
  · exact quiet_ended ended (step_quiet ok rename publication ending)

/-- The runner has looked at the error for the last time and has all it needs to publish. -/
def Session.Committed (s : Session Version) : Prop :=
  match s.phase with
  | .stating => s.bytesWritten = s.expectedSize
  | .attempting _ | .backingOff _ | .renamed => True
  | _ => False

instance (s : Session Version) : Decidable s.Committed :=
  match phase : s.phase with
  | .stating => decidable_of_iff (s.bytesWritten = s.expectedSize) (by simp [Session.Committed,phase])
  | .attempting _ | .backingOff _ | .renamed => isTrue (by simp [Session.Committed,phase])
  | .unlinking | .creating | .fetching | .reading | .writing _ | .ending | .unwinding | .finished =>
    isFalse (by simp [Session.Committed,phase])

/-- The session will fail: its runner still has to look at the error, or has failed already. -/
def Session.Doomed (s : Session Version) : Prop :=
  s.completed = false ∧
  match s.phase with
  | .unlinking | .creating | .fetching | .reading | .writing _ | .ending => s.error ≠ none
  | .stating => s.bytesWritten ≠ s.expectedSize
  | .attempting _ | .backingOff _ | .renamed => False
  | .unwinding | .finished => True

theorem abort_error (unfinished : s.completed = false) (error : String) :
    (s.abort error).error ≠ none := by
  cases before : s.error with
  | none => simp [Session.abort,before,unfinished]
  | some earlier => simp [Session.abort,before]

theorem abort_doomed (unfinished : s.completed = false) (early : ¬ s.Committed) (error : String) :
    (s.abort error).Doomed := by
  have set := abort_error unfinished error
  refine ⟨by simp [unfinished],?_⟩
  simp only [abort_phase]
  simp only [Session.Committed] at early
  cases phase : s.phase with
  | stating => simpa [phase] using early
  | attempting attempt | backingOff attempt | renamed => simp [phase] at early
  | unwinding | finished => trivial
  | _ => exact set

theorem doomed_not_committed (doomed : s.Doomed) : ¬ s.Committed := by
  intro committed
  have doom := doomed.2
  simp only [Session.Committed] at committed
  cases phase : s.phase with
  | stating =>
    simp only [phase] at committed doom
    exact doom committed
  | attempting attempt | backingOff attempt | renamed => simp [phase] at doom
  | _ => simp [phase] at committed

def StillDoomed (s s' : Session Version) : Prop :=
  s'.Doomed ∧ s'.renames = s.renames ∧ s'.registrations = s.registrations

section
variable (doomed : s.Doomed)
include doomed

theorem throw_doomed (error : String) : StillDoomed s (s.throw error) :=
  ⟨⟨doomed.1,trivial⟩,rfl,rfl⟩

theorem aborted_doomed (error : String) : StillDoomed s (s.abort error) :=
  ⟨abort_doomed doomed.1 (doomed_not_committed doomed) error,abort_renames s error,abort_registrations s error⟩

theorem throwIf_doomed {onward : Session Version} (error : Option String)
    (otherwise : error = none → StillDoomed s onward) : StillDoomed s (s.throwIf error onward) := by
  cases error with
  | some error => exact throw_doomed doomed error
  | none => exact otherwise rfl

theorem onward_doomed (set : s.error ≠ none) {bytesWritten : Nat} {phase : Phase}
    (early : phase = .creating ∨ phase = .fetching ∨ phase = .reading ∨ (∃ length, phase = .writing length) ∨
      phase = .ending) : StillDoomed s { s with bytesWritten := bytesWritten, phase := phase } := by
  refine ⟨⟨doomed.1,?_⟩,rfl,rfl⟩
  rcases early with rfl | rfl | rfl | ⟨length,rfl⟩ | rfl
  all_goals exact set

theorem step_doomed (ok : Allowed s event) : StillDoomed s (step s event) := by
  have doom := doomed.2
  cases event with
  | unlinked =>
    rw [show s.phase = _ from ok] at doom
    exact onward_doomed doomed doom (.inl rfl)
  | created failure =>
    rw [show s.phase = _ from ok] at doom
    exact throwIf_doomed doomed failure fun _ => onward_doomed doomed doom (.inr (.inl rfl))
  | fetched fileSize =>
    rw [show s.phase = _ from ok] at doom
    by_cases same : fileSize = s.expectedSize
    · simpa [step,same] using onward_doomed doomed doom (.inr (.inr (.inl rfl)))
    · simpa [step,same] using throw_doomed doomed _
  | fetchFailed error => exact throw_doomed doomed error
  | raceLost => exact throwIf_doomed doomed s.deadline fun _ => ⟨doomed,rfl,rfl⟩
  | chunk length =>
    rw [show s.phase = _ from ok] at doom
    exact throwIf_doomed doomed s.error fun absent => absurd absent doom
  | streamEnds =>
    rw [show s.phase = _ from ok] at doom
    exact throwIf_doomed doomed s.outputError fun _ => onward_doomed doomed doom (.inr (.inr (.inr (.inr rfl))))
  | streamFails error => exact throw_doomed doomed error
  | written failure =>
    obtain ⟨length,phase⟩ := ok
    rw [phase] at doom
    simp only [step,phase]
    exact throwIf_doomed doomed _ fun _ => onward_doomed doomed doom (.inr (.inr (.inl rfl)))
  | ended failure =>
    rw [show s.phase = _ from ok] at doom
    exact throwIf_doomed doomed _ fun _ => throwIf_doomed doomed s.error fun absent => absurd absent doom
  | stated size =>
    rw [show s.phase = _ from ok] at doom
    have short : s.bytesWritten ≠ s.expectedSize := doom
    simpa [step,short] using throw_doomed doomed _
  | statFails error => exact throw_doomed doomed error
  | renameDone | renameFails code | retried =>
    obtain ⟨attempt,phase⟩ := ok
    simp [phase] at doom
  | published => simp [show s.phase = _ from ok] at doom
  | tmpUnlinked => exact ⟨⟨doomed.1,trivial⟩,rfl,rfl⟩
  | abort error | deadline error => exact aborted_doomed doomed error
  | outputBreaks error => exact ⟨doomed,rfl,rfl⟩

theorem doomed_forever (reach : Reachable step Allowed s s') : StillDoomed s s' := by
  refine reachable_invariant ⟨doomed,rfl,rfl⟩ ?_ reach
  rintro t event ⟨doom,renames,registrations⟩ ok
  obtain ⟨doom',renames',registrations'⟩ := step_doomed doom ok
  exact ⟨doom',renames'.trans renames,registrations'.trans registrations⟩

end

theorem finished_forever (past : s.phase = .finished) (reach : Reachable step Allowed s s') :
    s'.phase = .finished ∧ s'.renames = s.renames := by
  refine @reachable_invariant _ _ step Allowed s (fun t => t.phase = .finished ∧ t.renames = s.renames)
    ⟨past,rfl⟩ ?_ s' reach
  rintro t event ⟨done,renames⟩ ok
  cases event with
  | abort error | deadline error => exact ⟨(abort_phase t error).trans done,(abort_renames t error).trans renames⟩
  | outputBreaks error => exact ⟨done,renames⟩
  | _ => simp [Allowed,done] at ok

theorem error_doomed (unfinished : s.completed = false) (failed : s.error ≠ none)
    (early : ¬ s.Committed) : s.Doomed := by
  have same : s.abort "" = s := by
    cases error : s.error with
    | none => exact absurd error failed
    | some e => simp [Session.abort,error]
  exact same ▸ abort_doomed unfinished early ""

theorem committed_completes (committed : s.Committed) :
    ∃ s', Reachable step Allowed s s' ∧ s'.completed = true := by
  have fromRename : ∀ t : Session Version, (∃ attempt, t.phase = .attempting attempt) →
      ∃ s', Reachable step Allowed t s' ∧ s'.completed = true := by
    intro t attempting
    exact ⟨_,reachable_run .start [Event.renameDone,.published] ⟨attempting,rfl,trivial⟩,rfl⟩
  unfold Session.Committed at committed
  cases phase : s.phase with
  | stating =>
    have whole : s.bytesWritten = s.expectedSize := by simpa [phase] using committed
    have compared : step s (.stated s.expectedSize) = { s with phase := .attempting 1 } := by simp [step,whole]
    obtain ⟨s',reach,done⟩ := fromRename (step s (.stated s.expectedSize)) ⟨1,by rw [compared]⟩
    exact ⟨s',reachable_trans (reachable_run .start [Event.stated s.expectedSize] ⟨phase,trivial⟩) reach,done⟩
  | attempting attempt => exact fromRename s ⟨attempt,phase⟩
  | backingOff attempt =>
    have again : step s .retried = { s with phase := .attempting (attempt + 1) } := by simp [step,phase]
    obtain ⟨s',reach,done⟩ := fromRename (step s .retried) ⟨attempt + 1,by rw [again]⟩
    exact ⟨s',reachable_trans (reachable_run .start [Event.retried] ⟨⟨attempt,phase⟩,trivial⟩) reach,done⟩
  | renamed => exact ⟨_,reachable_run .start [Event.published] ⟨phase,trivial⟩,rfl⟩
  | _ => simp [phase] at committed

theorem abort_committed (error : String) (committed : s.Committed) : (s.abort error).Committed := by
  simpa [Session.Committed] using committed

/-- An abort before completion is final exactly when it precedes the runner's last look at the error, or
the closed file is not whole. -/
theorem abort_final_iff {s : Session Version} (unfinished : s.completed = false) (error : String) :
    (∀ s', Reachable step Allowed (s.abort error) s' →
      s'.renames = s.renames ∧ s'.registrations = s.registrations ∧ s'.completed = false) ↔ ¬ s.Committed := by
  constructor
  · intro final committed
    obtain ⟨s',reach,done⟩ := committed_completes (abort_committed error committed)
    have never := (final s' reach).2.2
    rw [done] at never
    cases never
  · intro early s' reach
    obtain ⟨doomed,renames,registrations⟩ := doomed_forever (abort_doomed unfinished early error) reach
    exact ⟨renames.trans (abort_renames s error),registrations.trans (abort_registrations s error),doomed.1⟩

def almostWritten : List Event := [.unlinked,.created none,.fetched 3,.chunk 3]

theorem almostWritten_aborted :
    Legal step Allowed (begin "a" 3 (some 1)) almostWritten ∧
      ∀ s', Reachable step Allowed ((almostWritten.foldl step (begin "a" 3 (some 1))).abort "缓存构建已失效") s' →
        s'.renames = 0 ∧ s'.registrations = 0 ∧ s'.completed = false := by
  have early : ¬ (almostWritten.foldl step (begin "a" 3 (some 1))).Committed := by decide
  exact ⟨⟨rfl,rfl,rfl,rfl,trivial⟩,(abort_final_iff rfl "缓存构建已失效").mpr early⟩

def abortedLate : List Event :=
  almostWritten ++ [Event.written none,.streamEnds,.ended none,.abort "缓存构建已失效",.stated 3,.renameDone,.published]

theorem abortedLate_publishes :
    Legal step Allowed (begin "a" 3 (some 1)) abortedLate ∧
      (abortedLate.foldl step (begin "a" 3 (some 1))).error = some "缓存构建已失效" ∧
      (abortedLate.foldl step (begin "a" 3 (some 1))).renames = 1 ∧
      (abortedLate.foldl step (begin "a" 3 (some 1))).registrations = 1 ∧
      (abortedLate.foldl step (begin "a" 3 (some 1))).completed = true := by
  refine ⟨⟨rfl,rfl,rfl,rfl,⟨3,rfl⟩,rfl,rfl,trivial,rfl,⟨1,rfl⟩,rfl,trivial⟩,?_⟩
  decide

end
end Tgtc.BuildSession
