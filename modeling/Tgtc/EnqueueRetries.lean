import Tgtc.SessionCourse

/-!
A merge whose job could not be added has brought its file to the pending path, and its session
has the lease again for another try. The try is never made: the session has failed, and a
complete request begins a merge only for one that waits.
-/
namespace Tgtc.EnqueueRetries
open Maps Runs UploadSystem UploadMoves UploadCustody SessionCourse

section
variable {s s' : State} {n : Nat} {u : String}

/-- The file has been handed over, and the queue has not taken its job. -/
def Unqueued (s : State) (n : Nat) (u : String) : Prop := ∃ m, s.merges[n]? = some m ∧ m.uploadId = u ∧ m.phase = .ended .unqueued

theorem reached_course (reached : Reached s) : Custody s ∧ Course s := by
  induction reached with
  | start => exact ⟨initial_custody,initial_course⟩
  | next l _ allowed ih => exact ⟨custody_step ih.1 allowed,course_step ih.1 ih.2 allowed⟩

theorem unqueued_later (unqueued : Unqueued s n u) (later : Reachable step Allowed s s') : Unqueued s' n u := by
  induction later with
  | start => exact unqueued
  | next l _ _ ih =>
    obtain ⟨m,found,rfl,phase⟩ := ih
    exact ended_stays (step_moves l) found phase

/-- From there on no complete request begins a merge of the session, and the session is never done. -/
theorem enqueue_not_retried (reached : Reached s) (unqueued : Unqueued s n u) (later : Reachable step Allowed s s') :
    ¬ Allowed s' (.trigger u) ∧ (∀ (k : Nat) m, s'.merges[k]? = some m → m.uploadId = u → k = n) ∧
      ∀ session, s'.sessions.get u = some session → session.mergeStatus ≠ .done := by
  obtain ⟨custody,course⟩ := reached_course (reachable_trans reached later)
  obtain ⟨m,found,rfl,phase⟩ := unqueued_later unqueued later
  obtain ⟨session,known,begun,_⟩ := custody.merging n m found
  have only : ∀ (k : Nat) m', s'.merges[k]? = some m' → m'.uploadId = m.uploadId → k = n :=
    fun k m' found' same => custody.alone k n m' m found' found same
  refine ⟨?_,only,fun session' known' done => ?_⟩
  · rintro ⟨session',known',_,_,waits⟩
    cases known.symm.trans known'
    simp only [Bool.and_eq_true,decide_eq_true_eq] at waits
    exact begun waits.1
  · obtain ⟨k,m',found',same,ended⟩ := course.finished _ _ known' done
    cases only k m' found' same
    cases found.symm.trans found'
    rw [phase] at ended
    cases ended

def unqueuedUpload : List Label :=
  opening "a" true none 0 ++ handingOver 0 "f" ++ [.merge 0 .go,.merge 0 .go,.merge 0 (.added false false)]

theorem unqueued_upload : Unqueued (unqueuedUpload.foldl step initial) 0 "a" := ⟨_,rfl,rfl,rfl⟩

theorem enqueue_not_retried_upload : ¬ Allowed (unqueuedUpload.foldl step initial) (.trigger "a") :=
  (enqueue_not_retried (reachable_run .start unqueuedUpload (by decide +kernel)) unqueued_upload .start).1

theorem unqueued_upload_stuck : ¬ ∀ s n u, Reached s → Unqueued s n u → Allowed s (.trigger u) := fun retried =>
  absurd (retried _ 0 "a" (reachable_run .start unqueuedUpload (by decide +kernel)) unqueued_upload) (by decide +kernel)

end
end Tgtc.EnqueueRetries
