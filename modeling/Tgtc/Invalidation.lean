import Tgtc.CacheService

/-!
What an invalidation leaves behind: the cache file is gone when it has returned, and a build session from before the
fence publishes nothing any more, with one exception each.
-/
namespace Tgtc.Invalidation
open Maps Runs CacheService
open BuildSession (Session)
universe u

section
variable {Version : Type u} [DecidableEq Version]

/-- The last part of `invalidate` has been done and the call is over. -/
def Returned (s : State Version) (k : Nat) (fileId : String) : Prop :=
  s.coordinator.fileInvalidationLocks.At k fileId .left ∧
    (s.clearing k = .unlinked ∨ s.clearing k = .refused ∨ s.clearing k = .skipped)

/-- What has become of the cache file of an invalidation that has looked at the sessions. -/
def Cleared (s : State Version) (k : Nat) (fileId : String) : Prop :=
  (s.clearing k = .skipped → (s.coordinator.progress k).timedOut = true) ∧
  (s.clearing k = .unlinked → ∀ file, s.cacheFiles.get fileId = some file → s.calledAt k ≤ file.number)

structure Clears (s : State Version) : Prop where
  called : ∀ k, s.calledAt k ≤ s.publications
  looked : ∀ k, s.clearing k ≠ .idle → s.coordinator.Begun k ∧
    ∃ fileId, (∃ stage, s.coordinator.fileInvalidationLocks.At k fileId stage) ∧ Cleared s k fileId

variable {s : State Version} {k : Nat}

theorem looked_stays (reach : Reached s) (clears : Clears s) {l : Label Version} (ok : Allowed s l)
    (looked : s.clearing k ≠ .idle) (clearing : (step s l).clearing k = s.clearing k)
    (calledAt : (step s l).calledAt k = s.calledAt k) :
    (step s l).coordinator.Begun k ∧
      ∃ fileId, (∃ stage, (step s l).coordinator.fileInvalidationLocks.At k fileId stage) ∧
        Cleared (step s l) k fileId := by
  have inv := reached_inv reach
  obtain ⟨begun,fileId,owner,skipped,unlinked⟩ := clears.looked k looked
  obtain ⟨begun',ending,owner'⟩ := SessionLocks.run_begun inv.locks (coordinator_runs inv ok) begun owner
  refine ⟨begun',fileId,owner',?_,?_⟩
  · rw [clearing,ending]
    exact skipped
  · rw [clearing,calledAt]
    intro gone file found
    rcases step_files found with old | ⟨_,_,rfl⟩
    · exact unlinked gone file old
    · exact clears.called k

theorem active_timedOut {coordinator : SessionLocks.State} (reach : SessionLocks.Reached coordinator)
    {fileId : String} (runs : coordinator.Runs k fileId)
    (active : ((coordinator.buildSessions.get fileId).isSome || (coordinator.spoolSessions.get fileId).isSome) = true) :
    (coordinator.progress k).timedOut = true := by
  have stands := (SessionLocks.reached_inv reach).stands k fileId runs.1
  have noSpool := stands.torn (by simp [runs.2,SessionLocks.Phase.Torn])
  by_contra inTime
  have noBuild := stands.gone (by simpa using inTime) (by simp [runs.2,SessionLocks.Phase.Waited])
  simp [noSpool,noBuild] at active

theorem step_marks (s : State Version) (l : Label Version) (k : Nat) :
    ((step s l).clearing k = s.clearing k ∨ (∃ fileId, l = .look k fileId) ∨
      ∃ fileId removed, l = .unlink k fileId removed) ∧
    ((step s l).calledAt k = s.calledAt k ∨
      ∃ fileId, l = .invalidate fileId ∧ k = s.coordinator.fileInvalidationLocks.calls.length ∧
        (step s l).calledAt k = s.publications) := by
  cases l with
  | create fileId expectedSize contentVersion =>
    simp [step,State.replaced,State.locksStep]
  | supersede fileId contentVersion => simp [step,State.replaced,State.locksStep]
  | abort fileId error => simp [step]
  | fence j fileId => simp [step,State.locksStep]
  | join fileId contentVersion =>
    simp only [step]
    split
    · exact ⟨.inl rfl,.inl rfl⟩
    · exact ⟨.inl rfl,.inl rfl⟩
  | session id event =>
    simp only [step]
    split
    · exact ⟨.inl rfl,.inl rfl⟩
    · cases event with
      | _ => exact ⟨.inl rfl,.inl rfl⟩
  | invalidate fileId =>
    refine ⟨.inl rfl,?_⟩
    by_cases here : k = s.coordinator.fileInvalidationLocks.calls.length
    · exact .inr ⟨fileId,rfl,here,by simp [step,here]⟩
    · exact .inl (by simp [step,here])
  | look j fileId =>
    refine ⟨?_,.inl rfl⟩
    by_cases here : k = j
    · exact .inr (.inl ⟨fileId,by rw [here]⟩)
    · exact .inl (by simp [step,here])
  | unlink j fileId removed =>
    refine ⟨?_,.inl rfl⟩
    by_cases here : k = j
    · exact .inr (.inr ⟨fileId,removed,by rw [here]⟩)
    · exact .inl (by simp [step,here])
  | _ => exact ⟨.inl rfl,.inl rfl⟩

theorem step_clears (reach : Reached s) (clears : Clears s) {l : Label Version} (ok : Allowed s l) :
    Clears (step s l) := by
  have inv := reached_inv reach
  constructor
  · intro k
    rcases (step_marks s l k).2 with same | ⟨_,_,_,new⟩
    · rw [same]
      exact Nat.le_trans (clears.called k) (publications_grow s l)
    · rw [new]
      exact publications_grow s l
  · intro k looked
    -- a call that has looked is not the one being made
    have marked : s.clearing k ≠ .idle → (step s l).calledAt k = s.calledAt k := by
      intro before
      rcases (step_marks s l k).2 with same | ⟨_,_,new,_⟩
      · exact same
      · obtain ⟨_,_,⟨_,c,at_k,_⟩,_⟩ := clears.looked k before
        have known := TailLock.lt_of_found at_k
        omega
    rcases (step_marks s l k).1 with same | ⟨fileId,rfl⟩ | ⟨fileId,removed,rfl⟩
    · rw [same] at looked
      exact looked_stays reach clears ok looked same (marked looked)
    · obtain ⟨runs,_⟩ := ok
      refine ⟨⟨by simp [step,runs.2],by simp [step,runs.2]⟩,fileId,⟨_,runs.1⟩,?_,?_⟩
      · intro skipped
        apply active_timedOut inv.locks runs
        by_contra quiet
        simp [step,quiet] at skipped
      · intro gone
        simp only [step,Function.update_self] at gone
        split at gone
        · cases gone
        · cases gone
    · obtain ⟨runs,_⟩ := ok
      refine ⟨⟨by simp [step,runs.2],by simp [step,runs.2]⟩,fileId,⟨_,runs.1⟩,?_,?_⟩
      · intro skipped
        simp only [step,Function.update_self] at skipped
        split at skipped
        · cases skipped
        · cases skipped
      · intro gone file found
        cases removed with
        | false => simp [step] at gone
        | true =>
          simp only [step,↓reduceIte,get_delete_same] at found
          cases found

theorem reached_clears (reach : Reached s) : Clears s := by
  induction reach with
  | start => exact ⟨fun _ => Nat.le_refl 0,fun k looked => absurd rfl looked⟩
  | next l reach ok ih => exact step_clears reach ih ok

/-- When the fence goes up, a session of the file that is not past its runner's last look at the error has ended or
will fail. -/
theorem fence_dooms (reach : Reached s) {id : Nat} {session : Session Version}
    (ok : Allowed s (.fence k session.fileId)) (at_id : s.sessions[id]? = some session) (early : ¬ session.Committed) :
    ∃ session' : Session Version, (step s (.fence k session.fileId)).sessions[id]? = some session' ∧
      (session'.Doomed ∨ session'.phase = .finished) ∧ session'.renames = session.renames := by
  have inv := reached_inv reach
  obtain ⟨session',at_id',runs⟩ := step_runs ok at_id
  refine ⟨session',at_id',?_⟩
  cases done : session.completed with
  | true =>
    obtain ⟨past,renames⟩ := BuildSession.finished_forever ((inv.ended id session at_id).2.2 done) runs
    exact ⟨.inr past,renames⟩
  | false =>
    cases clean : session.error with
    | some error =>
      have doomed := BuildSession.error_doomed done (by simp [clean]) early
      obtain ⟨doomed',renames,_⟩ := BuildSession.doomed_forever doomed runs
      exact ⟨.inl doomed',renames⟩
    | none =>
      -- it is the registered one, so the invalidation aborts it
      have registered := inv.live id session at_id clean done
      have shape : session' = session.abort "缓存构建已失效" := by
        simp only [step,State.locksStep,State.abortSession,registered,List.getElem?_modify_eq,at_id,Option.map_eq_map,
          Option.map_some,Option.some.injEq] at at_id'
        exact at_id'.symm
      subst shape
      exact ⟨.inl (BuildSession.abort_doomed done early _),BuildSession.abort_renames session _⟩

/-- Once an invalidation has returned with its wait and its unlink done, a file under the cache path was
published after the call, and no session from before the fence renames its file onto it. -/
theorem invalidation_clears_and_stops {s : State Version} (reach : Reached s) :
    (∀ k fileId, Returned s k fileId → (s.coordinator.progress k).timedOut = false → s.clearing k ≠ .refused →
      ∀ file, s.cacheFiles.get fileId = some file → s.calledAt k ≤ file.number) ∧
    ∀ (k id : Nat) (session : Session Version), Allowed s (.fence k session.fileId) →
      s.sessions[id]? = some session → ¬ session.Committed →
      ∀ s', Reachable step Allowed (step s (.fence k session.fileId)) s' →
        ∃ session' : Session Version, s'.sessions[id]? = some session' ∧ session'.renames = session.renames := by
  constructor
  · rintro k fileId ⟨left,done⟩ inTime kept file found
    have looked : s.clearing k ≠ .idle := by
      rcases done with done | done | done
      all_goals simp [done]
    obtain ⟨_,other,⟨_,owner⟩,skipped,unlinked⟩ := (reached_clears reach).looked k looked
    obtain ⟨rfl,_⟩ := TailLock.at_unique left owner
    rcases done with gone | refused | late
    · exact unlinked gone file found
    · exact absurd refused kept
    · have timedOut := skipped late
      rw [inTime] at timedOut
      cases timedOut
  · intro k id session ok at_id early s' later
    obtain ⟨fenced,at_fenced,past,renames⟩ := fence_dooms reach ok at_id early
    obtain ⟨session',at_id',runs⟩ := run_runs later at_fenced
    refine ⟨session',at_id',?_⟩
    rcases past with doomed | finished
    · exact (BuildSession.doomed_forever doomed runs).2.1.trans renames
    · exact (BuildSession.finished_forever finished runs).2.trans renames

def inTime : List (Label Nat) :=
  [.create "a" 3 (some 1),.warm "a" (some 1),.invalidate "a",.fence 0 "a",.session 0 .unlinked,
    .session 0 (.created (some "ENOSPC")),.session 0 .tmpUnlinked,.locks (.waited 0 false),.locks .immediate,
    .locks .immediate,.locks (.tearDown 0 "a"),.locks (.drain 0 "a"),.locks (.run 0),.look 0 "a",.unlink 0 "a" true,
    .finish 0 "a"]

theorem inTime_cleared : Returned (inTime.foldl step initial) 0 "a" ∧
    ∀ file, (inTime.foldl step initial).cacheFiles.get "a" = some file → 1 ≤ file.number := by
  have legal : Legal step Allowed initial inTime := by
    refine ⟨⟨by decide,by decide +kernel⟩,trivial,trivial,?_,⟨_,rfl,rfl⟩,⟨_,rfl,rfl⟩,⟨_,rfl,rfl⟩,⟨trivial,?_⟩,
      ⟨trivial,?_⟩,⟨trivial,?_⟩,⟨trivial,?_⟩,⟨trivial,?_⟩,⟨trivial,?_⟩,⟨⟨?_,?_⟩,?_⟩,⟨⟨?_,?_⟩,?_⟩,⟨?_,?_⟩,trivial⟩
    · show SessionLocks.Allowed _ (.fence 0 "a")
      decide +kernel
    all_goals decide +kernel
  have returned : Returned (inTime.foldl step initial) 0 "a" := ⟨by decide +kernel,.inl (by decide +kernel)⟩
  exact ⟨returned,(invalidation_clears_and_stops (reachable_run .start inTime legal)).1 0 "a" returned
    (by decide +kernel) (by decide +kernel)⟩

def outlived : List (Label Nat) :=
  [.create "a" 3 (some 1),.warm "a" (some 1),.invalidate "a",.fence 0 "a",.locks (.waited 0 true),.locks .immediate,
    .locks (.tearDown 0 "a"),.locks (.drain 0 "a"),.locks (.run 0),.look 0 "a",.finish 0 "a"]

theorem outlived_keeps :
    Legal step Allowed initial outlived ∧ Returned (outlived.foldl step initial) 0 "a" ∧
      (outlived.foldl step initial).calledAt 0 = 1 ∧
      (outlived.foldl step initial).cacheFiles.get "a" = some ⟨0,some 1⟩ := by
  refine ⟨?_,⟨by decide +kernel,.inr (.inr (by decide +kernel))⟩,by decide +kernel,by decide +kernel⟩
  refine ⟨⟨by decide,by decide +kernel⟩,trivial,trivial,?_,⟨trivial,?_⟩,⟨trivial,?_⟩,⟨trivial,?_⟩,⟨trivial,?_⟩,
    ⟨trivial,?_⟩,⟨⟨?_,?_⟩,?_⟩,⟨?_,?_⟩,trivial⟩
  · show SessionLocks.Allowed _ (.fence 0 "a")
    decide +kernel
  all_goals decide +kernel

end
end Tgtc.Invalidation
