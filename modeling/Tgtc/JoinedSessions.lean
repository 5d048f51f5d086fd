import Tgtc.CacheService

/-!
Which sessions requests join. The join conditions do not look at the session's error, and a session that has failed
stays on the map until its cleanup has run.
-/
namespace Tgtc.JoinedSessions
open Runs CacheService
open BuildSession (Session)
universe u

section
variable {Version : Type u}

def CleanedUp (s : State Version) (id : Nat) : Prop :=
  s.coordinator.Finished id ∧ .cleanup id ∉ s.coordinator.immediates

def LastOf (s : State Version) (fileId : String) (id : Nat) : Prop :=
  ∀ other session, s.sessions[other]? = some session → session.fileId = fileId → other ≤ id

variable [DecidableEq Version]

/-- If the last session created for the file has the version asked for and was aborted or has failed, it has been
cleaned up. -/
def Unwound (s : State Version) (fileId : String) (contentVersion : Option Version) : Prop :=
  ∀ id session, s.sessions[id]? = some session → session.fileId = fileId → LastOf s fileId id →
    sameContentVersion session.contentVersion contentVersion = true → session.error ≠ none → CleanedUp s id

/-- Requests ask for a session when the last one of their file has unwound. -/
def Prompt (s : State Version) (l : Label Version) : Prop :=
  Allowed s l ∧ ∀ fileId contentVersion, l = .join fileId contentVersion → Unwound s fileId contentVersion

theorem registered_not_cleaned {s : State Version} (reach : Reached s) {fileId : String} {id : Nat}
    (registered : s.coordinator.buildSessions.get fileId = some id) : ¬ CleanedUp s id := by
  rintro ⟨finished,done⟩
  exact done ((SessionLocks.reached_inv (reached_inv reach).locks).cleaning fileId id registered finished)

theorem unwound_live {s : State Version} (reach : Reached s) {fileId : String} {contentVersion : Option Version}
    (unwound : Unwound s fileId contentVersion) {id : Nat} {session : Session Version}
    (found : s.joinable fileId contentVersion = some (id,session)) : session.error = none := by
  obtain ⟨registered,at_id,mine,last,same⟩ := joinable_registered reach found
  by_contra dead
  exact registered_not_cleaned reach registered (unwound id session at_id mine last same dead)

theorem prompt_reached {s : State Version} (reach : Reachable step Prompt initial s) : Reached s := by
  induction reach with
  | start => exact .start
  | next l _ ok ih => exact ih.next l ok.1

theorem step_joins (s : State Version) (l : Label Version) :
    (step s l).joins = s.joins ∨ ∃ fileId contentVersion id session, l = .join fileId contentVersion ∧
      s.joinable fileId contentVersion = some (id,session) ∧ (step s l).joins = s.joins ++ [⟨id,session.error⟩] := by
  cases l with
  | join fileId contentVersion =>
    simp only [step]
    cases found : s.joinable fileId contentVersion with
    | none => exact .inl rfl
    | some pair => exact .inr ⟨fileId,contentVersion,pair.1,pair.2,rfl,found,rfl⟩
  | session id event =>
    refine .inl ?_
    simp only [step]
    split
    · rfl
    · cases event with
      | _ => rfl
  | create fileId expectedSize contentVersion => exact .inl (by simp [step,State.replaced,State.locksStep])
  | supersede fileId contentVersion => exact .inl (by simp [step,State.replaced,State.locksStep])
  | abort fileId error => exact .inl (by simp [step])
  | fence k fileId => exact .inl (by simp [step,State.locksStep])
  | _ => exact .inl rfl

/-- Where requests ask for a session only when the last one of their file has unwound, every session
joined had no error, and whoever asks finds a live one or leads. -/
theorem prompt_requests_join_live {s : State Version} (reach : Reachable step Prompt initial s) :
    (∀ j ∈ s.joins, j.error = none) ∧
    ∀ fileId contentVersion, Unwound s fileId contentVersion →
      ∀ id session, s.joinable fileId contentVersion = some (id,session) → session.error = none := by
  refine ⟨?_,fun fileId contentVersion unwound id session found => unwound_live (prompt_reached reach) unwound found⟩
  induction reach with
  | start => simp [initial]
  | @next s l reach ok ih =>
    intro j member
    rcases step_joins s l with same | ⟨fileId,contentVersion,id,session,rfl,found,same⟩
    · exact ih j (same ▸ member)
    · rw [same,List.mem_append,List.mem_singleton] at member
      rcases member with old | rfl
      · exact ih j old
      · exact unwound_live (prompt_reached reach) (ok.2 fileId contentVersion rfl) found

def followed : List (Label Nat) := [.create "a" 3 (some 1),.session 0 .unlinked,.join "a" (some 1)]

theorem followed_live : (∀ j ∈ (followed.foldl step initial).joins, j.error = none) ∧
    (followed.foldl step initial).joins = [⟨0,none⟩] := by
  have legal : Legal step Prompt initial followed := by
    refine ⟨⟨⟨by decide,by decide +kernel⟩,by simp⟩,⟨⟨_,rfl,rfl⟩,by simp⟩,⟨?_,?_⟩,trivial⟩
    · show State.joinable _ _ _ ≠ none
      decide +kernel
    · rintro fileId contentVersion _ id session at_id _ _ _ dead
      have clean : ∀ session ∈ ((followed.take 2).foldl step initial).sessions, session.error = none := by
        decide +kernel
      exact absurd (clean session (List.mem_of_getElem? at_id)) dead
  exact ⟨(prompt_requests_join_live (reachable_run .start followed legal)).1,by decide +kernel⟩

/-- A request without cache aborts the session while its upstream is being fetched; the next request joins it. -/
def joinedLate : List (Label Nat) :=
  [.create "a" 3 (some 1),.session 0 .unlinked,.session 0 (.created none),
    .abort "a" "无缓存模式已启用，缓存构建已中止",.join "a" (some 1)]

theorem joinedLate_dead :
    Legal step Allowed initial joinedLate ∧
      (joinedLate.foldl step initial).joins = [⟨0,some "无缓存模式已启用，缓存构建已中止"⟩] := by
  refine ⟨⟨⟨by decide,by decide +kernel⟩,⟨_,rfl,rfl⟩,⟨_,rfl,rfl⟩,trivial,?_,trivial⟩,by decide +kernel⟩
  show State.joinable _ _ _ ≠ none
  decide +kernel

end
end Tgtc.JoinedSessions
