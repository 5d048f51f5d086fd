import Tgtc.FollowerDelivery

/-!
Followers across the publication of a build. The rename moves the session file away before its completion sets
`completed`, and a follower picks its path, and may fall back, by that flag alone.
-/
namespace Tgtc.Publication
open FollowerStream FollowerDelivery Runs
universe u

section
variable {α : Type u} {range : Range α}

/-- Which file is there: the session file exists from before the first byte until the
    rename takes effect, the published one from then on. -/
def present (session : Session) : Place → Bool
  | .session => !session.renamed
  | .cache => session.renamed

/-- The place that the pending `open` of a pump is for. -/
def opens : Pump α → Option Place
  | .opening place _ _ _ | .reopening place _ _ _ => some place
  | _ => none

/-- A session that never fails, on a file system that fails a call only where the file is gone. -/
def Undisturbed (range : Range α) (s : Follower α) : Label α → Prop
  | .pool i ok => ∀ pump place, s.pumps[i]? = some pump → opens pump = some place → ok = present s.session place
  | .complete => s.session.renamed = true ∧ s.session.bytesWritten = range.expectedSize
  | .readFailed _ | .closeFailed _ | .setError | .emitFailed | .teardown => False
  | label => Allowed range s label

/-- The completion of the rename is delivered before a failed `open` of the session file. -/
def InOrder (s : Follower α) : Label α → Prop
  | .opened i => ∀ place fileOffset bytes, s.pumps[i]? = some (.opening place fileOffset bytes (some false)) →
      s.session.completed = true
  | _ => True

def Fine (session : Session) : Pump α → Prop
  | .opening .cache _ _ outcome => session.renamed = true ∧ outcome ≠ some false
  | .reopening place _ _ outcome => place = .cache ∧ session.renamed = true ∧ outcome ≠ some false
  | .closing none | .refused => False
  | _ => True

structure Unharmed (s : Follower α) : Prop where
  intact : s.failed = false
  error : s.session.error = false
  renamed : s.session.completed = true → s.session.renamed = true
  fine : ∀ p ∈ s.pumps, Fine s.session p

theorem unharmed_fresh (range : Range α) : Unharmed (fresh range) :=
  ⟨rfl,rfl,fun completed => (by cases completed),fun _ member => (by cases member)⟩

variable {s : Follower α}

section
variable (unharmed : Unharmed s)
include unharmed

theorem unharmed_setPump (i : Nat) {pump : Pump α} (fine : Fine s.session pump) : Unharmed (setPump s i pump) := by
  refine ⟨unharmed.intact,unharmed.error,unharmed.renamed,?_⟩
  intro p member
  rcases List.mem_or_eq_of_mem_set member with old | rfl
  · exact unharmed.fine p old
  · exact fine

theorem unharmed_leave (i : Nat) : Unharmed (leave s i) :=
  unharmed_setPump (s := { s with pumping := false }) { unharmed with } i
    trivial

theorem unharmed_finish : Unharmed (finish s) := by
  unfold finish
  split
  · exact unharmed
  · exact { unharmed with }

theorem unharmed_awaitChange (i : Nat) : Unharmed (awaitChange range s i) := by
  unfold awaitChange
  rw [if_neg (by simp [unharmed.error])]
  split
  · exact unharmed_leave (unharmed_finish unharmed) i
  · split
    · exact unharmed_setPump unharmed i trivial
    · split
      · exact unharmed_setPump unharmed i trivial
      · exact unharmed_setPump unharmed i trivial

end

theorem fine_primaryPath {session : Session} (renamed : session.completed = true → session.renamed = true)
    (fileOffset bytes : Nat) :
    Fine session (.opening (primaryPath range session) fileOffset bytes none : Pump α) := by
  unfold primaryPath
  split
  · next published => exact ⟨renamed published.2,by simp⟩
  · trivial

section
variable (unharmed : Unharmed s)
include unharmed

theorem unharmed_turn (i : Nat) : Unharmed (turn range s i) := by
  unfold turn
  split
  · exact unharmed_leave unharmed i
  rw [if_neg (by simp [unharmed.error])]
  split
  · exact unharmed_leave (unharmed_finish unharmed) i
  split
  · simp only
    split
    · exact unharmed_setPump unharmed i (fine_primaryPath unharmed.renamed _ _)
    · exact unharmed_awaitChange unharmed i
  · exact unharmed_awaitChange unharmed i

theorem unharmed_received (i : Nat) (data : List α) (accepts : Bool) : Unharmed (received range s i data accepts) := by
  unfold received
  split
  · exact unharmed_leave unharmed i
  split
  · have grown : Unharmed { s with offset := s.offset + data.length, pushed := s.pushed ++ data } :=
      { unharmed with }
    split
    · exact unharmed_turn grown i
    · exact unharmed_leave grown i
  · exact unharmed_awaitChange unharmed i

theorem unharmed_poolOpen {i : Nat} {ok : Bool} (told : Undisturbed range s (.pool i ok)) : Unharmed (poolOpen s i ok) := by
  unfold poolOpen
  split
  · next place fileOffset bytes found =>
    have fine := unharmed.fine _ (List.mem_of_getElem? found)
    have outcome := told _ place found rfl
    refine unharmed_setPump unharmed i ?_
    cases place with
    | session => trivial
    | cache => exact ⟨fine.1,by simp [outcome,present,fine.1]⟩
  · next place fileOffset bytes found =>
    obtain ⟨rfl,renamed,_⟩ := unharmed.fine _ (List.mem_of_getElem? found)
    have outcome := told _ .cache found rfl
    exact unharmed_setPump unharmed i ⟨rfl,renamed,by simp [outcome,present,renamed]⟩
  · exact unharmed

theorem unharmed_deliverOpen {i : Nat} (build : range.kind = .build)
    (inOrder : InOrder s (.opened i)) : Unharmed (deliverOpen range s i) := by
  unfold deliverOpen
  split
  · exact unharmed_setPump unharmed i trivial
  · next place fileOffset bytes found =>
    have completed := inOrder place fileOffset bytes found
    simp only [fallbackPath,completed,build]
    exact unharmed_setPump unharmed i ⟨rfl,unharmed.renamed completed,by simp⟩
  · exact unharmed_setPump unharmed i trivial
  · next found =>
    obtain ⟨_,_,fails⟩ := unharmed.fine _ (List.mem_of_getElem? found)
    exact absurd rfl fails
  · exact unharmed

theorem unharmed_map {s' : Follower α} (event : Pump α → Pump α)
    (pumps : s'.pumps = s.pumps.map event) (intact : s'.failed = false) (error : s'.session.error = false)
    (renamed : s'.session.completed = true → s'.session.renamed = true)
    (fine : ∀ p, Fine s.session p → Fine s'.session (event p)) : Unharmed s' := by
  refine ⟨intact,error,renamed,?_⟩
  intro p member
  rw [pumps] at member
  obtain ⟨before,inside,rfl⟩ := List.mem_map.mp member
  exact fine before (unharmed.fine before inside)

end

theorem step_unharmed (build : range.kind = .build) (s : Follower α) (label : Label α) (unharmed : Unharmed s)
    (allowed : Undisturbed range s label ∧ InOrder s label) : Unharmed (step range s label) := by
  obtain ⟨undisturbed,inOrder⟩ := allowed
  cases label with
  | read =>
    rw [step]
    split
    · exact unharmed
    refine unharmed_turn (s := { s with pumping := true, pumps := s.pumps ++ [.woken] })
      ⟨unharmed.intact,unharmed.error,unharmed.renamed,?_⟩ s.pumps.length
    intro p member
    rcases List.mem_append.mp member with old | new
    · exact unharmed.fine p old
    · rw [List.mem_singleton.mp new]
      trivial
  | pool i ok => exact unharmed_poolOpen unharmed undisturbed
  | opened i => exact unharmed_deliverOpen unharmed build inOrder
  | fileRead i file count =>
    rw [step,deliverRead]
    split
    · exact unharmed_setPump unharmed i trivial
    · exact unharmed
  | closed i accepts =>
    rw [step,deliverClose]
    split
    · exact unharmed_received unharmed i _ accepts
    · next found => exact absurd (unharmed.fine _ (List.mem_of_getElem? found)) id
    · exact unharmed
  | resumed i =>
    rw [step,resume]
    split
    · split
      · exact unharmed_leave unharmed i
      · exact unharmed_turn unharmed i
    · next found => exact absurd (unharmed.fine _ (List.mem_of_getElem? found)) id
    · exact unharmed
  | destroy =>
    rw [step,FollowerStream.destroy]
    split
    · exact unharmed
    · refine unharmed_map unharmed _ rfl rfl unharmed.error unharmed.renamed ?_
      intro p fine
      cases p <;> exact fine
  | write bytes =>
    refine unharmed_map unharmed _ rfl unharmed.intact unharmed.error unharmed.renamed ?_
    intro p fine
    cases p <;> exact fine
  | rename =>
    refine unharmed_map unharmed id (by simp [step]) unharmed.intact unharmed.error (fun _ => rfl) ?_
    intro p fine
    cases p with
    | opening place fileOffset bytes outcome =>
      cases place with
      | session => trivial
      | cache => exact ⟨rfl,fine.2⟩
    | reopening place fileOffset bytes outcome => exact ⟨fine.1,rfl,fine.2.2⟩
    | closing data => cases data <;> exact fine
    | _ => exact fine
  | complete =>
    refine unharmed_map unharmed _ rfl unharmed.intact unharmed.error (fun _ => undisturbed.1) ?_
    intro p fine
    cases p <;> exact fine
  | dropListeners =>
    refine unharmed_map unharmed _ rfl unharmed.intact unharmed.error unharmed.renamed ?_
    intro p fine
    cases p <;> exact fine
  | readFailed | closeFailed | setError | emitFailed | teardown => cases undisturbed

/-- Where no failed `open` of the session file is delivered before the completion of the rename, no
follower of a sound build is destroyed; one out of order destroys it. -/
theorem follower_survives_publication (build : range.kind = .build) {s : Follower α}
    (reach : Reachable (step range) (fun s label => Undisturbed range s label ∧ InOrder s label) (fresh range) s) :
    s.failed = false ∧ ∀ i : Nat, ∀ place fileOffset bytes,
      s.pumps[i]? = some (.opening place fileOffset bytes (some false)) → s.session.completed = false →
        s.destroyed = false → (step range s (.opened i)).failed = true := by
  have unharmed : Unharmed s := reachable_invariant (unharmed_fresh range) (step_unharmed build) reach
  refine ⟨unharmed.intact,?_⟩
  intro i place fileOffset bytes found incomplete alive
  simp [step,deliverOpen,found,fallbackPath,incomplete,throwing,leave,setPump,FollowerStream.destroy,alive]

def readAcross : List (Label Nat) :=
  [.write 3,.read,.rename,.pool 0 false,.complete,.opened 0,.pool 0 true,.opened 0,.fileRead 0 [7,8,9] 2,.closed 0 true]

theorem readAcross_survives :
    (readAcross.foldl (step lastTwo) (fresh lastTwo)).failed = false ∧
      (readAcross.foldl (step lastTwo) (fresh lastTwo)).ended = true := by
  have legal : Legal (step lastTwo) (fun s label => Undisturbed lastTwo s label ∧ InOrder s label) (fresh lastTwo)
      readAcross := by
    refine ⟨⟨⟨rfl,by decide⟩,trivial⟩,⟨trivial,trivial⟩,⟨trivial,trivial⟩,⟨?_,trivial⟩,⟨⟨rfl,rfl⟩,trivial⟩,⟨trivial,?_⟩,
      ⟨?_,trivial⟩,⟨trivial,?_⟩,⟨⟨by decide,by decide⟩,trivial⟩,⟨trivial,trivial⟩,trivial⟩
    · rintro pump place ⟨⟩ ⟨⟩
      rfl
    · intro place fileOffset bytes _
      rfl
    · rintro pump place ⟨⟩ ⟨⟩
      rfl
    · rintro place fileOffset bytes ⟨⟩
  exact ⟨(follower_survives_publication rfl (reachable_run .start readAcross legal)).1,by decide +kernel⟩

/-- The `open` of the follower fails after the rename and is delivered before it. -/
def readBetween : List (Label Nat) := [.write 3,.read,.rename,.pool 0 false,.opened 0,.complete]

theorem readBetween_fails :
    Legal (step lastTwo) (Undisturbed lastTwo) (fresh lastTwo) readBetween ∧
      (readBetween.foldl (step lastTwo) (fresh lastTwo)).session.completed = true ∧
      (readBetween.foldl (step lastTwo) (fresh lastTwo)).session.error = false ∧
      (readBetween.foldl (step lastTwo) (fresh lastTwo)).failed = true := by
  refine ⟨⟨⟨rfl,by decide⟩,trivial,trivial,?_,trivial,⟨rfl,rfl⟩,trivial⟩,by decide +kernel,by decide +kernel,
    by decide +kernel⟩
  rintro pump place ⟨⟩ ⟨⟩
  rfl

end
end Tgtc.Publication
