import Tgtc.Runs
import Tgtc.TailLock

/-!
The session locks and the invalidation fence of the session coordinator. A call of `withSessionLock` queues behind the
calls of its key and is refused while its file is being invalidated, before it queues and again when its turn comes.
-/
namespace Tgtc.SessionLocks
open Maps TailLock Runs
open Function (update update_of_ne update_self)

def textBefore (separator : List Char) : List Char → List Char
  | [] => []
  | c :: rest => if separator.isPrefixOf (c :: rest) then [] else c :: textBefore separator rest

def fileIdForSessionLockKey (key : String) : Option String :=
  if "spool:".toList.isPrefixOf key.toList then some (String.ofList (key.toList.drop "spool:".length))
  else if "file:".toList.isPrefixOf key.toList then
    some (String.ofList (textBefore ":v".toList (key.toList.drop "file:".length)))
  else none

def buildSessionKey (fileId : String) : (contentVersion : Option String) → String
  | none => "file:" ++ fileId
  | some contentVersion => "file:" ++ fileId ++ ":v" ++ contentVersion

def spoolSessionKey (fileId : String) : String := "spool:" ++ fileId

variable {s : State} {k : Nat} {fileId : String} {lock : Lock String} {key : String} {i : Nat} {stage : Stage} {j : Nat}

/-! ### The coordinator -/

structure Build where
  fileId : String
  finished : Bool

inductive Phase where
  | queued
  /-- the fence is up and the build session found is aborted: its completion is awaited, or the timer -/
  | waiting
  | yielding
  | tearing
  | tornDown
  | draining (awaited : List Nat)
  | running
deriving DecidableEq

/-- How far a call of `withFileInvalidation` has come. -/
structure Progress where
  phase : Phase
  aborted : Option Nat
  timedOut : Bool

/-- What `setImmediate` has been given. -/
inductive Immediate where
  | cleanup (build : Nat)
  | resume (invalidation : Nat)

structure State where
  sessionLocks : Lock String
  fileInvalidationLocks : Lock String
  invalidatingFileIds : List String
  progress : Nat → Progress
  builds : List Build
  buildSessions : OrderedMap String Nat
  spoolSessions : OrderedMap String Nat
  spools : Nat
  immediates : List Immediate

def initial : State :=
  { sessionLocks := .empty, fileInvalidationLocks := .empty, invalidatingFileIds := []
    progress := fun _ => ⟨.queued,none,false⟩
    builds := [], buildSessions := .empty, spoolSessions := .empty, spools := 0, immediates := [] }

/-- The key belongs to a file that is being invalidated; an empty file id counts as none. -/
def State.Fenced (s : State) (key : String) : Prop :=
  ∃ fileId ∈ s.invalidatingFileIds, fileId ≠ "" ∧ fileIdForSessionLockKey key = some fileId

instance (s : State) (key : String) : Decidable (s.Fenced key) := by
  unfold State.Fenced
  infer_instance

def State.fileSessionTails (s : State) (fileId : String) : List Nat :=
  (s.sessionLocks.tails.entries.filter (fun e => fileIdForSessionLockKey e.1 = some fileId)).map Prod.snd

/-- The cleanup a runner leaves to `setImmediate`: the map forgets the session if it still holds it. -/
def State.cleanupBuild (s : State) (id : Nat) : State :=
  match s.builds[id]? with
  | none => s
  | some b =>
    if s.buildSessions.get b.fileId = some id then { s with buildSessions := s.buildSessions.delete b.fileId } else s

def State.setPhase (s : State) (k : Nat) (phase : Phase) : State :=
  { s with progress := update s.progress k { s.progress k with phase := phase } }

inductive Label where
  | lock (key : String)
  | enter (i : Nat) (key : String)
  | leave (i : Nat) (key : String)
  | settleSession (i : Nat)
  | registerBuild (fileId : String)
  | dropBuild (fileId : String)
  | finishBuild (id : Nat)
  | registerSpool (fileId : String)
  | dropSpool (fileId : String)
  | immediate
  | invalidate (fileId : String)
  | fence (k : Nat) (fileId : String)
  | waited (k : Nat) (timedOut : Bool)
  | tearDown (k : Nat) (fileId : String)
  | drain (k : Nat) (fileId : String)
  | run (k : Nat)
  | finish (k : Nat) (fileId : String)
  | settleInvalidation (k : Nat)

def step (s : State) : Label → State
  | .lock key => if s.Fenced key then s else { s with sessionLocks := s.sessionLocks.join key }
  | .enter i key =>
    -- behind the fence the call throws before its body starts
    if s.Fenced key then { s with sessionLocks := (s.sessionLocks.enter i).leave i key }
    else { s with sessionLocks := s.sessionLocks.enter i }
  | .leave i key => { s with sessionLocks := s.sessionLocks.leave i key }
  | .settleSession i => { s with sessionLocks := s.sessionLocks.settle i }
  | .registerBuild fileId =>
    { s with builds := s.builds ++ [⟨fileId,false⟩], buildSessions := s.buildSessions.set fileId s.builds.length }
  | .dropBuild fileId => { s with buildSessions := s.buildSessions.delete fileId }
  | .finishBuild id =>
    { s with builds := s.builds.modify id (fun b => { b with finished := true })
             immediates := s.immediates ++ [.cleanup id] }
  | .registerSpool fileId => { s with spoolSessions := s.spoolSessions.set fileId s.spools, spools := s.spools + 1 }
  | .dropSpool fileId => { s with spoolSessions := s.spoolSessions.delete fileId }
  | .immediate =>
    match s.immediates with
    | [] => s
    | .cleanup id :: rest => { s with immediates := rest }.cleanupBuild id
    | .resume k :: rest => { s with immediates := rest }.setPhase k .tearing
  | .invalidate fileId => { s with fileInvalidationLocks := s.fileInvalidationLocks.join fileId }
  | .fence k fileId =>
    { s with fileInvalidationLocks := s.fileInvalidationLocks.enter k
             invalidatingFileIds := if fileId ∈ s.invalidatingFileIds then s.invalidatingFileIds
               else s.invalidatingFileIds ++ [fileId]
             progress := update s.progress k
               ⟨if (s.buildSessions.get fileId).isSome then .waiting else .tearing,s.buildSessions.get fileId,false⟩ }
  | .waited k timedOut =>
    { s with progress := update s.progress k { s.progress k with phase := .yielding, timedOut := timedOut }
             immediates := s.immediates ++ [.resume k] }
  | .tearDown k fileId => { s with spoolSessions := s.spoolSessions.delete fileId }.setPhase k .tornDown
  | .drain k fileId => s.setPhase k (.draining (s.fileSessionTails fileId))
  | .run k => s.setPhase k .running
  | .finish k fileId =>
    { s with invalidatingFileIds := s.invalidatingFileIds.filter (· ≠ fileId)
             fileInvalidationLocks := s.fileInvalidationLocks.leave k fileId }
  | .settleInvalidation k => { s with fileInvalidationLocks := s.fileInvalidationLocks.settle k }

def State.Finished (s : State) (id : Nat) : Prop := ∃ b, s.builds[id]? = some b ∧ b.finished = true

/-- A session is registered only where the fence is not up, which is checked after the last wait. -/
def Allowed (s : State) : Label → Prop
  | .lock _ => True
  | .enter i key => s.sessionLocks.Ready i ∧ s.sessionLocks.At i key .waiting
  | .leave i key => s.sessionLocks.At i key .inside
  | .settleSession i => s.sessionLocks.Settling i
  | .registerBuild fileId => fileId ∉ s.invalidatingFileIds
  | .dropBuild _ => True
  | .finishBuild id => ∃ b, s.builds[id]? = some b ∧ b.finished = false
  | .registerSpool fileId => fileId ∉ s.invalidatingFileIds
  | .dropSpool _ => True
  | .immediate => s.immediates ≠ []
  | .invalidate _ => True
  | .fence k fileId => s.fileInvalidationLocks.Ready k ∧ s.fileInvalidationLocks.At k fileId .waiting
  | .waited k timedOut => (s.progress k).phase = .waiting ∧
      (timedOut = false → ∀ id ∈ (s.progress k).aborted, s.Finished id)
  | .tearDown k fileId => s.fileInvalidationLocks.At k fileId .inside ∧ (s.progress k).phase = .tearing
  | .drain k fileId => s.fileInvalidationLocks.At k fileId .inside ∧ (s.progress k).phase = .tornDown
  | .run k => ∃ awaited, (s.progress k).phase = .draining awaited ∧ ∀ p ∈ awaited, s.sessionLocks.Settled p
  | .finish k fileId => s.fileInvalidationLocks.At k fileId .inside
  | .settleInvalidation k => s.fileInvalidationLocks.Settling k

instance (s : State) (id : Nat) : Decidable (s.Finished id) := by
  unfold State.Finished
  infer_instance

instance (s : State) (k : Nat) :
    Decidable (∃ awaited, (s.progress k).phase = .draining awaited ∧ ∀ p ∈ awaited, s.sessionLocks.Settled p) :=
  match phase : (s.progress k).phase with
  | .draining awaited => decidable_of_iff (∀ p ∈ awaited, s.sessionLocks.Settled p) (by simp)
  | .queued | .waiting | .yielding | .tearing | .tornDown | .running => isFalse (by simp)

instance (s : State) : (l : Label) → Decidable (Allowed s l) := fun l => by
  cases l <;> unfold Allowed <;> infer_instance

/-- The states a coordinator comes to, whatever calls it gets and however they interleave. -/
abbrev Reached (s : State) : Prop := Reachable step Allowed initial s

def Phase.Waited : Phase → Prop
  | .queued | .waiting | .yielding => False
  | _ => True

def Phase.Torn : Phase → Prop
  | .queued | .waiting | .yielding | .tearing => False
  | _ => True

def Awaits (lock : Lock String) (fileId : String) (awaited : List Nat) : Prop :=
  ∀ (i : Nat) (key : String) (stage : Stage), lock.At i key stage → fileIdForSessionLockKey key = some fileId →
    stage ≠ .left → ∃ p ∈ awaited, i ≤ p ∧ ∃ end_stage, lock.At p key end_stage

def Quiet (lock : Lock String) (fileId : String) : Prop :=
  ∀ (i : Nat) (key : String) (stage : Stage), lock.At i key stage → fileIdForSessionLockKey key = some fileId →
    stage = .left

structure Stands (s : State) (k : Nat) (fileId : String) : Prop where
  found : ∀ id, s.buildSessions.get fileId = some id → (s.progress k).aborted = some id
  cleaned : (s.progress k).timedOut = false → (s.progress k).phase = .yielding →
    ∀ id, s.buildSessions.get fileId = some id →
      ∀ before after, s.immediates = before ++ .resume k :: after → .cleanup id ∈ before
  gone : (s.progress k).timedOut = false → (s.progress k).phase.Waited → s.buildSessions.get fileId = none
  torn : (s.progress k).phase.Torn → s.spoolSessions.get fileId = none
  drains : fileId ≠ "" → ∀ awaited, (s.progress k).phase = .draining awaited → Awaits s.sessionLocks fileId awaited
  quiet : fileId ≠ "" → (s.progress k).phase = .running → Quiet s.sessionLocks fileId

structure Inv (s : State) : Prop where
  sessions : Sound s.sessionLocks
  invalidations : Sound s.fileInvalidationLocks
  fenced : ∀ fileId, fileId ∈ s.invalidatingFileIds ↔ ∃ k, s.fileInvalidationLocks.At k fileId .inside
  idle : ∀ k, (∀ fileId stage, s.fileInvalidationLocks.At k fileId stage → stage = .waiting) →
    (s.progress k).phase = .queued
  resumed : ∀ k, .resume k ∈ s.immediates → (s.progress k).phase ≠ .queued ∧ (s.progress k).phase ≠ .waiting
  owned : ∀ fileId id, s.buildSessions.get fileId = some id → ∃ b, s.builds[id]? = some b ∧ b.fileId = fileId
  cleaning : ∀ fileId id, s.buildSessions.get fileId = some id → s.Finished id → .cleanup id ∈ s.immediates
  stands : ∀ k fileId, s.fileInvalidationLocks.At k fileId .inside → Stands s k fileId

theorem initial_inv : Inv initial := by
  constructor
  case sessions => exact empty_sound
  case invalidations => exact empty_sound
  all_goals simp [initial,Lock.At,Lock.empty,OrderedMap.empty,OrderedMap.get]

/-! ### Steps of the session locks -/

/-- The file's calls in the new lock were calls of the old one and no farther from the end. -/
def Onward (lock lock' : Lock String) (fileId : String) : Prop :=
  (∀ (i : Nat) (key : String) (stage : Stage), lock'.At i key stage → fileIdForSessionLockKey key = some fileId →
    stage ≠ .left → ∃ earlier, lock.At i key earlier ∧ earlier ≠ .left) ∧
  ∀ (i : Nat) (key : String) (stage : Stage), lock.At i key stage → ∃ later, lock'.At i key later

theorem stands_onward (stands : Stands s k fileId)
    (onward : fileId ≠ "" → Onward s.sessionLocks lock fileId) : Stands { s with sessionLocks := lock } k fileId := by
  refine { stands with drains := ?_, quiet := ?_ }
  · intro named awaited draining i key stage at_i mine unfinished
    obtain ⟨earlier,at_i',unfinished'⟩ := (onward named).1 i key stage at_i mine unfinished
    obtain ⟨p,member,upTo,endStage,at_p⟩ := stands.drains named awaited draining i key earlier at_i' mine unfinished'
    exact ⟨p,member,upTo,(onward named).2 p key endStage at_p⟩
  · intro named running i key stage at_i mine
    by_contra unfinished
    obtain ⟨earlier,at_i',unfinished'⟩ := (onward named).1 i key stage at_i mine unfinished
    exact unfinished' (stands.quiet named running i key earlier at_i' mine)

theorem sessions_inv (inv : Inv s) (sound : Sound lock)
    (onward : ∀ fileId ∈ s.invalidatingFileIds, fileId ≠ "" → Onward s.sessionLocks lock fileId) :
    Inv { s with sessionLocks := lock } := by
  refine { inv with sessions := sound, stands := ?_ }
  intro k fileId inside
  exact stands_onward (inv.stands k fileId inside) (onward fileId ((inv.fenced fileId).mpr ⟨k,inside⟩))

theorem onward_modify {c : Call String} (at_k : lock.calls[k]? = some c)
    (unfinished : c.stage ≠ .left) {g : Call String → Call String} (sameKey : (g c).key = c.key)
    (tails : OrderedMap String Nat) (fileId : String) :
    Onward lock { calls := lock.calls.modify k g, tails := tails } fileId := by
  constructor
  · rintro i key stage ⟨a,at_i,rfl,rfl⟩ _ open_stage
    obtain ⟨old,at_i',shape⟩ := found_modify at_i
    by_cases here : k = i
    · subst here
      obtain rfl : old = c := by simpa [at_k] using at_i'.symm
      simp only [↓reduceIte] at shape
      subst shape
      exact ⟨old.stage,⟨old,at_i',sameKey.symm,rfl⟩,unfinished⟩
    · simp only [here] at shape
      subst shape
      exact ⟨a.stage,⟨a,at_i',rfl,rfl⟩,open_stage⟩
  · rintro i key stage ⟨a,at_i,rfl,rfl⟩
    refine ⟨_,_,modify_found at_i k g,?_,rfl⟩
    by_cases here : k = i
    · subst here
      obtain rfl : a = c := by simpa [at_k] using at_i.symm
      simp [sameKey]
    · simp [here]

theorem onward_trans {first second third : Lock String} (one : Onward first second fileId)
    (two : Onward second third fileId) : Onward first third fileId := by
  constructor
  · intro i key stage at_i mine unfinished
    obtain ⟨earlier,at_i',unfinished'⟩ := two.1 i key stage at_i mine unfinished
    exact one.1 i key earlier at_i' mine unfinished'
  · intro i key stage at_i
    obtain ⟨later,at_i'⟩ := one.2 i key stage at_i
    exact two.2 i key later at_i'

theorem enter_at (here : lock.At i key stage) :
    (lock.enter i).At i key .inside := by
  obtain ⟨c,at_i,rfl,_⟩ := here
  exact ⟨_,modify_found at_i i _,by simp⟩

theorem enter_onward (waiting : lock.At i key .waiting)
    (fileId : String) : Onward lock (lock.enter i) fileId := by
  obtain ⟨c,at_i,_,stage⟩ := waiting
  exact onward_modify at_i (by simp [stage]) rfl _ fileId

theorem leave_onward (inside : lock.At i key .inside)
    (fileId : String) : Onward lock (lock.leave i key) fileId := by
  obtain ⟨c,at_i,_,stage⟩ := inside
  exact onward_modify at_i (by simp [stage]) rfl _ fileId

theorem settle_onward (lock : Lock String) (i : Nat) (fileId : String) : Onward lock (lock.settle i) fileId := by
  constructor
  · rintro j key stage ⟨a,at_j,rfl,rfl⟩ _ unfinished
    obtain ⟨old,at_j',rfl⟩ := found_modify at_j
    by_cases here : i = j
    · simp only [here] at unfinished ⊢
      exact ⟨old.stage,⟨old,at_j',rfl,rfl⟩,unfinished⟩
    · simp only [here] at unfinished ⊢
      exact ⟨old.stage,⟨old,at_j',rfl,rfl⟩,unfinished⟩
  · rintro j key stage ⟨a,at_j,rfl,rfl⟩
    refine ⟨_,_,modify_found at_j i _,?_,rfl⟩
    by_cases here : i = j
    · simp [here]
    · simp [here]

theorem join_onward (free : ¬ s.Fenced key)
    (member : fileId ∈ s.invalidatingFileIds) (named : fileId ≠ "") :
    Onward s.sessionLocks (s.sessionLocks.join key) fileId := by
  constructor
  · rintro i key' stage ⟨a,at_i,rfl,rfl⟩ mine unfinished
    rcases found_append at_i with old | ⟨_,rfl⟩
    · exact ⟨a.stage,⟨a,old,rfl,rfl⟩,unfinished⟩
    · exact absurd ⟨fileId,member,named,mine⟩ free
  · rintro i key' stage ⟨a,at_i,rfl,rfl⟩
    exact ⟨a.stage,a,(List.getElem?_append_left (lt_of_found at_i)).trans at_i,rfl,rfl⟩

theorem lock_inv (inv : Inv s) (key : String) : Inv (step s (.lock key)) := by
  by_cases fenced : s.Fenced key
  · simpa [step,fenced] using inv
  · simp only [step,fenced]
    exact sessions_inv inv (join_sound inv.sessions key) fun _ member named => join_onward fenced member named

theorem enter_inv (inv : Inv s) (ready : s.sessionLocks.Ready i)
    (waiting : s.sessionLocks.At i key .waiting) : Inv (step s (.enter i key)) := by
  have entered := enter_sound inv.sessions ready
  by_cases fenced : s.Fenced key
  · simp only [step,fenced]
    refine sessions_inv inv (leave_sound entered (enter_at waiting)) fun fileId _ _ => ?_
    exact onward_trans (enter_onward waiting fileId) (leave_onward (enter_at waiting) fileId)
  · simp only [step,fenced]
    exact sessions_inv inv entered fun fileId _ _ => enter_onward waiting fileId

theorem fewer_inv (inv : Inv s) {builds spools : OrderedMap String Nat}
    (fewerBuilds : ∀ fileId id, builds.get fileId = some id → s.buildSessions.get fileId = some id)
    (fewerSpools : ∀ fileId, s.spoolSessions.get fileId = none → spools.get fileId = none) :
    Inv { s with buildSessions := builds, spoolSessions := spools } := by
  refine { inv with owned := ?_, cleaning := ?_, stands := ?_ }
  · intro fileId id registered
    exact inv.owned fileId id (fewerBuilds fileId id registered)
  · intro fileId id registered finished
    exact inv.cleaning fileId id (fewerBuilds fileId id registered) finished
  · intro k fileId inside
    have stands := inv.stands k fileId inside
    refine { stands with found := ?_, cleaned := ?_, gone := ?_, torn := ?_ }
    · intro id registered
      exact stands.found id (fewerBuilds fileId id registered)
    · intro inTime yielding id registered
      exact stands.cleaned inTime yielding id (fewerBuilds fileId id registered)
    · intro inTime waited
      have absent := stands.gone inTime waited
      rw [Option.eq_none_iff_forall_not_mem]
      intro id registered
      have still := fewerBuilds fileId id registered
      rw [absent] at still
      cases still
    · intro torn
      exact fewerSpools fileId (stands.torn torn)

theorem fewer_delete (m : OrderedMap String Nat) (k fileId : String) (id : Nat)
    (found : (m.delete k).get fileId = some id) : m.get fileId = some id := by
  by_cases here : fileId = k
  · subst here
    rw [get_delete_same] at found
    cases found
  · rwa [get_delete_other m here] at found

theorem absent_delete (m : OrderedMap String Nat) (k fileId : String) (absent : m.get fileId = none) :
    (m.delete k).get fileId = none := by
  by_cases here : fileId = k
  · subst here
    exact get_delete_same m fileId
  · rwa [get_delete_other m here]

theorem registerBuild_inv (inv : Inv s) (free : fileId ∉ s.invalidatingFileIds) :
    Inv (step s (.registerBuild fileId)) := by
  have others : ∀ k other, s.fileInvalidationLocks.At k other .inside →
      (s.buildSessions.set fileId s.builds.length).get other = s.buildSessions.get other := by
    intro k other inside
    apply get_set_other
    rintro rfl
    exact free ((inv.fenced other).mpr ⟨k,inside⟩)
  -- a registered session is the new one or was registered before
  have which : ∀ other id, (s.buildSessions.set fileId s.builds.length).get other = some id →
      (other = fileId ∧ id = s.builds.length) ∨ s.buildSessions.get other = some id := by
    intro other id registered
    by_cases here : other = fileId
    · subst here
      rw [get_set_same] at registered
      exact .inl ⟨rfl,(Option.some.inj registered).symm⟩
    · exact .inr (by rwa [get_set_other _ _ here] at registered)
  refine { inv with owned := ?_, cleaning := ?_, stands := ?_ }
  · intro other id registered
    rcases which other id registered with ⟨rfl,rfl⟩ | old
    · exact ⟨⟨other,false⟩,by simp [step],rfl⟩
    · obtain ⟨b,at_id,mine⟩ := inv.owned other id old
      have known := at_lt at_id
      exact ⟨b,by simp [step,List.getElem?_append_left known,at_id],mine⟩
  · rintro other id registered ⟨b,at_id,past⟩
    rcases which other id registered with ⟨rfl,rfl⟩ | old
    · simp only [step,List.getElem?_append_right (Nat.le_refl _),Nat.sub_self] at at_id
      cases at_id
      cases past
    · obtain ⟨b',at_id',_⟩ := inv.owned other id old
      have known := at_lt at_id'
      simp only [step,List.getElem?_append_left known] at at_id
      exact inv.cleaning other id old ⟨b,at_id,past⟩
  · intro k other inside
    have stands := inv.stands k other inside
    have same := others k other inside
    refine { stands with found := ?_, cleaned := ?_, gone := ?_ }
    · intro id registered
      exact stands.found id (same ▸ registered)
    · intro inTime yielding id registered
      exact stands.cleaned inTime yielding id (same ▸ registered)
    · intro inTime waited
      exact same.trans (stands.gone inTime waited)

theorem registerSpool_inv (inv : Inv s) (free : fileId ∉ s.invalidatingFileIds) :
    Inv (step s (.registerSpool fileId)) := by
  refine { inv with stands := ?_ }
  intro k other inside
  have stands := inv.stands k other inside
  refine { stands with torn := ?_ }
  intro torn
  have elsewhere : other ≠ fileId := by
    rintro rfl
    exact free ((inv.fenced other).mpr ⟨k,inside⟩)
  exact (get_set_other _ _ elsewhere).trans (stands.torn torn)

/-! ### Steps of the event loop -/

theorem append_last {queue before after : List Immediate} {x y : Immediate} (other : x ≠ y)
    (shape : queue ++ [x] = before ++ y :: after) : ∃ shorter, queue = before ++ y :: shorter := by
  rcases List.eq_nil_or_concat after with rfl | ⟨shorter,last,rfl⟩
  · have ends := congrArg List.getLast? shape
    simp at ends
    exact absurd ends other
  · refine ⟨shorter,?_⟩
    have cut : queue ++ [x] = (before ++ y :: shorter) ++ [last] := by simpa using shape
    exact (List.append_inj' cut rfl).1

theorem finishBuild_inv (inv : Inv s) (id : Nat) : Inv (step s (.finishBuild id)) := by
  refine { inv with resumed := ?_, owned := ?_, cleaning := ?_, stands := ?_ }
  · intro k member
    simp only [step,List.mem_append,List.mem_singleton,reduceCtorEq,or_false] at member
    exact inv.resumed k member
  · intro fileId other registered
    obtain ⟨b,at_other,rfl⟩ := inv.owned fileId other registered
    refine ⟨_,by rw [step,List.getElem?_modify,at_other]; rfl,?_⟩
    by_cases here : id = other
    · simp [here]
    · simp [here]
  · rintro fileId other registered ⟨b,at_other,past⟩
    by_cases here : id = other
    · simp [step,here]
    · simp only [step,List.getElem?_modify,here,↓reduceIte,Option.map_eq_map,Option.map_id_fun'] at at_other
      have queued := inv.cleaning fileId other registered ⟨b,at_other,past⟩
      simp [step,queued]
  · intro k fileId inside
    have stands := inv.stands k fileId inside
    refine { stands with cleaned := ?_ }
    intro inTime yielding other registered before after shape
    obtain ⟨shorter,shape'⟩ := append_last (by simp) shape
    exact stands.cleaned inTime yielding other registered before shorter shape'

theorem cleanup_inv (inv : Inv s) {id : Nat} {rest : List Immediate}
    (next : s.immediates = .cleanup id :: rest) : Inv ({ s with immediates := rest }.cleanupBuild id) := by
  -- after the cleanup no file has this session, so what is left of the queue still covers the others
  have shape : ∃ builds : OrderedMap String Nat,
      { s with immediates := rest }.cleanupBuild id = { s with immediates := rest, buildSessions := builds } ∧
      (∀ fileId other, builds.get fileId = some other → s.buildSessions.get fileId = some other ∧ other ≠ id) := by
    have owner : ∀ fileId, s.buildSessions.get fileId = some id → ∃ b, s.builds[id]? = some b ∧ b.fileId = fileId :=
      fun fileId registered => inv.owned fileId id registered
    simp only [State.cleanupBuild]
    cases at_id : s.builds[id]? with
    | none =>
      refine ⟨s.buildSessions,rfl,?_⟩
      intro fileId other registered
      refine ⟨registered,?_⟩
      rintro rfl
      obtain ⟨b,at_id',_⟩ := owner fileId registered
      simp [at_id] at at_id'
    | some b =>
      have mine : ∀ fileId, s.buildSessions.get fileId = some id → fileId = b.fileId := by
        intro fileId registered
        obtain ⟨b',at_id',rfl⟩ := owner fileId registered
        obtain rfl : b = b' := by simpa [at_id] using at_id'
        rfl
      by_cases held : s.buildSessions.get b.fileId = some id
      · simp only [held]
        refine ⟨s.buildSessions.delete b.fileId,rfl,?_⟩
        intro fileId other registered
        have old := fewer_delete _ _ _ _ registered
        refine ⟨old,?_⟩
        rintro rfl
        rw [mine fileId old,get_delete_same] at registered
        cases registered
      · simp only [held]
        refine ⟨s.buildSessions,rfl,?_⟩
        intro fileId other registered
        refine ⟨registered,?_⟩
        rintro rfl
        exact held (mine fileId registered ▸ registered)
  obtain ⟨builds,same,fewer⟩ := shape
  rw [same]
  refine { inv with resumed := ?_, owned := ?_, cleaning := ?_, stands := ?_ }
  · intro k member
    exact inv.resumed k (by simp [next,member])
  · intro fileId other registered
    exact inv.owned fileId other (fewer fileId other registered).1
  · intro fileId other registered finished
    obtain ⟨old,different⟩ := fewer fileId other registered
    have queued := inv.cleaning fileId other old finished
    simpa [next,different] using queued
  · intro k fileId inside
    have stands := inv.stands k fileId inside
    refine { stands with found := ?_, cleaned := ?_, gone := ?_ }
    · intro other registered
      exact stands.found other (fewer fileId other registered).1
    · intro inTime yielding other registered before after cut
      obtain ⟨old,different⟩ := fewer fileId other registered
      have behind := stands.cleaned inTime yielding other old (.cleanup id :: before) after
        (by rw [next]; simpa using cut)
      simpa [different] using behind
    · intro inTime waited
      have absent := stands.gone inTime waited
      rw [Option.eq_none_iff_forall_not_mem]
      intro other registered
      have still := (fewer fileId other registered).1
      rw [absent] at still
      cases still

theorem stands_frame {s' : State} (stands : Stands s k fileId)
    (progress : s'.progress k = s.progress k) (builds : s'.buildSessions = s.buildSessions)
    (spools : s'.spoolSessions = s.spoolSessions) (immediates : s'.immediates = s.immediates)
    (locks : s'.sessionLocks = s.sessionLocks) : Stands s' k fileId := by
  obtain ⟨found,cleaned,gone,torn,drains,quiet⟩ := stands
  constructor
  all_goals rw [progress]
  · rw [builds]; exact found
  · rw [builds,immediates]; exact cleaned
  · rw [builds]; exact gone
  · rw [spools]; exact torn
  · rw [locks]; exact drains
  · rw [locks]; exact quiet

theorem setPhase_inv (inv : Inv s) {phase : Phase}
    (begun : ∃ fileId, s.fileInvalidationLocks.At k fileId .inside ∨ s.fileInvalidationLocks.At k fileId .left)
    (later : phase ≠ .queued ∧ phase ≠ .waiting)
    (stands : ∀ fileId, s.fileInvalidationLocks.At k fileId .inside → Stands (s.setPhase k phase) k fileId) :
    Inv (s.setPhase k phase) := by
  refine { inv with idle := ?_, resumed := ?_, stands := ?_ }
  · intro j early
    by_cases here : j = k
    · subst here
      obtain ⟨fileId,inside | left⟩ := begun
      · cases early fileId _ inside
      · cases early fileId _ left
    · simpa [State.setPhase,here] using inv.idle j early
  · intro j member
    by_cases here : j = k
    · simpa [State.setPhase,here] using later
    · simpa [State.setPhase,here] using inv.resumed j member
  · intro j fileId inside
    by_cases here : j = k
    · subst here
      exact stands fileId inside
    · exact stands_frame (inv.stands j fileId inside) (update_of_ne here _ _) rfl rfl rfl rfl

theorem begun_of_phase (inv : Inv s) (phase : (s.progress k).phase ≠ .queued) :
    ∃ fileId, s.fileInvalidationLocks.At k fileId .inside ∨ s.fileInvalidationLocks.At k fileId .left := by
  by_contra none
  apply phase
  apply inv.idle
  intro fileId stage here
  cases stage with
  | waiting => rfl
  | inside => exact absurd ⟨fileId,.inl here⟩ none
  | left => exact absurd ⟨fileId,.inr here⟩ none

theorem resume_inv (inv : Inv s) {rest : List Immediate}
    (next : s.immediates = .resume k :: rest) : Inv ({ s with immediates := rest }.setPhase k .tearing) := by
  have resumed := inv.resumed k (by simp [next])
  have popped : Inv { s with immediates := rest } := by
    refine { inv with resumed := ?_, cleaning := ?_, stands := ?_ }
    · intro j member
      exact inv.resumed j (by simp [next,member])
    · intro fileId id registered finished
      have queued := inv.cleaning fileId id registered finished
      simpa [next] using queued
    · intro j fileId inside
      have stands := inv.stands j fileId inside
      refine { stands with cleaned := ?_ }
      intro inTime yielding id registered before after cut
      have behind := stands.cleaned inTime yielding id registered (.resume k :: before) after
        (by rw [next]; simpa using cut)
      simpa using behind
  refine setPhase_inv popped (begun_of_phase (s := s) inv resumed.1) (by simp) ?_
  intro fileId inside
  have stands := inv.stands k fileId inside
  constructor
  all_goals simp only [State.setPhase,update_self]
  case found => exact stands.found
  case cleaned => simp
  case gone =>
    intro inTime _
    cases phase : (s.progress k).phase with
    | queued => exact absurd phase resumed.1
    | waiting => exact absurd phase resumed.2
    | yielding =>
      -- its own turn is the next one, so the cleanup in front of it is done
      rw [Option.eq_none_iff_forall_not_mem]
      intro id registered
      have behind := stands.cleaned inTime phase id registered [] rest next
      simp at behind
    | tearing | tornDown | draining awaited | running => exact stands.gone inTime (by simp [phase,Phase.Waited])
  case torn => simp [Phase.Torn]
  case drains => simp
  case quiet => simp

/-! ### Steps of the invalidations -/

theorem at_modify {c : Call String} (at_k : lock.calls[k]? = some c) {stage' : Stage}
    (tails : OrderedMap String Nat) :
    Lock.At { calls := lock.calls.modify k (fun c => { c with stage := stage' }), tails := tails } j fileId stage ↔
      (j = k ∧ c.key = fileId ∧ stage = stage') ∨ (j ≠ k ∧ lock.At j fileId stage) := by
  constructor
  · rintro ⟨a,at_j,rfl,rfl⟩
    obtain ⟨old,at_j',rfl⟩ := found_modify at_j
    by_cases here : k = j
    · subst here
      obtain rfl : old = c := by simpa [at_k] using at_j'.symm
      simp
    · refine .inr ⟨fun same => here same.symm,old,at_j',?_⟩
      simp [here]
  · rintro (⟨rfl,rfl,rfl⟩ | ⟨other,a,at_j,rfl,rfl⟩)
    · exact ⟨_,modify_found at_k j _,by simp⟩
    · have apart : k ≠ j := fun same => other same.symm
      exact ⟨_,modify_found at_j k _,by simp [apart]⟩

theorem at_join :
    (lock.join key).At j fileId stage ↔
      lock.At j fileId stage ∨ (j = lock.calls.length ∧ key = fileId ∧ stage = .waiting) := by
  constructor
  · rintro ⟨a,at_j,rfl,rfl⟩
    rcases found_append at_j with old | ⟨rfl,rfl⟩
    · exact .inl ⟨a,old,rfl,rfl⟩
    · exact .inr ⟨rfl,rfl,rfl⟩
  · rintro (⟨a,at_j,rfl,rfl⟩ | ⟨rfl,rfl,rfl⟩)
    · exact ⟨a,(List.getElem?_append_left (lt_of_found at_j)).trans at_j,rfl,rfl⟩
    · exact ⟨⟨key,lock.tails.get key,.waiting,false⟩,by simp [Lock.join],rfl,rfl⟩

theorem at_settle :
    (lock.settle k).At j fileId stage ↔ lock.At j fileId stage := by
  constructor
  · rintro ⟨a,at_j,rfl,rfl⟩
    obtain ⟨old,at_j',rfl⟩ := found_modify at_j
    by_cases here : k = j
    · exact ⟨old,at_j',by simp [here]⟩
    · exact ⟨old,at_j',by simp [here]⟩
  · rintro ⟨a,at_j,rfl,rfl⟩
    refine ⟨_,modify_found at_j k _,?_⟩
    by_cases here : k = j
    · simp [here]
    · simp [here]

theorem invalidate_inv (inv : Inv s) (fileId : String) : Inv (step s (.invalidate fileId)) := by
  have inside_iff : ∀ k other, (s.fileInvalidationLocks.join fileId).At k other .inside ↔
      s.fileInvalidationLocks.At k other .inside := by
    simp [at_join]
  refine { inv with invalidations := join_sound inv.invalidations fileId, fenced := ?_, idle := ?_, stands := ?_ }
  · intro other
    simp only [step,inside_iff]
    exact inv.fenced other
  · intro k early
    apply inv.idle
    intro other stage here
    exact early other stage (at_join.mpr (.inl here))
  · intro k other inside
    exact stands_frame (inv.stands k other ((inside_iff k other).mp inside)) rfl rfl rfl rfl rfl

theorem settleInvalidation_inv (inv : Inv s) (settling : s.fileInvalidationLocks.Settling k) :
    Inv (step s (.settleInvalidation k)) := by
  refine { inv with invalidations := settle_sound inv.invalidations settling, fenced := ?_, idle := ?_, stands := ?_ }
  · intro other
    simp only [step,at_settle]
    exact inv.fenced other
  · intro j early
    apply inv.idle
    intro other stage here
    exact early other stage (at_settle.mpr here)
  · intro j other inside
    exact stands_frame (inv.stands j other (at_settle.mp inside)) rfl rfl rfl rfl rfl

theorem fence_inv (inv : Inv s) (ready : s.fileInvalidationLocks.Ready k)
    (waiting : s.fileInvalidationLocks.At k fileId .waiting) : Inv (step s (.fence k fileId)) := by
  obtain ⟨c,at_k,rfl,stage⟩ := waiting
  have queued : (s.progress k).phase = .queued := by
    apply inv.idle
    intro other later here
    exact (at_unique here ⟨c,at_k,rfl,stage⟩).2
  have at_iff : ∀ j other later, (s.fileInvalidationLocks.enter k).At j other later ↔
      (j = k ∧ c.key = other ∧ later = .inside) ∨ (j ≠ k ∧ s.fileInvalidationLocks.At j other later) :=
    fun j other later => at_modify at_k _
  refine { inv with invalidations := enter_sound inv.invalidations ready, fenced := ?_, idle := ?_, resumed := ?_,
                    stands := ?_ }
  · intro other
    have member : other ∈ (step s (.fence k c.key)).invalidatingFileIds ↔
        other = c.key ∨ other ∈ s.invalidatingFileIds := by
      by_cases up : c.key ∈ s.invalidatingFileIds
      · simp only [step,up]
        constructor
        · exact .inr
        · rintro (rfl | old)
          · exact up
          · exact old
      · simp [step,up,or_comm]
    rw [member,inv.fenced other]
    constructor
    · rintro (rfl | ⟨j,inside⟩)
      · exact ⟨k,(at_iff _ _ _).mpr (.inl ⟨rfl,rfl,rfl⟩)⟩
      · refine ⟨j,(at_iff _ _ _).mpr (.inr ⟨?_,inside⟩)⟩
        rintro rfl
        have clash := (at_unique inside ⟨c,at_k,rfl,stage⟩).2
        cases clash
    · rintro ⟨j,inside⟩
      rcases (at_iff _ _ _).mp inside with ⟨_,mine,_⟩ | ⟨_,old⟩
      · exact .inl mine.symm
      · exact .inr ⟨j,old⟩
  · intro j early
    by_cases here : j = k
    · subst here
      have clash := early c.key .inside ((at_iff _ _ _).mpr (.inl ⟨rfl,rfl,rfl⟩))
      cases clash
    · simp only [step,update_of_ne here]
      apply inv.idle
      intro other later at_j
      exact early other later ((at_iff _ _ _).mpr (.inr ⟨here,at_j⟩))
  · intro j member
    have resumed := inv.resumed j member
    have here : j ≠ k := by
      rintro rfl
      exact resumed.1 queued
    simpa [step,update_of_ne here] using resumed
  · intro j other inside
    rcases (at_iff _ _ _).mp inside with ⟨rfl,rfl,_⟩ | ⟨here,old⟩
    · cases registered : s.buildSessions.get c.key with
      | none =>
        constructor
        all_goals simp [step,registered,Phase.Torn]
      | some id =>
        constructor
        all_goals simp [step,registered,Phase.Waited,Phase.Torn]
    · exact stands_frame (inv.stands j other old) (update_of_ne here _ _) rfl rfl rfl rfl

theorem waited_inv (inv : Inv s) {timedOut : Bool} (phase : (s.progress k).phase = .waiting)
    (past : timedOut = false → ∀ id ∈ (s.progress k).aborted, s.Finished id) :
    Inv (step s (.waited k timedOut)) := by
  refine { inv with idle := ?_, resumed := ?_, cleaning := ?_, stands := ?_ }
  · intro j early
    have queued := inv.idle j early
    have here : j ≠ k := by
      rintro rfl
      simp [phase] at queued
    simpa [step,here] using queued
  · intro j member
    by_cases here : j = k
    · simp [step,here]
    · simp only [step,List.mem_append,List.mem_singleton,Immediate.resume.injEq,here,or_false] at member
      simpa [step,here] using inv.resumed j member
  · intro fileId id registered finished
    have queued := inv.cleaning fileId id registered finished
    simp [step,queued]
  · intro j fileId inside
    have stands := inv.stands j fileId inside
    by_cases here : j = k
    · subst here
      constructor
      all_goals simp only [step,update_self]
      case found => exact stands.found
      case cleaned =>
        intro inTime _ id registered before after cut
        have cleanup := inv.cleaning fileId id registered (past inTime id (stands.found id registered))
        -- no turn of this invalidation was on the queue before, so the one cut out is the new one
        rcases List.eq_nil_or_concat after with rfl | ⟨shorter,last,rfl⟩
        · have front := (List.append_inj' cut rfl).1
          exact front ▸ cleanup
        · have whole : s.immediates ++ [Immediate.resume j] = (before ++ Immediate.resume j :: shorter) ++ [last] := by simpa using cut
          have old : Immediate.resume j ∈ s.immediates := by
            rw [(List.append_inj' whole rfl).1]
            simp
          exact absurd phase (inv.resumed j old).2
      case gone => simp [Phase.Waited]
      case torn => simp [Phase.Torn]
      case drains => simp
      case quiet => simp
    · have other := update_of_ne here { s.progress k with phase := .yielding, timedOut := timedOut } s.progress
      obtain ⟨found,cleaned,gone,torn,drains,quiet⟩ := stands
      constructor
      all_goals simp only [step,other]
      case found => exact found
      case cleaned =>
        intro inTime yielding id registered before after cut
        obtain ⟨shorter,cut'⟩ := append_last (by simpa using fun same => here same.symm) cut
        exact cleaned inTime yielding id registered before shorter cut'
      case gone => exact gone
      case torn => exact torn
      case drains => exact drains
      case quiet => exact quiet

theorem tearDown_inv (inv : Inv s)
    (inside : s.fileInvalidationLocks.At k fileId .inside) (phase : (s.progress k).phase = .tearing) :
    Inv (step s (.tearDown k fileId)) := by
  have dropped : Inv { s with spoolSessions := s.spoolSessions.delete fileId } :=
    fewer_inv inv (fun _ _ registered => registered) (absent_delete s.spoolSessions fileId)
  refine setPhase_inv dropped ⟨fileId,.inl inside⟩ (by simp) ?_
  intro other inside'
  obtain ⟨rfl,_⟩ := at_unique inside inside'
  have stands := dropped.stands k fileId inside
  constructor
  all_goals simp only [State.setPhase,update_self]
  case found => exact stands.found
  case cleaned => simp
  case gone => exact fun inTime _ => stands.gone inTime (by simp [phase,Phase.Waited])
  case torn => exact fun _ => get_delete_same _ fileId
  case drains => simp
  case quiet => simp

theorem fileSessionTails_awaits (sound : Sound s.sessionLocks) (fileId : String) :
    Awaits s.sessionLocks fileId (s.fileSessionTails fileId) := by
  rintro i key stage ⟨c,at_i,rfl,rfl⟩ mine unfinished
  obtain ⟨p,tail,upTo⟩ := unfinished_tail sound at_i unfinished
  obtain ⟨⟨d,at_p,shared,_⟩,_⟩ := sound.tail tail
  refine ⟨p,?_,upTo,d.stage,d,at_p,shared,rfl⟩
  rw [get_eq_some_iff] at tail
  simp only [State.fileSessionTails,List.mem_map,List.mem_filter,decide_eq_true_eq]
  exact ⟨(c.key,p),⟨tail,mine⟩,rfl⟩

theorem drain_inv (inv : Inv s)
    (inside : s.fileInvalidationLocks.At k fileId .inside) (phase : (s.progress k).phase = .tornDown) :
    Inv (step s (.drain k fileId)) := by
  refine setPhase_inv inv ⟨fileId,.inl inside⟩ (by simp) ?_
  intro other inside'
  obtain ⟨rfl,_⟩ := at_unique inside inside'
  have stands := inv.stands k fileId inside
  constructor
  all_goals simp only [State.setPhase,update_self]
  case found => exact stands.found
  case cleaned => simp
  case gone => exact fun inTime _ => stands.gone inTime (by simp [phase,Phase.Waited])
  case torn => exact fun _ => stands.torn (by simp [phase,Phase.Torn])
  case drains =>
    intro _ awaited same
    obtain rfl := Phase.draining.inj same
    exact fileSessionTails_awaits inv.sessions fileId
  case quiet => simp

theorem run_inv (inv : Inv s) {awaited : List Nat}
    (phase : (s.progress k).phase = .draining awaited) (settled : ∀ p ∈ awaited, s.sessionLocks.Settled p) :
    Inv (step s (.run k)) := by
  refine setPhase_inv inv (begun_of_phase inv (by simp [phase])) (by simp) ?_
  intro fileId inside
  have stands := inv.stands k fileId inside
  constructor
  all_goals simp only [State.setPhase,update_self]
  case found => exact stands.found
  case cleaned => simp
  case gone => exact fun inTime _ => stands.gone inTime (by simp [phase,Phase.Waited])
  case torn => exact fun _ => stands.torn (by simp [phase,Phase.Torn])
  case drains => simp
  case quiet =>
    intro named _ i key stage at_i mine
    by_contra unfinished
    obtain ⟨p,member,upTo,endStage,at_p⟩ := stands.drains named awaited phase i key stage at_i mine unfinished
    exact unfinished (settled_left inv.sessions (settled p member) at_p at_i upTo)

theorem finish_inv (inv : Inv s)
    (inside : s.fileInvalidationLocks.At k fileId .inside) : Inv (step s (.finish k fileId)) := by
  obtain ⟨c,at_k,rfl,stage⟩ := inside
  have inside : s.fileInvalidationLocks.At k c.key .inside := ⟨c,at_k,rfl,stage⟩
  have at_iff : ∀ j other later, (s.fileInvalidationLocks.leave k c.key).At j other later ↔
      (j = k ∧ c.key = other ∧ later = .left) ∨ (j ≠ k ∧ s.fileInvalidationLocks.At j other later) :=
    fun j other later => at_modify at_k _
  have inside_iff : ∀ j other, (s.fileInvalidationLocks.leave k c.key).At j other .inside ↔
      j ≠ k ∧ s.fileInvalidationLocks.At j other .inside := by
    simp [at_iff]
  refine { inv with invalidations := leave_sound inv.invalidations inside, fenced := ?_, idle := ?_, stands := ?_ }
  · intro other
    simp only [step,inside_iff,List.mem_filter,decide_eq_true_eq]
    constructor
    · rintro ⟨member,different⟩
      obtain ⟨j,inside'⟩ := (inv.fenced other).mp member
      refine ⟨j,?_,inside'⟩
      rintro rfl
      exact different (at_unique inside' inside).1
    · rintro ⟨j,here,inside'⟩
      refine ⟨(inv.fenced other).mpr ⟨j,inside'⟩,?_⟩
      rintro rfl
      exact here (inside_unique (sound_inCallOrder inv.invalidations) inside' inside)
  · intro j early
    apply inv.idle
    intro other later at_j
    by_cases here : j = k
    · subst here
      have clash := early c.key .left ((at_iff _ _ _).mpr (.inl ⟨rfl,rfl,rfl⟩))
      cases clash
    · exact early other later ((at_iff _ _ _).mpr (.inr ⟨here,at_j⟩))
  · intro j other inside'
    exact stands_frame (inv.stands j other ((inside_iff j other).mp inside').2) rfl rfl rfl rfl rfl

theorem step_inv (s : State) (l : Label) (inv : Inv s) (ok : Allowed s l) : Inv (step s l) := by
  cases l with
  | lock key => exact lock_inv inv key
  | enter i key => exact enter_inv inv ok.1 ok.2
  | leave i key => exact sessions_inv inv (leave_sound inv.sessions ok) fun fileId _ _ => leave_onward ok fileId
  | settleSession i =>
    exact sessions_inv inv (settle_sound inv.sessions ok) fun fileId _ _ => settle_onward s.sessionLocks i fileId
  | registerBuild fileId => exact registerBuild_inv inv ok
  | dropBuild fileId => exact fewer_inv inv (fewer_delete s.buildSessions fileId) (fun _ absent => absent)
  | finishBuild id => exact finishBuild_inv inv id
  | registerSpool fileId => exact registerSpool_inv inv ok
  | dropSpool fileId =>
    exact fewer_inv inv (fun _ _ registered => registered) (absent_delete s.spoolSessions fileId)
  | immediate =>
    simp only [step]
    cases next : s.immediates with
    | nil => exact inv
    | cons turn rest =>
      cases turn with
      | cleanup id => exact cleanup_inv inv next
      | resume k => exact resume_inv inv next
  | invalidate fileId => exact invalidate_inv inv fileId
  | fence k fileId => exact fence_inv inv ok.1 ok.2
  | waited k timedOut => exact waited_inv inv ok.1 ok.2
  | tearDown k fileId => exact tearDown_inv inv ok.1 ok.2
  | drain k fileId => exact drain_inv inv ok.1 ok.2
  | run k =>
    obtain ⟨awaited,phase,settled⟩ := ok
    exact run_inv inv phase settled
  | finish k fileId => exact finish_inv inv ok
  | settleInvalidation k => exact settleInvalidation_inv inv ok

theorem reached_inv (reach : Reached s) : Inv s :=
  reachable_invariant initial_inv (fun s l inv ok => step_inv s l inv ok) reach

theorem lock_shape (s : State) (key : String) : ∃ lock, step s (.lock key) = { s with sessionLocks := lock } := by
  by_cases fenced : s.Fenced key
  · exact ⟨s.sessionLocks,by simp [step,fenced]⟩
  · exact ⟨s.sessionLocks.join key,by simp [step,fenced]⟩

theorem enter_shape (s : State) (i : Nat) (key : String) :
    ∃ lock, step s (.enter i key) = { s with sessionLocks := lock } := by
  by_cases fenced : s.Fenced key
  · exact ⟨(s.sessionLocks.enter i).leave i key,by simp [step,fenced]⟩
  · exact ⟨s.sessionLocks.enter i,by simp [step,fenced]⟩

theorem cleanupBuild_shape (s : State) (id : Nat) :
    s.cleanupBuild id = s ∨
      ∃ b, s.builds[id]? = some b ∧ s.buildSessions.get b.fileId = some id ∧
        s.cleanupBuild id = { s with buildSessions := s.buildSessions.delete b.fileId } := by
  unfold State.cleanupBuild
  cases at_id : s.builds[id]? with
  | none => exact .inl rfl
  | some b =>
    by_cases held : s.buildSessions.get b.fileId = some id
    · exact .inr ⟨b,rfl,held,by simp [held]⟩
    · exact .inl (by simp [held])

theorem cleanup_finished (reach : Reached s) : ∀ id, .cleanup id ∈ s.immediates → s.Finished id := by
  refine @reachable_invariant _ _ step Allowed initial (fun s => ∀ id, .cleanup id ∈ s.immediates → s.Finished id)
    ?_ ?_ s reach
  · simp [initial]
  · intro s l held ok id member
    cases l with
    | lock key =>
      obtain ⟨lock,shape⟩ := lock_shape s key
      rw [shape] at member ⊢
      exact held id member
    | enter i key =>
      obtain ⟨lock,shape⟩ := enter_shape s i key
      rw [shape] at member ⊢
      exact held id member
    | registerBuild fileId =>
      obtain ⟨b,at_id,past⟩ := held id member
      have known := at_lt at_id
      exact ⟨b,by simp [step,List.getElem?_append_left known,at_id],past⟩
    | finishBuild id' =>
      simp only [step,List.mem_append,List.mem_singleton,Immediate.cleanup.injEq] at member
      by_cases here : id' = id
      · subst here
        obtain ⟨b,at_id,_⟩ := ok
        exact ⟨{ b with finished := true },by simp [step,at_id],rfl⟩
      · obtain ⟨b,at_id,past⟩ := held id (member.resolve_right fun same => here same.symm)
        exact ⟨b,by simp [step,at_id,here],past⟩
    | immediate =>
      simp only [step] at member ⊢
      cases next : s.immediates with
      | nil => simp [next] at member
      | cons turn rest =>
        rw [next] at member
        cases turn with
        | cleanup other =>
          rcases cleanupBuild_shape { s with immediates := rest } other with same | ⟨_,_,_,same⟩
          · simp only [same] at member ⊢
            exact held id (by rw [next]; exact List.mem_cons_of_mem _ member)
          · simp only [same] at member ⊢
            exact held id (by rw [next]; exact List.mem_cons_of_mem _ member)
        | resume k => exact held id (by rw [next]; exact List.mem_cons_of_mem _ member)
    | waited k timedOut =>
      simp only [step,List.mem_append,List.mem_singleton,reduceCtorEq,or_false] at member
      exact held id member
    | _ => exact held id member

/-! ### What stays of an invalidation -/

def State.Begun (s : State) (k : Nat) : Prop := (s.progress k).phase ≠ .queued ∧ (s.progress k).phase ≠ .waiting

theorem setPhase_begun {s : State} {j k : Nat} {phase : Phase} (later : phase ≠ .queued ∧ phase ≠ .waiting)
    (begun : s.Begun k) :
    (s.setPhase j phase).Begun k ∧ ((s.setPhase j phase).progress k).timedOut = (s.progress k).timedOut := by
  by_cases here : k = j
  · subst here
    simpa [State.Begun,State.setPhase] using later
  · simpa [State.Begun,State.setPhase,here] using begun

theorem step_begun (inv : Inv s) {l : Label} (ok : Allowed s l) (begun : s.Begun k) :
    (step s l).Begun k ∧ ((step s l).progress k).timedOut = (s.progress k).timedOut := by
  cases l with
  | lock key =>
    obtain ⟨lock,shape⟩ := lock_shape s key
    rw [shape]
    exact ⟨begun,rfl⟩
  | enter i key =>
    obtain ⟨lock,shape⟩ := enter_shape s i key
    rw [shape]
    exact ⟨begun,rfl⟩
  | immediate =>
    simp only [step]
    cases next : s.immediates with
    | nil => exact ⟨begun,rfl⟩
    | cons turn rest =>
      cases turn with
      | cleanup id =>
        rcases cleanupBuild_shape { s with immediates := rest } id with same | ⟨_,_,_,same⟩
        · simp only [same]
          exact ⟨begun,trivial⟩
        · simp only [same]
          exact ⟨begun,trivial⟩
      | resume j => exact @setPhase_begun { s with immediates := rest } j k .tearing (by simp) begun
  | fence j fileId =>
    have queued : (s.progress j).phase = .queued := by
      apply inv.idle
      intro other stage here
      exact (at_unique here ok.2).2
    have here : k ≠ j := by
      rintro rfl
      exact begun.1 queued
    simpa [State.Begun,step,here] using begun
  | waited j timedOut =>
    have here : k ≠ j := by
      rintro rfl
      exact begun.2 ok.1
    simpa [State.Begun,step,here] using begun
  | tearDown j fileId =>
    exact @setPhase_begun { s with spoolSessions := s.spoolSessions.delete fileId } j k .tornDown (by simp) begun
  | drain j fileId | run j => exact setPhase_begun (by simp) begun
  | _ => exact ⟨begun,rfl⟩

theorem step_owner {l : Label} (ok : Allowed s l)
    (owner : ∃ stage, s.fileInvalidationLocks.At k fileId stage) :
    ∃ stage, (step s l).fileInvalidationLocks.At k fileId stage := by
  obtain ⟨stage,here⟩ := owner
  have moved : ∀ {j : Nat} {other : String} {old new : Stage} (tails : OrderedMap String Nat),
      s.fileInvalidationLocks.At j other old →
      ∃ stage, Lock.At { calls := s.fileInvalidationLocks.calls.modify j (fun c => { c with stage := new })
                         tails := tails } k fileId stage := by
    rintro j other old new tails ⟨c,at_j,rfl,rfl⟩
    by_cases same : k = j
    · subst same
      obtain ⟨rfl,_⟩ := at_unique here ⟨c,at_j,rfl,rfl⟩
      exact ⟨new,(at_modify at_j tails).mpr (.inl ⟨rfl,rfl,rfl⟩)⟩
    · exact ⟨stage,(at_modify at_j tails).mpr (.inr ⟨same,here⟩)⟩
  cases l with
  | lock key =>
    obtain ⟨lock,shape⟩ := lock_shape s key
    rw [shape]
    exact ⟨stage,here⟩
  | enter i key =>
    obtain ⟨lock,shape⟩ := enter_shape s i key
    rw [shape]
    exact ⟨stage,here⟩
  | immediate =>
    simp only [step]
    cases next : s.immediates with
    | nil => exact ⟨stage,here⟩
    | cons turn rest =>
      cases turn with
      | cleanup id =>
        rcases cleanupBuild_shape { s with immediates := rest } id with same | ⟨_,_,_,same⟩
        · simp only [same]
          exact ⟨stage,here⟩
        · simp only [same]
          exact ⟨stage,here⟩
      | resume j => exact ⟨stage,here⟩
  | invalidate other => exact ⟨stage,at_join.mpr (.inl here)⟩
  | fence j other => exact moved _ ok.2
  | finish j other => exact moved _ ok
  | settleInvalidation j => exact ⟨stage,at_settle.mpr here⟩
  | _ => exact ⟨stage,here⟩

theorem run_begun {s' : State} (reach : Reached s) (run : Reachable step Allowed s s')
    (begun : s.Begun k) (owner : ∃ stage, s.fileInvalidationLocks.At k fileId stage) :
    s'.Begun k ∧ (s'.progress k).timedOut = (s.progress k).timedOut ∧
      ∃ stage, s'.fileInvalidationLocks.At k fileId stage := by
  induction run with
  | start => exact ⟨begun,rfl,owner⟩
  | next l run ok ih =>
    obtain ⟨begun',ending,owner'⟩ := ih
    obtain ⟨begun'',ending'⟩ := step_begun (reached_inv (reachable_trans reach run)) ok begun'
    exact ⟨begun'',ending'.trans ending,step_owner ok owner'⟩

/-- The last part of `withFileInvalidation` runs for the file. -/
def State.Runs (s : State) (k : Nat) (fileId : String) : Prop :=
  s.fileInvalidationLocks.At k fileId .inside ∧ (s.progress k).phase = .running

def State.AllReturned (s : State) : Prop :=
  (∀ c ∈ s.sessionLocks.calls, c.stage = .left) ∧ ∀ c ∈ s.fileInvalidationLocks.calls, c.stage = .left

/-- No body of the file's locks runs and no session of it is registered, but the build whose wait the
timer has ended. -/
structure Shut (s : State) (k : Nat) (fileId : String) : Prop where
  noBody : ∀ i key, s.sessionLocks.At i key .inside → fileIdForSessionLockKey key ≠ some fileId
  noSpool : s.spoolSessions.get fileId = none
  noBuild : ∀ id, s.buildSessions.get fileId = some id →
    (s.progress k).timedOut = true ∧ (s.progress k).aborted = some id

theorem runs_shut (inv : Inv s) (runs : s.Runs k fileId)
    (named : fileId ≠ "") : Shut s k fileId := by
  obtain ⟨inside,phase⟩ := runs
  have stands := inv.stands k fileId inside
  constructor
  · intro i key running mine
    have left := stands.quiet named phase i key .inside running mine
    cases left
  · exact stands.torn (by simp [phase,Phase.Torn])
  · intro id registered
    refine ⟨?_,stands.found id registered⟩
    by_contra inTime
    have absent := stands.gone (by simpa using inTime) (by simp [phase,Phase.Waited])
    rw [absent] at registered
    cases registered

theorem allReturned_empty (inv : Inv s) (past : s.AllReturned) :
    s.sessionLocks.tails = .empty ∧ s.fileInvalidationLocks.tails = .empty ∧ s.invalidatingFileIds = [] := by
  refine ⟨tails_empty inv.sessions past.1,tails_empty inv.invalidations past.2,?_⟩
  apply List.eq_nil_iff_forall_not_mem.mpr
  intro fileId member
  obtain ⟨k,c,at_k,_,inside⟩ := (inv.fenced fileId).mp member
  have left := past.2 c (List.mem_of_getElem? at_k)
  rw [inside] at left
  cases left

/-- The bodies of a key run one at a time in call order, an invalidation runs its last part with the
file shut, and nothing is kept when no call is under way. -/
theorem locks_exclude_and_fence_shuts {s : State} (reach : Reached s) :
    (InCallOrder s.sessionLocks ∧ ∀ i j key, s.sessionLocks.At i key .inside → s.sessionLocks.At j key .inside → i = j) ∧
    (∀ k fileId, s.Runs k fileId → fileId ≠ "" → Shut s k fileId) ∧
    (∀ j k fileId, s.fileInvalidationLocks.At j fileId .inside → s.fileInvalidationLocks.At k fileId .inside → j = k) ∧
    (s.AllReturned → s.sessionLocks.tails = .empty ∧ s.fileInvalidationLocks.tails = .empty ∧
      s.invalidatingFileIds = []) := by
  have inv := reached_inv reach
  have sessions := sound_inCallOrder inv.sessions
  have invalidations := sound_inCallOrder inv.invalidations
  refine ⟨⟨sessions,fun i j key one other => inside_unique sessions one other⟩,?_,?_,allReturned_empty inv⟩
  · intro k fileId runs named
    exact runs_shut inv runs named
  · intro j k fileId one other
    exact inside_unique invalidations one other

def outlived : List Label :=
  [.lock "file:a",.enter 0 "file:a",.registerBuild "a",.leave 0 "file:a",.settleSession 0,.invalidate "a",.fence 0 "a",
    .waited 0 true,.immediate,.tearDown 0 "a",.drain 0 "a",.run 0]

theorem outlived_shut : (outlived.foldl step initial).Runs 0 "a" ∧ Shut (outlived.foldl step initial) 0 "a" := by
  have legal : Legal step Allowed initial outlived := by decide +kernel
  have runs : (outlived.foldl step initial).Runs 0 "a" := ⟨by decide +kernel,by decide +kernel⟩
  exact ⟨runs,(locks_exclude_and_fence_shuts (reachable_run .start outlived legal)).2.1 0 "a" runs (by decide)⟩

/-- The invalidation runs its last part while that session is still registered. -/
theorem outlived_registered :
    Legal step Allowed initial outlived ∧ (outlived.foldl step initial).Runs 0 "a" ∧
      (outlived.foldl step initial).buildSessions.get "a" = some 0 :=
  ⟨by decide +kernel,⟨by decide +kernel,by decide +kernel⟩,by decide +kernel⟩

end Tgtc.SessionLocks
