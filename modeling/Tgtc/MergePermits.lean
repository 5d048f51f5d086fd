import Tgtc.Permits
import Tgtc.Runs
import Tgtc.UploadSessions

/-!
Merges under permits. A merge of an upload waits for one of three permits of the service and then for the one permit
of its user, merges, and gives both back whatever became of it.
-/
namespace Tgtc.MergePermits
open Maps Runs Permits UploadSessions

/-- Where a run of `runMergeWithSemaphore` stands. -/
inductive Stage where
  | awaitingGlobal | awaitingUser | merging | ended
deriving DecidableEq

structure Run where
  uploadId : String
  userId : String
  userSem : Nat
  stage : Stage
  /-- what the run has of the semaphore of the service and of `userSem` -/
  globalPermit : Permit
  userPermit : Permit

structure Merges where
  sessions : OrderedMap String ChunkSession
  mergeSemaphoreGlobal : Semaphore
  userSemaphores : List Semaphore
  mergeSemaphorePerUser : OrderedMap String Nat
  mergeSemaphoreRefs : OrderedMap String Nat
  mergeSemaphoreRecycled : Nat
  runs : List Run

def initial : Merges := ⟨.empty,.fresh 3,[],.empty,.empty,0,[]⟩

inductive Outcome where
  | finished (result : MergeResult) | failed (message : String) | timedOut | cancelled

def getUserMergeSemaphore (s : Merges) (userId : String) : Merges × Nat :=
  let refs := s.mergeSemaphoreRefs.set userId ((s.mergeSemaphoreRefs.get userId).getD 0 + 1)
  match s.mergeSemaphorePerUser.get userId with
  | some sem => ({ s with mergeSemaphoreRefs := refs },sem)
  | none =>
    let sem := s.userSemaphores.length
    ({ s with
        userSemaphores := s.userSemaphores ++ [.fresh 1]
        mergeSemaphorePerUser := s.mergeSemaphorePerUser.set userId sem
        mergeSemaphoreRefs := refs },sem)

def idleObject (s : Merges) (sem : Nat) : Bool := (s.userSemaphores[sem]?).all (fun object => !object.busy)

/-- One run fewer counts on the semaphore of the user, and after the last it leaves the map if it is idle. -/
def releaseUserMergeSemaphore (s : Merges) (userId : String) : Merges :=
  let remaining := (s.mergeSemaphoreRefs.get userId).getD 1 - 1
  if remaining > 0 then { s with mergeSemaphoreRefs := s.mergeSemaphoreRefs.set userId remaining }
  else
    let dropped := { s with mergeSemaphoreRefs := s.mergeSemaphoreRefs.delete userId }
    match s.mergeSemaphorePerUser.get userId with
    | some sem =>
      if idleObject s sem then
        { dropped with
          mergeSemaphorePerUser := s.mergeSemaphorePerUser.delete userId
          mergeSemaphoreRecycled := s.mergeSemaphoreRecycled + 1 }
      else dropped
    | none => dropped

def withGlobal (p : Permit) (r : Run) : Run := { r with globalPermit := p }
def withUser (p : Permit) (r : Run) : Run := { r with userPermit := p }
def withStage (stage : Stage) (r : Run) : Run := { r with stage := stage }

def wake (f : Run → Run) (runs : List Run) : Option Nat → List Run
  | some next => runs.modify next f
  | none => runs

def acquireGlobal (s : Merges) (i : Nat) : Merges :=
  let taken := s.mergeSemaphoreGlobal.acquire i
  { s with mergeSemaphoreGlobal := taken.1, runs := s.runs.modify i (withGlobal taken.2) }

def releaseGlobal (s : Merges) (i : Nat) : Merges :=
  let given := s.mergeSemaphoreGlobal.release
  { s with
    mergeSemaphoreGlobal := given.1
    runs := wake (withGlobal .held) (s.runs.modify i (withGlobal .none)) given.2 }

def acquireUser (s : Merges) (i : Nat) (object : Nat) : Merges :=
  match s.userSemaphores[object]? with
  | some sem =>
    let taken := sem.acquire i
    { s with
      userSemaphores := s.userSemaphores.set object taken.1
      runs := s.runs.modify i (withUser taken.2) }
  | none => s

def releaseUser (s : Merges) (i : Nat) (object : Nat) : Merges :=
  match s.userSemaphores[object]? with
  | some sem =>
    let given := sem.release
    { s with
      userSemaphores := s.userSemaphores.set object given.1
      runs := wake (withUser .held) (s.runs.modify i (withUser .none)) given.2 }
  | none => s

/-- The session as the caller of `triggerMerge` leaves it. -/
def startMerging (session : ChunkSession) : ChunkSession := { session with mergeStatus := .merging }

/-- A run up to its first `await`. -/
def runMergeWithSemaphore (s : Merges) (uploadId userId : String) : Merges :=
  let got := getUserMergeSemaphore s userId
  let i := s.runs.length
  acquireGlobal { got.1 with runs := s.runs ++ [⟨uploadId,userId,got.2,.awaitingGlobal,.none,.none⟩] } i

def triggerMerge (s : Merges) (uploadId userId : String) : Except HttpError Merges :=
  match getSession s.sessions uploadId userId with
  | .error e => .error e
  | .ok session =>
    if session.mergeStatus = .merging ∨ session.mergeStatus = .uploading then .ok s
    else if session.mergeStatus = .done ∨ session.mergeStatus = .error then .ok s
    else
      .ok (runMergeWithSemaphore { s with sessions := s.sessions.set uploadId (startMerging session) } uploadId
        session.uploadedBy)

def concluded (session : ChunkSession) : Outcome → ChunkSession
  | .finished result => { session with mergeResult := some result, mergeStatus := .done }
  | .failed message => { session with mergeStatus := .error, mergeError := some message }
  | .timedOut => { session with mergeStatus := .error, mergeError := some "分片合并超时（1800000ms）" }
  | .cancelled => session

def conclude (s : Merges) (uploadId : String) (outcome : Outcome) : Merges :=
  match s.sessions.get uploadId with
  | some session => { s with sessions := s.sessions.set uploadId (concluded session outcome) }
  | none => s

def endRun (s : Merges) (i : Nat) (r : Run) (outcome : Outcome) : Merges :=
  let closed := releaseGlobal (releaseUser (conclude s r.uploadId outcome) i r.userSem) i
  releaseUserMergeSemaphore { closed with runs := closed.runs.modify i (withStage .ended) } r.userId

inductive Label where
  | session (uploadId : String) (value : Option ChunkSession)
  | triggerMerge (uploadId userId : String)
  | resume (i : Nat)
  | settle (i : Nat) (outcome : Outcome)

def resumeRun (s : Merges) (i : Nat) (r : Run) : Merges :=
  match r.stage with
  | .awaitingGlobal => acquireUser { s with runs := s.runs.modify i (withStage .awaitingUser) } i r.userSem
  | .awaitingUser => { s with runs := s.runs.modify i (withStage .merging) }
  | .merging => s
  | .ended => s

def step (s : Merges) : Label → Merges
  | .session uploadId (some value) => { s with sessions := s.sessions.set uploadId value }
  | .session uploadId none => { s with sessions := s.sessions.delete uploadId }
  | .triggerMerge uploadId userId =>
    match triggerMerge s uploadId userId with
    | .ok s' => s'
    | .error _ => s
  | .resume i => match s.runs[i]? with
    | some r => resumeRun s i r
    | none => s
  | .settle i outcome => match s.runs[i]? with
    | some r => endRun s i r outcome
    | none => s

def Granted (r : Run) : Prop :=
  r.stage = .awaitingGlobal ∧ r.globalPermit = .held ∨ r.stage = .awaitingUser ∧ r.userPermit = .held

instance (r : Run) : Decidable (Granted r) := inferInstanceAs (Decidable (_ ∨ _))

def Allowed (s : Merges) : Label → Prop
  | .session _ _ => True
  | .triggerMerge _ _ => True
  | .resume i => ∃ r ∈ s.runs[i]?, Granted r
  | .settle i _ => ∃ r ∈ s.runs[i]?, r.stage = .merging

instance (s : Merges) (l : Label) : Decidable (Allowed s l) := by
  cases l <;> unfold Allowed <;> infer_instance

/-! ### The books -/

def ofObject (object : Nat) (r : Run) : Permit := if r.userSem = object then r.userPermit else .none

structure Books (s : Merges) : Prop where
  globalMax : s.mergeSemaphoreGlobal.max = 3
  global : Balanced s.mergeSemaphoreGlobal (s.runs.map (·.globalPermit))
  userMax : ∀ (object : Nat) (sem : Semaphore), s.userSemaphores[object]? = some sem → sem.max = 1
  user : ∀ (object : Nat) (sem : Semaphore), s.userSemaphores[object]? = some sem →
    Balanced sem (s.runs.map (ofObject object))

def StageOk (r : Run) : Prop :=
  match r.stage with
  | .awaitingGlobal => r.globalPermit ≠ .none ∧ r.userPermit = .none
  | .awaitingUser => r.globalPermit = .held ∧ r.userPermit ≠ .none
  | .merging => r.globalPermit = .held ∧ r.userPermit = .held
  | .ended => r.globalPermit = .none ∧ r.userPermit = .none

/-- The books while the run `r` at place `i` is at work. -/
structure Working (s : Merges) (i : Nat) (r : Run) : Prop where
  books : Books s
  found : s.runs[i]? = some r
  others : ∀ j r', s.runs[j]? = some r' → j ≠ i → StageOk r'

theorem stageOk_withGlobal {r : Run} (ok : StageOk r) (parked : r.globalPermit = .parked) :
    StageOk (withGlobal .held r) := by
  obtain ⟨_,_,_,stage,_,_⟩ := r
  cases stage <;> simp_all [StageOk,withGlobal]

theorem stageOk_withUser {r : Run} (ok : StageOk r) (parked : r.userPermit = .parked) :
    StageOk (withUser .held r) := by
  obtain ⟨_,_,_,stage,_,_⟩ := r
  cases stage <;> simp_all [StageOk,withUser]

section
variable {runs : List Run} {i : Nat} {r : Run}

theorem map_modify {Value : Type} (g : Run → Value) (f : Run → Run) (found : runs[i]? = some r) :
    (runs.modify i f).map g = (runs.map g).set i (g (f r)) := by
  apply List.ext_getElem?
  intro j
  obtain ⟨bound,value⟩ := List.getElem?_eq_some_iff.mp found
  by_cases same : i = j
  · subst same
    simp [bound,value]
  · simp [same]

theorem map_modify_same {Value : Type} (g : Run → Value) (f : Run → Run)
    (same : ∀ r, runs[i]? = some r → g (f r) = g r) : (runs.modify i f).map g = runs.map g := by
  apply List.ext_getElem?
  intro j
  rw [List.getElem?_map,List.getElem?_modify,List.getElem?_map]
  by_cases here : i = j
  · subst here
    cases known : runs[i]? with
    | none => simp
    | some r => simp [same r known]
  · simp [here]

/-! What the runs have of one semaphore is untouched by what happens at another, and by their stages. -/

@[simp] theorem global_withUser (runs : List Run) (i : Nat) (p : Permit) :
    (runs.modify i (withUser p)).map (·.globalPermit) = runs.map (·.globalPermit) :=
  map_modify_same _ _ fun _ _ => rfl

@[simp] theorem object_withGlobal (object : Nat) (runs : List Run) (i : Nat) (p : Permit) :
    (runs.modify i (withGlobal p)).map (ofObject object) = runs.map (ofObject object) :=
  map_modify_same _ _ fun _ _ => rfl

@[simp] theorem global_withStage (runs : List Run) (i : Nat) (stage : Stage) :
    (runs.modify i (withStage stage)).map (·.globalPermit) = runs.map (·.globalPermit) :=
  map_modify_same _ _ fun _ _ => rfl

@[simp] theorem object_withStage (object : Nat) (runs : List Run) (i : Nat) (stage : Stage) :
    (runs.modify i (withStage stage)).map (ofObject object) = runs.map (ofObject object) :=
  map_modify_same _ _ fun _ _ => rfl

@[simp] theorem global_wake_user (runs : List Run) (next : Option Nat) :
    (wake (withUser .held) runs next).map (·.globalPermit) = runs.map (·.globalPermit) := by
  cases next with
  | none => rfl
  | some n => exact global_withUser runs n .held

@[simp] theorem object_wake_global (object : Nat) (runs : List Run) (next : Option Nat) :
    (wake (withGlobal .held) runs next).map (ofObject object) = runs.map (ofObject object) := by
  cases next with
  | none => rfl
  | some n => exact object_withGlobal object runs n .held

theorem get_modify (f : Run → Run) (found : runs[i]? = some r) : (runs.modify i f)[i]? = some (f r) := by
  simp [found]

theorem get_wake (f : Run → Run) {next : Option Nat} (other : next ≠ some i) : (wake f runs next)[i]? = runs[i]? := by
  cases next with
  | none => rfl
  | some n => exact List.getElem?_modify_ne _ _ fun same => other (by rw [same])

theorem get_wake_found {f : Run → Run} {next : Option Nat} {j : Nat} {r' : Run} (found : (wake f runs next)[j]? = some r') :
    runs[j]? = some r' ∨ next = some j ∧ ∃ before, runs[j]? = some before ∧ r' = f before := by
  cases next with
  | none => exact .inl found
  | some n =>
    rw [wake,List.getElem?_modify] at found
    by_cases here : n = j
    · subst here
      cases known : runs[n]? with
      | none => simp [known] at found
      | some before =>
        rw [known] at found
        exact .inr ⟨rfl,before,rfl,by simpa using found.symm⟩
    · simp only [here] at found
      exact .inl (by simpa using found)

end

section
variable {s : Merges} {i : Nat} {r : Run}

section
variable (working : Working s i r)
include working

theorem others_modify (f : Run → Run) : ∀ j r', (s.runs.modify i f)[j]? = some r' → j ≠ i → StageOk r' := by
  intro j r' at_j other
  rw [List.getElem?_modify_ne _ _ other.symm] at at_j
  exact working.others j r' at_j other

theorem working_stage (stage : Stage) : Working { s with runs := s.runs.modify i (withStage stage) } i (withStage stage r) := by
  have books := working.books
  have found := working.found
  refine ⟨⟨books.globalMax,?_,books.userMax,fun object sem known => ?_⟩,get_modify _ found,others_modify working _⟩
  · rw [global_withStage]
    exact books.global
  · rw [object_withStage]
    exact books.user object sem known

theorem working_acquireGlobal (absent : r.globalPermit = .none) :
    Working (acquireGlobal s i) i (withGlobal (s.mergeSemaphoreGlobal.acquire i).2 r) := by
  have books := working.books
  have found := working.found
  refine ⟨⟨(acquire_max _ _).trans books.globalMax,?_,books.userMax,fun object sem known => ?_⟩,get_modify _ found,
    others_modify working _⟩
  · show Balanced _ ((s.runs.modify i _).map _)
    rw [map_modify _ _ found]
    exact balanced_acquire books.global (by rw [List.getElem?_map,found,Option.map_some,absent])
  · show Balanced sem ((s.runs.modify i _).map _)
    rw [object_withGlobal]
    exact books.user object sem known

theorem working_acquireUser {sem : Semaphore} (known : s.userSemaphores[r.userSem]? = some sem) (absent : r.userPermit = .none) :
    Working (acquireUser s i r.userSem) i (withUser (sem.acquire i).2 r) := by
  have after : acquireUser s i r.userSem = { s with
      userSemaphores := s.userSemaphores.set r.userSem (sem.acquire i).1
      runs := s.runs.modify i (withUser (sem.acquire i).2) } := by simp [acquireUser,known]
  have books := working.books
  have found := working.found
  rw [after]
  refine ⟨⟨books.globalMax,?_,fun object sem' known' => ?_,fun object sem' known' => ?_⟩,get_modify _ found,
    others_modify working _⟩
  · rw [global_withUser]
    exact books.global
  · rw [List.getElem?_set] at known'
    split_ifs at known' with same
    · cases known'
      exact (acquire_max _ _).trans (books.userMax _ sem known)
    · exact books.userMax object sem' known'
  · rw [List.getElem?_set] at known'
    split_ifs at known' with same
    · subst same
      cases known'
      rw [map_modify _ _ found]
      have permit : ofObject r.userSem (withUser (sem.acquire i).2 r) = (sem.acquire i).2 := by
        simp [ofObject,withUser]
      rw [permit]
      exact balanced_acquire (books.user _ sem known) (by simp [found,ofObject,absent])
    · rw [map_modify_same _ _ fun r' at_i => ?_]
      · exact books.user object sem' known'
      · rw [found] at at_i
        cases at_i
        simp [ofObject,withUser,same]

theorem others_wake (let_go turned : Run → Run) (next : Option Nat)
    (woken : ∀ n before, next = some n → s.runs[n]? = some before → StageOk before → StageOk (turned before)) :
    ∀ j r', (wake turned (s.runs.modify i let_go) next)[j]? = some r' → j ≠ i → StageOk r' := by
  intro j r' at_j other
  rcases get_wake_found at_j with same | ⟨named,before,same,rfl⟩
  · exact others_modify working _ j r' same other
  · rw [List.getElem?_modify_ne _ _ other.symm] at same
    exact woken j before named same (working.others j before same other)

theorem working_releaseGlobal (holds : r.globalPermit = .held) : Working (releaseGlobal s i) i (withGlobal .none r) := by
  have books := working.books
  have found := working.found
  have mine : (s.runs.map (·.globalPermit))[i]? = some .held := by rw [List.getElem?_map,found,Option.map_some,holds]
  have other : s.mergeSemaphoreGlobal.release.2 ≠ some i := by
    intro named
    rw [release_parked books.global named] at mine
    cases mine
  refine ⟨⟨(release_max _).trans books.globalMax,?_,books.userMax,fun object sem known => ?_⟩,?_,?_⟩
  · have balanced := balanced_release books.global mine
    show Balanced _ ((wake _ (s.runs.modify i _) _).map _)
    cases named : s.mergeSemaphoreGlobal.release.2 with
    | none =>
      rw [named] at balanced
      rw [wake,map_modify _ _ found]
      exact balanced
    | some n =>
      rw [named] at balanced
      have parked := release_parked books.global named
      rw [List.getElem?_map] at parked
      obtain ⟨before,at_n,_⟩ := Option.map_eq_some_iff.mp parked
      have still : (s.runs.modify i (withGlobal .none))[n]? = some before := by
        rw [List.getElem?_modify_ne _ _ fun same => other (by rw [named,same]),at_n]
      rw [wake,map_modify _ _ still,map_modify _ _ found]
      exact balanced
  · show Balanced sem ((wake _ (s.runs.modify i _) _).map _)
    rw [object_wake_global,object_withGlobal]
    exact books.user object sem known
  · show (wake _ (s.runs.modify i _) _)[i]? = _
    rw [get_wake _ other]
    exact get_modify _ found
  · refine others_wake working _ _ _ fun n before named at_n ok => stageOk_withGlobal ok ?_
    have parked := release_parked books.global named
    rw [List.getElem?_map,at_n] at parked
    simpa using parked

theorem working_releaseUser {sem : Semaphore} (known : s.userSemaphores[r.userSem]? = some sem)
    (holds : r.userPermit = .held) : Working (releaseUser s i r.userSem) i (withUser .none r) := by
  have after : releaseUser s i r.userSem = { s with
      userSemaphores := s.userSemaphores.set r.userSem sem.release.1
      runs := wake (withUser .held) (s.runs.modify i (withUser .none)) sem.release.2 } := by simp [releaseUser,known]
  have books := working.books
  have found := working.found
  have mine : (s.runs.map (ofObject r.userSem))[i]? = some .held := by simp [found,ofObject,holds]
  have other : sem.release.2 ≠ some i := by
    intro named
    rw [release_parked (books.user _ sem known) named] at mine
    cases mine
  have parked : ∀ n, sem.release.2 = some n →
      ∃ before, s.runs[n]? = some before ∧ before.userSem = r.userSem ∧ before.userPermit = .parked := by
    intro n named
    have parked := release_parked (books.user _ sem known) named
    rw [List.getElem?_map] at parked
    obtain ⟨before,at_n,permit⟩ := Option.map_eq_some_iff.mp parked
    unfold ofObject at permit
    split_ifs at permit with same
    exact ⟨before,at_n,same,permit⟩
  rw [after]
  refine ⟨⟨books.globalMax,?_,fun object sem' known' => ?_,fun object sem' known' => ?_⟩,?_,?_⟩
  · rw [global_wake_user,global_withUser]
    exact books.global
  · rw [List.getElem?_set] at known'
    split_ifs at known' with same
    · cases known'
      exact (release_max _).trans (books.userMax _ sem known)
    · exact books.userMax object sem' known'
  · rw [List.getElem?_set] at known'
    split_ifs at known' with same
    · subst same
      cases known'
      have balanced := balanced_release (books.user _ sem known) mine
      cases named : sem.release.2 with
      | none =>
        rw [named] at balanced
        rw [wake,map_modify _ _ found]
        simpa [ofObject,withUser,handed] using balanced
      | some n =>
        rw [named] at balanced
        obtain ⟨before,at_n,same,_⟩ := parked n named
        have still : (s.runs.modify i (withUser .none))[n]? = some before := by
          rw [List.getElem?_modify_ne _ _ fun same => other (by rw [named,same]),at_n]
        rw [wake,map_modify _ _ still,map_modify _ _ found]
        simpa [ofObject,withUser,handed,same] using balanced
    · have mine_same : (s.runs.modify i (withUser .none)).map (ofObject object) = s.runs.map (ofObject object) := by
        apply map_modify_same
        intro r' at_i
        rw [found] at at_i
        cases at_i
        simp [ofObject,withUser,same]
      cases named : sem.release.2 with
      | none =>
        rw [wake,mine_same]
        exact books.user object sem' known'
      | some n =>
        obtain ⟨before,at_n,of_object,_⟩ := parked n named
        rw [wake,map_modify_same _ _ fun r' at_n' => ?_,mine_same]
        · exact books.user object sem' known'
        · rw [List.getElem?_modify_ne _ _ fun same => other (by rw [named,same]),at_n] at at_n'
          cases at_n'
          simp [ofObject,withUser,of_object,same]
  · rw [get_wake _ other]
    exact get_modify _ found
  · refine others_wake working _ _ _ fun n before named at_n ok => stageOk_withUser ok ?_
    obtain ⟨before',at_n',_,permit⟩ := parked n named
    rw [at_n] at at_n'
    cases at_n'
    exact permit

end

end
/-! ### The map of user semaphores -/

structure Client where
  userId : String
  userSem : Nat
  live : Bool

def client (r : Run) : Client := ⟨r.userId,r.userSem,r.stage ≠ .ended⟩

def liveOf (userId : String) (c : Client) : Bool := c.live && c.userId = userId

structure Registry (clients : List Client) (perUser refs : OrderedMap String Nat) (objects : Nat) : Prop where
  registered : ∀ c ∈ clients, c.live = true → perUser.get c.userId = some c.userSem
  mapped : ∀ userId object, perUser.get userId = some object → object < objects
  apart : ∀ userId userId' object, perUser.get userId = some object → perUser.get userId' = some object → userId = userId'
  made : ∀ c ∈ clients, c.userSem < objects
  counted : ∀ userId, (refs.get userId).getD 0 = clients.countP (liveOf userId)

section
variable {clients : List Client} {s : Merges} {i : Nat} {userId : String}

theorem registry_get (userId : String)
    (registry : Registry clients s.mergeSemaphorePerUser s.mergeSemaphoreRefs s.userSemaphores.length) :
    Registry (clients ++ [⟨userId,(getUserMergeSemaphore s userId).2,true⟩])
      (getUserMergeSemaphore s userId).1.mergeSemaphorePerUser (getUserMergeSemaphore s userId).1.mergeSemaphoreRefs
      (getUserMergeSemaphore s userId).1.userSemaphores.length := by
  have counted : ∀ (other : String) (object : Nat), ((s.mergeSemaphoreRefs.set userId
      ((s.mergeSemaphoreRefs.get userId).getD 0 + 1)).get other).getD 0 =
        (clients ++ [(⟨userId,object,true⟩ : Client)]).countP (liveOf other) := by
    intro other object
    have before := registry.counted other
    by_cases same : other = userId
    · subst same
      rw [get_set_same,before]
      simp [liveOf]
    · rw [get_set_other _ _ same,before]
      simp [liveOf,Ne.symm same]
  unfold getUserMergeSemaphore
  cases known : s.mergeSemaphorePerUser.get userId with
  | some object =>
    refine ⟨?_,registry.mapped,registry.apart,?_,fun other => counted other object⟩
    · intro c member live
      rcases List.mem_append.mp member with old | new
      · exact registry.registered c old live
      · cases List.mem_singleton.mp new
        exact known
    · intro c member
      rcases List.mem_append.mp member with old | new
      · exact registry.made c old
      · cases List.mem_singleton.mp new
        exact registry.mapped userId object known
  | none =>
    refine ⟨?_,?_,?_,?_,fun other => counted other _⟩
    · intro c member live
      rcases List.mem_append.mp member with old | new
      · have found := registry.registered c old live
        have other : c.userId ≠ userId := by
          rintro same
          rw [same,known] at found
          cases found
        exact (get_set_other _ _ other).trans found
      · cases List.mem_singleton.mp new
        exact get_set_same _ _ _
    · intro other object found
      simp only [List.length_append,List.length_singleton]
      by_cases same : other = userId
      · rw [same,get_set_same] at found
        cases found
        omega
      · rw [get_set_other _ _ same] at found
        have := registry.mapped other object found
        omega
    · intro first second object found found'
      by_cases same : first = userId
      · by_cases same' : second = userId
        · rw [same,same']
        · rw [same,get_set_same] at found
          rw [get_set_other _ _ same'] at found'
          have := registry.mapped second object found'
          cases found
          omega
      · rw [get_set_other _ _ same] at found
        by_cases same' : second = userId
        · rw [same',get_set_same] at found'
          have := registry.mapped first object found
          cases found'
          omega
        · rw [get_set_other _ _ same'] at found'
          exact registry.apart first second object found found'
    · intro c member
      simp only [List.length_append]
      rcases List.mem_append.mp member with old | new
      · have := registry.made c old
        omega
      · cases List.mem_singleton.mp new
        simp

theorem countP_ended {object : Nat} (found : clients[i]? = some ⟨userId,object,true⟩) (other : String) :
    (clients.set i ⟨userId,object,false⟩).countP (liveOf other) + (if other = userId then 1 else 0) =
      clients.countP (liveOf other) := by
  have fewer := countP_set_out (y := ⟨userId,object,false⟩) (liveOf other) found (by simp [liveOf])
  by_cases same : other = userId
  · subst same
    simpa [liveOf] using fewer
  · simpa [liveOf,same,Ne.symm same] using fewer

theorem registry_release {objects object : Nat}
    (registry : Registry clients s.mergeSemaphorePerUser s.mergeSemaphoreRefs objects)
    (found : clients[i]? = some ⟨userId,object,true⟩) :
    Registry (clients.set i ⟨userId,object,false⟩) (releaseUserMergeSemaphore s userId).mergeSemaphorePerUser
      (releaseUserMergeSemaphore s userId).mergeSemaphoreRefs objects := by
  have ended := countP_ended found
  have positive : 0 < clients.countP (liveOf userId) :=
    List.countP_pos_iff.mpr ⟨_,List.mem_of_getElem? found,by simp [liveOf]⟩
  have known := registry.counted userId
  have present : (s.mergeSemaphoreRefs.get userId).getD 1 = clients.countP (liveOf userId) := by
    cases refs : s.mergeSemaphoreRefs.get userId with
    | none =>
      rw [refs,Option.getD_none] at known
      omega
    | some n => rwa [refs] at known
  have still : ∀ c ∈ clients.set i ⟨userId,object,false⟩, c.live = true → c ∈ clients := by
    intro c member live
    rcases List.mem_or_eq_of_mem_set member with old | rfl
    · exact old
    · cases live
  have made : ∀ c ∈ clients.set i ⟨userId,object,false⟩, c.userSem < objects := by
    intro c member
    rcases List.mem_or_eq_of_mem_set member with old | rfl
    · exact registry.made c old
    · exact registry.made ⟨userId,object,true⟩ (List.mem_of_getElem? found)
  unfold releaseUserMergeSemaphore
  simp only [present]
  split_ifs with remaining
  · refine ⟨fun c member live => registry.registered c (still c member live) live,registry.mapped,registry.apart,made,?_⟩
    intro other
    have before := registry.counted other
    have after := ended other
    by_cases same : other = userId
    · rw [same,get_set_same,Option.getD_some]
      rw [same,if_pos rfl] at after
      omega
    · rw [get_set_other _ _ same]
      rw [if_neg same] at after
      omega
  · -- the run that ends is the last of its user
    have none_left : ∀ c ∈ clients.set i ⟨userId,object,false⟩, c.live = true → c.userId ≠ userId := by
      intro c member live same
      have more : 0 < (clients.set i ⟨userId,object,false⟩).countP (liveOf userId) :=
        List.countP_pos_iff.mpr ⟨c,member,by simp [liveOf,live,same]⟩
      have after := ended userId
      rw [if_pos rfl] at after
      omega
    have counted : ∀ other, ((s.mergeSemaphoreRefs.delete userId).get other).getD 0 =
        (clients.set i ⟨userId,object,false⟩).countP (liveOf other) := by
      intro other
      have before := registry.counted other
      have after := ended other
      by_cases same : other = userId
      · rw [same,get_delete_same,Option.getD_none]
        rw [same,if_pos rfl] at after
        omega
      · rw [get_delete_other _ same]
        rw [if_neg same] at after
        omega
    have kept : Registry (clients.set i ⟨userId,object,false⟩) s.mergeSemaphorePerUser
        (s.mergeSemaphoreRefs.delete userId) objects :=
      ⟨fun c member live => registry.registered c (still c member live) live,registry.mapped,registry.apart,made,counted⟩
    cases s.mergeSemaphorePerUser.get userId with
    | none => exact kept
    | some sem =>
      dsimp only
      split_ifs with idle
      · refine ⟨?_,?_,?_,made,counted⟩
        · intro c member live
          exact (get_delete_other _ (none_left c member live)).trans (kept.registered c member live)
        · intro other k at_other
          exact kept.mapped other k (get_of_delete at_other).2
        · intro first second k at_first at_second
          exact kept.apart first second k (get_of_delete at_first).2 (get_of_delete at_second).2
      · exact kept

end
/-! ### Every step keeps the books -/

structure Sound (s : Merges) : Prop where
  books : Books s
  stages : ∀ (j : Nat) (r : Run), s.runs[j]? = some r → StageOk r
  registry : Registry (s.runs.map client) s.mergeSemaphorePerUser s.mergeSemaphoreRefs s.userSemaphores.length

section
variable {s : Merges} {i : Nat} {r : Run}

theorem sound_initial : Sound initial := by
  refine ⟨⟨rfl,balanced_fresh 3 (by simp [initial]),?_,?_⟩,?_,⟨?_,?_,?_,?_,?_⟩⟩
  all_goals simp [initial,OrderedMap.get,OrderedMap.empty]

theorem sound_working (sound : Sound s) (found : s.runs[i]? = some r) : Working s i r :=
  ⟨sound.books,found,fun j r' at_j _ => sound.stages j r' at_j⟩

theorem working_stages (working : Working s i r) (ok : StageOk r) :
    ∀ (j : Nat) (r' : Run), s.runs[j]? = some r' → StageOk r' := by
  intro j r' at_j
  by_cases same : j = i
  · rw [same,working.found] at at_j
    cases at_j
    exact ok
  · exact working.others j r' at_j same

section
variable (f : Run → Run) (same : ∀ r, client (f r) = client r) (runs : List Run)
include f same runs

theorem clients_modify : (runs.modify i f).map client = runs.map client :=
  map_modify_same _ _ fun r _ => same r

theorem clients_wake (next : Option Nat) : (wake f runs next).map client = runs.map client := by
  cases next with
  | none => rfl
  | some n => exact clients_modify f same runs

end

theorem clients_found (found : s.runs[i]? = some r) : (s.runs.map client)[i]? = some (client r) := by
  rw [List.getElem?_map,found,Option.map_some]

section
variable (sound : Sound s)
include sound

theorem live_object (found : s.runs[i]? = some r) : ∃ sem, s.userSemaphores[r.userSem]? = some sem :=
  ⟨_,List.getElem?_eq_getElem (sound.registry.made _ (List.mem_of_getElem? (clients_found found)))⟩

theorem sound_sessions (sessions : OrderedMap String ChunkSession) : Sound { s with sessions := sessions } :=
  ⟨⟨sound.books.globalMax,sound.books.global,sound.books.userMax,sound.books.user⟩,sound.stages,sound.registry⟩

theorem working_new (uploadId userId : String) : Working { (getUserMergeSemaphore s userId).1 with
      runs := s.runs ++ [⟨uploadId,userId,(getUserMergeSemaphore s userId).2,.awaitingGlobal,.none,.none⟩] }
      s.runs.length ⟨uploadId,userId,(getUserMergeSemaphore s userId).2,.awaitingGlobal,.none,.none⟩ := by
  have books := sound.books
  have old : ∀ (object : Nat) (sem : Semaphore), s.userSemaphores[object]? = some sem → sem.max = 1 ∧
      Balanced sem (s.runs.map (ofObject object) ++ [Permit.none]) := fun object sem known =>
    ⟨books.userMax object sem known,balanced_append (books.user object sem known)⟩
  have new : Balanced (.fresh 1) (s.runs.map (ofObject s.userSemaphores.length) ++ [Permit.none]) := by
    apply balanced_fresh
    intro p member
    rcases List.mem_append.mp member with earlier | last
    · obtain ⟨r,listed,rfl⟩ := List.mem_map.mp earlier
      have bound := sound.registry.made (client r) (List.mem_map_of_mem listed)
      exact if_neg (Nat.ne_of_lt bound)
    · exact List.mem_singleton.mp last
  have objects : ∀ (object : Nat) (sem : Semaphore),
      (getUserMergeSemaphore s userId).1.userSemaphores[object]? = some sem → sem.max = 1 ∧
        Balanced sem (s.runs.map (ofObject object) ++ [Permit.none]) := by
    intro object sem known
    unfold getUserMergeSemaphore at known
    cases present : s.mergeSemaphorePerUser.get userId with
    | some _ =>
      rw [present] at known
      exact old object sem known
    | none =>
      rw [present] at known
      by_cases bound : object < s.userSemaphores.length
      · rw [List.getElem?_append_left bound] at known
        exact old object sem known
      have last : object = s.userSemaphores.length := by
        have := at_lt known
        simp only [List.length_append,List.length_singleton] at this
        omega
      subst last
      rw [List.getElem?_concat_length] at known
      cases known
      exact ⟨rfl,new⟩
  have same : (getUserMergeSemaphore s userId).1.mergeSemaphoreGlobal = s.mergeSemaphoreGlobal := by
    unfold getUserMergeSemaphore
    split <;> rfl
  refine ⟨⟨?_,?_,fun object sem known => (objects object sem known).1,fun object sem known => ?_⟩,?_,?_⟩
  · exact same ▸ books.globalMax
  · simp only [same,List.map_append]
    exact balanced_append books.global
  · have balanced := (objects object sem known).2
    simpa [ofObject] using balanced
  · exact List.getElem?_concat_length
  · intro j r' at_j other
    have bound := at_lt at_j
    simp only [List.length_append,List.length_singleton] at bound
    rw [List.getElem?_append_left (by omega)] at at_j
    exact sound.stages j r' at_j

theorem sound_runMerge (uploadId userId : String) : Sound (runMergeWithSemaphore s uploadId userId) := by
  have working := working_acquireGlobal (working_new sound uploadId userId) rfl
  refine ⟨working.books,working_stages working ⟨acquire_present _ _,rfl⟩,?_⟩
  have registry := registry_get userId sound.registry
  have clients : (runMergeWithSemaphore s uploadId userId).runs.map client =
      s.runs.map client ++ [⟨userId,(getUserMergeSemaphore s userId).2,true⟩] := by
    simp only [runMergeWithSemaphore,acquireGlobal]
    rw [clients_modify (withGlobal _) fun _ => rfl]
    simp [client]
  rw [clients]
  exact registry

theorem sound_resume (found : s.runs[i]? = some r) (granted : Granted r) : Sound (resumeRun s i r) := by
  have ok := sound.stages i r found
  rcases granted with ⟨stage,holds⟩ | ⟨stage,holds⟩
  · obtain ⟨sem,known⟩ := live_object sound found
    simp only [StageOk,stage] at ok
    have working := working_acquireUser (working_stage (sound_working sound found) .awaitingUser) known ok.2
    have after : resumeRun s i r =
        acquireUser { s with runs := s.runs.modify i (withStage .awaitingUser) } i r.userSem := by
      simp only [resumeRun,stage]
    rw [after]
    refine ⟨working.books,working_stages working ⟨holds,acquire_present _ _⟩,?_⟩
    have registry := sound.registry
    simp only [acquireUser,known,List.length_set]
    rw [clients_modify (withUser _) fun _ => rfl]
    rw [map_modify_same client _ fun r' at_i => ?_]
    · exact registry
    · rw [found] at at_i
      cases at_i
      simp [client,withStage,stage]
  · have working := working_stage (sound_working sound found) .merging
    have after : resumeRun s i r = { s with runs := s.runs.modify i (withStage .merging) } := by
      simp only [resumeRun,stage]
    rw [after]
    refine ⟨working.books,working_stages working ⟨?_,holds⟩,?_⟩
    · simp only [StageOk,stage] at ok
      exact ok.1
    · rw [map_modify_same client _ fun r' at_i => ?_]
      · exact sound.registry
      · rw [found] at at_i
        cases at_i
        simp [client,withStage,stage]

theorem sound_conclude (uploadId : String) (outcome : Outcome) :
    Sound (conclude s uploadId outcome) ∧ (conclude s uploadId outcome).runs = s.runs := by
  unfold conclude
  split
  · exact ⟨sound_sessions sound _,rfl⟩
  · exact ⟨sound,rfl⟩

end

theorem releaseUserMergeSemaphore_same (s : Merges) (userId : String) :
    (releaseUserMergeSemaphore s userId).runs = s.runs ∧
    (releaseUserMergeSemaphore s userId).userSemaphores = s.userSemaphores ∧
    (releaseUserMergeSemaphore s userId).mergeSemaphoreGlobal = s.mergeSemaphoreGlobal := by
  unfold releaseUserMergeSemaphore
  dsimp only
  split
  · exact ⟨rfl,rfl,rfl⟩
  · split
    · split <;> exact ⟨rfl,rfl,rfl⟩
    · exact ⟨rfl,rfl,rfl⟩

theorem sound_endRun (sound : Sound s) (found : s.runs[i]? = some r) (merging : r.stage = .merging) (outcome : Outcome) :
    Sound (endRun s i r outcome) := by
  obtain ⟨sound,runs⟩ := sound_conclude sound r.uploadId outcome
  rw [← runs] at found
  unfold endRun
  generalize conclude s r.uploadId outcome = s at sound found
  have ok := sound.stages i r found
  simp only [StageOk,merging] at ok
  obtain ⟨sem,known⟩ := live_object sound found
  have user := working_releaseUser (sound_working sound found) known ok.2
  have global := working_releaseGlobal user ok.1
  have working := working_stage global .ended
  have objects : (releaseGlobal (releaseUser s i r.userSem) i).userSemaphores =
      s.userSemaphores.set r.userSem sem.release.1 := by simp [releaseGlobal,releaseUser,known]
  have maps : (releaseGlobal (releaseUser s i r.userSem) i).mergeSemaphorePerUser = s.mergeSemaphorePerUser ∧
      (releaseGlobal (releaseUser s i r.userSem) i).mergeSemaphoreRefs = s.mergeSemaphoreRefs := by
    simp [releaseGlobal,releaseUser,known]
  have clients : (releaseGlobal (releaseUser s i r.userSem) i).runs.map client = s.runs.map client := by
    simp only [releaseGlobal,releaseUser,known]
    rw [clients_wake (withGlobal _) fun _ => rfl,clients_modify (withGlobal _) fun _ => rfl,
      clients_wake (withUser _) fun _ => rfl,clients_modify (withUser _) fun _ => rfl]
  generalize releaseGlobal (releaseUser s i r.userSem) i = closed at *
  obtain ⟨sameRuns,sameObjects,sameGlobal⟩ := releaseUserMergeSemaphore_same
    { closed with runs := closed.runs.modify i (withStage .ended) } r.userId
  refine ⟨⟨?_,?_,?_,?_⟩,?_,?_⟩
  · rw [sameGlobal]
    exact working.books.globalMax
  · rw [sameGlobal,sameRuns]
    exact working.books.global
  · rw [sameObjects]
    exact working.books.userMax
  · rw [sameObjects,sameRuns]
    exact working.books.user
  · rw [sameRuns]
    exact working_stages working ⟨rfl,rfl⟩
  · have registry := sound.registry
    rw [← clients,← maps.1,← maps.2] at registry
    have live : (closed.runs.map client)[i]? = some ⟨r.userId,r.userSem,true⟩ := by
      rw [clients,clients_found found]
      simp [client,merging]
    have released := registry_release (s := { closed with runs := closed.runs.modify i (withStage .ended) }) registry live
    rw [sameRuns,sameObjects]
    have length : closed.userSemaphores.length = s.userSemaphores.length := by rw [objects,List.length_set]
    rw [map_modify _ _ global.found,length]
    exact released

theorem step_sound (sound : Sound s) (l : Label) (allowed : Allowed s l) : Sound (step s l) := by
  cases l with
  | session uploadId value => cases value <;> exact sound_sessions sound _
  | triggerMerge uploadId userId =>
    simp only [step]
    cases answered : triggerMerge s uploadId userId with
    | error _ => exact sound
    | ok s' =>
      unfold triggerMerge at answered
      cases got : getSession s.sessions uploadId userId with
      | error _ => simp [got] at answered
      | ok session =>
        rw [got] at answered
        dsimp only at answered
        split_ifs at answered <;> cases answered
        · exact sound
        · exact sound
        · exact sound_runMerge (sound_sessions sound _) uploadId session.uploadedBy
  | resume i =>
    obtain ⟨r,found,granted⟩ := allowed
    simp only [step,Option.mem_def.mp found]
    exact sound_resume sound found granted
  | settle i outcome =>
    obtain ⟨r,found,merging⟩ := allowed
    simp only [step,Option.mem_def.mp found]
    exact sound_endRun sound found merging outcome

theorem reachable_sound (reach : Reachable step Allowed initial s) : Sound s :=
  reachable_invariant sound_initial (fun _ l sound allowed => step_sound sound l allowed) reach

end
/-! ### What the permits guarantee -/

def holdsGlobal (r : Run) : Bool := r.globalPermit = .held
def holdsObject (object : Nat) (r : Run) : Bool := r.userSem = object && r.userPermit = .held
def holdsUser (userId : String) (r : Run) : Bool := r.userId = userId && r.userPermit = .held

/-- Permits are neither lost nor made, and nobody waits for one that is free. -/
structure PermitsKept (s : Merges) : Prop where
  global : s.mergeSemaphoreGlobal.count + s.runs.countP holdsGlobal = 3
  object : ∀ (k : Nat) (sem : Semaphore), s.userSemaphores[k]? = some sem → sem.count + s.runs.countP (holdsObject k) = 1
  user : ∀ userId, s.runs.countP (holdsUser userId) ≤ 1
  waitsGlobal : ∀ (i : Nat) (r : Run), s.runs[i]? = some r → r.globalPermit = .parked →
    i ∈ s.mergeSemaphoreGlobal.waiters ∧ s.mergeSemaphoreGlobal.count = 0
  waitsUser : ∀ (i : Nat) (r : Run), s.runs[i]? = some r → r.userPermit = .parked →
    ∃ sem, s.userSemaphores[r.userSem]? = some sem ∧ i ∈ sem.waiters ∧ sem.count = 0
  shared : ∀ r ∈ s.runs, ∀ r' ∈ s.runs, r.stage ≠ .ended → r'.stage ≠ .ended → r.userId = r'.userId →
    r.userSem = r'.userSem

/-- The semaphore of a user leaves the map only when every run that used it has ended. -/
def DroppedIdle (s s' : Merges) : Prop :=
  ∀ userId object, s.mergeSemaphorePerUser.get userId = some object →
    s'.mergeSemaphorePerUser.get userId ≠ some object →
      ∀ r ∈ s'.runs, r.userSem = object → r.stage = .ended ∧ r.userPermit = .none

section
variable {s : Merges} {i : Nat} {r : Run}

theorem count_held (g : Run → Permit) (holds : Run → Bool) (same : ∀ r, holds r = true ↔ g r = .held) (runs : List Run) :
    (runs.map g).count .held = runs.countP holds := by
  rw [List.count,List.countP_map]
  apply List.countP_congr
  intro r _
  rw [same r]
  simp

theorem sound_object (sound : Sound s) {k : Nat} {sem : Semaphore} (known : s.userSemaphores[k]? = some sem) :
    sem.count + s.runs.countP (holdsObject k) = 1 := by
  have total := (sound.books.user k sem known).total
  rw [sound.books.userMax k sem known,count_held (ofObject k) (holdsObject k) ?_] at total
  · exact total
  · intro r
    by_cases same : r.userSem = k <;> simp [holdsObject,ofObject,same]

theorem live_of_permit (ok : StageOk r) (some_permit : r.userPermit ≠ .none) : r.stage ≠ .ended := by
  intro ended
  simp only [StageOk,ended] at ok
  exact some_permit ok.2

theorem sound_registered (sound : Sound s) (member : r ∈ s.runs) (live : r.stage ≠ .ended) :
    s.mergeSemaphorePerUser.get r.userId = some r.userSem :=
  sound.registry.registered (client r) (List.mem_map_of_mem member) (by simpa [client] using live)

theorem sound_user (sound : Sound s) (userId : String) : s.runs.countP (holdsUser userId) ≤ 1 := by
  have live : ∀ r ∈ s.runs, holdsUser userId r = true → s.mergeSemaphorePerUser.get userId = some r.userSem := by
    intro r member holds
    simp only [holdsUser,Bool.and_eq_true,decide_eq_true_eq] at holds
    obtain ⟨j,found⟩ := List.mem_iff_getElem?.mp member
    have registered := sound_registered sound member (live_of_permit (sound.stages j r found) (by simp [holds.2]))
    rwa [holds.1] at registered
  cases known : s.mergeSemaphorePerUser.get userId with
  | none =>
    have nobody : s.runs.countP (holdsUser userId) = 0 := by
      rw [List.countP_eq_zero]
      intro r member holds
      rw [live r member holds] at known
      cases known
    omega
  | some object =>
    have bound := sound.registry.mapped userId object known
    have total := sound_object sound (List.getElem?_eq_getElem bound)
    have fewer : s.runs.countP (holdsUser userId) ≤ s.runs.countP (holdsObject object) := by
      apply List.countP_mono_left
      intro r member holds
      have same := live r member holds
      rw [known] at same
      cases same
      simp only [holdsUser,Bool.and_eq_true] at holds
      simpa [holdsObject] using holds.2
    omega

theorem sound_permitsKept (sound : Sound s) : PermitsKept s := by
  refine ⟨?_,fun k sem known => sound_object sound known,sound_user sound,?_,?_,?_⟩
  · have total := sound.books.global.total
    rw [sound.books.globalMax,count_held (·.globalPermit) holdsGlobal fun r => by simp [holdsGlobal]] at total
    exact total
  · intro i r found parked
    have waits := (sound.books.global.queued i).mpr (by rw [List.getElem?_map,found,Option.map_some,parked])
    exact ⟨waits,sound.books.global.taken (List.ne_nil_of_mem waits)⟩
  · intro i r found parked
    obtain ⟨sem,known⟩ := live_object sound found
    have balanced := sound.books.user _ sem known
    have waits := (balanced.queued i).mpr (by simp [found,ofObject,parked])
    exact ⟨sem,known,waits,balanced.taken (List.ne_nil_of_mem waits)⟩
  · intro r member r' member' live live' same
    have first := sound_registered sound member live
    have second := sound_registered sound member' live'
    rw [same,second] at first
    exact (Option.some.inj first).symm

theorem step_entry (l : Label) {userId : String} {object : Nat}
    (known : s.mergeSemaphorePerUser.get userId = some object) :
    (step s l).mergeSemaphorePerUser.get userId = some object ∨
      ∃ other, (step s l).mergeSemaphorePerUser = s.mergeSemaphorePerUser.delete other := by
  cases l with
  | session uploadId value => cases value <;> exact .inl known
  | triggerMerge uploadId caller =>
    left
    have got : ∀ (t : Merges) other, t.mergeSemaphorePerUser = s.mergeSemaphorePerUser →
        (getUserMergeSemaphore t other).1.mergeSemaphorePerUser.get userId = some object := by
      intro t other same
      unfold getUserMergeSemaphore
      rw [same]
      cases present : s.mergeSemaphorePerUser.get other with
      | some _ => simpa [same] using known
      | none =>
        have different : userId ≠ other := by
          rintro rfl
          rw [known] at present
          cases present
        exact (get_set_other _ _ different).trans known
    simp only [step,triggerMerge]
    cases getSession s.sessions uploadId caller with
    | error _ => exact known
    | ok session =>
      dsimp only
      split_ifs
      · exact known
      · exact known
      · exact got _ _ rfl
  | resume i =>
    left
    simp only [step]
    cases s.runs[i]? with
    | none => exact known
    | some r =>
      simp only [resumeRun]
      split
      · simp only [acquireUser]
        split <;> exact known
      all_goals exact known
  | settle i outcome =>
    simp only [step]
    cases s.runs[i]? with
    | none => exact .inl known
    | some r =>
      have same : (releaseGlobal (releaseUser (conclude s r.uploadId outcome) i r.userSem) i).mergeSemaphorePerUser =
          s.mergeSemaphorePerUser := by
        simp only [releaseUser,conclude]
        split <;> split <;> rfl
      simp only [endRun,releaseUserMergeSemaphore]
      split
      · exact .inl (by simpa [same] using known)
      · split
        · split
          · exact .inr ⟨r.userId,by simp [same]⟩
          · exact .inl (by simpa [same] using known)
        · exact .inl (by simpa [same] using known)

theorem step_droppedIdle (sound : Sound s) (l : Label) (allowed : Allowed s l) : DroppedIdle s (step s l) := by
  intro userId object known gone r member uses
  have after := step_sound sound l allowed
  have ended : r.stage = .ended := by
    by_contra live
    have registered := sound_registered after member live
    rw [uses] at registered
    rcases step_entry l known with same | ⟨other,deleted⟩
    · exact gone same
    · rw [deleted] at registered gone
      have owner := sound.registry.apart userId r.userId object known (get_of_delete registered).2
      exact gone (owner ▸ registered)
  obtain ⟨j,found⟩ := List.mem_iff_getElem?.mp member
  have ok := after.stages j r found
  simp only [StageOk,ended] at ok
  exact ⟨ended,ok.2⟩

end

/-- At most three runs hold the permit of the service and one that of its user; no permit is lost or
made, nobody waits for a free one, and a semaphore leaves the map only unused. -/
theorem merge_permits {s : Merges} (reach : Reachable step Allowed initial s) :
    PermitsKept s ∧ s.runs.countP holdsGlobal ≤ 3 ∧ ∀ l, Allowed s l → DroppedIdle s (step s l) := by
  have sound := reachable_sound reach
  have kept := sound_permitsKept sound
  refine ⟨kept,?_,fun l allowed => step_droppedIdle sound l allowed⟩
  have total := kept.global
  omega

def twoUploads : List Label :=
  let upload : ChunkSession := ⟨8,8,1,"u",.pending,none,none,false⟩
  [.session "00000000-0000-4000-8000-000000000001" (some upload),
    .session "00000000-0000-4000-8000-000000000002" (some upload),
    .triggerMerge "00000000-0000-4000-8000-000000000001" "u",.triggerMerge "00000000-0000-4000-8000-000000000002" "u",
    .resume 0,.resume 0,.resume 1]

theorem merge_permits_two_uploads :
    let s := twoUploads.foldl step initial
    s.runs.map (·.userPermit) = [.held,.parked] ∧ s.mergeSemaphorePerUser.get "u" = some 0 ∧ PermitsKept s ∧
      s.runs.countP holdsGlobal ≤ 3 ∧ ∀ l, Allowed s l → DroppedIdle s (step s l) := by
  have legal : Legal step Allowed initial twoUploads := by decide +kernel
  exact ⟨by decide +kernel,by decide +kernel,merge_permits (reachable_run .start twoUploads legal)⟩

end Tgtc.MergePermits
