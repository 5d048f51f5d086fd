import Tgtc.BuildSession
import Tgtc.SessionLocks

/-!
The cache around its session coordinator: build sessions with their runners, the map that requests look them up in,
the files under the cache paths, and the last part of an invalidation, which removes the cache file unless a session
is still registered.
-/
namespace Tgtc.CacheService
open Maps Runs BuildSession
universe u

structure CacheFile (Version : Type u) where
  number : Nat
  contentVersion : Option Version
deriving DecidableEq

structure Join where
  session : Nat
  error : Option String
deriving DecidableEq

/-- The last part of `invalidate`. -/
inductive Clearing where
  | idle
  | unlinking
  | unlinked
  | refused
  | skipped
deriving DecidableEq

structure State (Version : Type u) where
  coordinator : SessionLocks.State
  sessions : List (Session Version)
  cacheFiles : OrderedMap String (CacheFile Version)
  publications : Nat
  clearing : Nat → Clearing
  calledAt : Nat → Nat
  joins : List Join

section
variable {Version : Type u}

def initial : State Version :=
  { coordinator := SessionLocks.initial, sessions := [], cacheFiles := .empty, publications := 0
    clearing := fun _ => .idle, calledAt := fun _ => 0, joins := [] }

inductive Label (Version : Type u) where
  | locks (l : SessionLocks.Label)
  | create (fileId : String) (expectedSize : Nat) (contentVersion : Option Version)
  /-- a request takes a session of another version off the map and is then refused by the fence or the shutdown -/
  | supersede (fileId : String) (contentVersion : Option Version)
  | join (fileId : String) (contentVersion : Option Version)
  | session (id : Nat) (event : Event)
  | abort (fileId : String) (error : String)
  | invalidate (fileId : String)
  | fence (k : Nat) (fileId : String)
  | look (k : Nat) (fileId : String)
  | unlink (k : Nat) (fileId : String) (removed : Bool)
  | finish (k : Nat) (fileId : String)
  | warm (fileId : String) (contentVersion : Option Version)
  | evict (fileId : String)

def State.publish (s : State Version) (fileId : String) (contentVersion : Option Version) : State Version :=
  { s with cacheFiles := s.cacheFiles.set fileId ⟨s.publications,contentVersion⟩, publications := s.publications + 1 }

def State.abortSession (s : State Version) (fileId : String) (error : String) : State Version :=
  match s.coordinator.buildSessions.get fileId with
  | none => s
  | some id => { s with sessions := s.sessions.modify id (fun session => session.abort error) }

def State.locksStep (s : State Version) (l : SessionLocks.Label) : State Version :=
  { s with coordinator := SessionLocks.step s.coordinator l }

def State.replaced (s : State Version) (fileId : String) : State Version :=
  (s.abortSession fileId "文件内容已更新，缓存构建已中止").locksStep (.dropBuild fileId)

/-- The runner of a session goes on: the rename puts the file under the cache path, the end leaves the cleanup to
`setImmediate`. -/
def State.sessionStep (s : State Version) (id : Nat) (session : Session Version) (event : Event) : State Version :=
  let moved := { s with sessions := s.sessions.modify id (fun session => BuildSession.step session event) }
  match event with
  | .renameDone => moved.publish session.fileId session.contentVersion
  | .published | .tmpUnlinked => moved.locksStep (.finishBuild id)
  | _ => moved

variable [DecidableEq Version]

/-- Versions are compared by their printed form, which is what `Version` stands for; a missing one matches any. -/
def sameContentVersion (sessionVersion requestVersion : Option Version) : Bool :=
  match sessionVersion, requestVersion with
  | some v, some w => decide (v = w)
  | _, _ => true

/-- The session a request would join: the registered one, if its version is the request's. -/
def State.joinable (s : State Version) (fileId : String) (contentVersion : Option Version) :
    Option (Nat × Session Version) :=
  match s.coordinator.buildSessions.get fileId with
  | none => none
  | some id =>
    match s.sessions[id]? with
    | none => none
    | some session => if sameContentVersion session.contentVersion contentVersion then some (id,session) else none

def step (s : State Version) : Label Version → State Version
  | .locks l => s.locksStep l
  | .create fileId expectedSize contentVersion =>
    { (s.replaced fileId).locksStep (.registerBuild fileId) with
      sessions := (s.replaced fileId).sessions ++ [begin fileId expectedSize contentVersion] }
  | .supersede fileId _ => s.replaced fileId
  | .join fileId contentVersion =>
    match s.joinable fileId contentVersion with
    | none => s
    | some (id,session) => { s with joins := s.joins ++ [⟨id,session.error⟩] }
  | .session id event =>
    match s.sessions[id]? with
    | none => s
    | some session => s.sessionStep id session event
  | .abort fileId error => s.abortSession fileId error
  | .invalidate fileId =>
    { s.locksStep (.invalidate fileId) with
      calledAt := Function.update s.calledAt s.coordinator.fileInvalidationLocks.calls.length s.publications }
  | .fence k fileId => (s.abortSession fileId "缓存构建已失效").locksStep (.fence k fileId)
  | .look k fileId =>
    let hasActiveSession := (s.coordinator.buildSessions.get fileId).isSome ||
      (s.coordinator.spoolSessions.get fileId).isSome
    { s with clearing := Function.update s.clearing k (if hasActiveSession then .skipped else .unlinking) }
  | .unlink k fileId removed =>
    { s with cacheFiles := if removed then s.cacheFiles.delete fileId else s.cacheFiles
             clearing := Function.update s.clearing k (if removed then .unlinked else .refused) }
  | .finish k fileId => s.locksStep (.finish k fileId)
  | .warm fileId contentVersion => s.publish fileId contentVersion
  | .evict fileId => { s with cacheFiles := s.cacheFiles.delete fileId }

/-- The steps of the coordinator that concern no build session and do not end an invalidation. -/
def Aside : SessionLocks.Label → Prop
  | .registerBuild _ | .dropBuild _ | .finishBuild _ | .invalidate _ | .fence _ _ | .finish _ _ => False
  | _ => True

def Allowed (s : State Version) : Label Version → Prop
  | .locks l => Aside l ∧ SessionLocks.Allowed s.coordinator l
  | .create fileId _ contentVersion => fileId ∉ s.coordinator.invalidatingFileIds ∧
      s.joinable fileId contentVersion = none
  | .supersede fileId contentVersion => s.joinable fileId contentVersion = none
  | .join fileId contentVersion => s.joinable fileId contentVersion ≠ none
  | .session id event => ∃ session, s.sessions[id]? = some session ∧ BuildSession.Allowed session event
  | .abort _ _ | .invalidate _ | .warm _ _ | .evict _ => True
  | .fence k fileId => SessionLocks.Allowed s.coordinator (.fence k fileId)
  | .look k fileId => s.coordinator.Runs k fileId ∧ s.clearing k = .idle
  | .unlink k fileId _ => s.coordinator.Runs k fileId ∧ s.clearing k = .unlinking
  | .finish k fileId => s.coordinator.fileInvalidationLocks.At k fileId .inside ∧ s.clearing k ≠ .unlinking

abbrev Reached (s : State Version) : Prop := Reachable step Allowed initial s

/-! ### Sessions and the map -/

omit [DecidableEq Version] in
/-- One that can still complete is registered, and a registered one is the last of its file. -/
structure Inv (coordinator : SessionLocks.State) (sessions : List (Session Version)) : Prop where
  locks : SessionLocks.Reached coordinator
  aligned : coordinator.builds.length = sessions.length
  same : ∀ (id : Nat) (b : SessionLocks.Build) (session : Session Version), coordinator.builds[id]? = some b →
    sessions[id]? = some session → b.fileId = session.fileId ∧ (b.finished = true ↔ session.phase = .finished)
  ended : ∀ (id : Nat) (session : Session Version), sessions[id]? = some session → session.Ended
  live : ∀ (id : Nat) (session : Session Version), sessions[id]? = some session → session.error = none →
    session.completed = false → coordinator.buildSessions.get session.fileId = some id
  last : ∀ (fileId : String) (id : Nat), coordinator.buildSessions.get fileId = some id →
    ∀ (other : Nat) (session : Session Version), sessions[other]? = some session → session.fileId = fileId → other ≤ id

section
variable {coordinator : SessionLocks.State} {sessions : List (Session Version)}

omit [DecidableEq Version] in
theorem build_of_session (inv : Inv coordinator sessions) {id : Nat} {session : Session Version}
    (at_id : sessions[id]? = some session) : ∃ b, coordinator.builds[id]? = some b ∧ b.fileId = session.fileId ∧
      (b.finished = true ↔ session.phase = .finished) := by
  have known := at_lt at_id
  have found : coordinator.builds[id]? = some (coordinator.builds.get ⟨id,inv.aligned ▸ known⟩) := by simp
  exact ⟨_,found,inv.same id _ session found at_id⟩

omit [DecidableEq Version] in
theorem live_unfinished (inv : Inv coordinator sessions) {id : Nat} {session : Session Version}
    (at_id : sessions[id]? = some session) (clean : session.error = none) (unfinished : session.completed = false) :
    ¬ coordinator.Finished id := by
  rintro ⟨b,found,past⟩
  have done := ((inv.same id b session found at_id).2).mp past
  rcases (inv.ended id session at_id).2.1 done with failed | completed
  · exact failed clean
  · simp [unfinished] at completed

def KeepsBuilds : SessionLocks.Label → Prop
  | .registerBuild _ | .dropBuild _ | .finishBuild _ => False
  | _ => True

theorem keepsBuilds_frame (reach : SessionLocks.Reached coordinator) {l : SessionLocks.Label} (keeps : KeepsBuilds l) :
    (SessionLocks.step coordinator l).builds = coordinator.builds ∧
    (∀ fileId id, (SessionLocks.step coordinator l).buildSessions.get fileId = some id →
      coordinator.buildSessions.get fileId = some id) ∧
    ∀ fileId id, coordinator.buildSessions.get fileId = some id → ¬ coordinator.Finished id →
      (SessionLocks.step coordinator l).buildSessions.get fileId = some id := by
  cases l with
  | registerBuild fileId | dropBuild fileId | finishBuild id' => exact absurd keeps id
  | lock key =>
    obtain ⟨lock,shape⟩ := SessionLocks.lock_shape coordinator key
    rw [shape]
    exact ⟨rfl,fun _ _ registered => registered,fun _ _ registered _ => registered⟩
  | enter i key =>
    obtain ⟨lock,shape⟩ := SessionLocks.enter_shape coordinator i key
    rw [shape]
    exact ⟨rfl,fun _ _ registered => registered,fun _ _ registered _ => registered⟩
  | immediate =>
    simp only [SessionLocks.step]
    cases next : coordinator.immediates with
    | nil => exact ⟨rfl,fun _ _ registered => registered,fun _ _ registered _ => registered⟩
    | cons turn rest =>
      cases turn with
      | resume k => exact ⟨rfl,fun _ _ registered => registered,fun _ _ registered _ => registered⟩
      | cleanup other =>
        have past := SessionLocks.cleanup_finished reach other (by simp [next])
        rcases SessionLocks.cleanupBuild_shape { coordinator with immediates := rest } other with
          same | ⟨b,at_other,held,same⟩
        · simp only [same]
          exact ⟨trivial,fun _ _ registered => registered,fun _ _ registered _ => registered⟩
        simp only [same]
        refine ⟨trivial,fun _ _ registered => SessionLocks.fewer_delete _ _ _ _ registered,?_⟩
        intro fileId id registered unfinished
        have elsewhere : fileId ≠ b.fileId := by
          rintro rfl
          obtain rfl : other = id := Option.mem_unique held registered
          exact unfinished past
        exact (get_delete_other _ elsewhere).trans registered
  | _ => exact ⟨rfl,fun _ _ registered => registered,fun _ _ registered _ => registered⟩

omit [DecidableEq Version] in
theorem keepsBuilds_inv (inv : Inv coordinator sessions) (l : SessionLocks.Label) (keeps : KeepsBuilds l)
    (ok : SessionLocks.Allowed coordinator l) : Inv (SessionLocks.step coordinator l) sessions := by
  obtain ⟨builds,fewer,stays⟩ := keepsBuilds_frame inv.locks keeps
  refine ⟨inv.locks.next l ok,builds ▸ inv.aligned,builds ▸ inv.same,inv.ended,?_,?_⟩
  · intro id session at_id clean unfinished
    exact stays _ id (inv.live id session at_id clean unfinished) (live_unfinished inv at_id clean unfinished)
  · intro fileId id registered
    exact inv.last fileId id (fewer fileId id registered)

omit [DecidableEq Version] in
theorem rewrite_inv (inv : Inv coordinator sessions) {id : Nat} {session : Session Version}
    (at_id : sessions[id]? = some session) {g : Session Version → Session Version}
    (file : (g session).fileId = session.fileId) (ended : (g session).Ended)
    (phase : (g session).phase = .finished ↔ session.phase = .finished)
    (live : (g session).error = none → (g session).completed = false →
      session.error = none ∧ session.completed = false) : Inv coordinator (sessions.modify id g) := by
  -- the sessions after it in terms of those before it
  have look : ∀ {other : Nat} {t : Session Version}, (sessions.modify id g)[other]? = some t →
      ∃ old, sessions[other]? = some old ∧ t.fileId = old.fileId ∧ t.Ended ∧
        (t.phase = .finished ↔ old.phase = .finished) ∧
        (t.error = none → t.completed = false → old.error = none ∧ old.completed = false) := by
    intro other t found
    rw [List.getElem?_modify] at found
    obtain ⟨old,at_other,rfl⟩ := Option.map_eq_some_iff.mp found
    refine ⟨old,at_other,?_⟩
    by_cases here : id = other
    · subst here
      obtain rfl : old = session := by simpa [at_id] using at_other.symm
      simpa using ⟨file,ended,phase,live⟩
    · simp only [here,↓reduceIte]
      exact ⟨trivial,inv.ended other old at_other,trivial,fun clean unfinished => ⟨clean,unfinished⟩⟩
  constructor
  case locks => exact inv.locks
  case aligned => simpa using inv.aligned
  case same =>
    intro other b t found at_other
    obtain ⟨old,at_old,file',_,phase',_⟩ := look at_other
    obtain ⟨owner,past⟩ := inv.same other b old found at_old
    exact ⟨owner.trans file'.symm,past.trans phase'.symm⟩
  case ended =>
    intro other t at_other
    obtain ⟨_,_,_,ended',_⟩ := look at_other
    exact ended'
  case live =>
    intro other t at_other clean unfinished
    obtain ⟨old,at_old,file',_,_,live'⟩ := look at_other
    obtain ⟨clean',unfinished'⟩ := live' clean unfinished
    rw [file']
    exact inv.live other old at_old clean' unfinished'
  case last =>
    intro fileId registered held other t at_other mine
    obtain ⟨old,at_old,file',_⟩ := look at_other
    exact inv.last fileId registered held other old at_old (file'.symm.trans mine)

omit [DecidableEq Version] in
theorem quiet_inv (inv : Inv coordinator sessions) {id : Nat} {session : Session Version}
    (at_id : sessions[id]? = some session) {g : Session Version → Session Version} (quiet : Quiet session (g session)) :
    Inv coordinator (sessions.modify id g) := by
  obtain ⟨file,_,completed,_,_,error,phase⟩ := quiet_frame quiet
  refine rewrite_inv inv at_id file (quiet_ended (inv.ended id session at_id) quiet) phase ?_
  intro clean unfinished
  refine ⟨?_,completed.symm.trans unfinished⟩
  by_contra failed
  exact error failed clean

end

omit [DecidableEq Version] in
/-- An abort changes nothing but sessions, and not how many there are. -/
@[simp] theorem abortSession_frame (s : State Version) (fileId error : String) :
    (s.abortSession fileId error).coordinator = s.coordinator ∧
      (s.abortSession fileId error).sessions.length = s.sessions.length ∧
      (s.abortSession fileId error).cacheFiles = s.cacheFiles ∧
      (s.abortSession fileId error).publications = s.publications ∧
      (s.abortSession fileId error).clearing = s.clearing ∧ (s.abortSession fileId error).calledAt = s.calledAt ∧
      (s.abortSession fileId error).joins = s.joins := by
  unfold State.abortSession
  split
  · exact ⟨rfl,rfl,rfl,rfl,rfl,rfl,rfl⟩
  · exact ⟨rfl,List.length_modify _ _ _,rfl,rfl,rfl,rfl,rfl⟩

omit [DecidableEq Version] in
theorem abortSession_inv {s : State Version} (inv : Inv s.coordinator s.sessions) (fileId error : String) :
    Inv (s.abortSession fileId error).coordinator (s.abortSession fileId error).sessions := by
  unfold State.abortSession
  cases registered : s.coordinator.buildSessions.get fileId with
  | none => exact inv
  | some id =>
    cases at_id : s.sessions[id]? with
    | none =>
      have unchanged : s.sessions.modify id (fun session => session.abort error) = s.sessions := by
        apply List.modify_eq_self
        exact List.getElem?_eq_none_iff.mp at_id
      simpa only [unchanged] using inv
    | some session => exact quiet_inv inv at_id (.aborts error (session.abort error).deadline)

omit [DecidableEq Version] in
theorem abortSession_dead (s : State Version) (fileId error : String) (id : Nat) (session : Session Version)
    (registered : s.coordinator.buildSessions.get fileId = some id)
    (at_id : (s.abortSession fileId error).sessions[id]? = some session) :
    session.error ≠ none ∨ session.completed = true := by
  simp only [State.abortSession,registered,List.getElem?_modify_eq,Option.map_eq_map,Option.map_eq_some_iff] at at_id
  obtain ⟨old,_,rfl⟩ := at_id
  cases unfinished : old.completed with
  | false => exact .inl (abort_error unfinished error)
  | true => exact .inr (by simp [unfinished])

omit [DecidableEq Version] in
theorem replaced_inv {s : State Version} (inv : Inv s.coordinator s.sessions) (fileId : String) :
    Inv (s.replaced fileId).coordinator (s.replaced fileId).sessions ∧
      (s.replaced fileId).coordinator.buildSessions.get fileId = none := by
  have aborted := abortSession_inv inv fileId "文件内容已更新，缓存构建已中止"
  have dead := abortSession_dead s fileId "文件内容已更新，缓存构建已中止"
  refine ⟨⟨aborted.locks.next (SessionLocks.Label.dropBuild fileId) trivial,aborted.aligned,aborted.same,aborted.ended,?_,?_⟩,
    get_delete_same _ fileId⟩
  · intro id session at_id clean unfinished
    have registered := aborted.live id session at_id clean unfinished
    have elsewhere : session.fileId ≠ fileId := by
      intro here
      rw [here,(abortSession_frame s fileId _).1] at registered
      rcases dead id session registered at_id with failed | completed
      · exact failed clean
      · simp [unfinished] at completed
    exact (get_delete_other _ elsewhere).trans registered
  · intro other id registered
    exact aborted.last other id (SessionLocks.fewer_delete _ _ _ _ registered)

omit [DecidableEq Version] in
theorem register_inv {coordinator : SessionLocks.State} {sessions : List (Session Version)}
    (inv : Inv coordinator sessions) {fileId : String} (free : fileId ∉ coordinator.invalidatingFileIds)
    (absent : coordinator.buildSessions.get fileId = none) (expectedSize : Nat) (contentVersion : Option Version) :
    Inv (SessionLocks.step coordinator (.registerBuild fileId))
      (sessions ++ [begin fileId expectedSize contentVersion]) := by
  have old_or_new : ∀ {id : Nat} {session : Session Version},
      (sessions ++ [begin fileId expectedSize contentVersion])[id]? = some session →
      sessions[id]? = some session ∨ (id = sessions.length ∧ session = begin fileId expectedSize contentVersion) := by
    intro id session found
    rcases Nat.lt_or_ge id sessions.length with known | beyond
    · exact .inl (by rwa [List.getElem?_append_left known] at found)
    · have bound := at_lt found
      obtain rfl : id = sessions.length := by
        simp only [List.length_append,List.length_singleton] at bound
        omega
      exact .inr ⟨rfl,by simpa using found.symm⟩
  constructor
  case locks => exact inv.locks.next (SessionLocks.Label.registerBuild fileId) free
  case aligned => simp [SessionLocks.step,inv.aligned]
  case same =>
    intro id b session found at_id
    rcases old_or_new at_id with old | ⟨rfl,rfl⟩
    · have known := at_lt old
      simp only [SessionLocks.step,List.getElem?_append_left (inv.aligned ▸ known)] at found
      exact inv.same id b session found old
    · simp only [SessionLocks.step,← inv.aligned,List.getElem?_append_right (Nat.le_refl _),Nat.sub_self,
        List.getElem?_cons_zero,Option.some.injEq] at found
      subst found
      simp [begin]
  case ended =>
    intro id session at_id
    rcases old_or_new at_id with old | ⟨rfl,rfl⟩
    · exact inv.ended id session old
    · simp [Session.Ended,begin]
  case live =>
    intro id session at_id clean unfinished
    rcases old_or_new at_id with old | ⟨rfl,rfl⟩
    · have registered := inv.live id session old clean unfinished
      have elsewhere : session.fileId ≠ fileId := by
        intro here
        rw [here,absent] at registered
        cases registered
      exact (get_set_other _ _ elsewhere).trans registered
    · show (coordinator.buildSessions.set fileId coordinator.builds.length).get fileId = _
      rw [get_set_same,inv.aligned]
  case last =>
    intro other id registered place session at_place mine
    by_cases here : other = fileId
    · subst here
      simp only [SessionLocks.step,get_set_same,Option.some.injEq] at registered
      have bound := at_lt at_place
      simp only [List.length_append,List.length_singleton] at bound
      have := inv.aligned
      omega
    · simp only [SessionLocks.step,get_set_other _ _ here] at registered
      rcases old_or_new at_place with old | ⟨rfl,rfl⟩
      · exact inv.last other id registered place session old mine
      · exact absurd mine.symm here

omit [DecidableEq Version] in
theorem end_inv {coordinator : SessionLocks.State} {sessions : List (Session Version)}
    (inv : Inv coordinator sessions) {id : Nat} {session : Session Version} (at_id : sessions[id]? = some session)
    {event : Event} (ok : BuildSession.Allowed session event) (running : session.phase ≠ .finished)
    (ends : event = .published ∨ event = .tmpUnlinked) :
    Inv (SessionLocks.step coordinator (.finishBuild id)) (sessions.modify id (BuildSession.step · event)) := by
  obtain ⟨b,found,_,past⟩ := build_of_session inv at_id
  have open_build : b.finished = false := by
    by_contra done
    exact running (past.mp (by simpa using done))
  have done : (BuildSession.step session event).phase = .finished ∧
      ((BuildSession.step session event).error ≠ none ∨ (BuildSession.step session event).completed = true) ∧
      (BuildSession.step session event).fileId = session.fileId := by
    rcases ends with rfl | rfl
    · exact ⟨rfl,.inr rfl,rfl⟩
    · exact ⟨rfl,.inl ((inv.ended id session at_id).1 ok),rfl⟩
  have look : ∀ {other : Nat} {t : Session Version},
      (sessions.modify id (BuildSession.step · event))[other]? = some t →
      (other = id ∧ t = BuildSession.step session event) ∨ (other ≠ id ∧ sessions[other]? = some t) := by
    intro other t at_other
    by_cases here : id = other
    · subst here
      simp only [List.getElem?_modify_eq,at_id,Option.map_eq_map,Option.map_some,Option.some.injEq] at at_other
      exact .inl ⟨rfl,at_other.symm⟩
    · exact .inr ⟨fun same => here same.symm,by simpa [here] using at_other⟩
  constructor
  case locks => exact inv.locks.next (SessionLocks.Label.finishBuild id) ⟨b,found,open_build⟩
  case aligned => simpa [SessionLocks.step] using inv.aligned
  case same =>
    intro other b' t found' at_other
    rcases look at_other with ⟨rfl,rfl⟩ | ⟨elsewhere,old⟩
    · simp only [SessionLocks.step,List.getElem?_modify_eq,found,Option.map_eq_map,Option.map_some,
        Option.some.injEq] at found'
      subst found'
      have owner := (inv.same other b session found at_id).1
      exact ⟨owner.trans done.2.2.symm,by simp [done.1]⟩
    · have found : coordinator.builds[other]? = some b' := by
        simpa [SessionLocks.step,Ne.symm elsewhere] using found'
      exact inv.same other b' t found old
  case ended =>
    intro other t at_other
    rcases look at_other with ⟨rfl,rfl⟩ | ⟨_,old⟩
    · exact step_ended (inv.ended other session at_id) ok
    · exact inv.ended other t old
  case live =>
    intro other t at_other clean unfinished
    rcases look at_other with ⟨rfl,rfl⟩ | ⟨_,old⟩
    · rcases done.2.1 with failed | completed
      · exact absurd clean failed
      · simp [unfinished] at completed
    · exact inv.live other t old clean unfinished
  case last =>
    intro fileId registered held other t at_other mine
    rcases look at_other with ⟨rfl,rfl⟩ | ⟨_,old⟩
    · exact inv.last fileId registered held other session at_id (done.2.2.symm.trans mine)
    · exact inv.last fileId registered held other t old mine

omit [DecidableEq Version] in
theorem sessionStep_inv {s : State Version} (inv : Inv s.coordinator s.sessions) {id : Nat} {session : Session Version}
    (at_id : s.sessions[id]? = some session) {event : Event} (ok : BuildSession.Allowed session event) :
    Inv (s.sessionStep id session event).coordinator (s.sessionStep id session event).sessions := by
  by_cases rename : event = .renameDone
  · subst rename
    obtain ⟨attempt,phase⟩ := ok
    refine rewrite_inv inv at_id rfl (step_ended (inv.ended id session at_id) ⟨attempt,phase⟩) ?_
      fun clean open_session => ⟨clean,open_session⟩
    simp [BuildSession.step,phase]
  by_cases publication : event = .published
  · subst publication
    exact end_inv inv at_id ok (by simp [show session.phase = _ from ok]) (.inl rfl)
  by_cases ending : event = .tmpUnlinked
  · subst ending
    exact end_inv inv at_id ok (by simp [show session.phase = _ from ok]) (.inr rfl)
  have quiet : Inv s.coordinator (s.sessions.modify id (BuildSession.step · event)) :=
    quiet_inv inv at_id (step_quiet ok rename publication ending)
  cases event with
  | renameDone => exact absurd rfl rename
  | published => exact absurd rfl publication
  | tmpUnlinked => exact absurd rfl ending
  | _ => exact quiet

theorem step_inv (s : State Version) (l : Label Version) (inv : Inv s.coordinator s.sessions) (ok : Allowed s l) :
    Inv (step s l).coordinator (step s l).sessions := by
  cases l with
  | locks l =>
    refine keepsBuilds_inv inv l ?_ ok.2
    have aside := ok.1
    cases l with
    | registerBuild fileId | dropBuild fileId | finishBuild id => exact aside
    | _ => trivial
  | create fileId expectedSize contentVersion =>
    obtain ⟨replaced,absent⟩ := replaced_inv inv fileId
    have free : fileId ∉ (s.replaced fileId).coordinator.invalidatingFileIds := by
      simpa [State.replaced,State.locksStep,SessionLocks.step] using ok.1
    exact register_inv replaced free absent expectedSize contentVersion
  | supersede fileId contentVersion => exact (replaced_inv inv fileId).1
  | join fileId contentVersion =>
    simp only [step]
    split
    · exact inv
    · exact inv
  | session id event =>
    obtain ⟨session,at_id,ok⟩ := ok
    simp only [step,at_id]
    exact sessionStep_inv inv at_id ok
  | abort fileId error => exact abortSession_inv inv fileId error
  | invalidate fileId => exact keepsBuilds_inv inv (.invalidate fileId) trivial trivial
  | fence k fileId =>
    have aborted := abortSession_inv inv fileId "缓存构建已失效"
    refine keepsBuilds_inv aborted (.fence k fileId) trivial ?_
    rw [(abortSession_frame s fileId _).1]
    exact ok
  | finish k fileId => exact keepsBuilds_inv inv (.finish k fileId) trivial ok.1
  | look k fileId | unlink k fileId removed | warm fileId contentVersion | evict fileId => exact inv

variable {s : State Version} {l : Label Version} {session : Session Version}

theorem reached_inv (reach : Reached s) : Inv s.coordinator s.sessions := by
  refine @reachable_invariant _ _ step Allowed initial (fun s => Inv s.coordinator s.sessions) ?_ step_inv s reach
  exact ⟨.start,rfl,by simp [initial],by simp [initial],by simp [initial],
    by simp [initial]⟩

theorem joinable_registered (reach : Reached s) {fileId : String} {contentVersion : Option Version}
    {id : Nat} (found : s.joinable fileId contentVersion = some (id,session)) :
    s.coordinator.buildSessions.get fileId = some id ∧ s.sessions[id]? = some session ∧ session.fileId = fileId ∧
      (∀ other t, s.sessions[other]? = some t → t.fileId = fileId → other ≤ id) ∧
      sameContentVersion session.contentVersion contentVersion = true := by
  have inv := reached_inv reach
  simp only [State.joinable] at found
  cases registered : s.coordinator.buildSessions.get fileId with
  | none => simp [registered] at found
  | some place =>
    cases at_place : s.sessions[place]? with
    | none => simp [registered,at_place] at found
    | some there =>
      by_cases same : sameContentVersion there.contentVersion contentVersion = true
      · simp only [registered,at_place,same,↓reduceIte,Option.some.injEq,Prod.mk.injEq] at found
        obtain ⟨rfl,rfl⟩ := found
        obtain ⟨b,at_b,owner⟩ := (SessionLocks.reached_inv inv.locks).owned fileId place registered
        refine ⟨rfl,at_place,?_,inv.last fileId place registered,same⟩
        exact (inv.same place b there at_b at_place).1.symm.trans owner
      · simp [registered,at_place,same] at found

theorem coordinator_runs (inv : Inv s.coordinator s.sessions) (ok : Allowed s l) :
    Reachable SessionLocks.step SessionLocks.Allowed s.coordinator (step s l).coordinator := by
  cases l with
  | locks l => exact Reachable.start.next l ok.2
  | create fileId expectedSize contentVersion =>
    have labels : SessionLocks.Allowed (SessionLocks.step s.coordinator (.dropBuild fileId)) (.registerBuild fileId) :=
      ok.1
    have runs := reachable_run .start [SessionLocks.Label.dropBuild fileId,.registerBuild fileId]
      ⟨trivial,labels,trivial⟩
    simpa [step,State.replaced,State.locksStep] using runs
  | supersede fileId contentVersion =>
    have runs : Reachable SessionLocks.step SessionLocks.Allowed s.coordinator _ :=
      reachable_run .start [SessionLocks.Label.dropBuild fileId] ⟨trivial,trivial⟩
    simpa [step,State.replaced,State.locksStep] using runs
  | join fileId contentVersion =>
    simp only [step]
    split
    · exact .start
    · exact .start
  | session id event =>
    obtain ⟨session,at_id,ok⟩ := ok
    simp only [step,at_id]
    have ends : session.phase ≠ .finished →
        Reachable SessionLocks.step SessionLocks.Allowed s.coordinator
          (SessionLocks.step s.coordinator (.finishBuild id)) := by
      intro running
      obtain ⟨b,found,_,past⟩ := build_of_session inv at_id
      have open_build : b.finished = false := by
        by_contra done
        exact running (past.mp (by simpa using done))
      exact reachable_run .start [SessionLocks.Label.finishBuild id] ⟨⟨b,found,open_build⟩,trivial⟩
    cases event with
    | published | tmpUnlinked => exact ends (by simp [show session.phase = _ from ok])
    | _ => exact .start
  | abort fileId error =>
    rw [step,(abortSession_frame s fileId error).1]
    exact .start
  | invalidate fileId => exact reachable_run .start [SessionLocks.Label.invalidate fileId] ⟨trivial,trivial⟩
  | fence k fileId =>
    have runs : Reachable SessionLocks.step SessionLocks.Allowed s.coordinator _ :=
      reachable_run .start [SessionLocks.Label.fence k fileId] ⟨ok,trivial⟩
    simpa [step,State.locksStep] using runs
  | finish k fileId => exact reachable_run .start [SessionLocks.Label.finish k fileId] ⟨ok.1,trivial⟩
  | look k fileId | unlink k fileId removed | warm fileId contentVersion | evict fileId => exact .start

inductive Publishes (s : State Version) : Label Version → String → Option Version → Prop
  | renamed {id : Nat} {session : Session Version} : s.sessions[id]? = some session →
      Publishes s (.session id .renameDone) session.fileId session.contentVersion
  | warmed (fileId : String) (contentVersion : Option Version) :
      Publishes s (.warm fileId contentVersion) fileId contentVersion

theorem step_publishes (s : State Version) (l : Label Version) :
    (∃ fileId contentVersion, Publishes s l fileId contentVersion ∧
      (step s l).cacheFiles = s.cacheFiles.set fileId ⟨s.publications,contentVersion⟩ ∧
      (step s l).publications = s.publications + 1) ∨
    ((step s l).publications = s.publications ∧
      ((step s l).cacheFiles = s.cacheFiles ∨ ∃ fileId, (step s l).cacheFiles = s.cacheFiles.delete fileId)) := by
  cases l with
  | create fileId expectedSize contentVersion => exact .inr (by simp [step,State.replaced,State.locksStep])
  | supersede fileId contentVersion => exact .inr (by simp [step,State.replaced,State.locksStep])
  | abort fileId error => exact .inr (by simp [step])
  | fence k fileId => exact .inr (by simp [step,State.locksStep])
  | join fileId contentVersion =>
    refine .inr ?_
    simp only [step]
    split
    · exact ⟨rfl,.inl rfl⟩
    · exact ⟨rfl,.inl rfl⟩
  | session id event =>
    simp only [step]
    cases at_id : s.sessions[id]? with
    | none => exact .inr ⟨rfl,.inl rfl⟩
    | some session =>
      cases event with
      | renameDone => exact .inl ⟨session.fileId,session.contentVersion,.renamed at_id,rfl,rfl⟩
      | _ => exact .inr ⟨rfl,.inl rfl⟩
  | warm fileId contentVersion => exact .inl ⟨fileId,contentVersion,.warmed fileId contentVersion,rfl,rfl⟩
  | evict fileId => exact .inr ⟨rfl,.inr ⟨fileId,rfl⟩⟩
  | unlink k fileId removed =>
    cases removed with
    | true => exact .inr ⟨rfl,.inr ⟨fileId,rfl⟩⟩
    | false => exact .inr ⟨rfl,.inl rfl⟩
  | _ => exact .inr ⟨rfl,.inl rfl⟩

theorem step_files {fileId : String} {file : CacheFile Version}
    (found : (step s l).cacheFiles.get fileId = some file) :
    s.cacheFiles.get fileId = some file ∨
      ∃ contentVersion, Publishes s l fileId contentVersion ∧ file = ⟨s.publications,contentVersion⟩ := by
  rcases step_publishes s l with ⟨there,contentVersion,publishes,files,_⟩ | ⟨_,files | ⟨there,files⟩⟩
  · rw [files] at found
    by_cases here : fileId = there
    · subst here
      rw [get_set_same] at found
      exact .inr ⟨contentVersion,publishes,(Option.some.inj found).symm⟩
    · exact .inl (by rwa [get_set_other _ _ here] at found)
  · exact .inl (by rwa [files] at found)
  · rw [files] at found
    by_cases here : fileId = there
    · subst here
      rw [get_delete_same] at found
      cases found
    · exact .inl (by rwa [get_delete_other _ here] at found)

theorem publications_grow (s : State Version) (l : Label Version) : s.publications ≤ (step s l).publications := by
  rcases step_publishes s l with ⟨_,_,_,_,more⟩ | ⟨same,_⟩
  · omega
  · omega

/-! ### Each session runs as its runner does -/

abbrev SessionRuns (session session' : Session Version) : Prop :=
  Reachable BuildSession.step BuildSession.Allowed session session'

/-- What a step of the cache does to a session: nothing, an abort, or a step of its runner. -/
inductive Touch (l : Label Version) (id : Nat) (session : Session Version) : Session Version → Prop
  | none : Touch l id session session
  | abort (error : String) : Touch l id session (session.abort error)
  | event (event : Event) : l = .session id event → BuildSession.Allowed session event →
      Touch l id session (BuildSession.step session event)

omit [DecidableEq Version] in
theorem abortSession_touch (s : State Version) (l : Label Version) (fileId error : String) {id : Nat}
    {session' : Session Version} (at_id : (s.abortSession fileId error).sessions[id]? = some session') :
    ∃ session, s.sessions[id]? = some session ∧ Touch l id session session' := by
  unfold State.abortSession at at_id
  cases registered : s.coordinator.buildSessions.get fileId with
  | none =>
    simp only [registered] at at_id
    exact ⟨session',at_id,.none⟩
  | some place =>
    simp only [registered,List.getElem?_modify] at at_id
    obtain ⟨session,found,rfl⟩ := Option.map_eq_some_iff.mp at_id
    refine ⟨session,found,?_⟩
    by_cases here : place = id
    · simp only [here,↓reduceIte]
      exact .abort error
    · simp only [here,↓reduceIte]
      exact .none

theorem step_session (ok : Allowed s l) {id : Nat} {session' : Session Version}
    (at_id : (step s l).sessions[id]? = some session') :
    (∃ session, s.sessions[id]? = some session ∧ Touch l id session session') ∨
      ∃ fileId expectedSize contentVersion, l = .create fileId expectedSize contentVersion ∧ id = s.sessions.length ∧
        session' = begin fileId expectedSize contentVersion := by
  cases l with
  | create fileId expectedSize contentVersion =>
    have length : (s.replaced fileId).sessions.length = s.sessions.length := (abortSession_frame s fileId _).2.1
    simp only [step] at at_id
    rcases Nat.lt_or_ge id (s.replaced fileId).sessions.length with known | beyond
    · rw [List.getElem?_append_left known] at at_id
      exact .inl (abortSession_touch s _ fileId _ at_id)
    have bound := at_lt at_id
    obtain rfl : id = (s.replaced fileId).sessions.length := by
      simp only [List.length_append,List.length_singleton] at bound
      omega
    simp only [List.getElem?_append_right (Nat.le_refl _),Nat.sub_self,List.getElem?_cons_zero,
      Option.some.injEq] at at_id
    exact .inr ⟨fileId,expectedSize,contentVersion,rfl,length,at_id.symm⟩
  | supersede fileId contentVersion => exact .inl (abortSession_touch s _ fileId _ at_id)
  | join fileId contentVersion =>
    refine .inl ⟨session',?_,.none⟩
    simp only [step] at at_id
    split at at_id
    · exact at_id
    · exact at_id
  | session place event =>
    obtain ⟨target,at_place,ok⟩ := ok
    have moved : (s.sessions.modify place (BuildSession.step · event))[id]? = some session' := by
      simp only [step,at_place] at at_id
      cases event with
      | _ => exact at_id
    rw [List.getElem?_modify] at moved
    obtain ⟨session,found,rfl⟩ := Option.map_eq_some_iff.mp moved
    refine .inl ⟨session,found,?_⟩
    by_cases here : place = id
    · subst here
      obtain rfl : target = session := by simpa [found] using at_place.symm
      simp only [↓reduceIte]
      exact .event event rfl ok
    · simp only [here]
      exact .none
  | abort fileId error => exact .inl (abortSession_touch s _ fileId error at_id)
  | fence k fileId => exact .inl (abortSession_touch s _ fileId _ at_id)
  | _ => exact .inl ⟨session',at_id,.none⟩

theorem step_sessions_grow (s : State Version) (l : Label Version) :
    s.sessions.length ≤ (step s l).sessions.length := by
  cases l with
  | create fileId expectedSize contentVersion | supersede fileId contentVersion => simp [step,State.replaced,State.locksStep]
  | abort fileId error => simp [step]
  | fence k fileId => simp [step,State.locksStep]
  | join fileId contentVersion =>
    simp only [step]
    split
    · exact Nat.le_refl _
    · exact Nat.le_refl _
  | session id event =>
    simp only [step]
    split
    · exact Nat.le_refl _
    · cases event with
      | _ => simp [State.sessionStep,State.publish,State.locksStep]
  | _ => exact Nat.le_refl _

theorem step_touches (ok : Allowed s l) {id : Nat}
    (at_id : s.sessions[id]? = some session) :
    ∃ session', (step s l).sessions[id]? = some session' ∧ Touch l id session session' := by
  have known := at_lt at_id
  have later : (step s l).sessions[id]? = some ((step s l).sessions.get ⟨id,Nat.lt_of_lt_of_le known
    (step_sessions_grow s l)⟩) := by simp
  rcases step_session ok later with ⟨old,found,touch⟩ | ⟨_,_,_,_,new,_⟩
  · obtain rfl : old = session := by simpa [at_id] using found.symm
    exact ⟨_,later,touch⟩
  · omega

omit [DecidableEq Version] in
theorem touch_identity {l : Label Version} {id : Nat} {session session' : Session Version}
    (touch : Touch l id session session') :
    session'.fileId = session.fileId ∧ session'.contentVersion = session.contentVersion := by
  cases touch with
  | none => exact ⟨rfl,rfl⟩
  | abort error =>
    obtain ⟨file,version,_⟩ := quiet_frame (Quiet.aborts (s := session) error (session.abort error).deadline)
    exact ⟨file,version⟩
  | event event _ ok => exact step_identity ok

omit [DecidableEq Version] in
theorem touch_out {l : Label Version} {id : Nat} {session session' : Session Version}
    (touch : Touch l id session session') (noRename : l ≠ .session id .renameDone) (out : session'.Out) :
    session.Out := by
  cases touch with
  | none => exact out
  | abort error => simpa [Session.Out] using out
  | event event shape ok =>
    refine step_out ok ?_ out
    rintro rfl
    exact noRename shape

omit [DecidableEq Version] in
theorem touch_runs {l : Label Version} {id : Nat} {session session' : Session Version}
    (touch : Touch l id session session') : SessionRuns session session' := by
  cases touch with
  | none => exact .start
  | abort error => exact Reachable.start.next (Event.abort error) trivial
  | event event _ ok => exact Reachable.start.next event ok

theorem step_runs (ok : Allowed s l) {id : Nat}
    (at_id : s.sessions[id]? = some session) :
    ∃ session', (step s l).sessions[id]? = some session' ∧ SessionRuns session session' := by
  obtain ⟨session',at_id',touch⟩ := step_touches ok at_id
  exact ⟨session',at_id',touch_runs touch⟩

theorem run_runs {s' : State Version} (reach : Reachable step Allowed s s') {id : Nat}
    (at_id : s.sessions[id]? = some session) :
    ∃ session', s'.sessions[id]? = some session' ∧ SessionRuns session session' := by
  induction reach with
  | start => exact ⟨session,at_id,.start⟩
  | next l _ ok ih =>
    obtain ⟨middle,at_middle,runs⟩ := ih
    obtain ⟨session',at_id',runs'⟩ := step_runs ok at_middle
    exact ⟨session',at_id',reachable_trans runs runs'⟩

end
end Tgtc.CacheService
