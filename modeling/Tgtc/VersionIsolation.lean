import Tgtc.CacheService

/-!
Which version's bytes a stream delivers. A file has a current version that every change counts up; requests carry the
version they have read, which may be an older one, and fetch the content of that version.
-/
namespace Tgtc.VersionIsolation
open Maps Runs CacheService
open BuildSession (Session)

inductive Source where
  /-- a file was found under the cache path, this publication, and is not open yet -/
  | checked (number : Nat)
  | opened (content : Option Nat)
  /-- a build session: its own file until it is complete, then whatever is under the cache path -/
  | follower (session : Nat)
  | spool (number : Nat)
  | direct
  | failed
deriving DecidableEq

structure Stream where
  fileId : String
  version : Nat
  source : Source
  delivered : List (Option Nat)
deriving DecidableEq

structure State where
  cache : CacheService.State Nat
  current : String → Nat
  /-- the file has changed and the cache file has not been removed by an invalidation since -/
  changed : String → Bool
  contents : List (Option Nat)
  shelved : Nat → Option Nat
  spoolVersions : List Nat
  streams : List Stream

def initial : State :=
  { cache := CacheService.initial, current := fun _ => 0, changed := fun _ => false, contents := []
    shelved := fun _ => none, spoolVersions := [], streams := [] }

inductive Label where
  | cache (l : CacheService.Label Nat)
  | change (fileId : String)
  | hit (fileId : String) (version : Nat)
  | openHit (i : Nat)
  | follow (fileId : String) (version : Nat)
  | startSpool (fileId : String) (version : Nat)
  | followSpool (fileId : String) (version : Nat)
  | direct (fileId : String) (version : Nat)
  | read (i : Nat)
  | readTmp (i : Nat)
  | readCache (i : Nat)

def Stream.deliver (stream : Stream) (content : Option Nat) : Stream :=
  { stream with delivered := stream.delivered ++ [content] }

def State.openStream (s : State) (stream : Stream) : Stream :=
  match stream.source with
  | .checked _ =>
    match s.cache.cacheFiles.get stream.fileId with
    | none => { stream with source := .failed }
    | some file => { stream with source := .opened file.contentVersion }
  | _ => stream

def State.readStream (s : State) (stream : Stream) : Stream :=
  match stream.source with
  | .opened content => stream.deliver content
  | .spool number => stream.deliver s.spoolVersions[number]?
  | .direct => stream.deliver (some stream.version)
  | _ => stream

def State.readTmpStream (s : State) (stream : Stream) : Stream :=
  match stream.source with
  | .follower id => stream.deliver ((s.cache.sessions[id]?).bind Session.contentVersion)
  | _ => stream

def State.readCacheStream (s : State) (stream : Stream) : Stream :=
  match stream.source with
  | .follower _ =>
    match s.cache.cacheFiles.get stream.fileId with
    | none => { stream with source := .failed }
    | some file => stream.deliver file.contentVersion
  | _ => stream

def State.begin (s : State) (fileId : String) (version : Nat) (source : Source) : State :=
  { s with streams := s.streams ++ [⟨fileId,version,source,[]⟩] }

def State.cacheStep (s : State) (l : CacheService.Label Nat) : State :=
  let moved := { s with cache := CacheService.step s.cache l }
  match l with
  | .session id .renameDone =>
    { moved with contents := s.contents ++ [(s.cache.sessions[id]?).bind Session.contentVersion]
                 shelved := Function.update s.shelved id (some s.cache.publications) }
  | .unlink _ fileId true => { moved with changed := Function.update s.changed fileId false }
  | _ => moved

def step (s : State) : Label → State
  | .cache l => s.cacheStep l
  | .change fileId =>
    { s with current := Function.update s.current fileId (s.current fileId + 1)
             changed := Function.update s.changed fileId true }
  | .hit fileId version =>
    match s.cache.cacheFiles.get fileId with
    | none => s
    | some file => s.begin fileId version (.checked file.number)
  | .openHit i => { s with streams := s.streams.modify i s.openStream }
  | .follow fileId version =>
    match s.cache.joinable fileId (some version) with
    | none => s
    | some (id,_) => s.begin fileId version (.follower id)
  | .startSpool fileId version =>
    { s with cache := s.cache.locksStep (.registerSpool fileId), spoolVersions := s.spoolVersions ++ [version] }
  | .followSpool fileId version =>
    match s.cache.coordinator.spoolSessions.get fileId with
    | none => s
    | some number => s.begin fileId version (.spool number)
  | .direct fileId version => s.begin fileId version .direct
  | .read i => { s with streams := s.streams.modify i s.readStream }
  | .readTmp i => { s with streams := s.streams.modify i s.readTmpStream }
  | .readCache i => { s with streams := s.streams.modify i s.readCacheStream }

/-- Every request carries a version; spool sessions start by the label of their own, and uploads do not warm. -/
def Versioned : CacheService.Label Nat → Prop
  | .create _ _ contentVersion => contentVersion ≠ none
  | .locks (.registerSpool _) | .warm _ _ => False
  | _ => True

def Allowed (s : State) : Label → Prop
  | .cache l => Versioned l ∧ CacheService.Allowed s.cache l
  | .hit fileId _ => s.cache.cacheFiles.get fileId ≠ none
  | .follow fileId version => s.cache.joinable fileId (some version) ≠ none
  | .startSpool fileId _ => fileId ∉ s.cache.coordinator.invalidatingFileIds
  | .followSpool fileId version =>
    -- a spool session is reused only for its version
    ∃ number, s.cache.coordinator.spoolSessions.get fileId = some number ∧ s.spoolVersions[number]? = some version
  | .readCache i => ∃ stream id session, s.streams[i]? = some stream ∧ stream.source = .follower id ∧
      s.cache.sessions[id]? = some session ∧ session.completed = true
  | .change _ | .openHit _ | .direct _ _ | .read _ | .readTmp _ => True

/-- Builds publish the current version, requests ask for it after the last invalidation, and what is
opened under the cache path is what was found, the session's own, or of an old version. -/
def InTime (s : State) : Label → Prop
  | .cache (.session id .renameDone) => ∀ session, s.cache.sessions[id]? = some session →
      session.contentVersion = some (s.current session.fileId)
  | .hit fileId version => version = s.current fileId ∧ s.changed fileId = false
  | .openHit i => ∀ stream number, s.streams[i]? = some stream → stream.source = .checked number →
      ∀ file, s.cache.cacheFiles.get stream.fileId = some file →
        file.number = number ∨ stream.version = s.current stream.fileId
  | .readCache i => ∀ stream id, s.streams[i]? = some stream → stream.source = .follower id →
      ∀ file, s.cache.cacheFiles.get stream.fileId = some file →
        s.shelved id = some file.number ∨ stream.version = s.current stream.fileId
  | _ => True

def Timely (s : State) (l : Label) : Prop := Allowed s l ∧ InTime s l

structure Shelved (s : State) (session : Session Nat) (number version : Nat) : Prop where
  own : session.contentVersion = some version
  content : s.contents[number]? = some (some version)
  past : version ≤ s.current session.fileId
  only : version = s.current session.fileId →
    ∀ file, s.cache.cacheFiles.get session.fileId = some file → file.contentVersion = some version

structure Sound (s : State) (stream : Stream) : Prop where
  delivered : ∀ content ∈ stream.delivered, content = some stream.version
  checked : ∀ number, stream.source = .checked number → s.contents[number]? = some (some stream.version) ∧
    stream.version ≤ s.current stream.fileId ∧
    (stream.version = s.current stream.fileId → s.changed stream.fileId = false)
  opened : ∀ content, stream.source = .opened content → content = some stream.version
  follows : ∀ id, stream.source = .follower id → ∃ session : Session Nat, s.cache.sessions[id]? = some session ∧
    session.contentVersion = some stream.version ∧ session.fileId = stream.fileId
  spooled : ∀ number, stream.source = .spool number → s.spoolVersions[number]? = some stream.version

structure Inv (s : State) : Prop where
  reached : CacheService.Reached s.cache
  counted : s.contents.length = s.cache.publications
  recorded : ∀ fileId file, s.cache.cacheFiles.get fileId = some file → s.contents[file.number]? = some file.contentVersion
  fresh : ∀ fileId file, s.cache.cacheFiles.get fileId = some file →
    file.contentVersion = some (s.current fileId) ∨ s.changed fileId = true
  versioned : ∀ (id : Nat) (session : Session Nat), s.cache.sessions[id]? = some session → session.contentVersion ≠ none
  out : ∀ (id : Nat) (session : Session Nat), s.cache.sessions[id]? = some session → session.Out → s.shelved id ≠ none
  shelved : ∀ id number, s.shelved id = some number →
    ∃ session version, s.cache.sessions[id]? = some session ∧ Shelved s session number version
  streams : ∀ stream ∈ s.streams, Sound s stream

theorem initial_inv : Inv initial := by
  constructor
  case reached => exact .start
  all_goals simp [initial,CacheService.initial,OrderedMap.empty,OrderedMap.get]

structure Later (s s' : State) : Prop where
  contents : ∀ {number : Nat} {content : Option Nat}, s.contents[number]? = some content →
    s'.contents[number]? = some content
  current : ∀ fileId, s.current fileId ≤ s'.current fileId
  changed : ∀ fileId, s'.current fileId = s.current fileId → s.changed fileId = false → s'.changed fileId = false
  spools : ∀ {number version : Nat}, s.spoolVersions[number]? = some version → s'.spoolVersions[number]? = some version
  sessions : ∀ {id : Nat} {session : Session Nat}, s.cache.sessions[id]? = some session →
    ∃ session' : Session Nat, s'.cache.sessions[id]? = some session' ∧ session'.fileId = session.fileId ∧
      session'.contentVersion = session.contentVersion

variable {s : State} {fileId : String} {version : Nat} {l : CacheService.Label Nat} {stream : Stream}

theorem sound_later {s' : State} (later : Later s s') (sound : Sound s stream) :
    Sound s' stream := by
  refine ⟨sound.delivered,?_,sound.opened,?_,?_⟩
  · intro number checked
    obtain ⟨content,past,settled⟩ := sound.checked number checked
    refine ⟨later.contents content,Nat.le_trans past (later.current _),?_⟩
    intro now
    have unchanged : s'.current stream.fileId = s.current stream.fileId := by
      have := later.current stream.fileId
      omega
    exact later.changed _ unchanged (settled (now.trans unchanged))
  · intro id follows
    obtain ⟨session,at_id,version,file⟩ := sound.follows id follows
    obtain ⟨session',at_id',file',version'⟩ := later.sessions at_id
    exact ⟨session',at_id',version'.trans version,file'.trans file⟩
  · intro number spooled
    exact later.spools (sound.spooled number spooled)

theorem later_refl (s : State) (streams : List Stream) : Later s { s with streams := streams } :=
  ⟨id,fun _ => Nat.le_refl _,fun _ _ settled => settled,id,fun {_ session} at_id => ⟨session,at_id,rfl,rfl⟩⟩

theorem streams_inv (inv : Inv s) {streams : List Stream} (sound : ∀ stream ∈ streams, Sound s stream) :
    Inv { s with streams := streams } := by
  refine { inv with shelved := ?_, streams := ?_ }
  · intro id number shelved
    obtain ⟨session,version,at_id,own,content,past,only⟩ := inv.shelved id number shelved
    exact ⟨session,version,at_id,own,content,past,only⟩
  · intro stream member
    exact sound_later (later_refl s streams) (sound stream member)

theorem begin_inv (inv : Inv s) {source : Source}
    (sound : Sound s ⟨fileId,version,source,[]⟩) : Inv (s.begin fileId version source) := by
  apply streams_inv inv
  intro stream member
  rw [List.mem_append,List.mem_singleton] at member
  rcases member with old | rfl
  · exact inv.streams stream old
  · exact sound

theorem modify_inv (inv : Inv s) (i : Nat) {g : Stream → Stream}
    (keep : ∀ stream, s.streams[i]? = some stream → Sound s stream → Sound s (g stream)) :
    Inv { s with streams := s.streams.modify i g } := by
  apply streams_inv inv
  intro stream member
  obtain ⟨j,at_j⟩ := List.mem_iff_getElem?.mp member
  rw [List.getElem?_modify] at at_j
  obtain ⟨old,found,rfl⟩ := Option.map_eq_some_iff.mp at_j
  have sound := inv.streams old (List.mem_of_getElem? found)
  by_cases here : i = j
  · simp only [here]
    exact keep old (here ▸ found) sound
  · simp only [here]
    exact sound

theorem deliver_sound (sound : Sound s stream) {content : Option Nat}
    (right : content = some stream.version) : Sound s (stream.deliver content) := by
  refine ⟨?_,sound.checked,sound.opened,sound.follows,sound.spooled⟩
  intro other member
  simp only [Stream.deliver,List.mem_append,List.mem_singleton] at member
  rcases member with old | rfl
  · exact sound.delivered other old
  · exact right

theorem failed_sound (sound : Sound s stream) :
    Sound s { stream with source := .failed } :=
  ⟨sound.delivered,by simp,by simp,by simp,by simp⟩

section
variable (inv : Inv s)
include inv

theorem openHit_inv {i : Nat} (inTime : InTime s (.openHit i)) : Inv (step s (.openHit i)) := by
  apply modify_inv inv
  intro stream at_i sound
  unfold State.openStream
  cases source : stream.source with
  | checked number =>
    cases found : s.cache.cacheFiles.get stream.fileId with
    | none => exact failed_sound sound
    | some file =>
      obtain ⟨content,_,settled⟩ := sound.checked number source
      have right : file.contentVersion = some stream.version := by
        rcases inTime stream number at_i source file found with same | now
        · have held := inv.recorded stream.fileId file found
          rw [same,content] at held
          exact (Option.some.inj held).symm
        · rcases inv.fresh stream.fileId file found with fresh | changed
          · rw [fresh,now]
          · rw [settled now] at changed
            cases changed
      exact ⟨sound.delivered,by simp,by simpa using right,by simp,by simp⟩
  | _ => exact sound

theorem read_inv (i : Nat) : Inv (step s (.read i)) := by
  apply modify_inv inv
  intro stream _ sound
  unfold State.readStream
  cases source : stream.source with
  | opened content => exact deliver_sound sound (sound.opened content source)
  | spool number => exact deliver_sound sound (sound.spooled number source)
  | direct => exact deliver_sound sound rfl
  | _ => exact sound

theorem readTmp_inv (i : Nat) : Inv (step s (.readTmp i)) := by
  apply modify_inv inv
  intro stream _ sound
  unfold State.readTmpStream
  cases source : stream.source with
  | follower id =>
    obtain ⟨session,at_id,version,_⟩ := sound.follows id source
    exact deliver_sound sound (by simp [at_id,version])
  | _ => exact sound

theorem readCache_inv {i : Nat} (ok : Allowed s (.readCache i)) (inTime : InTime s (.readCache i)) : Inv (step s (.readCache i)) := by
  apply modify_inv inv
  intro stream at_i sound
  obtain ⟨stream',id,session,at_i',source,at_id,completed⟩ := ok
  obtain rfl : stream = stream' := by simpa [at_i] using at_i'
  obtain ⟨session',at_id',version,file_id⟩ := sound.follows id source
  obtain rfl : session = session' := by simpa [at_id] using at_id'
  simp only [State.readCacheStream,source]
  cases found : s.cache.cacheFiles.get stream.fileId with
  | none => exact failed_sound sound
  | some file =>
    refine deliver_sound sound ?_
    cases number : s.shelved id with
    | none => exact absurd number (inv.out id session at_id (.inr completed))
    | some own =>
      obtain ⟨there,v,at_there,shelf⟩ := inv.shelved id own number
      obtain rfl : session = there := by simpa [at_id] using at_there
      obtain rfl : v = stream.version := Option.mem_unique shelf.own version
      rcases inTime stream id at_i source file found with same | now
      · -- the file is the session's own publication
        rw [number] at same
        obtain rfl := Option.some.inj same
        have held := inv.recorded stream.fileId file found
        rw [shelf.content] at held
        exact (Option.some.inj held).symm
      · exact shelf.only (by rw [file_id]; exact now) file (by rw [file_id]; exact found)

theorem hit_inv (inTime : InTime s (.hit fileId version)) : Inv (step s (.hit fileId version)) := by
  simp only [step]
  cases found : s.cache.cacheFiles.get fileId with
  | none => exact inv
  | some file =>
    obtain ⟨now,settled⟩ := inTime
    have held := inv.recorded fileId file found
    have fresh : file.contentVersion = some version := by
      rcases inv.fresh fileId file found with fresh | changed
      · rw [fresh,now]
      · rw [settled] at changed
        cases changed
    refine begin_inv inv ⟨by simp,?_,by simp,by simp,by simp⟩
    intro number checked
    obtain rfl := Source.checked.inj checked
    exact ⟨held.trans (by rw [fresh]),Nat.le_of_eq now,fun _ => settled⟩

theorem follow_inv (fileId : String) (version : Nat) : Inv (step s (.follow fileId version)) := by
  simp only [step]
  cases found : s.cache.joinable fileId (some version) with
  | none => exact inv
  | some pair =>
    obtain ⟨id,session⟩ := pair
    obtain ⟨_,at_id,mine,_,same⟩ := joinable_registered inv.reached found
    have versioned := inv.versioned id session at_id
    refine begin_inv inv ⟨by simp,by simp,by simp,?_,by simp⟩
    intro other follows
    obtain rfl := Source.follower.inj follows
    refine ⟨session,at_id,?_,mine⟩
    cases own : session.contentVersion with
    | none => exact absurd own versioned
    | some v => simpa [sameContentVersion,own] using same

theorem followSpool_inv (ok : Allowed s (.followSpool fileId version)) : Inv (step s (.followSpool fileId version)) := by
  obtain ⟨number,registered,own⟩ := ok
  simp only [step,registered]
  refine begin_inv inv ⟨by simp,by simp,by simp,by simp,?_⟩
  intro other spooled
  obtain rfl := Source.spool.inj spooled
  exact own

theorem startSpool_inv (free : fileId ∉ s.cache.coordinator.invalidatingFileIds) : Inv (step s (.startSpool fileId version)) := by
  have reached := inv.reached.next (CacheService.Label.locks (.registerSpool fileId)) ⟨trivial,free⟩
  have later : Later s (step s (.startSpool fileId version)) := by
    refine ⟨id,fun _ => Nat.le_refl _,fun _ _ settled => settled,?_,fun {_ session} at_id => ⟨session,at_id,rfl,rfl⟩⟩
    intro number v own
    have known := at_lt own
    exact (List.getElem?_append_left known).trans own
  refine ⟨reached,inv.counted,inv.recorded,inv.fresh,inv.versioned,inv.out,?_,?_⟩
  · intro id number shelved
    obtain ⟨session,v,at_id,own,content,past,only⟩ := inv.shelved id number shelved
    exact ⟨session,v,at_id,own,content,past,only⟩
  · intro stream member
    exact sound_later later (inv.streams stream member)

theorem change_inv (fileId : String) : Inv (step s (.change fileId)) := by
  have grows : ∀ other, s.current other ≤ (step s (.change fileId)).current other := by
    intro other
    by_cases here : other = fileId
    · subst here
      simp [step]
    · simp [step,here]
  have moves : (step s (.change fileId)).current fileId = s.current fileId + 1 := by simp [step]
  have later : Later s (step s (.change fileId)) := by
    refine ⟨id,grows,?_,id,fun {_ session} at_id => ⟨session,at_id,rfl,rfl⟩⟩
    intro other same settled
    have elsewhere : other ≠ fileId := by
      rintro rfl
      omega
    simpa [step,elsewhere] using settled
  refine ⟨inv.reached,inv.counted,inv.recorded,?_,inv.versioned,inv.out,?_,?_⟩
  · intro other file found
    by_cases here : other = fileId
    · exact .inr (by simp [step,here])
    · simpa [step,here] using inv.fresh other file found
  · intro id number shelved
    obtain ⟨session,v,at_id,own,content,past,only⟩ := inv.shelved id number shelved
    refine ⟨session,v,at_id,own,content,Nat.le_trans past (grows _),?_⟩
    intro now
    have elsewhere : session.fileId ≠ fileId := by
      intro here
      rw [here] at now past
      omega
    exact only (by simpa [step,elsewhere] using now)
  · intro stream member
    exact sound_later later (inv.streams stream member)

end

theorem cache_sessions (ok : CacheService.Allowed s.cache l) {id : Nat}
    {session : Session Nat} (at_id : s.cache.sessions[id]? = some session) :
    ∃ session' : Session Nat, (CacheService.step s.cache l).sessions[id]? = some session' ∧
      session'.fileId = session.fileId ∧ session'.contentVersion = session.contentVersion := by
  obtain ⟨session',at_id',touch⟩ := step_touches ok at_id
  exact ⟨session',at_id',touch_identity touch⟩

theorem cache_versioned (inv : Inv s) (versioned : Versioned l)
    (ok : CacheService.Allowed s.cache l) (id : Nat) (session : Session Nat)
    (at_id : (CacheService.step s.cache l).sessions[id]? = some session) : session.contentVersion ≠ none := by
  rcases step_session ok at_id with ⟨old,found,touch⟩ | ⟨fileId,expectedSize,contentVersion,rfl,_,rfl⟩
  · rw [(touch_identity touch).2]
    exact inv.versioned id old found
  · exact versioned

theorem cache_out (inv : Inv s) (ok : CacheService.Allowed s.cache l)
    (id : Nat) (session : Session Nat) (noRename : l ≠ .session id .renameDone)
    (at_id : (CacheService.step s.cache l).sessions[id]? = some session) (out : session.Out) : s.shelved id ≠ none := by
  rcases step_session ok at_id with ⟨old,found,touch⟩ | ⟨fileId,expectedSize,contentVersion,rfl,_,rfl⟩
  · exact inv.out id old found (touch_out touch noRename out)
  · simp [Session.Out,BuildSession.begin] at out

theorem rename_inv (inv : Inv s) {id : Nat} {session : Session Nat}
    (at_id : s.cache.sessions[id]? = some session) (ok : CacheService.Allowed s.cache (.session id .renameDone))
    (now : session.contentVersion = some (s.current session.fileId)) :
    Inv (s.cacheStep (.session id .renameDone)) := by
  have contents : (s.cacheStep (.session id .renameDone)).contents =
      s.contents ++ [some (s.current session.fileId)] := by
    simp [State.cacheStep,at_id,now]
  have grow : ∀ {number : Nat} {content : Option Nat}, s.contents[number]? = some content →
      (s.cacheStep (.session id .renameDone)).contents[number]? = some content := by
    intro number content held
    exact (List.getElem?_append_left (at_lt held)).trans held
  have new : (s.cacheStep (.session id .renameDone)).contents[s.cache.publications]? =
      some (some (s.current session.fileId)) := by
    rw [contents,← inv.counted]
    simp
  -- every file there is an old one, or the one this rename has published
  have files : ∀ fileId file, (CacheService.step s.cache (.session id .renameDone)).cacheFiles.get fileId = some file →
      s.cache.cacheFiles.get fileId = some file ∨
        (fileId = session.fileId ∧ file = ⟨s.cache.publications,some (s.current fileId)⟩) := by
    intro fileId file found
    rcases step_files found with old | ⟨contentVersion,publishes,rfl⟩
    · exact .inl old
    · cases publishes with
      | renamed at_id' =>
        obtain rfl := Option.mem_unique at_id at_id'
        exact .inr ⟨rfl,by rw [now]⟩
  have later : Later s (s.cacheStep (.session id .renameDone)) :=
    ⟨grow,fun _ => Nat.le_refl _,fun _ _ settled => settled,fun own => own,cache_sessions ok⟩
  constructor
  case reached => exact inv.reached.next _ ok
  case counted =>
    rw [contents,List.length_append,inv.counted]
    simp [State.cacheStep,CacheService.step,at_id,State.sessionStep,State.publish]
  case recorded =>
    intro fileId file found
    rcases files fileId file found with old | ⟨rfl,rfl⟩
    · exact grow (inv.recorded fileId file old)
    · exact new
  case fresh =>
    intro fileId file found
    rcases files fileId file found with old | ⟨rfl,rfl⟩
    · exact inv.fresh fileId file old
    · exact .inl rfl
  case versioned => exact cache_versioned inv trivial ok
  case out =>
    intro other t at_other out
    by_cases here : other = id
    · subst here
      simp [State.cacheStep]
    · have shelved := cache_out inv ok other t (by simp [Ne.symm here]) at_other out
      simpa [State.cacheStep,here] using shelved
  case shelved =>
    intro other number shelved
    by_cases here : other = id
    · subst here
      obtain rfl : s.cache.publications = number := by simpa [State.cacheStep] using shelved
      obtain ⟨session',at_id',file,version⟩ := cache_sessions ok at_id
      refine ⟨session',s.current session.fileId,at_id',version.trans now,new,?_,?_⟩
      · rw [file]
        exact Nat.le_refl _
      · intro _ there found
        rw [file] at found
        have own : (CacheService.step s.cache (.session other .renameDone)).cacheFiles.get session.fileId =
            some ⟨s.cache.publications,session.contentVersion⟩ := by
          simp only [CacheService.step,at_id]
          exact get_set_same _ _ _
        obtain rfl := Option.mem_unique own found
        exact now
    · obtain ⟨t,v,at_other,own,content,past,only⟩ := inv.shelved other number (by
        simpa [State.cacheStep,here] using shelved)
      obtain ⟨t',at_other',file,version⟩ := cache_sessions ok at_other
      refine ⟨t',v,at_other',version.trans own,grow content,by rw [file]; exact past,?_⟩
      rw [file]
      intro current there found
      rcases files t.fileId there found with old | ⟨_,rfl⟩
      · exact only current there old
      · exact congrArg some current.symm
  case streams =>
    intro stream member
    exact sound_later later (inv.streams stream member)

theorem cache_inv (inv : Inv s) (versioned : Versioned l)
    (ok : CacheService.Allowed s.cache l) (noRename : ∀ id, l ≠ .session id .renameDone) : Inv (s.cacheStep l) := by
  have files : ∀ fileId file, (CacheService.step s.cache l).cacheFiles.get fileId = some file →
      s.cache.cacheFiles.get fileId = some file := by
    intro fileId file found
    rcases step_files found with old | ⟨contentVersion,publishes,_⟩
    · exact old
    · cases publishes with
      | renamed at_id => exact absurd rfl (noRename _)
      | warmed => exact absurd versioned id
  have counted : (CacheService.step s.cache l).publications = s.cache.publications := by
    rcases step_publishes s.cache l with ⟨fileId,contentVersion,publishes,_⟩ | ⟨same,_⟩
    · cases publishes with
      | renamed at_id => exact absurd rfl (noRename _)
      | warmed => exact absurd versioned id
    · exact same
  -- an unlink that settles a change has left no file under its path
  have shape : ∃ changed : String → Bool,
      s.cacheStep l = { s with cache := CacheService.step s.cache l, changed := changed } ∧
      ∀ fileId, changed fileId = s.changed fileId ∨ (changed fileId = false ∧
        (CacheService.step s.cache l).cacheFiles.get fileId = none) := by
    by_cases unlinks : ∃ k fileId, l = .unlink k fileId true
    · obtain ⟨k,fileId,rfl⟩ := unlinks
      refine ⟨Function.update s.changed fileId false,rfl,?_⟩
      intro other
      by_cases here : other = fileId
      · subst here
        exact .inr ⟨by simp,get_delete_same _ _⟩
      · exact .inl (by simp [here])
    · refine ⟨s.changed,?_,fun _ => .inl rfl⟩
      unfold State.cacheStep
      split
      · exact absurd rfl (noRename _)
      · exact absurd ⟨_,_,rfl⟩ unlinks
      · rfl
  obtain ⟨changed,same,settles⟩ := shape
  rw [same]
  have later : Later s { s with cache := CacheService.step s.cache l, changed := changed } := by
    refine ⟨id,fun _ => Nat.le_refl _,?_,id,cache_sessions ok⟩
    intro fileId _ settled
    rcases settles fileId with still | ⟨cleared,_⟩
    · exact still.trans settled
    · exact cleared
  constructor
  case reached => exact inv.reached.next l ok
  case counted => exact inv.counted.trans counted.symm
  case recorded => exact fun fileId file found => inv.recorded fileId file (files fileId file found)
  case fresh =>
    intro fileId file found
    rcases settles fileId with still | ⟨_,gone⟩
    · show _ ∨ changed fileId = true
      rw [still]
      exact inv.fresh fileId file (files fileId file found)
    · rw [gone] at found
      cases found
  case versioned => exact cache_versioned inv versioned ok
  case out => exact fun id session at_id out => cache_out inv ok id session (noRename id) at_id out
  case shelved =>
    intro id number shelved
    obtain ⟨session,v,at_id,own,content,past,only⟩ := inv.shelved id number shelved
    obtain ⟨session',at_id',file,version⟩ := cache_sessions ok at_id
    refine ⟨session',v,at_id',version.trans own,content,by rw [file]; exact past,?_⟩
    rw [file]
    exact fun current there found => only current there (files _ there found)
  case streams =>
    intro stream member
    exact sound_later later (inv.streams stream member)

theorem step_inv (s : State) (l : Label) (inv : Inv s) (timely : Timely s l) : Inv (step s l) := by
  obtain ⟨ok,inTime⟩ := timely
  cases l with
  | cache l =>
    by_cases rename : ∃ id, l = .session id .renameDone
    · obtain ⟨id,rfl⟩ := rename
      obtain ⟨session,at_id,allowed⟩ := ok.2
      exact rename_inv inv at_id ok.2 (inTime session at_id)
    · exact cache_inv inv ok.1 ok.2 fun id same => rename ⟨id,same⟩
  | change fileId => exact change_inv inv fileId
  | hit fileId version => exact hit_inv inv inTime
  | openHit i => exact openHit_inv inv inTime
  | follow fileId version => exact follow_inv inv fileId version
  | startSpool fileId version => exact startSpool_inv inv ok
  | followSpool fileId version => exact followSpool_inv inv ok
  | direct fileId version => exact begin_inv inv ⟨by simp,by simp,by simp,by simp,by simp⟩
  | read i => exact read_inv inv i
  | readTmp i => exact readTmp_inv inv i
  | readCache i => exact readCache_inv inv ok inTime

/-- In every run whose reads and writes of the cache path come in time, every stream has delivered bytes of its
request's version only. -/
theorem timely_streams_deliver_their_version {s : State} (reach : Reachable step Timely initial s) :
    ∀ stream ∈ s.streams, ∀ content ∈ stream.delivered, content = some stream.version := by
  have inv := reachable_invariant initial_inv step_inv reach
  intro stream member
  exact (inv.streams stream member).delivered

def buildOf (id version : Nat) : List Label :=
  [.cache (.create "a" 3 (some version)),.cache (.session id .unlinked),.cache (.session id (.created none)),
    .cache (.session id (.fetched 3)),.cache (.session id (.chunk 3)),.cache (.session id (.written none)),
    .cache (.session id .streamEnds),.cache (.session id (.ended none)),.cache (.session id (.stated 3)),
    .cache (.session id .renameDone),.cache (.session id .published)]

def readPublished : List Label := buildOf 0 0 ++ [Label.hit "a" 0,.openHit 0,.read 0]

theorem readPublished_own :
    (∀ stream ∈ (readPublished.foldl step initial).streams, ∀ content ∈ stream.delivered,
      content = some stream.version) ∧
    (readPublished.foldl step initial).streams = [⟨"a",0,.opened (some 0),[some 0]⟩] := by
  have legal : Legal step Timely initial readPublished := by
    refine ⟨⟨⟨by simp [Versioned],by decide,by decide +kernel⟩,trivial⟩,⟨⟨trivial,_,rfl,rfl⟩,trivial⟩,
      ⟨⟨trivial,_,rfl,rfl⟩,trivial⟩,⟨⟨trivial,_,rfl,rfl⟩,trivial⟩,⟨⟨trivial,_,rfl,rfl⟩,trivial⟩,
      ⟨⟨trivial,_,rfl,3,rfl⟩,trivial⟩,⟨⟨trivial,_,rfl,rfl⟩,trivial⟩,⟨⟨trivial,_,rfl,rfl⟩,trivial⟩,
      ⟨⟨trivial,_,rfl,rfl⟩,trivial⟩,⟨⟨trivial,_,rfl,1,rfl⟩,?_⟩,⟨⟨trivial,_,rfl,rfl⟩,trivial⟩,⟨?_,rfl,rfl⟩,
      ⟨trivial,?_⟩,⟨trivial,trivial⟩,trivial⟩
    · rintro session ⟨⟩
      rfl
    · show OrderedMap.get _ "a" ≠ none
      decide +kernel
    · rintro stream number ⟨⟩ ⟨⟩ file _
      exact .inr rfl
  exact ⟨timely_streams_deliver_their_version (reachable_run .start readPublished legal),by decide +kernel⟩

/-- After an invalidation a request of the old version builds the old content, and one of the new
version reads it. -/
def lagging : List Label :=
  [Label.change "a",.cache (.invalidate "a"),.cache (.fence 0 "a"),.cache (.locks (.tearDown 0 "a")),
    .cache (.locks (.drain 0 "a")),.cache (.locks (.run 0)),.cache (.look 0 "a"),.cache (.unlink 0 "a" true),
    .cache (.finish 0 "a")] ++ buildOf 0 0 ++ [Label.hit "a" 1,.openHit 0,.read 0]

theorem lagging_stale :
    Legal step Allowed initial lagging ∧
      (lagging.foldl step initial).streams = [⟨"a",1,.opened (some 0),[some 0]⟩] := by
  refine ⟨?_,by decide +kernel⟩
  refine ⟨trivial,⟨trivial,trivial⟩,⟨trivial,?_⟩,⟨trivial,trivial,?_⟩,⟨trivial,trivial,?_⟩,⟨trivial,trivial,?_⟩,
    ⟨trivial,⟨?_,?_⟩,?_⟩,⟨trivial,⟨?_,?_⟩,?_⟩,⟨trivial,?_,?_⟩,⟨by simp [Versioned],by decide,by decide +kernel⟩,
    ⟨trivial,_,rfl,rfl⟩,⟨trivial,_,rfl,rfl⟩,⟨trivial,_,rfl,rfl⟩,⟨trivial,_,rfl,rfl⟩,⟨trivial,_,rfl,3,rfl⟩,
    ⟨trivial,_,rfl,rfl⟩,⟨trivial,_,rfl,rfl⟩,⟨trivial,_,rfl,rfl⟩,⟨trivial,_,rfl,1,rfl⟩,⟨trivial,_,rfl,rfl⟩,
    (by show OrderedMap.get _ "a" ≠ none; decide +kernel),trivial,trivial,trivial⟩
  · show SessionLocks.Allowed _ (.fence 0 "a")
    decide +kernel
  all_goals decide +kernel

end Tgtc.VersionIsolation
