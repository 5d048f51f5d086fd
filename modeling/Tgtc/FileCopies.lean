import Mathlib.Data.List.Sort
import Tgtc.Maps
import Tgtc.Runs

/-!
The copies of a file with the accounts, and files that are overwritten. Whoever writes a copy, an upload or a bridge
for received messages, looks for the row first and saves it later.
-/
namespace Tgtc.FileCopies
open Maps Runs

/-! ### The table of copies -/

inductive OwnerType where
  | fileUnique | file | grant
deriving DecidableEq

inductive CopyStatus where
  | ready | pending | failed
deriving DecidableEq

inductive CopySource where
  | inbound | replicated | relayed
deriving DecidableEq

structure Key where
  ownerType : OwnerType
  ownerId : String
  accountId : String
deriving DecidableEq

/-- `TelegramFileCopy`, without its times. -/
structure Copy where
  id : Nat
  telegramFileId : String
  chatId : Option String
  messageId : Option String
  fileSize : Option Nat
  source : CopySource
  status : CopyStatus
  lastError : Option String
  content : String
deriving DecidableEq

/-- `CopyRecordInput`. -/
structure Input where
  key : Key
  telegramFileId : String
  chatId : Option String
  messageId : Option String
  fileSize : Option Nat
  source : CopySource
  status : Option CopyStatus
  content : String
deriving DecidableEq

def CopySource.rank : CopySource → Nat
  | .inbound => 0
  | .replicated => 1
  | .relayed => 2

def mergeCopySource (current incoming : CopySource) : CopySource :=
  if current.rank ≤ incoming.rank then incoming else current

theorem rank_mergeCopySource (current incoming : CopySource) :
    current.rank ≤ (mergeCopySource current incoming).rank := by
  unfold mergeCopySource
  split_ifs with rises
  · exact rises
  · exact Nat.le_refl _

def Input.update (input : Input) (existing : Copy) : Copy :=
  { existing with
    telegramFileId := input.telegramFileId
    chatId := input.chatId.or existing.chatId
    messageId := input.messageId.or existing.messageId
    fileSize := input.fileSize.or existing.fileSize
    source := mergeCopySource existing.source input.source
    status := input.status.getD .ready
    lastError := none
    content := input.content }

def Input.create (input : Input) (id : Nat) : Copy :=
  ⟨id,input.telegramFileId,input.chatId,input.messageId,input.fileSize,input.source,input.status.getD .ready,none,
    input.content⟩

inductive FileStatus where
  | processing | ready | error
deriving DecidableEq

structure File where
  uploadVersion : Nat
  status : FileStatus
  telegramFileUniqueId : Option String
  content : Option String
  replaced : List String

def File.overwritten (file : File) : File :=
  { file with
    uploadVersion := file.uploadVersion + 1
    status := .processing
    content := none
    replaced := file.content.toList ++ file.replaced }

structure Upload where
  content : String
  tells : Bool
deriving DecidableEq

def Upload.uniqueId (upload : Upload) : Option String := if upload.tells then some upload.content else none

def File.committed (file : File) (upload : Upload) : File :=
  { file with
    telegramFileUniqueId := upload.uniqueId
    content := some upload.content
    replaced := file.replaced.filter (· ≠ upload.content) }

/-! ### Calls under way -/

/-- An `upsertReady`: before its search, or with what the search has found. -/
structure Write where
  input : Input
  found : Option (Option Copy)
deriving DecidableEq

/-- The parameters of `bridgeInboundCopyToLogicalFile`, the unique id trimmed. -/
structure Bridge where
  fileUniqueId : String
  accountId : String
  telegramFileId : String
  chatId : String
  messageId : String
  fileSize : Option Nat
  source : CopySource
deriving DecidableEq

def Bridge.write (b : Bridge) (fileId : String) : Write :=
  ⟨⟨⟨.file,fileId,b.accountId⟩,b.telegramFileId,some b.chatId,some b.messageId,b.fileSize,b.source,none,
    b.fileUniqueId⟩,none⟩

/-- The parameters of `registerPrimaryTelegramSource`. -/
structure Registration where
  fileId : String
  uploadVersion : Nat
  upload : Upload
  accountId : String
  telegramFileId : String
  chatId : String
  messageId : String
  fileSize : Option Nat
deriving DecidableEq

def Registration.write (r : Registration) : Write :=
  ⟨⟨⟨.file,r.fileId,r.accountId⟩,r.telegramFileId,some r.chatId,some r.messageId,r.fileSize,.inbound,none,
    r.upload.content⟩,none⟩

inductive Task where
  | upsert (write : Write)
  | paging (bridge : Bridge) (offset : Nat) (found : List String)
  | bridging (bridge : Bridge) (write : Write) (rest : List String)
  /-- an overwrite: `invalidateByOwner` -/
  | clearing (fileId : String)
  | applying (fileId : String)
  | registering (registration : Registration)
  | recording (write : Write)
  | ended
deriving DecidableEq

structure State where
  files : OrderedMap String File
  copies : OrderedMap Key Copy
  nextId : Nat
  tasks : List Task

def initial : State := ⟨.empty,.empty,0,[]⟩

def maxBridgeFiles : Nat := 8

def State.page (s : State) (fileUniqueId : String) (offset : Nat) : List String :=
  let ids := (s.files.entries.filter (fun e => e.2.telegramFileUniqueId = some fileUniqueId)).map Prod.fst
  ((ids.insertionSort (· ≤ ·)).drop offset).take maxBridgeFiles

def Bridge.next (b : Bridge) : List String → Task
  | [] => .ended
  | fileId :: rest => .bridging b (b.write fileId) rest

/-- `repo.save`: a row that is gone comes back, and a second row of a key is refused. -/
def State.upsert (s : State) (input : Input) : Option Copy → State
  | some existing =>
    match s.copies.get input.key with
    | some other =>
      if other.id = existing.id then { s with copies := s.copies.set input.key (input.update existing) } else s
    | none => { s with copies := s.copies.set input.key (input.update existing) }
  | none =>
    match s.copies.get input.key with
    | some _ => s
    | none => { s with copies := s.copies.set input.key (input.create s.nextId), nextId := s.nextId + 1 }

def State.write (s : State) (w : Write) (ok : Bool) : State × Option Write :=
  match ok, w.found with
  | false, _ => (s,none)
  | true, none => (s,some ⟨w.input,some (s.copies.get w.input.key)⟩)
  | true, some existing => (s.upsert w.input existing,none)

def State.put (s : State) (n : Nat) (task : Task) : State := { s with tasks := s.tasks.set n task }

def State.clear (s : State) (fileId : String) : State :=
  { s with copies := s.copies.filter (fun e => !(e.1.ownerType = .file && e.1.ownerId = fileId)) }

def State.apply (s : State) (fileId : String) : State :=
  match s.files.get fileId with
  | some file => if file.status = .processing then s else { s with files := s.files.set fileId file.overwritten }
  | none => s

/-- The next step of a call; `ok` where the database and the other checks let it. -/
def State.go (s : State) (n : Nat) (ok : Bool) : Task → State
  | .upsert w =>
    let (s,left) := s.write w ok
    s.put n (left.elim .ended .upsert)
  | .paging b offset found =>
    if ok then
      let page := s.page b.fileUniqueId offset
      s.put n (if page.length < maxBridgeFiles then b.next (found ++ page)
        else .paging b (offset + maxBridgeFiles) (found ++ page))
    else s.put n .ended
  | .bridging b w rest =>
    let (s,left) := s.write w ok
    s.put n (left.elim (b.next rest) (.bridging b · rest))
  -- an error of the deletion is only logged
  | .clearing fileId => (if ok then s.clear fileId else s).put n (.applying fileId)
  | .applying fileId => (if ok then s.apply fileId else s).put n .ended
  | .registering r =>
    match s.files.get r.fileId with
    | some file =>
      if ok && file.uploadVersion = r.uploadVersion then
        State.put { s with files := s.files.set r.fileId { file with telegramFileUniqueId := r.upload.uniqueId } } n
          (.recording r.write)
      else s.put n .ended
    | none => s.put n .ended
  | .recording w =>
    let (s,left) := s.write w ok
    s.put n (left.elim .ended .recording)
  | .ended => s

inductive Label where
  | upsert (input : Input)
  | bridge (bridge : Bridge)
  | overwrite (fileId : String)
  | create (fileId : String)
  | commit (fileId : String) (uploadVersion : Nat) (upload : Upload)
  | ready (registration : Registration)
  | fail (fileId : String) (uploadVersion : Nat)
  | go (n : Nat) (ok : Bool)

def State.onVersion (s : State) (fileId : String) (uploadVersion : Nat) (change : File → File) : State :=
  match s.files.get fileId with
  | some file => if file.uploadVersion = uploadVersion then { s with files := s.files.set fileId (change file) } else s
  | none => s

def State.begin (s : State) (task : Task) : State := { s with tasks := s.tasks ++ [task] }

def step (s : State) : Label → State
  | .upsert input => s.begin (.upsert ⟨input,none⟩)
  | .bridge b => if b.fileUniqueId = "" then s else s.begin (.paging b 0 [])
  | .overwrite fileId =>
    match s.files.get fileId with
    | some file => if file.status = .processing then s else s.begin (.clearing fileId)
    | none => s
  | .create fileId => { s with files := s.files.set fileId ⟨1,.processing,none,none,[]⟩ }
  | .commit fileId uploadVersion upload => s.onVersion fileId uploadVersion (·.committed upload)
  | .ready r =>
    match s.files.get r.fileId with
    | some file =>
      if file.status ≠ .ready && file.uploadVersion = r.uploadVersion then
        State.begin { s with files := s.files.set r.fileId { file with status := .ready } } (.registering r)
      else s
    | none => s
  | .fail fileId uploadVersion => s.onVersion fileId uploadVersion (fun file => { file with status := .error })
  | .go n ok => match s.tasks[n]? with
    | some task => s.go n ok task
    | none => s

/-- Copies of files come from bridges and workers; a worker puts in one upload for its version, and registers that. -/
def allowed (s : State) : Label → Prop
  | .upsert input => input.key.ownerType ≠ .file
  | .create fileId => s.files.get fileId = none
  | .commit fileId uploadVersion _ => ∀ file ∈ s.files.get fileId, file.uploadVersion = uploadVersion → file.content = none
  | .ready r => ∀ file ∈ s.files.get r.fileId, file.uploadVersion = r.uploadVersion → file.content = some r.upload.content
  | _ => True

instance (s : State) (l : Label) : Decidable (allowed s l) := by
  cases l <;> unfold allowed <;> infer_instance

/-- No ready copy of a file delivers what was overwritten. -/
def Fresh (s : State) : Prop :=
  ∀ key copy file, s.copies.get key = some copy → key.ownerType = .file → copy.status = .ready →
    s.files.get key.ownerId = some file → copy.content ∉ file.replaced

def Ranked (s s' : State) : Prop :=
  ∀ key copy copy', s.copies.get key = some copy → s'.copies.get key = some copy' →
    copy.source.rank ≤ copy'.source.rank

/-! ### Runs without overlap -/

def Task.saves (fileId : String) : Task → List String
  | .upsert w | .recording w => if w.input.key.ownerType = .file ∧ w.input.key.ownerId = fileId then [w.input.content] else []
  | .paging b _ found => if fileId ∈ found then [b.fileUniqueId] else []
  | .bridging b w rest =>
    (if w.input.key.ownerType = .file ∧ w.input.key.ownerId = fileId then [w.input.content] else []) ++
      if fileId ∈ rest then [b.fileUniqueId] else []
  | _ => []

/-- Nobody has saved the copy since the upsert has looked for it. -/
def Write.Undisturbed (s : State) (w : Write) : Prop :=
  ∀ existing ∈ w.found, ∀ copy ∈ existing, s.copies.get w.input.key = none ∨ s.copies.get w.input.key = some copy

/-- The deletion of an overwrite succeeds with no copy of the file about to be saved, nobody looks up or
registers the file meanwhile, and upserts of a copy do not overlap. -/
def Orderly (s : State) : Label → Prop
  | .go n ok => match s.tasks[n]? with
    | some (.clearing fileId) => ok = true ∧ ∀ task ∈ s.tasks, task.saves fileId = []
    | some (.paging b offset _) => ok = true → ∀ fileId ∈ s.page b.fileUniqueId offset,
      .applying fileId ∉ s.tasks ∧ ∀ file ∈ s.files.get fileId, b.fileUniqueId ∉ file.replaced
    | some (.registering r) => .applying r.fileId ∉ s.tasks
    | some (.upsert w) | some (.bridging _ w _) | some (.recording w) => w.Undisturbed s
    | _ => True
  | _ => True

structure Inv (s : State) : Prop where
  rows : ∀ key copy file, s.copies.get key = some copy → key.ownerType = .file → s.files.get key.ownerId = some file →
    copy.content ∉ file.replaced
  saves : ∀ task ∈ s.tasks, ∀ fileId file, s.files.get fileId = some file →
    ∀ content ∈ task.saves fileId, content ∉ file.replaced
  /-- between the deletion and the transaction there is no copy of the file and none on its way -/
  cleared : ∀ fileId, .applying fileId ∈ s.tasks →
    (∀ key copy, s.copies.get key = some copy → key.ownerType = .file → key.ownerId ≠ fileId) ∧
    ∀ task ∈ s.tasks, task.saves fileId = []
  registered : ∀ r, .registering r ∈ s.tasks → ∃ file, s.files.get r.fileId = some file ∧
    r.uploadVersion ≤ file.uploadVersion ∧ (file.uploadVersion = r.uploadVersion → file.content = some r.upload.content)
  current : ∀ fileId file, s.files.get fileId = some file → ∀ content ∈ file.content, content ∉ file.replaced

section
variable {s : State}

/-- A call that may be under way: what it is about to save is not overwritten, nor being so. -/
structure Admissible (s : State) (task : Task) : Prop where
  saves : ∀ fileId, ∀ content ∈ task.saves fileId,
    (∀ file, s.files.get fileId = some file → content ∉ file.replaced) ∧ .applying fileId ∉ s.tasks
  applying : ∀ fileId, task ≠ .applying fileId
  registering : ∀ r, task = .registering r → ∃ file, s.files.get r.fileId = some file ∧
    r.uploadVersion ≤ file.uploadVersion ∧ (file.uploadVersion = r.uploadVersion → file.content = some r.upload.content)

theorem inv_tasks (inv : Inv s) {tasks : List Task} (grown : ∀ task ∈ tasks, task ∈ s.tasks ∨ Admissible s task) :
    Inv { s with tasks } := by
  refine ⟨inv.rows,?_,?_,?_,inv.current⟩
  · intro task among fileId file found content saved
    rcases grown task among with old | new
    · exact inv.saves task old fileId file found content saved
    · exact (new.saves fileId content saved).1 file found
  · intro fileId among
    rcases grown _ among with old | new
    · refine ⟨(inv.cleared fileId old).1,?_⟩
      intro task among'
      rcases grown task among' with old' | new
      · exact (inv.cleared fileId old).2 task old'
      · refine List.eq_nil_iff_forall_not_mem.mpr ?_
        intro content saved
        exact (new.saves fileId content saved).2 old
    · exact absurd rfl (new.applying fileId)
  · intro r among
    rcases grown _ among with old | new
    · exact inv.registered r old
    · exact new.registering r rfl

variable {task : Task} {n : Nat} {fileId : String} {w : Write}

theorem inv_put (inv : Inv s) (next : Admissible s task) : Inv (s.put n task) := by
  refine inv_tasks inv ?_
  intro task' among
  rcases List.mem_or_eq_of_mem_set among with old | rfl
  · exact .inl old
  · exact .inr next

theorem inv_begin (inv : Inv s) (next : Admissible s task) : Inv (s.begin task) := by
  refine inv_tasks inv ?_
  intro task' among
  rcases List.mem_append.mp among with old | new
  · exact .inl old
  · exact .inr (List.mem_singleton.mp new ▸ next)

def Task.plain : Task → Bool
  | .applying _ | .registering _ => false
  | _ => true

theorem admissible_plain (plain : task.plain = true)
    (saves : ∀ fileId, ∀ content ∈ task.saves fileId,
      (∀ file, s.files.get fileId = some file → content ∉ file.replaced) ∧ .applying fileId ∉ s.tasks) :
    Admissible s task := by
  refine ⟨saves,?_,?_⟩
  · rintro fileId rfl
    cases plain
  · rintro r rfl
    cases plain

theorem admissible_of_saves (inv : Inv s) {old : Task} (among : old ∈ s.tasks)
    (fewer : ∀ fileId, ∀ content ∈ task.saves fileId, content ∈ old.saves fileId) (plain : task.plain = true) :
    Admissible s task := by
  refine admissible_plain plain ?_
  intro fileId content saved
  have known := fewer fileId content saved
  refine ⟨fun file found => inv.saves old among fileId file found content known,?_⟩
  intro isApplying
  rw [(inv.cleared fileId isApplying).2 old among] at known
  cases known

theorem admissible_ended (s : State) : Admissible s .ended :=
  admissible_plain rfl nofun

theorem inv_set (inv : Inv s) (among : task ∈ s.tasks) {key : Key} {row : Copy}
    (saved : key.ownerType = .file → row.content ∈ task.saves key.ownerId) :
    Inv { s with copies := s.copies.set key row } := by
  refine ⟨?_,inv.saves,?_,inv.registered,inv.current⟩
  · intro key' copy file known isFile found
    rcases get_of_set known with ⟨rfl,rfl⟩ | ⟨_,known⟩
    · exact inv.saves task among _ file found _ (saved isFile)
    · exact inv.rows key' copy file known isFile found
  · intro fileId isApplying
    refine ⟨?_,(inv.cleared fileId isApplying).2⟩
    intro key' copy known isFile same
    rcases get_of_set known with ⟨rfl,rfl⟩ | ⟨_,known⟩
    · have none := (inv.cleared fileId isApplying).2 task among
      have some := saved isFile
      rw [same,none] at some
      cases some
    · exact (inv.cleared fileId isApplying).1 key' copy known isFile same

theorem inv_file (inv : Inv s) {file file' : File} (known : s.files.get fileId = some file)
    (fewer : ∀ content ∈ file'.replaced, content ∈ file.replaced) (version : file'.uploadVersion = file.uploadVersion)
    (content : file'.content = file.content ∨ file.content = none)
    (current : ∀ content ∈ file'.content, content ∉ file'.replaced) :
    Inv { s with files := s.files.set fileId file' } := by
  refine ⟨?_,?_,inv.cleared,?_,?_⟩
  · intro key copy row copied isFile found stale
    rcases get_of_set found with ⟨same,rfl⟩ | ⟨_,found⟩
    · exact inv.rows key copy file copied isFile (same ▸ known) (fewer _ stale)
    · exact inv.rows key copy row copied isFile found stale
  · intro task among id row found saved among' stale
    rcases get_of_set found with ⟨rfl,rfl⟩ | ⟨_,found⟩
    · exact inv.saves task among _ file known saved among' (fewer _ stale)
    · exact inv.saves task among id row found saved among' stale
  · intro r among
    obtain ⟨row,found,older,same⟩ := inv.registered r among
    by_cases here : r.fileId = fileId
    · rw [here,known] at found
      cases found
      refine ⟨file',by rw [here]; exact get_set_same _ _ _,version ▸ older,?_⟩
      intro isVersion
      have known := same (version ▸ isVersion)
      rcases content with kept | absent
      · rw [kept,known]
      · rw [absent] at known
        cases known
    · exact ⟨row,by rw [get_set_other _ _ here]; exact found,older,same⟩
  · intro id row found
    rcases get_of_set found with ⟨rfl,rfl⟩ | ⟨_,found⟩
    · exact current
    · exact inv.current id row found

theorem inv_onVersion (inv : Inv s) {uploadVersion : Nat} {change : File → File}
    (fewer : ∀ file, ∀ content ∈ (change file).replaced, content ∈ file.replaced)
    (version : ∀ file, (change file).uploadVersion = file.uploadVersion)
    (content : ∀ file, s.files.get fileId = some file → file.uploadVersion = uploadVersion →
      (change file).content = file.content ∨ file.content = none)
    (current : ∀ file, (∀ content ∈ file.content, content ∉ file.replaced) →
      ∀ content ∈ (change file).content, content ∉ (change file).replaced) :
    Inv (s.onVersion fileId uploadVersion change) := by
  unfold State.onVersion
  split
  · next file known =>
    split_ifs with here
    · exact inv_file inv known (fewer file) (version file) (content file known here)
        (current file (inv.current fileId file known))
    · exact inv
  · exact inv

theorem inv_upsert (inv : Inv s) (among : task ∈ s.tasks) {input : Input}
    (saved : input.key.ownerType = .file → input.content ∈ task.saves input.key.ownerId) (existing : Option Copy) :
    Inv (s.upsert input existing) := by
  cases existing with
  | some existing =>
    have set : Inv { s with copies := s.copies.set input.key (input.update existing) } := inv_set inv among saved
    unfold State.upsert
    dsimp only
    split
    · split_ifs
      · exact set
      · exact inv
    · exact set
  | none =>
    have set : Inv { s with copies := s.copies.set input.key (input.create s.nextId) } := inv_set inv among saved
    unfold State.upsert
    dsimp only
    split
    · exact inv
    · exact { set with }

theorem upsert_frame (s : State) (input : Input) (existing : Option Copy) :
    (s.upsert input existing).tasks = s.tasks ∧ (s.upsert input existing).files = s.files := by
  unfold State.upsert
  split
  · split
    · split_ifs <;> exact ⟨rfl,rfl⟩
    · exact ⟨rfl,rfl⟩
  · split <;> exact ⟨rfl,rfl⟩

theorem inv_write (inv : Inv s) {old : Task} (among : old ∈ s.tasks) {ok : Bool}
    (saved : w.input.key.ownerType = .file → w.input.content ∈ old.saves w.input.key.ownerId)
    {last : Task} {more : Write → Task}
    (lastSaves : ∀ fileId, ∀ content ∈ last.saves fileId, content ∈ old.saves fileId) (lastPlain : last.plain = true)
    (moreSaves : ∀ w' : Write, w'.input = w.input → ∀ fileId, ∀ content ∈ (more w').saves fileId, content ∈ old.saves fileId)
    (morePlain : ∀ w', (more w').plain = true) :
    Inv ((s.write w ok).1.put n ((s.write w ok).2.elim last more)) := by
  unfold State.write
  split
  · exact inv_put inv (admissible_of_saves inv among lastSaves lastPlain)
  · exact inv_put inv (admissible_of_saves inv among (moreSaves _ rfl) (morePlain _))
  · next existing _ =>
    have after := inv_upsert inv among saved existing
    have frame := upsert_frame s w.input existing
    exact inv_put after (admissible_of_saves after (frame.1 ▸ among) lastSaves lastPlain)

theorem next_saves {b : Bridge} {ids : List String} {content : String} (saved : content ∈ (b.next ids).saves fileId) :
    content = b.fileUniqueId ∧ fileId ∈ ids := by
  cases ids with
  | nil => cases saved
  | cons id rest =>
    simp only [Bridge.next,Task.saves,List.mem_append] at saved
    rcases saved with here | later
    · split_ifs at here with same
      · exact ⟨List.mem_singleton.mp here,same.2 ▸ List.mem_cons_self⟩
      · cases here
    · split_ifs at later with among
      · exact ⟨List.mem_singleton.mp later,List.mem_cons_of_mem _ among⟩
      · cases later

theorem next_plain (b : Bridge) (ids : List String) : (b.next ids).plain = true := by
  cases ids with
  | nil | cons id rest => rfl

/-! ### Steps -/

theorem inv_paging (inv : Inv s) {b : Bridge} {offset : Nat} {found : List String}
    (at_n : s.tasks[n]? = some (.paging b offset found))
    (clean : ∀ fileId ∈ s.page b.fileUniqueId offset, .applying fileId ∉ s.tasks ∧
      ∀ file ∈ s.files.get fileId, b.fileUniqueId ∉ file.replaced)
    (saves : ∀ fileId content, content ∈ task.saves fileId →
      content = b.fileUniqueId ∧ fileId ∈ found ++ s.page b.fileUniqueId offset)
    (plain : task.plain = true) : Inv (s.put n task) := by
  have among : .paging b offset found ∈ s.tasks := List.mem_of_getElem? at_n
  refine inv_put inv (admissible_plain plain ?_)
  intro fileId content saved
  obtain ⟨rfl,matched⟩ := saves fileId content saved
  rcases List.mem_append.mp matched with old | new
  · have known : b.fileUniqueId ∈ (Task.paging b offset found).saves fileId := by simp [Task.saves,old]
    refine ⟨fun file has => inv.saves _ among fileId file has _ known,?_⟩
    intro isApplying
    rw [(inv.cleared fileId isApplying).2 _ among] at known
    cases known
  · obtain ⟨calm,unreplaced⟩ := clean fileId new
    exact ⟨fun file has => unreplaced file has,calm⟩

theorem inv_clear (inv : Inv s) (quiet : ∀ task ∈ s.tasks, task.saves fileId = []) :
    Inv ((s.clear fileId).put n (.applying fileId)) := by
  have kept : ∀ key copy, (s.clear fileId).copies.get key = some copy → s.copies.get key = some copy ∧
      ¬ (key.ownerType = .file ∧ key.ownerId = fileId) := by
    intro key copy known
    unfold State.clear at known
    rw [get_filter,Option.filter_eq_some_iff] at known
    exact ⟨known.1,not_and_or.mpr (by simpa using known.2)⟩
  have tasks : ∀ task ∈ s.tasks.set n (.applying fileId), task ∈ s.tasks ∨ task = .applying fileId :=
    fun task among => List.mem_or_eq_of_mem_set among
  refine ⟨?_,?_,?_,?_,inv.current⟩
  · intro key copy file known
    exact inv.rows key copy file (kept key copy known).1
  · intro task among id file found content saved
    rcases tasks task among with old | rfl
    · exact inv.saves task old id file found content saved
    · cases saved
  · intro id among
    have rest : ∀ task ∈ s.tasks.set n (.applying fileId), (∀ old ∈ s.tasks, old.saves id = []) → task.saves id = [] := by
      intro task among quiet
      rcases tasks task among with old | rfl
      · exact quiet task old
      · rfl
    rcases tasks _ among with old | same
    · obtain ⟨rows,quiet⟩ := inv.cleared id old
      exact ⟨fun key copy known => rows key copy (kept key copy known).1,fun task among => rest task among quiet⟩
    · cases same
      refine ⟨?_,fun task among => rest task among quiet⟩
      intro key copy known isFile same
      exact (kept key copy known).2 ⟨isFile,same⟩
  · intro r among
    rcases tasks _ among with old | same
    · exact inv.registered r old
    · cases same

theorem inv_apply (inv : Inv s) (among : .applying fileId ∈ s.tasks) : Inv (s.apply fileId) := by
  obtain ⟨rows,quiet⟩ := inv.cleared fileId among
  unfold State.apply
  split
  · next file known =>
    split_ifs
    · exact inv
    · refine ⟨?_,?_,inv.cleared,?_,?_⟩
      · intro key copy row copied isFile found
        rcases get_of_set found with ⟨same,rfl⟩ | ⟨_,found⟩
        · exact absurd same (rows key copy copied isFile)
        · exact inv.rows key copy row copied isFile found
      · intro task isTask id row found content saved
        rcases get_of_set found with ⟨rfl,rfl⟩ | ⟨_,found⟩
        · rw [quiet task isTask] at saved
          cases saved
        · exact inv.saves task isTask id row found content saved
      · intro r isTask
        obtain ⟨row,found,older,same⟩ := inv.registered r isTask
        by_cases here : r.fileId = fileId
        · rw [here,known] at found
          cases found
          refine ⟨file.overwritten,by rw [here]; exact get_set_same _ _ _,Nat.le_succ_of_le older,?_⟩
          intro isVersion
          change file.uploadVersion + 1 = r.uploadVersion at isVersion
          omega
        · exact ⟨row,by rw [get_set_other _ _ here]; exact found,older,same⟩
      · intro id row found
        rcases get_of_set found with ⟨rfl,rfl⟩ | ⟨_,found⟩
        · exact nofun
        · exact inv.current id row found
  · exact inv

theorem inv_registering (inv : Inv s) {r : Registration} (among : .registering r ∈ s.tasks)
    (calm : .applying r.fileId ∉ s.tasks) {file : File} (known : s.files.get r.fileId = some file)
    (isVersion : file.uploadVersion = r.uploadVersion) :
    Inv (State.put { s with files := s.files.set r.fileId { file with telegramFileUniqueId := r.upload.uniqueId } } n
      (.recording r.write)) := by
  have current := inv.current r.fileId file known
  have updated : Inv { s with files := s.files.set r.fileId { file with telegramFileUniqueId := r.upload.uniqueId } } :=
    inv_file inv known (fun _ => id) rfl (.inl rfl) current
  obtain ⟨row,found,_,same⟩ := inv.registered r among
  rw [known] at found
  cases found
  refine inv_put updated (admissible_plain rfl ?_)
  intro fileId content saved
  simp only [Task.saves,Registration.write] at saved
  split_ifs at saved with here
  · obtain ⟨_,rfl⟩ := here
    cases List.mem_singleton.mp saved
    refine ⟨?_,calm⟩
    intro file' found
    rw [get_set_same] at found
    cases found
    exact current _ (same isVersion)
  · cases saved

theorem write_saves (isFile : w.input.key.ownerType = .file) :
    w.input.content ∈ (Task.upsert w).saves w.input.key.ownerId ∧
      w.input.content ∈ (Task.recording w).saves w.input.key.ownerId := by
  simp [Task.saves,isFile]

theorem inv_go (inv : Inv s) {ok : Bool} (at_n : s.tasks[n]? = some task)
    (orderly : Orderly s (.go n ok)) : Inv (s.go n ok task) := by
  have among : task ∈ s.tasks := List.mem_of_getElem? at_n
  unfold Orderly at orderly
  dsimp only at orderly
  rw [at_n] at orderly
  cases task with
  | upsert w =>
    refine inv_write inv among (fun isFile => (write_saves isFile).1) (nofun) rfl ?_ fun _ => rfl
    intro w' same fileId content saved
    simpa only [Task.saves,same] using saved
  | paging b offset found =>
    cases ok with
    | false => exact inv_put inv (admissible_ended s)
    | true =>
      have clean := orderly rfl
      unfold State.go
      dsimp only
      rw [if_pos rfl]
      split_ifs
      · exact inv_paging inv at_n clean (fun fileId content => next_saves) (next_plain b _)
      · refine inv_paging inv at_n clean ?_ rfl
        intro fileId content saved
        simp only [Task.saves] at saved
        split_ifs at saved with matched
        · exact ⟨List.mem_singleton.mp saved,matched⟩
        · cases saved
  | bridging b w rest =>
    refine inv_write inv among ?_ ?_ (next_plain b rest) ?_ fun _ => rfl
    · intro isFile
      simp [Task.saves,isFile]
    · intro fileId content saved
      obtain ⟨rfl,later⟩ := next_saves saved
      simp [Task.saves,later]
    · intro w' same fileId content saved
      simpa only [Task.saves,same] using saved
  | clearing fileId =>
    obtain ⟨rfl,quiet⟩ := orderly
    exact inv_clear inv quiet
  | applying fileId =>
    cases ok with
    | false => exact inv_put inv (admissible_ended s)
    | true => exact inv_put (inv_apply inv among) (admissible_ended _)
  | registering r =>
    unfold State.go
    dsimp only
    split
    · next file known =>
      split_ifs with here
      · exact inv_registering inv among orderly known (by simpa using (Bool.and_eq_true_iff.mp here).2)
      · exact inv_put inv (admissible_ended s)
    · exact inv_put inv (admissible_ended s)
  | recording w =>
    refine inv_write inv among (fun isFile => (write_saves isFile).2) (nofun) rfl ?_ fun _ => rfl
    intro w' same fileId content saved
    simpa only [Task.saves,same] using saved
  | ended => exact inv

theorem inv_create (inv : Inv s) (absent : s.files.get fileId = none) :
    Inv { s with files := s.files.set fileId ⟨1,.processing,none,none,[]⟩ } := by
  refine ⟨?_,?_,inv.cleared,?_,?_⟩
  · intro key copy row copied isFile found
    rcases get_of_set found with ⟨_,rfl⟩ | ⟨_,found⟩
    · exact List.not_mem_nil
    · exact inv.rows key copy row copied isFile found
  · intro task among id row found content saved
    rcases get_of_set found with ⟨_,rfl⟩ | ⟨_,found⟩
    · exact List.not_mem_nil
    · exact inv.saves task among id row found content saved
  · intro r among
    obtain ⟨row,found,rest⟩ := inv.registered r among
    have other : r.fileId ≠ fileId := by
      intro same
      rw [same,absent] at found
      cases found
    exact ⟨row,by rw [get_set_other _ _ other]; exact found,rest⟩
  · intro id row found
    rcases get_of_set found with ⟨_,rfl⟩ | ⟨_,found⟩
    · exact nofun
    · exact inv.current id row found

theorem inv_step (s : State) (l : Label) (inv : Inv s) (may : allowed s l ∧ Orderly s l) : Inv (step s l) := by
  obtain ⟨may,orderly⟩ := may
  cases l with
  | upsert input =>
    refine inv_begin inv (admissible_plain rfl ?_)
    intro fileId content saved
    simp only [Task.saves] at saved
    split_ifs at saved with here
    · exact absurd here.1 may
    · cases saved
  | bridge b =>
    unfold step
    dsimp only
    split_ifs
    · exact inv
    · refine inv_begin inv (admissible_plain rfl ?_)
      intro fileId content saved
      simp [Task.saves] at saved
  | overwrite fileId =>
    unfold step
    dsimp only
    split
    · split_ifs
      · exact inv
      · exact inv_begin inv (admissible_plain rfl nofun)
    · exact inv
  | create fileId => exact inv_create inv may
  | commit fileId uploadVersion upload =>
    refine inv_onVersion inv ?_ (fun _ => rfl) ?_ ?_
    · intro file content among
      exact (List.mem_filter.mp among).1
    · intro file known isVersion
      exact .inr (may file known isVersion)
    · intro file _ content isContent among
      cases isContent
      simpa using (List.mem_filter.mp among).2
  | ready r =>
    unfold step
    dsimp only
    split
    · next file known =>
      split_ifs with here
      · have isVersion : file.uploadVersion = r.uploadVersion := by simpa using (Bool.and_eq_true_iff.mp here).2
        have updated : Inv { s with files := s.files.set r.fileId { file with status := .ready } } :=
          inv_file inv known (fun _ => id) rfl (.inl rfl) (inv.current r.fileId file known)
        refine inv_begin updated ⟨fun _ _ saved => (by cases saved),fun _ same => (by cases same),?_⟩
        rintro _ ⟨⟩
        exact ⟨_,get_set_same _ _ _,isVersion.symm.le,fun _ => may file known isVersion⟩
      · exact inv
    · exact inv
  | fail fileId uploadVersion =>
    exact inv_onVersion inv (fun _ _ => id) (fun _ => rfl) (fun _ _ _ => .inl rfl) (fun _ => id)
  | go n ok =>
    unfold step
    dsimp only
    split
    · next task at_n => exact inv_go inv at_n orderly
    · exact inv

theorem inv_initial : Inv initial where
  rows _ _ _ known := by cases known
  saves _ among := by cases among
  cleared _ among := by cases among
  registered _ among := by cases among
  current _ _ known := by cases known

/-! ### Ranks -/

theorem ranked_upsert (input : Input) {existing : Option Copy}
    (undisturbed : ∀ copy ∈ existing, s.copies.get input.key = none ∨ s.copies.get input.key = some copy) :
    Ranked s (s.upsert input existing) := by
  have same : Ranked s s := by
    intro key copy copy' known known'
    cases known.symm.trans known'
    exact Nat.le_refl _
  have absent : ∀ row : Copy, s.copies.get input.key = none → ∀ key copy copy', s.copies.get key = some copy →
      (s.copies.set input.key row).get key = some copy' → copy.source.rank ≤ copy'.source.rank := by
    intro row none key copy copy' known known'
    rcases get_of_set known' with ⟨rfl,rfl⟩ | ⟨_,kept⟩
    · rw [none] at known
      cases known
    · exact same key copy copy' known kept
  cases existing with
  | none =>
    unfold State.upsert
    dsimp only
    split
    · exact same
    · next none => exact absent _ none
  | some existing =>
    unfold State.upsert
    dsimp only
    split
    · next other present =>
      split_ifs
      · rcases undisturbed existing rfl with none | found
        · rw [present] at none
          cases none
        · intro key copy copy' known known'
          rcases get_of_set known' with ⟨rfl,rfl⟩ | ⟨_,kept⟩
          · cases known.symm.trans found
            exact rank_mergeCopySource _ _
          · exact same key copy copy' known kept
      · exact same
    · next none => exact absent _ none

theorem ranked_of_copies {s' : State} (kept : ∀ key copy, s'.copies.get key = some copy → s.copies.get key = some copy) :
    Ranked s s' := by
  intro key copy copy' known known'
  cases known.symm.trans (kept key copy' known')
  exact Nat.le_refl _

theorem ranked_write (undisturbed : w.Undisturbed s) (n : Nat) (ok : Bool) (task : Task) :
    Ranked s ((s.write w ok).1.put n task) := by
  unfold State.write
  split
  · exact ranked_of_copies fun _ _ => id
  · exact ranked_of_copies fun _ _ => id
  · next existing found =>
    exact ranked_upsert w.input (undisturbed existing found)

theorem ranked_step (l : Label) (orderly : Orderly s l) : Ranked s (step s l) := by
  have kept : ∀ s' : State, s'.copies = s.copies → Ranked s s' :=
    fun s' same => ranked_of_copies fun key copy known => by rw [← same]; exact known
  cases l with
  | upsert input => exact kept _ rfl
  | bridge b =>
    refine kept _ ?_
    unfold step
    dsimp only
    split_ifs <;> rfl
  | overwrite fileId =>
    refine kept _ ?_
    unfold step
    dsimp only
    split
    · split_ifs <;> rfl
    · rfl
  | create fileId => exact kept _ rfl
  | commit fileId uploadVersion upload =>
    refine kept _ ?_
    unfold step State.onVersion
    dsimp only
    split
    · split_ifs <;> rfl
    · rfl
  | ready r =>
    refine kept _ ?_
    unfold step
    dsimp only
    split
    · split_ifs <;> rfl
    · rfl
  | fail fileId uploadVersion =>
    refine kept _ ?_
    unfold step State.onVersion
    dsimp only
    split
    · split_ifs <;> rfl
    · rfl
  | go n ok =>
    unfold step
    dsimp only
    split
    · next task at_n =>
      unfold Orderly at orderly
      dsimp only at orderly
      rw [at_n] at orderly
      cases task with
      | upsert w | bridging b w rest | recording w => exact ranked_write orderly n ok _
      | paging b offset found =>
        refine kept _ ?_
        unfold State.go
        split_ifs <;> rfl
      | clearing fileId =>
        refine ranked_of_copies ?_
        intro key copy known
        unfold State.go at known
        split_ifs at known
        · change ((s.clear fileId).copies.get key) = some copy at known
          unfold State.clear at known
          rw [get_filter,Option.filter_eq_some_iff] at known
          exact known.1
        · exact known
      | applying fileId =>
        refine kept _ ?_
        unfold State.go State.apply
        dsimp only
        split_ifs
        · split
          · split_ifs <;> rfl
          · rfl
        · rfl
      | registering r =>
        refine kept _ ?_
        unfold State.go
        dsimp only
        split
        · split_ifs <;> rfl
        · rfl
      | ended => exact kept _ rfl
    · exact kept _ rfl

end

instance (s : State) (w : Write) : Decidable (w.Undisturbed s) := by
  unfold Write.Undisturbed
  infer_instance

instance (s : State) (l : Label) : Decidable (Orderly s l) := by
  cases l with
  | go n ok =>
    unfold Orderly
    dsimp only
    split <;> infer_instance
  | _ => exact isTrue trivial

/-- As long as nothing overlaps with an overwrite, no ready copy delivers what was overwritten and no
copy loses its rank. -/
theorem copies_follow_content {s : State} (reach : Reachable step (fun s l => allowed s l ∧ Orderly s l) initial s) :
    Fresh s ∧ ∀ l, allowed s l → Orderly s l → Ranked s (step s l) := by
  have inv : Inv s := reachable_invariant inv_initial inv_step reach
  refine ⟨?_,fun l _ orderly => ranked_step l orderly⟩
  intro key copy file known isFile _ found
  exact inv.rows key copy file known isFile found

def uploading (fileId content : String) : List Label :=
  [.create fileId,.commit fileId 1 ⟨content,true⟩,.ready ⟨fileId,1,⟨content,true⟩,"1","a","c","m",none⟩]

def arrival (content accountId : String) (source : CopySource) : Label :=
  .bridge ⟨content,accountId,"b","c","m",none,source⟩

/-- A copy of the second account, an overwrite, and a copy of the new content. -/
theorem copies_follow_content_overwrite :
    let labels := uploading "f" "u" ++ [.go 0 true,.go 0 true,.go 0 true,arrival "u" "2" .relayed,.go 1 true,.go 1 true,
      .go 1 true,.overwrite "f",.go 2 true,.go 2 true,.commit "f" 2 ⟨"v",true⟩,arrival "v" "2" .inbound,.go 3 true,
      .go 3 true,.go 3 true]
    let s := labels.foldl step initial
    s.copies.entries.map (fun e => (e.1.accountId,e.2.content)) = [("2","v")] ∧
      (s.files.get "f").map File.replaced = some ["u"] ∧ Fresh s := by
  intro labels s
  have legal : Legal step (fun s l => allowed s l ∧ Orderly s l) initial labels := by decide +kernel
  exact ⟨by decide +kernel,by decide +kernel,(copies_follow_content (reachable_run .start labels legal)).1⟩

/-- A copy that arrives by the id the row still has, and an upsert that has looked before another one saved. -/
theorem overwritten_copy_comes_back :
    (¬ ∀ s, Reachable step allowed initial s → Fresh s) ∧
    ¬ ∀ s, Reachable step allowed initial s → ∀ l, allowed s l → Ranked s (step s l) := by
  constructor
  · intro always
    let labels := uploading "f" "u" ++ [.go 0 true,.go 0 true,.go 0 true,.overwrite "f",.go 1 true,.go 1 true,
      arrival "u" "2" .inbound,.go 2 true,.go 2 true,.go 2 true]
    have legal : Legal step allowed initial labels := by decide +kernel
    have back : ((labels.foldl step initial).copies.get ⟨.file,"f","2"⟩).map (fun copy => (copy.status,copy.content)) =
        some (.ready,"u") := by decide +kernel
    have gone : ((labels.foldl step initial).files.get "f").map File.replaced = some ["u"] := by decide +kernel
    obtain ⟨copy,found,isCopy⟩ := Option.map_eq_some_iff.mp back
    obtain ⟨file,known,replaced⟩ := Option.map_eq_some_iff.mp gone
    obtain ⟨isReady,content⟩ := Prod.mk.inj isCopy
    refine always _ (reachable_run .start labels legal) _ copy file found rfl isReady known ?_
    rw [replaced,content]
    exact List.mem_singleton_self _
  · intro always
    let upsert (source : CopySource) : Label := .upsert ⟨⟨.fileUnique,"u","2"⟩,"b",none,none,none,source,none,"u"⟩
    let labels := [upsert .inbound,.go 0 true,.go 0 true,upsert .relayed,upsert .inbound,.go 1 true,.go 2 true,.go 1 true]
    have legal : Legal step allowed initial labels := by decide +kernel
    have before : ((labels.foldl step initial).copies.get ⟨.fileUnique,"u","2"⟩).map Copy.source = some .relayed := by
      decide +kernel
    have after : ((step (labels.foldl step initial) (.go 2 true)).copies.get ⟨.fileUnique,"u","2"⟩).map Copy.source =
        some .inbound := by decide +kernel
    obtain ⟨copy,found,source⟩ := Option.map_eq_some_iff.mp before
    obtain ⟨copy',found',source'⟩ := Option.map_eq_some_iff.mp after
    have ranked := always _ (reachable_run .start labels legal) (.go 2 true) trivial _ copy copy' found found'
    rw [source,source'] at ranked
    exact absurd ranked (by decide)

end Tgtc.FileCopies
