import Tgtc.FolderMoves

/-!
The directories of the users. Folders and files lie in folders or at the top; they go to the trash, a folder with all
that is below it, and come back from there.
-/
namespace Tgtc.Directory
open FolderMoves (MAX_FOLDER_DEPTH parentOf owned level getSubtreeHeight)

/-- `SOFT_DELETE_GRACE_DAYS` -/
def FILE_DELETE_GRACE_MS : Nat := 7 * 24 * 3600 * 1000

def FILE_DELETE_COOLDOWN_MS : Nat := 10 * 60 * 1000

def FILE_FORCE_DELETE_WAIT_MS : Nat := 60 * 1000

structure Folder extends FolderMoves.Folder where
  name : String
  deleteRequestedAt : Option Nat
  deleteScheduledAt : Option Nat

inductive Status where
  | processing | ready | error
deriving DecidableEq

structure File where
  id : Nat
  uploaderId : Nat
  folderId : Option Nat
  originalName : String
  status : Status
  uploadVersion : Nat
  isDeleted : Bool
  deletedByAdmin : Bool
  deleteRequestedAt : Option Nat
  deleteScheduledAt : Option Nat
  deleteCooldownUntil : Option Nat
deriving DecidableEq

inductive DirectoryNameEntityType where
  | file | folder
deriving DecidableEq

structure NamespaceEntityRef where
  entityType : DirectoryNameEntityType
  entityId : Nat
deriving DecidableEq

/-- What `acquire` is called with. -/
structure NamespaceAcquireParams extends NamespaceEntityRef where
  ownerId : Nat
  folderId : Option Nat
  name : String
deriving DecidableEq

/-- The scope key of the top is `none`. -/
structure DirectoryName extends NamespaceEntityRef where
  ownerId : Nat
  scopeKey : Option Nat
  nameKey : String
  isDeleted : Bool

structure User where
  id : Nat
  /-- `hasAdminPrivileges` -/
  isAdmin : Bool

structure UploadJob where
  user : User
  originalName : String
  folderId : Option Nat
  overwriteFileId : Option Nat

structure State where
  folders : List Folder
  files : List File
  names : List DirectoryName
  jobs : List UploadJob
  nextId : Nat
  now : Nat

def State.start : State := ⟨[],[],[],[],0,0⟩

def Folder.params (f : Folder) : NamespaceAcquireParams := ⟨⟨.folder,f.id⟩,f.ownerId,f.parentId,f.name⟩

def File.params (f : File) : NamespaceAcquireParams := ⟨⟨.file,f.id⟩,f.uploaderId,f.folderId,f.originalName⟩

inductive Refusal where
  | notFound (text : String)
  | badRequest (text : String)
  | conflict (text : String)
  | forbidden (text : String)
  | endless
deriving DecidableEq

def check (holds : Bool) (refusal : Refusal) : Except Refusal Unit := if holds then .ok () else .error refusal

def demand {Value : Type} (found : Option Value) (refusal : Refusal) : Except Refusal Value := match found with
  | some v => .ok v
  | none => .error refusal

theorem bind_ok {A B : Type} {first : Except Refusal A} {next : A → Except Refusal B} {b : B} (ok : (first >>= next) = .ok b) :
    ∃ a, first = .ok a ∧ next a = .ok b := by
  cases first with
  | error refusal => cases ok
  | ok a => exact ⟨a,rfl,ok⟩

theorem check_ok {holds : Bool} {refusal : Refusal} {u : Unit} (ok : check holds refusal = .ok u) : holds = true := by
  cases holds with
  | true => rfl
  | false => cases ok

theorem demand_ok {Value : Type} {found : Option Value} {refusal : Refusal} {v : Value} (ok : demand found refusal = .ok v) :
    found = some v := by
  cases found with
  | none => cases ok
  | some w => cases ok; rfl

def State.after (s : State) : Except Refusal State → State
  | .ok s' => s'
  | .error _ => s

theorem after_keeps {holds : State → Prop} {s : State} {result : Except Refusal State} (before : holds s)
    (taken : ∀ s', result = .ok s' → holds s') : holds (s.after result) := by
  cases result with
  | ok s' => exact taken s' rfl
  | error refusal => exact before

def folderNotFound : Refusal := .notFound "文件夹不存在或无权访问"

def nameTaken : Refusal := .conflict "当前目录已存在同名文件或文件夹"

def tooDeep (prefixed : String) : Refusal := .badRequest (prefixed ++ "文件夹嵌套层级不能超过 " ++ MAX_FOLDER_DEPTH.repr ++ " 层")

section
variable (nameKey : String → String)

def rowOf (params : NamespaceAcquireParams) : DirectoryName :=
  ⟨params.toNamespaceEntityRef,params.ownerId,params.folderId,nameKey params.name,false⟩

def slot (row : DirectoryName) : Nat × Option Nat × String := (row.ownerId,row.scopeKey,row.nameKey)

def active (names : List DirectoryName) : List DirectoryName := names.filter fun row => !row.isDeleted

/-- The index `uq_directory_names_active`. -/
def UniqueNames (names : List DirectoryName) : Prop := ((active names).map slot).Nodup

instance (names : List DirectoryName) : Decidable (UniqueNames names) := inferInstanceAs (Decidable (List.Nodup _))

def occupy (names : List DirectoryName) (params : NamespaceAcquireParams) : List DirectoryName :=
  if names.any fun r => r.toNamespaceEntityRef = params.toNamespaceEntityRef then
    names.map fun r => if r.toNamespaceEntityRef = params.toNamespaceEntityRef then rowOf nameKey params else r
  else names ++ [rowOf nameKey params]

def acquire (names : List DirectoryName) (params : NamespaceAcquireParams) : Except Refusal (List DirectoryName) :=
  if UniqueNames (occupy nameKey names params) then .ok (occupy nameKey names params) else .error nameTaken

def acquireAll (names : List DirectoryName) : List NamespaceAcquireParams → Except Refusal (List DirectoryName)
  | [] => .ok names
  | params :: rest => do
    let names ← acquire nameKey names params
    acquireAll names rest

def retire (row : DirectoryName) : DirectoryName := { row with isDeleted := true }

def release (names : List DirectoryName) (ref : NamespaceEntityRef) : List DirectoryName :=
  names.map fun r => if r.toNamespaceEntityRef = ref then retire r else r

def releaseMany (names : List DirectoryName) (refs : List NamespaceEntityRef) : List DirectoryName :=
  names.map fun r =>
    if r.entityType ∈ refs.map NamespaceEntityRef.entityType ∧ r.entityId ∈ refs.map NamespaceEntityRef.entityId then retire r else r

def remove (names : List DirectoryName) (ref : NamespaceEntityRef) : List DirectoryName :=
  names.filter fun r => r.toNamespaceEntityRef ≠ ref

def isNameTaken (names : List DirectoryName) (ownerId : Nat) (folderId : Option Nat) (name : String) : Bool :=
  (active names).any fun r => slot r = (ownerId,folderId,nameKey name)

def rows (folders : List Folder) : List FolderMoves.Folder := folders.map Folder.toFolder

def reservedDeviceNames : List (List Char) :=
  (["con","prn","aux","nul","com1","com2","com3","com4","com5","com6","com7","com8","com9","lpt1","lpt2","lpt3","lpt4",
    "lpt5","lpt6","lpt7","lpt8","lpt9"]).map String.toList

/-- `RESERVED_DEVICE_NAME_PATTERN`: what follows a point has no line break. -/
def reservedDeviceName (name : String) : Bool :=
  (name.toList.takeWhile fun c => c ≠ '.').map Char.toLower ∈ reservedDeviceNames &&
    (name.toList.dropWhile fun c => c ≠ '.').all fun c => c.toNat ∉ [10,13,0x2028,0x2029]

def assertFolderNameAllowed (name : String) : Except Refusal Unit :=
  check (name ≠ "." && name ≠ ".." && !reservedDeviceName name) (.badRequest "文件夹名称不允许使用保留名称")

def assertFolderOwned (s : State) (id ownerId : Nat) : Except Refusal Folder :=
  demand (s.folders.find? fun f => f.id = id && f.ownerId = ownerId && !f.isDeleted) folderNotFound

def depthFrom (folders : List Folder) : Nat → List Nat → Nat → Nat
  | 0, _, _ => 0
  | rounds + 1, seen, current => match parentOf (rows folders) current with
    | none => 0
    | some p => if p ∈ seen then 1 else 1 + depthFrom folders rounds (p :: seen) p

def getFolderDepth (folders : List Folder) (id : Nat) : Nat := depthFrom folders (folders.length + 1) [id] id

def climbs (folders : List Folder) (ancestorId : Nat) : Nat → List Nat → Nat → Bool
  | 0, _, _ => false
  | rounds + 1, seen, current =>
    if current = ancestorId then true
    else if current ∈ seen then false
    else (parentOf (rows folders) current).any (climbs folders ancestorId rounds (current :: seen))

def isDescendantOf (folders : List Folder) (candidateId ancestorId : Nat) : Bool :=
  climbs folders ancestorId (folders.length + 2) [] candidateId

def collectSubtreeIds (folders : List Folder) (rootId : Nat) : Option (List Nat) :=
  (getSubtreeHeight (rows folders) rootId).map fun height => (List.range (height + 1)).flatMap (level (rows folders) rootId)

def sibling (folders : List Folder) (ownerId : Nat) (parentId : Option Nat) (name : String) (except : Option Nat) : Bool :=
  folders.any fun f => f.ownerId = ownerId && f.parentId = parentId && f.name = name && !f.isDeleted && some f.id ≠ except

def saveFolder (folders : List Folder) (f : Folder) : List Folder := folders.map fun g => if g.id = f.id then f else g

def assertRoom (s : State) (ownerId : Nat) (parentId : Option Nat) (below : Nat) (prefixed : String) : Except Refusal Unit :=
  match parentId with
  | none => .ok ()
  | some p => do
    let _ ← assertFolderOwned s p ownerId
    check (getFolderDepth s.folders p + below ≤ MAX_FOLDER_DEPTH) (tooDeep prefixed)

/-- `createFolderInternal` -/
def createFolder (s : State) (ownerId : Nat) (name : String) (parentId : Option Nat) : Except Refusal State := do
  assertFolderNameAllowed name
  assertRoom s ownerId parentId 1 ""
  check (!sibling s.folders ownerId parentId name none) (.conflict "同层级下已存在同名文件夹")
  let created : Folder := ⟨⟨s.nextId,ownerId,parentId,false⟩,name,none,none⟩
  let names ← acquire nameKey s.names created.params
  return { s with folders := s.folders ++ [created], names, nextId := s.nextId + 1 }

def renameFolder (s : State) (ownerId id : Nat) (name : String) : Except Refusal State := do
  assertFolderNameAllowed name
  let folder ← assertFolderOwned s id ownerId
  check (!sibling s.folders ownerId folder.parentId name (some id)) (.badRequest "同层级下已存在同名文件夹")
  let renamed : Folder := { folder with name }
  let names ← acquire nameKey s.names renamed.params
  return { s with folders := saveFolder s.folders renamed, names }

def assertMovable (s : State) (ownerId id : Nat) : Option Nat → Except Refusal Unit
  | none => .ok ()
  | some p => do
    let _ ← assertFolderOwned s p ownerId
    check (!isDescendantOf s.folders p id) (.badRequest "不能把文件夹移入其自身子树")
    let height ← demand (getSubtreeHeight (rows s.folders) id) .endless
    assertRoom s ownerId (some p) (1 + height) "移动后"

def moveFolder (s : State) (ownerId id : Nat) (parentId : Option Nat) : Except Refusal State := do
  let locked ← assertFolderOwned s id ownerId
  check (parentId ≠ some id) (.badRequest "不能把文件夹移入自身")
  assertMovable s ownerId id parentId
  check (!sibling s.folders ownerId parentId locked.name (some id)) (.badRequest "目标层级下已存在同名文件夹")
  let moved : Folder := { locked with parentId }
  let names ← acquire nameKey s.names moved.params
  return { s with folders := saveFolder s.folders moved, names }

def within (ids : List Nat) (folderId : Option Nat) : Bool := folderId.any fun id => id ∈ ids

def Folder.trash (now : Nat) (f : Folder) : Folder :=
  { f with isDeleted := true, deleteRequestedAt := some now, deleteScheduledAt := some (now + FILE_DELETE_GRACE_MS) }

def File.trash (now : Nat) (byAdmin : Bool) (f : File) : File :=
  { f with
    isDeleted := true, deletedByAdmin := byAdmin, deleteRequestedAt := some now
    deleteScheduledAt := some (now + FILE_DELETE_GRACE_MS) }

def Folder.bringBack (f : Folder) : Folder := { f with isDeleted := false, deleteRequestedAt := none, deleteScheduledAt := none }

def File.bringBack (f : File) : File :=
  { f with isDeleted := false, deletedByAdmin := false, deleteRequestedAt := none, deleteScheduledAt := none }

def folderRef (id : Nat) : NamespaceEntityRef := ⟨.folder,id⟩

def fileRef (id : Nat) : NamespaceEntityRef := ⟨.file,id⟩

def Folder.trashWithin (now : Nat) (folderIds : List Nat) (f : Folder) : Folder :=
  if f.id ∈ folderIds ∧ f.isDeleted = false then f.trash now else f

def File.trashWithin (now : Nat) (folderIds : List Nat) (byAdmin : Bool) (f : File) : File :=
  if within folderIds f.folderId ∧ f.isDeleted = false then f.trash now byAdmin else f

def affectedFileIds (now : Nat) (folderIds : List Nat) (files : List File) : List Nat :=
  (files.filter fun f => within folderIds f.folderId && f.deleteRequestedAt = some now).map File.id

def softDeleteFolder (s : State) (ownerId id : Nat) (byAdmin : Bool) : Except Refusal State := do
  let _ ← assertFolderOwned s id ownerId
  let folderIds ← demand (collectSubtreeIds s.folders id) .endless
  let files := s.files.map (File.trashWithin s.now folderIds byAdmin)
  return { s with
    folders := s.folders.map (Folder.trashWithin s.now folderIds), files
    names := releaseMany s.names (folderIds.map folderRef ++ (affectedFileIds s.now folderIds files).map fileRef) }

/-- Whether a folder is deleted on the way up from here. The way is longer than there are folders only over a cycle. -/
def ancestorDeleted (folders : List Folder) : Nat → Option Nat → Option Bool
  | _, none => some false
  | 0, some _ => none
  | rounds + 1, some id => match folders.find? fun f => f.id = id with
    | none => some false
    | some f => if f.isDeleted then some true else ancestorDeleted folders rounds f.parentId

def Folder.batch (folder : Folder) (deleteRequestedAt deleteScheduledAt : Option Nat) : Bool := match folder.deleteScheduledAt with
  | some t => deleteScheduledAt = some t
  | none => deleteRequestedAt = folder.deleteRequestedAt

def Folder.restoreWithin (folder : Folder) (folderIds : List Nat) (f : Folder) : Folder :=
  if f.id ∈ folderIds ∧ folder.batch f.deleteRequestedAt f.deleteScheduledAt then f.bringBack else f

def File.restoreWithin (folder : Folder) (folderIds : List Nat) (f : File) : File :=
  if within folderIds f.folderId ∧ folder.batch f.deleteRequestedAt f.deleteScheduledAt then f.bringBack else f

def restored (folderIds : List Nat) (folders : List Folder) (files : List File) : List NamespaceAcquireParams :=
  (folders.filter fun f => f.id ∈ folderIds ∧ f.isDeleted = false ∧ f.deleteRequestedAt = none).map Folder.params ++
    (files.filter fun f => within folderIds f.folderId ∧ f.isDeleted = false ∧ f.deleteRequestedAt = none).map File.params

/-- The index `uq_folders_owner_parent_name_active`, which knows no top. -/
def uniqueFolders (folders : List Folder) : Bool :=
  ((folders.filter fun f => !f.isDeleted && f.parentId.isSome).map fun f => (f.ownerId,f.parentId,f.name)).Nodup

def restoreFolder (s : State) (ownerId id : Nat) : Except Refusal State := do
  let folder ← demand (s.folders.find? fun f => f.id = id && f.ownerId = ownerId && f.isDeleted) (.notFound "文件夹不存在或未被删除")
  let below ← demand (ancestorDeleted s.folders (s.folders.length + 1) folder.parentId) .endless
  check (!below) (.badRequest "该文件夹的上级目录仍处于回收站中，请先恢复上级目录")
  let folderIds ← demand (collectSubtreeIds s.folders id) .endless
  let folders := s.folders.map (Folder.restoreWithin folder folderIds)
  let files := s.files.map (File.restoreWithin folder folderIds)
  check (uniqueFolders folders) (.badRequest "恢复失败：目标位置已存在同名文件或文件夹，请先处理重名后重试")
  let names ← acquireAll nameKey s.names (restored folderIds folders files)
  return { s with folders, files, names }

def saveFile (files : List File) (f : File) : List File := files.map fun g => if g.id = f.id then f else g

def assertFolderGiven (s : State) (folderId : Option Nat) (ownerId : Nat) : Except Refusal Unit := match folderId with
  | none => .ok ()
  | some id => do
    let _ ← assertFolderOwned s id ownerId
    return ()

def insertFile (s : State) (uploaderId : Nat) (folderId : Option Nat) (originalName : String) (status : Status) : Except Refusal State := do
  let created : File := ⟨s.nextId,uploaderId,folderId,originalName,status,1,false,false,none,none,none⟩
  let names ← acquire nameKey s.names created.params
  return { s with files := s.files ++ [created], names, nextId := s.nextId + 1 }

def putFile (s : State) (f : File) : Except Refusal State := do
  let names ← acquire nameKey s.names f.params
  return { s with files := saveFile s.files f, names }

def findOwn (s : State) (ownerId fileId : Nat) : Except Refusal File :=
  demand (s.files.find? fun f => f.id = fileId && f.uploaderId = ownerId && !f.isDeleted) (.notFound "文件不存在")

def moveFile (s : State) (ownerId fileId : Nat) (folderId : Option Nat) : Except Refusal State := do
  let file ← findOwn s ownerId fileId
  assertFolderGiven s folderId ownerId
  putFile nameKey s { file with folderId }

def renameFile (s : State) (ownerId fileId : Nat) (newOriginalName : String) : Except Refusal State := do
  let file ← findOwn s ownerId fileId
  putFile nameKey s { file with originalName := newOriginalName }

def copyCandidate (base : String) : Nat → String
  | 0 => base
  | n + 1 => base ++ " " ++ (n + 2).repr

def buildCopyName (s : State) (originalName : String) (ownerId : Nat) (folderId : Option Nat) : Option String :=
  ((List.range (s.names.length + 1)).map (copyCandidate (originalName ++ " - 副本"))).find? fun candidate =>
    !isNameTaken nameKey s.names ownerId folderId candidate

def copyFile (s : State) (ownerId fileId : Nat) (folderId : Option Nat) : Except Refusal State := do
  let source ← findOwn s ownerId fileId
  check (source.status = .ready) (.conflict "仅就绪状态的文件可以复制，请等待处理完成或稍后重试")
  assertFolderGiven s folderId ownerId
  let copyName ← demand (buildCopyName nameKey s source.originalName ownerId folderId) .endless
  insertFile nameKey s ownerId folderId copyName .ready

def assertUploadFolder (s : State) (folderId : Option Nat) (userId : Nat) : Except Refusal Unit := match folderId with
  | none => .ok ()
  | some id => check (owned (rows s.folders) id userId) (.notFound "目标文件夹不存在或无权访问")

def assertOverwriteTarget (s : State) (overwriteFileId : Nat) (user : User) (expectFolderId : Option Nat) : Except Refusal File := do
  let target ← demand (s.files.find? fun f => f.id = overwriteFileId && !f.isDeleted) (.notFound "覆盖目标文件不存在或已被删除")
  check (target.uploaderId = user.id) (.badRequest "覆盖目标文件不属于当前用户")
  check (target.folderId = expectFolderId) (.badRequest "覆盖目标文件与上传目标目录不一致")
  check (target.status ≠ .processing) (.badRequest "覆盖目标文件正在处理中，请稍后重试")
  return target

def overwrites (s : State) (overwriteFileId : Option Nat) (user : User) (folderId : Option Nat) : Option File :=
  overwriteFileId.bind fun id => (assertOverwriteTarget s id user folderId).toOption

def applyOverwrite (s : State) (target : File) (originalName : String) : Except Refusal State :=
  putFile nameKey s { target with originalName, uploadVersion := target.uploadVersion + 1 }

def reuseTarget (s : State) (target : File) (originalName : String) : State :=
  { s with
    files := saveFile s.files { target with originalName, uploadVersion := target.uploadVersion + 1, status := .processing } }

def createProcessingFile (s : State) (user : User) (originalName : String) (folderId overwriteFileId : Option Nat) :
    Except Refusal State := do
  assertUploadFolder s folderId user.id
  match overwrites s overwriteFileId user folderId with
  | some target => return reuseTarget s target originalName
  | none => insertFile nameKey s user.id folderId originalName .processing

/-- `upload`, to the top -/
def upload (s : State) (user : User) (originalName : String) : Except Refusal State :=
  insertFile nameKey s user.id none originalName .ready

def uploadAsync (s : State) (job : UploadJob) : Except Refusal State := do
  assertUploadFolder s job.folderId job.user.id
  return { s with jobs := s.jobs ++ [job] }

def uploadToTelegram (s : State) (job : UploadJob) : Except Refusal State :=
  match overwrites s job.overwriteFileId job.user job.folderId with
  | some target => applyOverwrite nameKey s target job.originalName
  | none => insertFile nameKey s job.user.id job.folderId job.originalName .ready

def finished (s : State) (fileId uploadVersion : Nat) (status : Status) : State :=
  { s with
    files := s.files.map fun f =>
      if f.id = fileId ∧ f.uploadVersion = uploadVersion then { f with status } else f }

def softDeleteProcessingFile (s : State) (id : Nat) : State :=
  { s with
    files := s.files.map fun f => if f.id = id ∧ f.status = .processing then { f with isDeleted := true, status := .error } else f
    names := release s.names (fileRef id) }

def markProcessingFileFailed (s : State) (id : Nat) : State :=
  { s with files := s.files.map fun f => if f.id = id ∧ f.status = .processing then { f with status := .error } else f }

def findFile (s : State) (id : Nat) : Except Refusal File := demand (s.files.find? fun f => f.id = id) (.notFound "文件不存在")

def assertFileWritable (file : File) (user : User) : Except Refusal Unit :=
  check (file.uploaderId = user.id || user.isAdmin) (.forbidden "无权修改此文件")

def seconds (ms : Nat) : Nat := (ms + 999) / 1000

def assertForceDeletable (s : State) (file : File) (user : User) : Except Refusal Unit :=
  if user.isAdmin then check file.isDeleted (.badRequest "文件未处于待删除状态，请先执行删除操作")
  else do
    check file.isDeleted (.badRequest "请先将文件移入回收站，再执行强制删除")
    check (!file.deletedByAdmin) (.forbidden "该文件由管理员删除，请联系管理员处理")
    let waited := (file.deleteRequestedAt.map fun t => s.now - t).getD FILE_FORCE_DELETE_WAIT_MS
    check (FILE_FORCE_DELETE_WAIT_MS ≤ waited) (.badRequest ("强制删除需等待 " ++ (FILE_FORCE_DELETE_WAIT_MS / 1000).repr ++ " 秒，请 "
      ++ (seconds (FILE_FORCE_DELETE_WAIT_MS - waited)).repr ++ " 秒后再试"))

def forceDelete (s : State) (id : Nat) (user : User) : Except Refusal State := do
  let file ← findFile s id
  assertForceDeletable s file user
  assertFileWritable file user
  return { s with files := s.files.filter (fun f => f.id ≠ id), names := remove s.names (fileRef id) }

/-- `delete` -/
def deleteFile (s : State) (id : Nat) (user : User) : Except Refusal State := do
  let file ← findFile s id
  assertFileWritable file user
  if file.isDeleted && file.deletedByAdmin then
    check user.isAdmin (.forbidden "该文件由管理员删除，请联系管理员处理")
    forceDelete s id user
  else if file.isDeleted then return s
  else
    let remaining := (file.deleteCooldownUntil.map fun t => t - s.now).getD 0
    check (remaining = 0) (.badRequest ("删除请求过于频繁，请 " ++ (seconds remaining).repr ++ " 秒后再试"))
    let deleted : File := { file.trash s.now false with deleteCooldownUntil := some (s.now + FILE_DELETE_COOLDOWN_MS) }
    return { s with files := saveFile s.files deleted, names := release s.names (fileRef id) }

def restoreDelete (s : State) (id : Nat) (user : User) : Except Refusal State := do
  let file ← demand (s.files.find? fun f => f.id = id && f.isDeleted) (.notFound "文件不存在或未被标记为删除")
  check file.deleteRequestedAt.isSome (.badRequest "该文件未处于待删除状态")
  check (!file.deletedByAdmin || user.isAdmin) (.forbidden "该文件由管理员删除，普通用户不可恢复。请联系管理员处理")
  assertFileWritable file user
  check (file.deleteScheduledAt.all fun t => s.now < t) (.badRequest "删除等待期已过，文件已永久删除")
  putFile nameKey s { file.bringBack with deleteCooldownUntil := none }

/-- `deleteFile` of the administration, first to the trash and then for good -/
def adminDeleteFile (s : State) (id : Nat) (user : User) : Except Refusal State := do
  let file ← findFile s id
  if file.isDeleted && file.deletedByAdmin then forceDelete s id user
  else return { s with
    files := saveFile s.files { file.trash s.now true with deleteCooldownUntil := some (s.now + FILE_DELETE_COOLDOWN_MS) } }

inductive Label where
  | tick (ms : Nat)
  | createFolder (ownerId : Nat) (name : String) (parentId : Option Nat)
  | renameFolder (ownerId id : Nat) (name : String)
  | moveFolder (ownerId id : Nat) (parentId : Option Nat)
  | softDeleteFolder (ownerId id : Nat) (byAdmin : Bool)
  | restoreFolder (ownerId id : Nat)
  | moveFile (ownerId fileId : Nat) (folderId : Option Nat)
  | renameFile (ownerId fileId : Nat) (newOriginalName : String)
  | copyFile (ownerId fileId : Nat) (folderId : Option Nat)
  | createProcessingFile (user : User) (originalName : String) (folderId overwriteFileId : Option Nat)
  | upload (user : User) (originalName : String)
  | uploadAsync (job : UploadJob)
  | uploadToTelegram (n : Nat)
  | finished (fileId uploadVersion : Nat) (status : Status)
  | softDeleteProcessingFile (id : Nat)
  | markProcessingFileFailed (id : Nat)
  | deleteFile (id : Nat) (user : User)
  | restoreDelete (id : Nat) (user : User)
  | adminDeleteFile (id : Nat) (user : User)

def State.takes (s : State) (n : Nat) : State := { s with jobs := s.jobs.eraseIdx n }

def step (s : State) : Label → State
  | .tick ms => { s with now := s.now + ms }
  | .createFolder ownerId name parentId => s.after (createFolder nameKey s ownerId name parentId)
  | .renameFolder ownerId id name => s.after (renameFolder nameKey s ownerId id name)
  | .moveFolder ownerId id parentId => s.after (moveFolder nameKey s ownerId id parentId)
  | .softDeleteFolder ownerId id byAdmin => s.after (softDeleteFolder s ownerId id byAdmin)
  | .restoreFolder ownerId id => s.after (restoreFolder nameKey s ownerId id)
  | .moveFile ownerId fileId folderId => s.after (moveFile nameKey s ownerId fileId folderId)
  | .renameFile ownerId fileId name => s.after (renameFile nameKey s ownerId fileId name)
  | .copyFile ownerId fileId folderId => s.after (copyFile nameKey s ownerId fileId folderId)
  | .createProcessingFile user name folderId overwriteFileId =>
    s.after (createProcessingFile nameKey s user name folderId overwriteFileId)
  | .upload user name => s.after (upload nameKey s user name)
  | .uploadAsync job => s.after (uploadAsync s job)
  | .uploadToTelegram n => match s.jobs[n]? with
    | some job => (s.takes n).after (uploadToTelegram nameKey (s.takes n) job)
    | none => s
  | .finished fileId uploadVersion status => finished s fileId uploadVersion status
  | .softDeleteProcessingFile id => softDeleteProcessingFile s id
  | .markProcessingFileFailed id => markProcessingFileFailed s id
  | .deleteFile id user => s.after (deleteFile s id user)
  | .restoreDelete id user => s.after (restoreDelete nameKey s id user)
  | .adminDeleteFile id user => s.after (adminDeleteFile s id user)

end
end Tgtc.Directory
