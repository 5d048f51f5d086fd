import Mathlib.Data.List.Nodup
import Tgtc.Directory

/-!
What a step does to the directories. Whatever the request, it is refused, or it comes down
to one of a few changes; the change says what the checks before it have found.
-/
namespace Tgtc.DirectoryChanges
open Directory
open FolderMoves (owned)

/-- A folder is there, belongs to the user and is not in the trash. -/
def Owned (s : State) (ownerId id : Nat) : Prop := ∃ f ∈ s.folders, f.id = id ∧ f.ownerId = ownerId ∧ f.isDeleted = false

def Placed (s : State) (ownerId : Nat) (folderId : Option Nat) : Prop := ∀ id ∈ folderId, Owned s ownerId id

inductive Change (nameKey : String → String) (s : State) (l : Label) : State → Prop
  | passed (now : Nat) (later : s.now ≤ now) (jobs : List UploadJob) : Change nameKey s l { s with now, jobs }
  | folderCreated {ownerId : Nat} {name : String} {parentId : Option Nat} {names : List DirectoryName}
      (placed : Placed s ownerId parentId)
      (named : acquire nameKey s.names (Folder.params ⟨⟨s.nextId,ownerId,parentId,false⟩,name,none,none⟩) = .ok names) :
      Change nameKey s l
        { s with folders := s.folders ++ [⟨⟨s.nextId,ownerId,parentId,false⟩,name,none,none⟩], names, nextId := s.nextId + 1 }
  | folderSaved {f : Folder} {name : String} {parentId : Option Nat} {names : List DirectoryName} (there : f ∈ s.folders)
      (live : f.isDeleted = false)
      (placed : parentId = f.parentId ∨ Placed s f.ownerId parentId ∧ ∀ p ∈ parentId, isDescendantOf s.folders p f.id = false)
      (named : acquire nameKey s.names (Folder.params { f with name, parentId }) = .ok names) :
      Change nameKey s l { s with folders := saveFolder s.folders { f with name, parentId }, names }
  | folderTrashed {id : Nat} {folderIds : List Nat} (byAdmin : Bool) (collected : collectSubtreeIds s.folders id = some folderIds) :
      Change nameKey s l
        { s with
          folders := s.folders.map (Folder.trashWithin s.now folderIds)
          files := s.files.map (File.trashWithin s.now folderIds byAdmin)
          names := releaseMany s.names (folderIds.map folderRef ++
            (affectedFileIds s.now folderIds (s.files.map (File.trashWithin s.now folderIds byAdmin))).map fileRef) }
  | folderRestored {ownerId : Nat} {folder : Folder} {folderIds : List Nat} {names : List DirectoryName}
      (asked : l = .restoreFolder ownerId folder.id) (taken : ∃ s', restoreFolder nameKey s ownerId folder.id = .ok s')
      (there : folder ∈ s.folders)
      (gone : folder.isDeleted = true)
      (above : ancestorDeleted s.folders (s.folders.length + 1) folder.parentId = some false)
      (collected : collectSubtreeIds s.folders folder.id = some folderIds)
      (named : acquireAll nameKey s.names (restored folderIds (s.folders.map (Folder.restoreWithin folder folderIds))
        (s.files.map (File.restoreWithin folder folderIds))) = .ok names) :
      Change nameKey s l
        { s with
          folders := s.folders.map (Folder.restoreWithin folder folderIds)
          files := s.files.map (File.restoreWithin folder folderIds)
          names }
  | fileCreated {uploaderId : Nat} {folderId : Option Nat} {originalName : String} {status : Status} {names : List DirectoryName}
      {jobs : List UploadJob}
      (placed : Placed s uploaderId folderId ∨ ∃ n job, l = .uploadToTelegram n ∧ s.jobs[n]? = some job ∧
        (∃ s', uploadToTelegram nameKey (s.takes n) job = .ok s') ∧ job.folderId = folderId ∧ job.user.id = uploaderId)
      (named : acquire nameKey s.names
        (File.params ⟨s.nextId,uploaderId,folderId,originalName,status,1,false,false,none,none,none⟩) = .ok names) :
      Change nameKey s l
        { s with
          files := s.files ++ [⟨s.nextId,uploaderId,folderId,originalName,status,1,false,false,none,none,none⟩]
          names, nextId := s.nextId + 1, jobs }
  | fileSaved {f g : File} {names : List DirectoryName} {jobs : List UploadJob} (there : f ∈ s.files) (same : g.id = f.id)
      (owner : g.uploaderId = f.uploaderId) (live : f.isDeleted = false) (lives : g.isDeleted = false)
      (scheduled : g.deleteScheduledAt = f.deleteScheduledAt)
      (placed : g.folderId = f.folderId ∨ Placed s g.uploaderId g.folderId)
      (named : acquire nameKey s.names g.params = .ok names) :
      Change nameKey s l { s with files := saveFile s.files g, names, jobs }
  | fileReused {user : User} {originalName : String} {folderId overwriteFileId : Option Nat} {target : File}
      (asked : l = .createProcessingFile user originalName folderId overwriteFileId)
      (permitted : assertUploadFolder s folderId user.id = .ok ()) (found : overwrites s overwriteFileId user folderId = some target)
      (there : target ∈ s.files) (live : target.isDeleted = false) : Change nameKey s l (reuseTarget s target originalName)
  | fileWorked (worked : File → File) (same : ∀ f, (worked f).params = f.params ∧ (worked f).isDeleted = f.isDeleted ∧
      (worked f).deletedByAdmin = f.deletedByAdmin ∧ (worked f).deleteScheduledAt = f.deleteScheduledAt) : Change nameKey s l { s with files := s.files.map worked }
  | fileCancelled {id : Nat} (asked : l = .softDeleteProcessingFile id) : Change nameKey s l (softDeleteProcessingFile s id)
  | fileTrashed {f : File} {deleteCooldownUntil : Option Nat} (there : f ∈ s.files) (live : f.isDeleted = false) :
      Change nameKey s l
        { s with
          files := saveFile s.files { f.trash s.now false with deleteCooldownUntil }
          names := release s.names (fileRef f.id) }
  | fileMarked {id : Nat} {user : User} {f : File} {deleteCooldownUntil : Option Nat} (asked : l = .adminDeleteFile id user)
      (there : f ∈ s.files) (here : f.id = id) (first : (f.isDeleted && f.deletedByAdmin) = false) :
      Change nameKey s l { s with files := saveFile s.files { f.trash s.now true with deleteCooldownUntil } }
  | fileRemoved (id : Nat) :
      Change nameKey s l { s with files := s.files.filter (fun f => f.id ≠ id), names := remove s.names (fileRef id) }
  | fileRestored {id : Nat} {user : User} {f : File} {names : List DirectoryName} (asked : l = .restoreDelete id user)
      (there : f ∈ s.files) (here : f.id = id) (gone : f.isDeleted = true)
      (named : acquire nameKey s.names (File.params { f.bringBack with deleteCooldownUntil := none }) = .ok names)
      (restored : ∃ s', restoreDelete nameKey s id user = .ok s') :
      Change nameKey s l { s with files := saveFile s.files { f.bringBack with deleteCooldownUntil := none }, names }

section
variable {nameKey : String → String} {s s' : State} {l : Label}

variable {ownerId : Nat} {folderId : Option Nat} {f : File} {user : User} {parentId : Option Nat} {u : Unit} {fileId : Nat} {g : File}

theorem folder_owned {id : Nat} {f : Folder} (ok : assertFolderOwned s id ownerId = .ok f) :
    f ∈ s.folders ∧ f.id = id ∧ f.ownerId = ownerId ∧ f.isDeleted = false := by
  have found := demand_ok ok
  have fits := List.find?_some found
  simp only [Bool.and_eq_true,decide_eq_true_eq,Bool.not_eq_true'] at fits
  exact ⟨List.mem_of_find?_eq_some found,fits.1.1,fits.1.2,fits.2⟩

theorem owned_of_rows {id : Nat} (found : owned (rows s.folders) id ownerId = true) : Owned s ownerId id := by
  obtain ⟨row,member,fits⟩ := List.any_eq_true.mp found
  obtain ⟨f,there,rfl⟩ := List.mem_map.mp member
  simp only [Bool.and_eq_true,decide_eq_true_eq,Bool.not_eq_true'] at fits
  exact ⟨f,there,fits.1.1,fits.1.2,fits.2⟩

theorem placed_none (s : State) (ownerId : Nat) : Placed s ownerId none := nofun

theorem placed_some {id : Nat} (found : Owned s ownerId id) : Placed s ownerId (some id) := by
  rintro id' ⟨⟩
  exact found

theorem placed_room {below : Nat} {prefixed : String}
    (ok : assertRoom s ownerId parentId below prefixed = .ok u) : Placed s ownerId parentId := by
  cases parentId with
  | none => exact placed_none s ownerId
  | some p =>
    obtain ⟨f,found,_⟩ := bind_ok ok
    exact placed_some ⟨f,folder_owned found⟩

theorem placed_given (ok : assertFolderGiven s folderId ownerId = .ok u) :
    Placed s ownerId folderId := by
  cases folderId with
  | none => exact placed_none s ownerId
  | some id =>
    obtain ⟨f,found,_⟩ := bind_ok ok
    exact placed_some ⟨f,folder_owned found⟩

theorem placed_upload (ok : assertUploadFolder s folderId ownerId = .ok u) :
    Placed s ownerId folderId := by
  cases folderId with
  | none => exact placed_none s ownerId
  | some id => exact placed_some (owned_of_rows (check_ok ok))

theorem movable {id : Nat} (ok : assertMovable s ownerId id parentId = .ok u) :
    Placed s ownerId parentId ∧ ∀ p ∈ parentId, isDescendantOf s.folders p id = false := by
  cases parentId with
  | none => exact ⟨placed_none s ownerId,nofun⟩
  | some p =>
    obtain ⟨f,found,ok⟩ := bind_ok ok
    obtain ⟨_,apart,_⟩ := bind_ok ok
    refine ⟨placed_some ⟨f,folder_owned found⟩,?_⟩
    rintro p' ⟨⟩
    exact (Bool.not_eq_true' _).mp (check_ok apart)

theorem own_found (ok : findOwn s ownerId fileId = .ok f) :
    f ∈ s.files ∧ f.id = fileId ∧ f.uploaderId = ownerId ∧ f.isDeleted = false := by
  have found := demand_ok ok
  have fits := List.find?_some found
  simp only [Bool.and_eq_true,decide_eq_true_eq,Bool.not_eq_true'] at fits
  exact ⟨List.mem_of_find?_eq_some found,fits.1.1,fits.1.2,fits.2⟩

theorem file_found {id : Nat} (ok : findFile s id = .ok f) : f ∈ s.files ∧ f.id = id := by
  have found := demand_ok ok
  exact ⟨List.mem_of_find?_eq_some found,by simpa using List.find?_some found⟩

theorem overwrites_found {overwriteFileId : Option Nat}
    (found : overwrites s overwriteFileId user folderId = some f) :
    f ∈ s.files ∧ f.isDeleted = false ∧ f.uploaderId = user.id ∧ f.folderId = folderId := by
  obtain ⟨id,_,permitted⟩ := Option.bind_eq_some_iff.mp found
  cases ok : assertOverwriteTarget s id user folderId with
  | error refusal =>
    rw [ok] at permitted
    cases permitted
  | ok g =>
    rw [ok] at permitted
    cases permitted
    obtain ⟨target,known,ok⟩ := bind_ok ok
    obtain ⟨_,owner,ok⟩ := bind_ok ok
    obtain ⟨_,folder,ok⟩ := bind_ok ok
    obtain ⟨_,_,ok⟩ := bind_ok ok
    cases ok
    have found := demand_ok known
    have fits := List.find?_some found
    simp only [Bool.and_eq_true,Bool.not_eq_true'] at fits
    exact ⟨List.mem_of_find?_eq_some found,fits.2,of_decide_eq_true (check_ok owner),of_decide_eq_true (check_ok folder)⟩

theorem change_createFolder {name : String}
    (ok : createFolder nameKey s ownerId name parentId = .ok s') : Change nameKey s l s' := by
  obtain ⟨_,_,ok⟩ := bind_ok ok
  obtain ⟨_,room,ok⟩ := bind_ok ok
  obtain ⟨_,_,ok⟩ := bind_ok ok
  obtain ⟨names,named,ok⟩ := bind_ok ok
  cases ok
  exact .folderCreated (placed_room room) named

theorem change_renameFolder {id : Nat} {name : String} (ok : renameFolder nameKey s ownerId id name = .ok s') :
    Change nameKey s l s' := by
  obtain ⟨_,_,ok⟩ := bind_ok ok
  obtain ⟨f,found,ok⟩ := bind_ok ok
  obtain ⟨_,_,ok⟩ := bind_ok ok
  obtain ⟨names,named,ok⟩ := bind_ok ok
  cases ok
  obtain ⟨there,_,_,live⟩ := folder_owned found
  exact .folderSaved there live (.inl rfl) named

theorem change_moveFolder {id : Nat} (ok : moveFolder nameKey s ownerId id parentId = .ok s') :
    Change nameKey s l s' := by
  obtain ⟨f,found,ok⟩ := bind_ok ok
  obtain ⟨_,_,ok⟩ := bind_ok ok
  obtain ⟨_,permitted,ok⟩ := bind_ok ok
  obtain ⟨_,_,ok⟩ := bind_ok ok
  obtain ⟨names,named,ok⟩ := bind_ok ok
  cases ok
  obtain ⟨there,rfl,rfl,live⟩ := folder_owned found
  exact .folderSaved there live (.inr (movable permitted)) named

theorem change_softDeleteFolder {id : Nat} {byAdmin : Bool} (ok : softDeleteFolder s ownerId id byAdmin = .ok s') :
    Change nameKey s l s' := by
  obtain ⟨_,_,ok⟩ := bind_ok ok
  obtain ⟨folderIds,collected,ok⟩ := bind_ok ok
  cases ok
  exact .folderTrashed byAdmin (demand_ok collected)

theorem change_restoreFolder {id : Nat} (asked : l = .restoreFolder ownerId id)
    (ok : restoreFolder nameKey s ownerId id = .ok s') : Change nameKey s l s' := by
  have taken := ok
  obtain ⟨folder,known,ok⟩ := bind_ok ok
  obtain ⟨below,climbed,ok⟩ := bind_ok ok
  obtain ⟨_,none_below,ok⟩ := bind_ok ok
  obtain ⟨folderIds,collected,ok⟩ := bind_ok ok
  obtain ⟨_,_,ok⟩ := bind_ok ok
  obtain ⟨names,named,ok⟩ := bind_ok ok
  cases ok
  have found := demand_ok known
  have fits := List.find?_some found
  simp only [Bool.and_eq_true,decide_eq_true_eq] at fits
  obtain ⟨⟨rfl,_⟩,gone⟩ := fits
  cases (Bool.not_eq_true' _).mp (check_ok none_below)
  exact .folderRestored asked ⟨_,taken⟩ (List.mem_of_find?_eq_some found) gone (demand_ok climbed) (demand_ok collected) named

theorem change_insertFile {uploaderId : Nat} {originalName : String} {status : Status}
    (placed : Placed s uploaderId folderId) (ok : insertFile nameKey s uploaderId folderId originalName status = .ok s') :
    Change nameKey s l s' := by
  obtain ⟨names,named,ok⟩ := bind_ok ok
  cases ok
  exact .fileCreated (.inl placed) named

theorem change_moveFile (ok : moveFile nameKey s ownerId fileId folderId = .ok s') :
    Change nameKey s l s' := by
  obtain ⟨f,found,ok⟩ := bind_ok ok
  obtain ⟨_,given,ok⟩ := bind_ok ok
  obtain ⟨names,named,ok⟩ := bind_ok ok
  cases ok
  obtain ⟨there,_,rfl,live⟩ := own_found found
  exact .fileSaved there rfl rfl live live rfl (.inr (placed_given given)) named

theorem change_renameFile {newOriginalName : String}
    (ok : renameFile nameKey s ownerId fileId newOriginalName = .ok s') : Change nameKey s l s' := by
  obtain ⟨f,found,ok⟩ := bind_ok ok
  obtain ⟨names,named,ok⟩ := bind_ok ok
  cases ok
  obtain ⟨there,_,_,live⟩ := own_found found
  exact .fileSaved there rfl rfl live live rfl (.inl rfl) named

theorem change_copyFile (ok : copyFile nameKey s ownerId fileId folderId = .ok s') :
    Change nameKey s l s' := by
  obtain ⟨f,_,ok⟩ := bind_ok ok
  obtain ⟨_,_,ok⟩ := bind_ok ok
  obtain ⟨_,given,ok⟩ := bind_ok ok
  obtain ⟨copyName,_,ok⟩ := bind_ok ok
  exact change_insertFile (placed_given given) ok

theorem change_createProcessingFile {originalName : String} {overwriteFileId : Option Nat}
    (asked : l = .createProcessingFile user originalName folderId overwriteFileId)
    (ok : createProcessingFile nameKey s user originalName folderId overwriteFileId = .ok s') : Change nameKey s l s' := by
  obtain ⟨_,permitted,ok⟩ := bind_ok ok
  cases found : overwrites s overwriteFileId user folderId with
  | none =>
    rw [found] at ok
    exact change_insertFile (placed_upload permitted) ok
  | some target =>
    rw [found] at ok
    cases ok
    obtain ⟨there,live,_⟩ := overwrites_found found
    exact .fileReused asked permitted found there live

theorem change_uploadToTelegram {n : Nat} {job : UploadJob} (asked : l = .uploadToTelegram n) (queued : s.jobs[n]? = some job)
    (ok : uploadToTelegram nameKey (s.takes n) job = .ok s') : Change nameKey s l s' := by
  have taken := ok
  unfold uploadToTelegram at ok
  cases found : overwrites (s.takes n) job.overwriteFileId job.user job.folderId with
  | none =>
    rw [found] at ok
    obtain ⟨names,named,ok⟩ := bind_ok ok
    cases ok
    exact .fileCreated (.inr ⟨n,job,asked,queued,⟨_,taken⟩,rfl,rfl⟩) named
  | some target =>
    rw [found] at ok
    obtain ⟨names,named,ok⟩ := bind_ok ok
    cases ok
    obtain ⟨there,live,_⟩ := overwrites_found found
    exact .fileSaved there rfl rfl live live rfl (.inl rfl) named

theorem change_forceDelete {id : Nat} (ok : forceDelete s id user = .ok s') : Change nameKey s l s' := by
  obtain ⟨f,_,ok⟩ := bind_ok ok
  obtain ⟨_,_,ok⟩ := bind_ok ok
  obtain ⟨_,_,ok⟩ := bind_ok ok
  cases ok
  exact .fileRemoved id

theorem change_deleteFile {id : Nat} (ok : deleteFile s id user = .ok s') : Change nameKey s l s' := by
  obtain ⟨f,found,ok⟩ := bind_ok ok
  obtain ⟨_,_,ok⟩ := bind_ok ok
  obtain ⟨there,rfl⟩ := file_found found
  split at ok
  · obtain ⟨_,_,ok⟩ := bind_ok ok
    exact change_forceDelete ok
  split at ok
  · cases ok
    exact .passed s.now (Nat.le_refl _) s.jobs
  · next live =>
    obtain ⟨_,_,ok⟩ := bind_ok ok
    cases ok
    exact .fileTrashed there (eq_false_of_ne_true live)

theorem change_restoreDelete {id : Nat} (asked : l = .restoreDelete id user)
    (ok : restoreDelete nameKey s id user = .ok s') : Change nameKey s l s' := by
  have taken := ok
  obtain ⟨f,known,ok⟩ := bind_ok ok
  obtain ⟨_,_,ok⟩ := bind_ok ok
  obtain ⟨_,_,ok⟩ := bind_ok ok
  obtain ⟨_,_,ok⟩ := bind_ok ok
  obtain ⟨_,_,ok⟩ := bind_ok ok
  obtain ⟨names,named,ok⟩ := bind_ok ok
  cases ok
  have found := demand_ok known
  have fits := List.find?_some found
  simp only [Bool.and_eq_true,decide_eq_true_eq] at fits
  exact .fileRestored asked (List.mem_of_find?_eq_some found) fits.1 fits.2 named ⟨_,taken⟩

theorem change_adminDeleteFile {id : Nat} (asked : l = .adminDeleteFile id user)
    (ok : adminDeleteFile s id user = .ok s') : Change nameKey s l s' := by
  obtain ⟨f,found,ok⟩ := bind_ok ok
  obtain ⟨there,here⟩ := file_found found
  split at ok
  · exact change_forceDelete ok
  · next first =>
    cases ok
    exact .fileMarked asked there here (eq_false_of_ne_true first)

theorem change_taken {t : State} {result : Except Refusal State} (before : Change nameKey s l t)
    (taken : ∀ s', result = .ok s' → Change nameKey s l s') : Change nameKey s l (t.after result) :=
  after_keeps before taken

theorem change_after {result : Except Refusal State} (taken : ∀ s', result = .ok s' → Change nameKey s l s') :
    Change nameKey s l (s.after result) :=
  change_taken (.passed s.now (Nat.le_refl _) s.jobs) taken

theorem step_change (nameKey : String → String) (s : State) (l : Label) : Change nameKey s l (step nameKey s l) := by
  unfold step
  cases l with
  | tick ms => exact .passed (s.now + ms) (Nat.le_add_right _ _) s.jobs
  | createFolder ownerId name parentId => exact change_after fun _ ok => change_createFolder ok
  | renameFolder ownerId id name => exact change_after fun _ ok => change_renameFolder ok
  | moveFolder ownerId id parentId => exact change_after fun _ ok => change_moveFolder ok
  | softDeleteFolder ownerId id byAdmin => exact change_after fun _ ok => change_softDeleteFolder ok
  | restoreFolder ownerId id => exact change_after fun _ ok => change_restoreFolder rfl ok
  | moveFile ownerId fileId folderId => exact change_after fun _ ok => change_moveFile ok
  | renameFile ownerId fileId name => exact change_after fun _ ok => change_renameFile ok
  | copyFile ownerId fileId folderId => exact change_after fun _ ok => change_copyFile ok
  | createProcessingFile user name folderId overwriteFileId =>
    exact change_after fun _ ok => change_createProcessingFile rfl ok
  | upload user name => exact change_after fun _ ok => change_insertFile (placed_none s user.id) ok
  | uploadAsync job =>
    refine change_after fun _ ok => ?_
    obtain ⟨_,_,ok⟩ := bind_ok ok
    cases ok
    exact .passed s.now (Nat.le_refl _) _
  | uploadToTelegram n =>
    dsimp only
    cases queued : s.jobs[n]? with
    | none => exact .passed s.now (Nat.le_refl _) s.jobs
    | some job =>
      exact change_taken (.passed s.now (Nat.le_refl _) _) fun _ ok => change_uploadToTelegram rfl queued ok
  | finished fileId uploadVersion status =>
    refine .fileWorked _ fun f => ?_
    split
    · exact ⟨rfl,rfl,rfl,rfl⟩
    · exact ⟨rfl,rfl,rfl,rfl⟩
  | softDeleteProcessingFile id => exact .fileCancelled rfl
  | markProcessingFileFailed id =>
    refine .fileWorked _ fun f => ?_
    split
    · exact ⟨rfl,rfl,rfl,rfl⟩
    · exact ⟨rfl,rfl,rfl,rfl⟩
  | deleteFile id user => exact change_after fun _ ok => change_deleteFile ok
  | restoreDelete id user => exact change_after fun _ ok => change_restoreDelete rfl ok
  | adminDeleteFile id user => exact change_after fun _ ok => change_adminDeleteFile rfl ok

def ids (s : State) : List Nat := s.folders.map (fun f => f.id) ++ s.files.map File.id

structure Ids (s : State) : Prop where
  distinct : (ids s).Nodup
  fresh : ∀ id ∈ ids s, id < s.nextId

theorem ids_start : Ids .start := ⟨List.nodup_nil,nofun⟩

theorem ids_sublist (inv : Ids s) (fewer : (ids s').Sublist (ids s)) (next : s'.nextId = s.nextId) : Ids s' :=
  ⟨inv.distinct.sublist fewer,fun id among => by rw [next]; exact inv.fresh id (fewer.subset among)⟩

theorem ids_same (inv : Ids s) {change : Folder → Folder} {touch : File → File} (folders : s'.folders = s.folders.map change)
    (files : s'.files = s.files.map touch) (next : s'.nextId = s.nextId) (folder : ∀ f, (change f).id = f.id)
    (file : ∀ f, (touch f).id = f.id) : Ids s' := by
  have same : ids s' = ids s := by
    unfold ids
    rw [folders,files,List.map_map,List.map_map]
    exact congrArg₂ (· ++ ·) (List.map_congr_left fun f _ => folder f) (List.map_congr_left fun f _ => file f)
  exact ids_sublist inv (same ▸ List.Sublist.refl _) next

theorem ids_insert (inv : Ids s) (more : (ids s').Perm (s.nextId :: ids s)) (next : s'.nextId = s.nextId + 1) : Ids s' := by
  refine ⟨more.nodup_iff.mpr (List.nodup_cons.mpr ⟨fun among => Nat.lt_irrefl _ (inv.fresh _ among),inv.distinct⟩),fun id among => ?_⟩
  rw [next]
  rcases List.mem_cons.mp (more.subset among) with rfl | before
  · exact Nat.lt_succ_self _
  · exact Nat.lt_succ_of_lt (inv.fresh id before)

theorem ids_saveFolder (inv : Ids s) {f : Folder} (folders : s'.folders = saveFolder s.folders f) (files : s'.files = s.files)
    (next : s'.nextId = s.nextId) : Ids s' := by
  refine ids_same inv folders (files.trans (List.map_id _).symm) next (fun g => ?_) fun _ => rfl
  split
  · next same => exact same.symm
  · rfl

theorem ids_saveFile (inv : Ids s) (folders : s'.folders = s.folders) (files : s'.files = saveFile s.files f)
    (next : s'.nextId = s.nextId) : Ids s' := by
  refine ids_same inv (folders.trans (List.map_id _).symm) files next (fun _ => rfl) fun g => ?_
  split
  · next same => exact same.symm
  · rfl

theorem trashWithin_id (now : Nat) (folderIds : List Nat) (f : Folder) : (f.trashWithin now folderIds).id = f.id := by
  unfold Folder.trashWithin
  split <;> rfl

theorem trashWithin_file (now : Nat) (folderIds : List Nat) (byAdmin : Bool) (f : File) :
    (f.trashWithin now folderIds byAdmin).params = f.params := by
  unfold File.trashWithin
  split <;> rfl

theorem restoreWithin_id (folder : Folder) (folderIds : List Nat) (f : Folder) : (Folder.restoreWithin folder folderIds f).id = f.id := by
  unfold Folder.restoreWithin
  split <;> rfl

theorem restoreWithin_file (folder : Folder) (folderIds : List Nat) (f : File) :
    (f.restoreWithin folder folderIds).params = f.params := by
  unfold File.restoreWithin
  split <;> rfl

theorem id_of_params (same : f.params = g.params) : f.id = g.id :=
  congrArg (fun params => params.toNamespaceEntityRef.entityId) same

theorem folderId_of_params (same : f.params = g.params) : f.folderId = g.folderId :=
  congrArg NamespaceAcquireParams.folderId same

theorem ids_change (inv : Ids s) (change : Change nameKey s l s') : Ids s' := by
  cases change with
  | passed => exact ids_sublist inv (List.Sublist.refl _) rfl
  | folderCreated placed named =>
    refine ids_insert inv ?_ rfl
    unfold ids
    simp only [List.map_append,List.append_assoc]
    exact List.perm_middle
  | folderSaved there live placed named => exact ids_saveFolder inv rfl rfl rfl
  | folderTrashed byAdmin collected =>
    exact ids_same inv rfl rfl rfl (trashWithin_id _ _) fun f => id_of_params (trashWithin_file _ _ _ f)
  | folderRestored asked taken there gone above collected named =>
    exact ids_same inv rfl rfl rfl (restoreWithin_id _ _) fun f => id_of_params (restoreWithin_file _ _ f)
  | fileCreated placed named =>
    refine ids_insert inv ?_ rfl
    unfold ids
    simp only [List.map_append]
    rw [← List.append_assoc]
    exact List.perm_append_singleton _ _
  | fileSaved | fileReused | fileTrashed | fileMarked | fileRestored => exact ids_saveFile inv rfl rfl rfl
  | fileCancelled asked =>
    refine ids_same inv (List.map_id _).symm rfl rfl (fun _ => rfl) fun f => ?_
    split <;> rfl
  | fileWorked worked same =>
    exact ids_same inv (List.map_id _).symm rfl rfl (fun _ => rfl) fun f => id_of_params (same f).1
  | fileRemoved id =>
    exact ids_sublist inv (List.Sublist.append (List.Sublist.refl _) (List.filter_sublist.map _)) rfl

theorem folder_unique (inv : Ids s) {f g : Folder} (first : f ∈ s.folders) (second : g ∈ s.folders) (same : f.id = g.id) : f = g :=
  List.inj_on_of_nodup_map (List.nodup_append.mp inv.distinct).1 first second same

theorem file_unique (inv : Ids s) (first : f ∈ s.files) (second : g ∈ s.files) (same : f.id = g.id) : f = g :=
  List.inj_on_of_nodup_map (List.nodup_append.mp inv.distinct).2.1 first second same

theorem folder_ne_file (inv : Ids s) {f : Folder} (folder : f ∈ s.folders) (file : g ∈ s.files) : f.id ≠ g.id :=
  (List.nodup_append.mp inv.distinct).2.2 f.id (List.mem_map_of_mem folder) g.id (List.mem_map_of_mem file)

end
end Tgtc.DirectoryChanges
