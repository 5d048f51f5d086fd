import Tgtc.UploadWorker

/-!
Overwrites that fail. The row takes the name, the size and the type of the new content, and a placeholder for the
reference, before the new content is stored anywhere.
-/
namespace Tgtc.FailedOverwrites
open UploadWorker (Status Stage)

structure File where
  uploaderId : Nat
  folderId : Option String
  originalName : String
  size : Nat
  mimeType : String
  filename : String
  telegramFileId : String
  telegramFilePath : String
  thumbnailPath : Option String
  storageBackend : String
  storageAccountId : Option String
  storageObjectRef : Option String
  status : Status
  uploadVersion : Nat
  uploadStage : Stage
  uploadFailureReason : Option String
  isDeleted : Bool
deriving DecidableEq

structure Upload where
  userId : Nat
  folderId : Option String
  fileName : String
  size : Nat
  mimetype : String
  tempId : String

structure AuditEntry where
  filename : String
  size : Nat
  oldTelegramFileId : String

inductive Refusal
  | notFound (text : String)
  | badRequest (text : String)

/-- The overwrite branch, from the lock of the row on. -/
def createProcessingFile (locked : File) (u : Upload) : Except Refusal (File × AuditEntry) :=
  if locked.isDeleted then .error (.notFound "覆盖目标文件不存在或已被删除")
  else if locked.uploaderId ≠ u.userId then .error (.badRequest "覆盖目标文件不属于当前用户")
  else if locked.folderId ≠ u.folderId then .error (.badRequest "覆盖目标文件与上传目标目录不一致")
  else if locked.status = .processing then .error (.badRequest "覆盖目标文件正在处理中，请稍后重试")
  else .ok ({ locked with
    status := .processing
    uploadVersion := (if locked.uploadVersion = 0 then 1 else locked.uploadVersion) + 1
    uploadStage := .pending
    uploadFailureReason := none
    originalName := u.fileName
    size := u.size
    mimeType := if u.mimetype = "" then "application/octet-stream" else u.mimetype
    filename := u.tempId
    telegramFileId := u.tempId
    telegramFilePath := ""
    thumbnailPath := none },⟨u.fileName,u.size,locked.telegramFileId⟩)

def File.fail (file : File) (reason : String) : File :=
  { file with status := .error, uploadStage := .failed, uploadFailureReason := some reason }

def markProcessingFileFailed (file : File) : File :=
  if file.status = .processing then file.fail "上传已取消或未能入队，请重新上传" else file

/-- An attempt that does not commit, with what it finds: `reason` is what `safeFailureReason` makes of the error. -/
structure Attempt where
  attemptsMade : Nat
  sourceExists : Bool
  remoteReceipt : Bool
  reason : String

def File.isCommitted (file : File) : Bool := file.uploadStage = .remoteCommitted || file.uploadStage = .committed

def uploadToTelegram (uploadVersion : Nat) (a : Attempt) (file : File) : File :=
  if file.uploadVersion ≠ uploadVersion || file.isCommitted then file
  else if !a.sourceExists then
    if a.attemptsMade < 2 then file else file.fail "临时文件缺失，上传已放弃"
  else
    let uploading := { file with uploadStage := .uploading }
    if a.attemptsMade < 2 then uploading
    else if a.remoteReceipt then { uploading with uploadStage := .recoverable, uploadFailureReason := some a.reason }
    else uploading.fail a.reason

inductive Event
  | attempt (a : Attempt)
  /-- the upload is cancelled before the worker has begun -/
  | cancel

def step (uploadVersion : Nat) (file : File) : Event → File
  | .attempt a => uploadToTelegram uploadVersion a file
  | .cancel => markProcessingFileFailed file

def Event.final : Event → Bool
  | .attempt a => a.attemptsMade ≥ 2 && !(a.sourceExists && a.remoteReceipt)
  | .cancel => true

/-- The overwritten row stays where it is, with its backend and the object there, but stands for the new
content. -/
structure Overwritten (file : File) (u : Upload) (file' : File) : Prop where
  owner : file'.uploaderId = file.uploaderId ∧ file'.folderId = file.folderId ∧ file'.isDeleted = false
  object : file'.storageBackend = file.storageBackend ∧ file'.storageAccountId = file.storageAccountId ∧
    file'.storageObjectRef = file.storageObjectRef
  reference : file'.telegramFileId = u.tempId ∧ file'.filename = u.tempId ∧ file'.telegramFilePath = "" ∧ file'.thumbnailPath = none
  content : file'.originalName = u.fileName ∧ file'.size = u.size ∧
    file'.mimeType = if u.mimetype = "" then "application/octet-stream" else u.mimetype
  status : file'.status ≠ .ready
  uncommitted : file'.isCommitted = false

variable {file file' : File} {u : Upload} {audit : AuditEntry} {uploadVersion : Nat}

theorem overwritten_created (accepted : createProcessingFile file u = .ok (file',audit)) :
    Overwritten file u file' ∧ audit.oldTelegramFileId = file.telegramFileId := by
  unfold createProcessingFile at accepted
  split at accepted
  · cases accepted
  next deleted =>
  iterate 3
    split at accepted
    · cases accepted
  cases accepted
  exact ⟨⟨⟨rfl,rfl,Bool.eq_false_iff.mpr deleted⟩,⟨rfl,rfl,rfl⟩,⟨rfl,rfl,rfl,rfl⟩,⟨rfl,rfl,rfl⟩,nofun,rfl⟩,rfl⟩

theorem overwritten_fail (kept : Overwritten file u file') (reason : String) : Overwritten file u (file'.fail reason) :=
  { kept with status := nofun, uncommitted := rfl }

theorem overwritten_step (kept : Overwritten file u file') (event : Event) : Overwritten file u (step uploadVersion file' event) := by
  cases event with
  | attempt a =>
    simp only [step,uploadToTelegram]
    have uploading : Overwritten file u { file' with uploadStage := .uploading } := { kept with uncommitted := rfl }
    split_ifs
    · exact kept
    · exact kept
    · exact overwritten_fail kept _
    · exact uploading
    · exact { uploading with uncommitted := rfl }
    · exact overwritten_fail uploading _
  | cancel =>
    simp only [step,markProcessingFileFailed]
    split_ifs
    · exact overwritten_fail kept _
    · exact kept

theorem version_step (file : File) (event : Event) : (step uploadVersion file event).uploadVersion = file.uploadVersion := by
  cases event with
  | attempt a =>
    simp only [step,uploadToTelegram]
    split_ifs <;> rfl
  | cancel =>
    simp only [step,markProcessingFileFailed]
    split_ifs <;> rfl

theorem overwritten_run (kept : Overwritten file u file') (events : List Event) :
    Overwritten file u (events.foldl (step uploadVersion) file') ∧
      (events.foldl (step uploadVersion) file').uploadVersion = file'.uploadVersion := by
  induction events generalizing file' with
  | nil => exact ⟨kept,rfl⟩
  | cons event rest ih =>
    obtain ⟨after,same⟩ := ih (overwritten_step kept event)
    exact ⟨after,same.trans (version_step file' event)⟩

theorem final_error (kept : Overwritten file u file') {event : Event} (final : event.final = true) :
    (step file'.uploadVersion file' event).status = .error := by
  cases event with
  | attempt a =>
    obtain ⟨attemptsMade,sourceExists,remoteReceipt,reason⟩ := a
    simp only [Event.final,Bool.and_eq_true,decide_eq_true_eq] at final
    have last : ¬attemptsMade < 2 := Nat.not_lt.mpr final.1
    cases sourceExists with
    | false => simp [step,uploadToTelegram,kept.uncommitted,File.fail,last]
    | true => cases remoteReceipt with
      | false => simp [step,uploadToTelegram,kept.uncommitted,File.fail,last]
      | true => simp at final
  | cancel =>
    cases known : file'.status with
    | processing => simp [step,markProcessingFileFailed,known,File.fail]
    | ready => exact absurd known kept.status
    | error => simp [step,markProcessingFileFailed,known]

/-- An overwrite that is given up leaves an error and an `Overwritten` row; the old reference is in the
audit entry alone. -/
theorem failed_overwrite_keeps_row (file file' : File) (u : Upload) (audit : AuditEntry)
    (accepted : createProcessingFile file u = .ok (file',audit)) (events : List Event) (last : Event) (final : last.final = true) :
    Overwritten file u ((events ++ [last]).foldl (step file'.uploadVersion) file') ∧
      ((events ++ [last]).foldl (step file'.uploadVersion) file').status = .error ∧
      audit.oldTelegramFileId = file.telegramFileId := by
  obtain ⟨kept,audited⟩ := overwritten_created accepted
  obtain ⟨before,version⟩ := overwritten_run kept events
  refine ⟨(overwritten_run kept _).1,?_,audited⟩
  rw [List.foldl_append,List.foldl_cons,List.foldl_nil]
  simpa only [version] using final_error before final

def report : File :=
  ⟨7,none,"report.pdf",100,"application/pdf","r","r","documents/1",none,"telegram",none,none,.ready,1,.committed,none,false⟩

def replacement : Upload := ⟨7,none,"notes.txt",3,"text/plain","temp"⟩

theorem failed_overwrite_keeps_row_cancelled :
    ∃ file' audit, createProcessingFile report replacement = .ok (file',audit) ∧
      Overwritten report replacement ([Event.attempt ⟨0,true,false,"busy"⟩,.cancel].foldl (step file'.uploadVersion) file') := by
  refine ⟨_,_,rfl,?_⟩
  exact (failed_overwrite_keeps_row report _ replacement _ rfl [.attempt ⟨0,true,false,"busy"⟩] .cancel rfl).1

theorem failed_overwrite_loses_reference :
    ¬∀ (file : File) (u : Upload) (file' : File) (audit : AuditEntry), file.status = .ready →
      createProcessingFile file u = .ok (file',audit) → ∀ (events : List Event) (last : Event), last.final = true →
      let after := (events ++ [last]).foldl (step file'.uploadVersion) file'
      after.telegramFileId = file.telegramFileId ∧ after.size = file.size ∧ after.mimeType = file.mimeType ∧
        after.originalName = file.originalName := by
  intro keeps
  have kept := keeps report replacement _ _ rfl rfl [] .cancel rfl
  exact absurd kept.1 (by decide +kernel)

end Tgtc.FailedOverwrites
