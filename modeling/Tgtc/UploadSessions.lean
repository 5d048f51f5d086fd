import Tgtc.Maps

/-!
Sessions of chunked uploads: what the service keeps of one between the requests
that belong to it, and how a request finds its session. Sizes and counts are the
safe integers the source computes with.
-/
namespace Tgtc.UploadSessions
open Maps

inductive MergeStatus where
  | pending | merging | uploading | done | error
deriving DecidableEq

structure MergeResult where
  id : String
  originalName : String
deriving DecidableEq

structure ChunkSession where
  fileSize : Int
  chunkSize : Int
  totalChunks : Int
  uploadedBy : String
  mergeStatus : MergeStatus
  mergeResult : Option MergeResult
  mergeError : Option String
  reclaiming : Bool
deriving DecidableEq

structure HttpError where
  status : Nat
  message : String
deriving DecidableEq

def isHex (c : Char) : Bool := ('0' ≤ c ∧ c ≤ '9') ∨ ('a' ≤ c ∧ c ≤ 'f') ∨ ('A' ≤ c ∧ c ≤ 'F')

def isUuid (name : String) : Bool :=
  let groups := name.toList.splitOn '-'
  groups.map List.length = [8,4,4,4,12] && groups.all (·.all isHex)

def getSession (sessions : OrderedMap String ChunkSession) (uploadId userId : String) : Except HttpError ChunkSession :=
  if isUuid uploadId = false then .error ⟨400,"无效的 uploadId 格式"⟩
  else match sessions.get uploadId with
    | none => .error ⟨404,"上传会话不存在或已过期"⟩
    | some session =>
      if session.reclaiming then .error ⟨404,"上传会话不存在或已过期"⟩
      else if session.uploadedBy ≠ userId then .error ⟨403,"无权操作此上传会话"⟩
      else .ok session

theorem getSession_uploadedBy {sessions : OrderedMap String ChunkSession} {uploadId userId : String}
    {session : ChunkSession} (found : getSession sessions uploadId userId = .ok session) :
    sessions.get uploadId = some session ∧ session.uploadedBy = userId := by
  unfold getSession at found
  split at found
  · cases found
  cases known : sessions.get uploadId with
  | none => simp [known] at found
  | some known' =>
    rw [known] at found
    dsimp only at found
    split_ifs at found with reclaiming other
    cases found
    exact ⟨rfl,not_not.mp other⟩

def isActiveSession (session : ChunkSession) : Bool :=
  session.mergeStatus = .pending || session.mergeStatus = .merging || session.mergeStatus = .uploading

end Tgtc.UploadSessions
