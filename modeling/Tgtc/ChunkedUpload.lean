import Tgtc.UploadErrors
import Tgtc.UploadScheduler

/-!
The upload of a file in chunks. It is announced, what the server has is asked for, the missing chunks are sent by
workers that share an index, the merge is asked for, and its result is polled.
-/
namespace Tgtc.ChunkedUpload
open UploadErrors
universe u v

def MAX_RETRIES : Nat := 3
def MAX_DISK_BUDGET_RETRIES : Nat := 360
def RETRY_BASE_DELAY : ℚ := 2000

/-- `maxAttempts` and `maxConsecutiveFailures` of `pollMergeResult` -/
def maxAttempts : Nat := 360
def maxConsecutiveFailures : Nat := 3

def getOptimalChunkSize (fileSize : Nat) : Nat :=
  if fileSize < 20 * 1024 * 1024 then 2 * 1024 * 1024
  else if fileSize < 100 * 1024 * 1024 then 5 * 1024 * 1024
  else if fileSize < 500 * 1024 * 1024 then 8 * 1024 * 1024
  else 16 * 1024 * 1024

structure Config (Signal : Type u) (Byte : Type v) where
  concurrency : Nat
  file : List Byte
  signal : Option Signal
  chunkSizeHint : Option Nat

section
variable {Signal : Type u} {Byte : Type v}

def Config.size (cfg : Config Signal Byte) : Nat := cfg.file.length

def Config.chunkSize (cfg : Config Signal Byte) : Nat :=
  let optimalChunkSize := (cfg.chunkSizeHint.filter fun hint => hint ≠ 0).getD (getOptimalChunkSize cfg.size)
  if cfg.size < 10 * 1024 * 1024 then min optimalChunkSize (2 * 1024 * 1024) else optimalChunkSize

def Config.totalChunks (cfg : Config Signal Byte) : Nat := (cfg.size + cfg.chunkSize - 1) / cfg.chunkSize

def Config.begins (cfg : Config Signal Byte) (index : Nat) : Nat := index * cfg.chunkSize

def Config.ends (cfg : Config Signal Byte) (index : Nat) : Nat := min (cfg.begins index + cfg.chunkSize) cfg.size

/-- `file.slice` -/
def Config.blob (cfg : Config Signal Byte) (index : Nat) : List Byte := (cfg.file.take (cfg.ends index)).drop (cfg.begins index)

end

structure ChunkUploadProgress where
  totalChunks : Nat
  uploadedChunks : Nat
  totalBytes : Nat
  loadedBytes : Nat
  retrying : Option Bool
  waitingForSlot : Option Bool

structure ChunkUploadResult where
  id : String
  originalName : String
deriving DecidableEq

/-- `mergeStatus`, with what it is read with. -/
inductive MergeStatus where
  | done (mergeResult : ChunkUploadResult)
  | error (mergeError : Option String)
  | other

/-- The call that the upload is at; a wait comes before the call of the same numbers. -/
inductive Phase where
  | initiating (attempt diskBudgetAttempts : Nat)
  | initWaiting (attempt diskBudgetAttempts : Nat) (queued : Bool)
  | reading (attempt : Nat)
  | readWaiting (attempt : Nat)
  | chunking
  | completing (retry : Nat)
  | completeWaiting (retry : Nat)
  | pollWaiting (attempt consecutiveFailures : Nat)
  | polling (attempt consecutiveFailures : Nat)
  | pollBackoff (attempt consecutiveFailures : Nat)
  | aborting (err : Thrown)
  | settled (result : Except Thrown ChunkUploadResult)
deriving DecidableEq

inductive Stage where
  | next
  /-- in `acquire`, the call of this number -/
  | waiting (index retryCount budgetRetryCount call : Nat)
  | sending (index retryCount budgetRetryCount call : Nat)
  | backing (index retryCount budgetRetryCount : Nat) (budgetBusy : Bool)
  | returned
  | rejected (err : Thrown)
deriving DecidableEq

inductive Event (Byte : Type v) where
  | init
  | status
  | reported (uploaded : List Nat)
  | chunk (index : Nat) (body : List Byte)
  | acknowledged (index : Nat) (body : List Byte)
  | complete
  | abort
deriving DecidableEq

structure State (Signal : Type u) (Byte : Type v) where
  scheduler : UploadScheduler.State Signal
  phase : Phase
  uploadId : Option String
  mergeTriggered : Bool
  progress : ChunkUploadProgress
  pendingIndices : List Nat
  nextIdx : Nat
  workerFailed : Bool
  uploadedIndices : List Nat
  loadedBytes : Nat
  workers : List Stage
  mine : List Nat
  log : List (Event Byte)
  /-- what `onProgress` has been given -/
  reports : List ChunkUploadProgress

section
variable {Signal : Type u} {Byte : Type v}

/-- A new `useChunkedUpload`, whose upload has sent its first request. -/
def start (scheduler : UploadScheduler.State Signal) : State Signal Byte where
  scheduler := scheduler
  phase := .initiating 0 0
  uploadId := none
  mergeTriggered := false
  progress := ⟨0,0,0,0,none,none⟩
  pendingIndices := []
  nextIdx := 0
  workerFailed := false
  uploadedIndices := []
  loadedBytes := 0
  workers := []
  mine := []
  log := [.init]
  reports := []

def State.put (s : State Signal Byte) (w : Nat) (stage : Stage) : State Signal Byte := { s with workers := s.workers.set w stage }

def State.send (s : State Signal Byte) (event : Event Byte) : State Signal Byte := { s with log := s.log ++ [event] }

def State.report (s : State Signal Byte) (progress : ChunkUploadProgress) : State Signal Byte :=
  { s with progress, reports := s.reports ++ [progress] }

def reportWaiting (s : State Signal Byte) (waiting : Bool) : State Signal Byte :=
  if s.progress.waitingForSlot = some waiting then s else s.report { s.progress with waitingForSlot := some waiting }

/-- The error path of `uploadFile`. -/
def throw (s : State Signal Byte) (err : Thrown) : State Signal Byte :=
  if s.uploadId.getD "" ≠ "" ∧ s.mergeTriggered = false then { s.send .abort with phase := .aborting err }
  else { s with phase := .settled (.error err) }

def cancelled : Thrown := error "上传已取消"

def isSafeRequestRetryable (err : Thrown) : Bool :=
  let classification := classifyUploadError err
  if classification.kind = .cancelled ∨ classification.kind = .business then false
  else match err.findSome? fun node => node.response.bind Response.status with
    | some status => status = 429 || (500 ≤ status && status ≤ 599)
    | none => classification.retryable

section
variable [DecidableEq Signal]

def aborted (cfg : Config Signal Byte) (s : State Signal Byte) : Bool := cfg.signal.any fun signal => signal ∈ s.scheduler.aborted

/-- What follows an `init` request. -/
def initReply (cfg : Config Signal Byte) (s : State Signal Byte) (attempt diskBudgetAttempts : Nat) : Except Thrown String → State Signal Byte
  | .ok uploadId => { (reportWaiting s false).send .status with uploadId := some uploadId, phase := .reading 0 }
  | .error err =>
    if aborted cfg s then throw s err
    else match getUploadBudgetRetryAfterMs err with
      | some _ =>
        if diskBudgetAttempts + 1 > MAX_DISK_BUDGET_RETRIES then
          throw (reportWaiting s false) (error "排队等待时间过长：服务器长时间被其他上传占用，请稍后重新上传")
        else { reportWaiting s true with phase := .initWaiting attempt (diskBudgetAttempts + 1) true }
      | none =>
        if (classifyUploadError err).retryable = false ∨ MAX_RETRIES ≤ attempt then throw s err
        else { s with phase := .initWaiting (attempt + 1) diskBudgetAttempts false }

/-- The chunks are shared out once it is known which of them the server has. -/
def startWorkers (cfg : Config Signal Byte) (s : State Signal Byte) (uploaded : List Nat) : State Signal Byte :=
  let uploadedIndices := uploaded.dedup
  let pendingIndices := (List.range cfg.totalChunks).filter fun i => i ∉ uploadedIndices
  let loadedBytes := (uploadedIndices.map fun i => cfg.ends i - cfg.begins i).sum
  { s.send (.reported uploaded) with
    phase := .chunking
    progress := ⟨cfg.totalChunks,uploadedIndices.length,cfg.size,loadedBytes,none,none⟩
    pendingIndices
    nextIdx := 0
    workerFailed := false
    uploadedIndices
    loadedBytes
    workers := List.replicate (min cfg.concurrency pendingIndices.length) .next }

def statusReply (cfg : Config Signal Byte) (s : State Signal Byte) (attempt : Nat) : Except Thrown (List Nat) → State Signal Byte
  | .ok uploaded => startWorkers cfg s uploaded
  | .error err =>
    if aborted cfg s = true ∨ MAX_RETRIES ≤ attempt ∨ isSafeRequestRetryable err = false then throw s err
    else { s with phase := .readWaiting (attempt + 1) }

def postComplete (s : State Signal Byte) (retry : Nat) : State Signal Byte :=
  { s.send .complete with mergeTriggered := true, phase := .completing retry }

def gather (cfg : Config Signal Byte) (s : State Signal Byte) : State Signal Byte :=
  match s.workers.findSome? fun | .rejected err => some err | _ => none with
  | some reason => throw s reason
  | none => if aborted cfg s then throw s cancelled else postComplete s 0

/-- The head of the loop of `pollMergeResult`. -/
def pollFrom (cfg : Config Signal Byte) (s : State Signal Byte) (attempt consecutiveFailures : Nat) : State Signal Byte :=
  if maxAttempts ≤ attempt then throw s (error "合并处理中，请稍后刷新文件列表查看；如文件未出现，请重新上传")
  else if aborted cfg s then throw s cancelled
  else { s with phase := .pollWaiting attempt consecutiveFailures }

def completeReply (cfg : Config Signal Byte) (s : State Signal Byte) (retry : Nat) : Except Thrown Unit → State Signal Byte
  | .ok _ => if s.uploadId.getD "" = "" then throw s (error "上传会话 ID 丢失") else pollFrom cfg s 0 0
  | .error err =>
    if aborted cfg s then throw s err
    else if (classifyUploadError err).retryable = false then throw s err
    else if MAX_RETRIES - 1 ≤ retry then throw s (error "服务暂时不可用，合并仍在后台进行，请稍后刷新文件列表查看")
    else { s with phase := .completeWaiting (retry + 1) }

def pollReply (cfg : Config Signal Byte) (s : State Signal Byte) (attempt consecutiveFailures : Nat) : Except Thrown MergeStatus → State Signal Byte
  | .ok (.done result) => { s with phase := .settled (.ok result) }
  | .ok (.error mergeError) => throw s (createMergeBusinessError ((nonEmpty mergeError).getD "合并失败"))
  | .ok .other => pollFrom cfg s (attempt + 1) 0
  | .error err =>
    if isAbort err then throw s err
    else if maxConsecutiveFailures ≤ consecutiveFailures + 1 then
      throw s (error "服务暂时不可用，合并仍在后台进行，请稍后刷新文件列表查看")
    else { s with phase := .pollBackoff attempt (consecutiveFailures + 1) }

def wake (cfg : Config Signal Byte) (s : State Signal Byte) : State Signal Byte :=
  match s.phase with
  | .initWaiting attempt diskBudgetAttempts queued =>
    { (if queued then reportWaiting s false else s).send .init with phase := .initiating attempt diskBudgetAttempts }
  | .readWaiting attempt => { s.send .status with phase := .reading attempt }
  | .completeWaiting retry => postComplete s retry
  | .pollWaiting attempt consecutiveFailures => { s.send .status with phase := .polling attempt consecutiveFailures }
  | .pollBackoff attempt consecutiveFailures => pollFrom cfg s (attempt + 1) consecutiveFailures
  | _ => s

def cancelWait (s : State Signal Byte) : State Signal Byte :=
  match s.phase with
  | .initWaiting _ _ queued => throw (if queued then reportWaiting s false else s) cancelled
  | .readWaiting _ | .completeWaiting _ | .pollWaiting .. | .pollBackoff .. => throw s cancelled
  | _ => s

/-- The head of the loop of `uploadChunk`. -/
def tryChunk (cfg : Config Signal Byte) (s : State Signal Byte) (w index retryCount budgetRetryCount : Nat) : State Signal Byte :=
  if aborted cfg s then s.put w .next
  else
    let call := s.scheduler.calls
    { s.put w (.waiting index retryCount budgetRetryCount call) with
      scheduler := UploadScheduler.acquire s.scheduler cfg.signal
      mine := s.mine ++ [call] }

/-- The loop of `runWorker`. -/
def runWorker (cfg : Config Signal Byte) (s : State Signal Byte) (w : Nat) : State Signal Byte :=
  if s.workerFailed then s.put w .returned
  else
    let s' := { s with nextIdx := s.nextIdx + 1 }
    match s.pendingIndices[s.nextIdx]? with
    | none => s'.put w .returned
    | some index => tryChunk cfg s' w index 0 0

def release (s : State Signal Byte) (call : Nat) : State Signal Byte := { s with scheduler := UploadScheduler.release s.scheduler call }

def reject (s : State Signal Byte) (w : Nat) (err : Thrown) : State Signal Byte := { s.put w (.rejected err) with workerFailed := true }

def resume (cfg : Config Signal Byte) (s : State Signal Byte) (w index retryCount budgetRetryCount call : Nat) : State Signal Byte :=
  if call ∈ UploadScheduler.grants s.scheduler.log then
    if aborted cfg s then (release s call).put w .next
    else (s.send (.chunk index (cfg.blob index))).put w (.sending index retryCount budgetRetryCount call)
  else reject s w cancelled

/-- `add` of a set -/
def addIndex (indices : List Nat) (index : Nat) : List Nat := if index ∈ indices then indices else indices ++ [index]

def registerChunk (cfg : Config Signal Byte) (s : State Signal Byte) (index elapsed : Nat) : State Signal Byte :=
  let uploadedIndices := addIndex s.uploadedIndices index
  let loadedBytes := s.loadedBytes + (cfg.blob index).length
  let s := { s with uploadedIndices, loadedBytes }
  if 500 ≤ elapsed ∨ uploadedIndices.length = cfg.totalChunks then
    s.report ⟨cfg.totalChunks,uploadedIndices.length,cfg.size,min loadedBytes cfg.size,none,none⟩
  else s

/-- How the errors of a chunk are met: the delay before the next attempt, with the retries taken, if there is one. -/
def retryChunk (err : Thrown) (timedOut : Bool) (jitter retryCount budgetRetryCount : Nat) : Option (ℚ × Nat × Nat) :=
  if isUploadBudgetBusy err = true ∧ budgetRetryCount < MAX_DISK_BUDGET_RETRIES then
    some ((getUploadBudgetRetryAfterMs err).getD 5000,retryCount,budgetRetryCount + 1)
  else if isUploadBudgetBusy err = false ∧ (timedOut = true ∨ isSafeRequestRetryable err = true) ∧ retryCount < MAX_RETRIES then
    some (RETRY_BASE_DELAY * 2 ^ retryCount + jitter,retryCount + 1,budgetRetryCount)
  else none

/-- The answer to a chunk: an error comes with whether the timer of the request has run out. -/
def chunkReply (cfg : Config Signal Byte) (s : State Signal Byte) (w index retryCount budgetRetryCount call jitter elapsed : Nat) :
    Except (Thrown × Bool) Unit → State Signal Byte
  | .ok _ => registerChunk cfg ((release (s.send (.acknowledged index (cfg.blob index))) call).put w .next) index elapsed
  | .error (err,timedOut) =>
    if isAbort err = true ∧ aborted cfg s = true then (release s call).put w .next
    else match retryChunk err timedOut jitter retryCount budgetRetryCount with
      | none => reject (release s call) w err
      | some (retryDelay,retryCount,budgetRetryCount) =>
        let s := release (s.report { s.progress with retrying := some true }) call
        -- a delay of nothing is how the loop tells that the chunk has been sent
        if retryDelay = 0 then registerChunk cfg (s.put w .next) index elapsed
        else
          let budgetBusy := isUploadBudgetBusy err
          (if budgetBusy then reportWaiting s true else s).put w (.backing index retryCount budgetRetryCount budgetBusy)

def wakeWorker (cfg : Config Signal Byte) (s : State Signal Byte) (w index retryCount budgetRetryCount : Nat) (budgetBusy : Bool) : State Signal Byte :=
  let s := if budgetBusy then reportWaiting s false else s
  tryChunk cfg (s.report { s.progress with retrying := some false }) w index retryCount budgetRetryCount

def cancelWorker (s : State Signal Byte) (w : Nat) (budgetBusy : Bool) : State Signal Byte :=
  reject (if budgetBusy then reportWaiting s false else s) w cancelled

inductive Label (Signal : Type u) where
  /-- what the rest of the page does with the scheduler, and the user with the signal -/
  | foreign (label : UploadScheduler.Label Signal)
  | initReply (reply : Except Thrown String)
  | statusReply (reply : Except Thrown (List Nat))
  | gather
  | completeReply (reply : Except Thrown Unit)
  | pollReply (reply : Except Thrown MergeStatus)
  | abortReply
  | wake
  | cancelWait
  | run (w : Nat)
  | resume (w : Nat)
  | chunkReply (w : Nat) (reply : Except (Thrown × Bool) Unit) (jitter elapsed : Nat)
  | wakeWorker (w : Nat)
  | cancelWorker (w : Nat)

def step (cfg : Config Signal Byte) (s : State Signal Byte) : Label Signal → State Signal Byte
  | .foreign label => { s with scheduler := UploadScheduler.step s.scheduler label }
  | .initReply reply => match s.phase with
    | .initiating attempt diskBudgetAttempts => initReply cfg s attempt diskBudgetAttempts reply
    | _ => s
  | .statusReply reply => match s.phase with
    | .reading attempt => statusReply cfg s attempt reply
    | _ => s
  | .gather => gather cfg s
  | .completeReply reply => match s.phase with
    | .completing retry => completeReply cfg s retry reply
    | _ => s
  | .pollReply reply => match s.phase with
    | .polling attempt consecutiveFailures => pollReply cfg s attempt consecutiveFailures reply
    | _ => s
  | .abortReply => match s.phase with
    | .aborting err => { s with uploadId := none, phase := .settled (.error err) }
    | _ => s
  | .wake => wake cfg s
  | .cancelWait => cancelWait s
  | .run w => runWorker cfg s w
  | .resume w => match s.workers[w]? with
    | some (.waiting index retryCount budgetRetryCount call) => resume cfg s w index retryCount budgetRetryCount call
    | _ => s
  | .chunkReply w reply jitter elapsed => match s.workers[w]? with
    | some (.sending index retryCount budgetRetryCount call) =>
      chunkReply cfg s w index retryCount budgetRetryCount call jitter elapsed reply
    | _ => s
  | .wakeWorker w => match s.workers[w]? with
    | some (.backing index retryCount budgetRetryCount budgetBusy) =>
      wakeWorker cfg s w index retryCount budgetRetryCount budgetBusy
    | _ => s
  | .cancelWorker w => match s.workers[w]? with
    | some (.backing _ _ _ budgetBusy) => cancelWorker s w budgetBusy
    | _ => s

def Stage.over : Stage → Bool
  | .returned | .rejected _ => true
  | _ => false

def Phase.waits : Phase → Bool
  | .initWaiting .. | .readWaiting _ | .completeWaiting _ | .pollWaiting .. | .pollBackoff .. => true
  | _ => false

/-- The tokens of the upload are its own, and the server reports only chunks of the file. -/
def Allowed (cfg : Config Signal Byte) (s : State Signal Byte) : Label Signal → Prop
  | .foreign label => UploadScheduler.Allowed s.scheduler label ∧ ∀ call ∈ s.mine,label ≠ .release call
  | .initReply _ => ∃ attempt diskBudgetAttempts,s.phase = .initiating attempt diskBudgetAttempts
  | .statusReply reply => (∃ attempt,s.phase = .reading attempt) ∧ match reply with
    | .ok uploaded => ∀ i ∈ uploaded,i < cfg.totalChunks
    | .error _ => True
  | .gather => s.phase = .chunking ∧ ∀ stage ∈ s.workers,stage.over = true
  | .completeReply _ => ∃ retry,s.phase = .completing retry
  | .pollReply _ => ∃ attempt consecutiveFailures,s.phase = .polling attempt consecutiveFailures
  | .abortReply => ∃ err,s.phase = .aborting err
  | .wake => s.phase.waits = true
  | .cancelWait => s.phase.waits = true ∧ aborted cfg s = true
  | .run w => s.workers[w]? = some .next
  | .resume w => ∃ index retryCount budgetRetryCount call,s.workers[w]? = some (.waiting index retryCount budgetRetryCount call) ∧
      call ∈ UploadScheduler.settled s.scheduler.log
  | .chunkReply w _ _ _ => ∃ index retryCount budgetRetryCount call,s.workers[w]? = some (.sending index retryCount budgetRetryCount call)
  | .wakeWorker w => ∃ index retryCount budgetRetryCount budgetBusy,s.workers[w]? = some (.backing index retryCount budgetRetryCount budgetBusy)
  | .cancelWorker w => (∃ index retryCount budgetRetryCount budgetBusy,
      s.workers[w]? = some (.backing index retryCount budgetRetryCount budgetBusy)) ∧ aborted cfg s = true

end
end

end Tgtc.ChunkedUpload
