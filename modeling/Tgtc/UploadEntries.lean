import Tgtc.ChunkedUpload
import Tgtc.Runs

/-!
An entry of the upload queue of a page. Its file goes to the server in one request, after which the job that it is
answered with is polled, or in chunks.
-/
namespace Tgtc.UploadEntries
open UploadErrors Runs
universe u v

def CHUNK_THRESHOLD : Nat := 5 * 1024 * 1024
def MAX_ENTRY_RETRIES : Nat := 2
def BREAKER_TRIP_THRESHOLD : Nat := 6

/-- `maxWait` and `maxPollFailures` of `uploadFileAsync` -/
def maxWait : Int := 10 * 60 * 1000
def maxPollFailures : Nat := 3

inductive QueueStatus where
  | pending | processing | success | error | cancelled
deriving DecidableEq

inductive Job where
  | completed (id : String)
  | failed (error : Option String)
  | other

structure Config (Signal : Type u) (Byte : Type v) where
  file : Option (List Byte)
  signal : Signal

inductive Event where
  | uploadAsync
  | accepted (jobId : String)
  | init
  | merging
deriving DecidableEq

inductive Stage (Signal : Type u) (Byte : Type v) where
  | posting
  | sleeping (jobId : String) (consecutivePollFailures : Nat)
  | polling (jobId : String) (consecutivePollFailures : Nat)
  | pollBackoff (jobId : String) (consecutivePollFailures : Nat)
  | chunked (cfg : ChunkedUpload.Config Signal Byte) (upload : ChunkedUpload.State Signal Byte)
  | backoff
  | finished (status : QueueStatus)

structure State (Signal : Type u) (Byte : Type v) where
  scheduler : UploadScheduler.State Signal
  strictSerialUpload : Bool
  transientFirstAttemptStreak : Nat
  retryBreakerTripped : Bool
  retryCount : Nat
  stage : Stage Signal Byte
  log : List Event

section
variable {Signal : Type u} {Byte : Type v}

def recordTransientFirstAttemptFailure (s : State Signal Byte) : State Signal Byte :=
  { s with
    transientFirstAttemptStreak := s.transientFirstAttemptStreak + 1
    retryBreakerTripped := s.retryBreakerTripped || decide (BREAKER_TRIP_THRESHOLD ≤ s.transientFirstAttemptStreak + 1) }

def resetRetryBreaker (s : State Signal Byte) : State Signal Byte :=
  { s with transientFirstAttemptStreak := 0, retryBreakerTripped := false }

/-- The head of the loop of `processEntry`. -/
def attempt (cfg : Config Signal Byte) (s : State Signal Byte) : State Signal Byte :=
  match cfg.file with
  | none => { s with stage := .finished .error }
  | some file =>
    if s.strictSerialUpload = true ∨ file.length > CHUNK_THRESHOLD then
      { s with
        stage := .chunked ⟨if s.strictSerialUpload then 1 else 2,file,some cfg.signal,none⟩ (ChunkedUpload.start s.scheduler)
        log := s.log ++ [.init] }
    else { s with stage := .posting, log := s.log ++ [.uploadAsync] }

def succeeded (s : State Signal Byte) : State Signal Byte := resetRetryBreaker { s with stage := .finished .success }

def jobError (text : Option String) : Thrown := error ((nonEmpty text).getD "上传处理失败")

/-- The `init` requests of an upload in chunks. -/
def inits (log : List (ChunkedUpload.Event Byte)) : Nat := log.countP fun | .init => true | _ => false

def merges (upload : ChunkedUpload.State Signal Byte) : ChunkedUpload.Label Signal → Bool
  | .completeReply (.ok _) => match upload.phase with
    | .completing _ => true
    | _ => false
  | _ => false

section
variable [DecidableEq Signal]

def aborted (cfg : Config Signal Byte) (s : State Signal Byte) : Bool := cfg.signal ∈ s.scheduler.aborted

/-- The error path of an attempt in `processEntry`. -/
def failed (cfg : Config Signal Byte) (s : State Signal Byte) (err : Thrown) : State Signal Byte :=
  let retryable := (classifyUploadError err).retryable
  if aborted cfg s then { s with stage := .finished .cancelled }
  else if retryable = true ∧ s.retryCount < MAX_ENTRY_RETRIES ∧ s.retryBreakerTripped = false then
    { s with retryCount := s.retryCount + 1, stage := .backoff }
  else
    let s := if retryable = true ∧ (s.retryBreakerTripped = true ∨ s.retryCount = 0) then recordTransientFirstAttemptFailure s else s
    { s with stage := .finished .error }

/-- The error path of `uploadFileAsync` after the first request. -/
def rethrow (cfg : Config Signal Byte) (s : State Signal Byte) (err : Thrown) : State Signal Byte :=
  failed cfg s (if aborted cfg s then ChunkedUpload.cancelled else err)

/-- The head of the loop of `uploadFileAsync`. -/
def pollFrom (cfg : Config Signal Byte) (s : State Signal Byte) (jobId : String) (consecutivePollFailures : Nat) (elapsed : Int) :
    State Signal Byte :=
  if aborted cfg s = true ∨ maxWait ≤ elapsed then rethrow cfg s (error "上传处理超时")
  else { s with stage := .sleeping jobId consecutivePollFailures }

def postReply (cfg : Config Signal Byte) (s : State Signal Byte) (elapsed : Int) : Except Thrown String → State Signal Byte
  | .ok jobId => pollFrom cfg { s with log := s.log ++ [.accepted jobId] } jobId 0 elapsed
  | .error err => failed cfg s err

def pollReply (cfg : Config Signal Byte) (s : State Signal Byte) (jobId : String) (consecutivePollFailures : Nat) (elapsed : Int) :
    Except Thrown Job → State Signal Byte
  | .ok (.completed _) => succeeded s
  | .ok (.failed text) => rethrow cfg s (jobError text)
  | .ok .other => pollFrom cfg s jobId 0 elapsed
  | .error err =>
    if aborted cfg s then rethrow cfg s ChunkedUpload.cancelled
    else if (classifyUploadError err).retryable = false ∨ maxPollFailures ≤ consecutivePollFailures then rethrow cfg s err
    else { s with stage := .pollBackoff jobId (consecutivePollFailures + 1) }

def news (upload upload' : ChunkedUpload.State Signal Byte) (label : ChunkedUpload.Label Signal) : List Event :=
  (if merges upload label then [.merging] else []) ++ List.replicate (inits upload'.log - inits upload.log) .init

def chunkedStep (cfg : Config Signal Byte) (s : State Signal Byte) (config : ChunkedUpload.Config Signal Byte)
    (upload : ChunkedUpload.State Signal Byte) (label : ChunkedUpload.Label Signal) : State Signal Byte :=
  let upload' := ChunkedUpload.step config upload label
  let s := { s with scheduler := upload'.scheduler, log := s.log ++ news upload upload' label }
  match upload'.phase with
  | .settled (.ok _) => succeeded s
  | .settled (.error err) => failed cfg s err
  | _ => { s with stage := .chunked config upload' }

def wake (cfg : Config Signal Byte) (s : State Signal Byte) (elapsed : Int) : State Signal Byte :=
  match s.stage with
  | .sleeping jobId consecutivePollFailures =>
    if aborted cfg s then rethrow cfg s ChunkedUpload.cancelled else { s with stage := .polling jobId consecutivePollFailures }
  | .pollBackoff jobId consecutivePollFailures => pollFrom cfg s jobId consecutivePollFailures elapsed
  | .backoff => attempt cfg s
  | _ => s

def cancelWait (cfg : Config Signal Byte) (s : State Signal Byte) : State Signal Byte :=
  match s.stage with
  | .sleeping .. | .pollBackoff .. => rethrow cfg s ChunkedUpload.cancelled
  | .backoff => { s with stage := .finished .cancelled }
  | _ => s

inductive Label (Signal : Type u) where
  | setStrictSerialUpload (enabled : Bool)
  | breaker (transientFirstAttemptStreak : Nat) (retryBreakerTripped : Bool)
  /-- what the rest of the page does with the scheduler, and the user with the signal -/
  | foreign (label : UploadScheduler.Label Signal)
  | postReply (reply : Except Thrown String) (elapsed : Int)
  | pollReply (reply : Except Thrown Job) (elapsed : Int)
  | chunked (label : ChunkedUpload.Label Signal)
  | wake (elapsed : Int)
  | cancelWait

def step (cfg : Config Signal Byte) (s : State Signal Byte) : Label Signal → State Signal Byte
  | .setStrictSerialUpload enabled => { s with strictSerialUpload := enabled }
  | .breaker streak tripped => { s with transientFirstAttemptStreak := streak, retryBreakerTripped := tripped }
  | .foreign label => { s with scheduler := UploadScheduler.step s.scheduler label }
  | .postReply reply elapsed => match s.stage with
    | .posting => postReply cfg s elapsed reply
    | _ => s
  | .pollReply reply elapsed => match s.stage with
    | .polling jobId consecutivePollFailures => pollReply cfg s jobId consecutivePollFailures elapsed reply
    | _ => s
  | .chunked label => match s.stage with
    | .chunked config upload => chunkedStep cfg s config upload label
    | _ => s
  | .wake elapsed => wake cfg s elapsed
  | .cancelWait => cancelWait cfg s

/-- While an upload in chunks is under way, what the page does with the scheduler is a label of that upload. -/
def Allowed (cfg : Config Signal Byte) (s : State Signal Byte) : Label Signal → Prop
  | .foreign label => match s.stage with
    | .chunked .. => False
    | _ => UploadScheduler.Allowed s.scheduler label
  | .chunked label => match s.stage with
    | .chunked config upload => ChunkedUpload.Allowed config upload label
    | _ => False
  | .cancelWait => aborted cfg s = true
  | _ => True

def begin (cfg : Config Signal Byte) (scheduler : UploadScheduler.State Signal) (strictSerialUpload : Bool) : State Signal Byte :=
  attempt cfg ⟨scheduler,strictSerialUpload,0,false,0,.backoff,[]⟩

end

def Event.sends : Event → Bool
  | .uploadAsync | .init => true
  | _ => false

def Event.accepts : Event → Bool
  | .accepted _ | .merging => true
  | _ => false

def Accepted (log : List Event) : Prop := ∃ event ∈ log,event.accepts = true

def SentOnce (log : List Event) : Prop := log.Pairwise fun earlier later => earlier.accepts = true → later.sends = false

theorem SentOnce.append {log more : List Event} (once : SentOnce log) (new : SentOnce more)
    (apart : Accepted log → ∀ event ∈ more,event.sends = false) : SentOnce (log ++ more) :=
  List.pairwise_append.mpr ⟨once,new,fun earlier old later new accepts => apart ⟨earlier,old,accepts⟩ later new⟩

theorem accepted_append {log more : List Event} : Accepted (log ++ more) ↔ Accepted log ∨ Accepted more := by
  simp only [Accepted,List.mem_append,or_and_right,exists_or]

theorem sentOnce_one (event : Event) : SentOnce [event] := List.pairwise_singleton _ _

open ChunkedUpload in
def course (s : ChunkedUpload.State Signal Byte) : Phase × Bool × Nat := (s.phase,s.mergeTriggered,inits s.log)

section
open ChunkedUpload
variable {config : ChunkedUpload.Config Signal Byte} {s : ChunkedUpload.State Signal Byte}

@[simp] theorem course_put (w : Nat) (stage : ChunkedUpload.Stage) : course (s.put w stage) = course s := rfl

@[simp] theorem course_report (progress : ChunkUploadProgress) : course (s.report progress) = course s := rfl

@[simp] theorem course_release (call : Nat) : course (release s call) = course s := rfl

@[simp] theorem course_reject (w : Nat) (err : Thrown) : course (reject s w err) = course s := rfl

@[simp] theorem course_reportWaiting (waiting : Bool) : course (reportWaiting s waiting) = course s := by
  unfold reportWaiting
  split <;> rfl

@[simp] theorem course_registerChunk (index elapsed : Nat) : course (registerChunk config s index elapsed) = course s := by
  unfold registerChunk
  dsimp only
  split <;> rfl

theorem course_cancelWorker (w : Nat) (budgetBusy : Bool) : course (cancelWorker s w budgetBusy) = course s := by
  cases budgetBusy <;> simp [cancelWorker]

variable [DecidableEq Signal]

@[simp] theorem course_tryChunk (w index retryCount budgetRetryCount : Nat) :
    course (tryChunk config s w index retryCount budgetRetryCount) = course s := by
  unfold tryChunk
  split <;> rfl

theorem course_runWorker (w : Nat) : course (runWorker config s w) = course s := by
  unfold runWorker
  split
  · rfl
  · split
    · rfl
    · exact course_tryChunk ..

theorem course_resume (w index retryCount budgetRetryCount call : Nat) :
    course (resume config s w index retryCount budgetRetryCount call) = course s := by
  unfold resume
  split_ifs
  · rfl
  · simp [course,State.send,State.put,inits]
  · rfl

theorem course_chunkReply (w index retryCount budgetRetryCount call jitter elapsed : Nat) (reply : Except (Thrown × Bool) Unit) :
    course (chunkReply config s w index retryCount budgetRetryCount call jitter elapsed reply) = course s := by
  cases reply with
  | ok _ =>
    simp only [chunkReply,course_registerChunk,course_put,course_release]
    simp [course,State.send,inits]
  | error thrown =>
    rcases found : retryChunk thrown.1 thrown.2 jitter retryCount budgetRetryCount with _ | ⟨delay,retries,budgetRetries⟩
    · simp only [chunkReply,found]
      split_ifs <;> simp
    · simp only [chunkReply,found]
      split_ifs <;> simp

theorem course_wakeWorker (w index retryCount budgetRetryCount : Nat) (budgetBusy : Bool) :
    course (wakeWorker config s w index retryCount budgetRetryCount budgetBusy) = course s := by
  cases budgetBusy <;> simp [wakeWorker]

def Asked : Phase → Bool
  | .completing _ | .completeWaiting _ | .pollWaiting .. | .polling .. | .pollBackoff .. => true
  | _ => false

def Triggered (s : ChunkedUpload.State Signal Byte) : Prop := Asked s.phase = true → s.mergeTriggered = true

def Watched : Phase → Prop
  | .pollWaiting .. | .polling .. | .pollBackoff .. | .settled (.ok _) => True
  | .settled (.error err) => (classifyUploadError err).retryable = false
  | _ => False

structure Follows (s s' : ChunkedUpload.State Signal Byte) : Prop where
  watched : Watched s'.phase
  triggered : s'.mergeTriggered = true
  same : inits s'.log = inits s.log

omit [DecidableEq Signal] in
theorem triggered_throw (err : Thrown) : Triggered (ChunkedUpload.throw s err) := by
  unfold ChunkedUpload.throw
  split <;> exact nofun

omit [DecidableEq Signal] in
theorem follows_throw (triggered : s.mergeTriggered = true) {err : Thrown} (final : (classifyUploadError err).retryable = false) :
    Follows s (ChunkedUpload.throw s err) := by
  have settles : ChunkedUpload.throw s err = { s with phase := .settled (.error err) } := if_neg (by simp [triggered])
  rw [settles]
  exact ⟨final,triggered,rfl⟩

theorem final_abort {err : Thrown} (abort : isAbort err = true) : (classifyUploadError err).retryable = false := by
  simp [classifyUploadError,abort]

theorem final_business (message : String) : (classifyUploadError (createMergeBusinessError message)).retryable = false := by
  unfold classifyUploadError
  dsimp only
  split
  · rfl
  · simp [createMergeBusinessError]

theorem final_cancelled : (classifyUploadError cancelled).retryable = false := by decide +kernel

theorem final_unavailable : (classifyUploadError (error "服务暂时不可用，合并仍在后台进行，请稍后刷新文件列表查看")).retryable = false := by
  decide +kernel

section
variable (triggered : s.mergeTriggered = true)
include triggered

theorem follows_pollFrom (attempt consecutiveFailures : Nat) :
    Follows s (ChunkedUpload.pollFrom config s attempt consecutiveFailures) := by
  unfold ChunkedUpload.pollFrom
  split_ifs
  · exact follows_throw triggered (by decide +kernel)
  · exact follows_throw triggered final_cancelled
  · exact ⟨trivial,triggered,rfl⟩

theorem follows_complete (retry : Nat) (reply : Unit) : Follows s (completeReply config s retry (.ok reply)) := by
  unfold completeReply
  dsimp only
  split
  · exact follows_throw triggered (by decide +kernel)
  · exact follows_pollFrom triggered ..

theorem follows_pollReply (attempt consecutiveFailures : Nat) (reply : Except Thrown MergeStatus) :
    Follows s (ChunkedUpload.pollReply config s attempt consecutiveFailures reply) := by
  unfold ChunkedUpload.pollReply
  split
  · exact ⟨trivial,triggered,rfl⟩
  · exact follows_throw triggered (final_business _)
  · exact follows_pollFrom triggered ..
  · split_ifs with abort
    · exact follows_throw triggered (final_abort abort)
    · exact follows_throw triggered final_unavailable
    · exact ⟨trivial,triggered,rfl⟩

end

def works : ChunkedUpload.Label Signal → Bool
  | .foreign _ | .run _ | .resume _ | .chunkReply .. | .wakeWorker _ | .cancelWorker _ => true
  | _ => false

variable {label : ChunkedUpload.Label Signal}

theorem course_step (worker : works label = true) :
    course (ChunkedUpload.step config s label) = course s := by
  cases label with
  | foreign => rfl
  | run => exact course_runWorker _
  | resume w => simp only [ChunkedUpload.step]; split <;> first | exact course_resume .. | rfl
  | chunkReply w => simp only [ChunkedUpload.step]; split <;> first | exact course_chunkReply .. | rfl
  | wakeWorker w => simp only [ChunkedUpload.step]; split <;> first | exact course_wakeWorker .. | rfl
  | cancelWorker w => simp only [ChunkedUpload.step]; split <;> first | exact course_cancelWorker .. | rfl
  | _ => cases worker

theorem triggered_step (triggered : Triggered s) (allowed : ChunkedUpload.Allowed config s label) :
    Triggered (ChunkedUpload.step config s label) := by
  by_cases worker : works label = true
  · have same : course (ChunkedUpload.step config s label) = course s := course_step worker
    simp only [course,Prod.mk.injEq] at same
    exact fun asked => same.2.1.trans (triggered (same.1 ▸ asked))
  · cases label with
    | initReply reply =>
      obtain ⟨attempt,diskBudgetAttempts,phase⟩ := allowed
      simp only [ChunkedUpload.step,phase]
      unfold initReply
      split
      · exact nofun
      · split
        · exact triggered_throw _
        · split <;> split <;> first | exact triggered_throw _ | exact nofun
    | statusReply reply =>
      obtain ⟨⟨attempt,phase⟩,_⟩ := allowed
      simp only [ChunkedUpload.step,phase]
      unfold statusReply
      split
      · exact nofun
      · split <;> first | exact triggered_throw _ | exact nofun
    | gather =>
      simp only [ChunkedUpload.step]
      unfold gather
      split
      · exact triggered_throw _
      · split
        · exact triggered_throw _
        · exact fun _ => rfl
    | completeReply reply =>
      obtain ⟨retry,phase⟩ := allowed
      have triggered := triggered (by rw [phase]; rfl)
      simp only [ChunkedUpload.step,phase]
      cases reply with
      | ok reply => exact fun _ => (follows_complete triggered retry reply).triggered
      | error err =>
        simp only [completeReply]
        split_ifs <;> first | exact triggered_throw _ | exact fun _ => triggered
    | pollReply reply =>
      obtain ⟨attempt,consecutiveFailures,phase⟩ := allowed
      simp only [ChunkedUpload.step,phase]
      exact fun _ => (follows_pollReply (triggered (by rw [phase]; rfl)) ..).triggered
    | abortReply =>
      obtain ⟨err,phase⟩ := allowed
      simp only [ChunkedUpload.step,phase]
      exact nofun
    | wake =>
      simp only [ChunkedUpload.step]
      unfold ChunkedUpload.wake
      split
      · exact nofun
      · exact nofun
      · exact fun _ => rfl
      · next phase => exact fun _ => triggered (by rw [phase]; rfl)
      · next phase => exact fun _ => (follows_pollFrom (triggered (by rw [phase]; rfl)) ..).triggered
      · exact triggered
    | cancelWait =>
      simp only [ChunkedUpload.step]
      unfold ChunkedUpload.cancelWait
      split <;> first | exact triggered_throw _ | exact triggered
    | _ => simp [works] at worker

theorem follows_step (watched : Watched s.phase) (triggered : s.mergeTriggered = true)
    (allowed : ChunkedUpload.Allowed config s label) : Follows s (ChunkedUpload.step config s label) := by
  by_cases worker : works label = true
  · have same : course (ChunkedUpload.step config s label) = course s := course_step worker
    simp only [course,Prod.mk.injEq] at same
    exact ⟨same.1 ▸ watched,same.2.1.trans triggered,same.2.2⟩
  · cases label with
    | initReply reply => obtain ⟨attempt,diskBudgetAttempts,phase⟩ := allowed; simp [phase,Watched] at watched
    | statusReply reply => obtain ⟨⟨attempt,phase⟩,_⟩ := allowed; simp [phase,Watched] at watched
    | gather => simp [allowed.1,Watched] at watched
    | completeReply reply => obtain ⟨retry,phase⟩ := allowed; simp [phase,Watched] at watched
    | abortReply => obtain ⟨err,phase⟩ := allowed; simp [phase,Watched] at watched
    | pollReply reply =>
      obtain ⟨attempt,consecutiveFailures,phase⟩ := allowed
      simp only [ChunkedUpload.step,phase]
      exact follows_pollReply triggered ..
    | wake =>
      simp only [ChunkedUpload.step]
      unfold ChunkedUpload.wake
      split
      · next phase => simp [phase,Watched] at watched
      · next phase => simp [phase,Watched] at watched
      · next phase => simp [phase,Watched] at watched
      · exact ⟨trivial,triggered,by simp [inits,ChunkedUpload.State.send]⟩
      · exact follows_pollFrom triggered ..
      · exact ⟨watched,triggered,rfl⟩
    | cancelWait =>
      simp only [ChunkedUpload.step]
      unfold ChunkedUpload.cancelWait
      split
      · next phase => simp [phase,Watched] at watched
      · exact follows_throw triggered final_cancelled
      · exact follows_throw triggered final_cancelled
      · exact follows_throw triggered final_cancelled
      · exact follows_throw triggered final_cancelled
      · exact ⟨watched,triggered,rfl⟩
    | _ => simp [works] at worker

end

variable [DecidableEq Signal] {cfg : Config Signal Byte} {s : State Signal Byte}

/-- No further attempt is made after an error that is thrown now. -/
def LastAttempt (cfg : Config Signal Byte) (s : State Signal Byte) : Prop :=
  aborted cfg s = true ∨ MAX_ENTRY_RETRIES ≤ s.retryCount ∨ s.retryBreakerTripped = true

/-- The answer ends the polling with an error that is taken for a passing one. -/
def Misread (consecutivePollFailures : Nat) : Except Thrown Job → Prop
  | .error err => maxPollFailures ≤ consecutivePollFailures ∧ (classifyUploadError err).retryable = true
  | .ok (.failed text) => (classifyUploadError (jobError text)).retryable = true
  | .ok _ => False

/-- A job that the server has accepted is not misread while another attempt would be made. -/
def Fits (cfg : Config Signal Byte) (s : State Signal Byte) : Label Signal → Prop
  | .pollReply reply _ => match s.stage with
    | .polling _ consecutivePollFailures => Misread consecutivePollFailures reply → LastAttempt cfg s
    | _ => True
  | _ => True

structure Sound (s : State Signal Byte) : Prop where
  once : SentOnce s.log
  stage : match s.stage with
    | .posting | .backoff => ¬Accepted s.log
    | .chunked _ upload => Triggered upload ∧ (Accepted s.log → Watched upload.phase ∧ upload.mergeTriggered = true)
    | _ => True

theorem sound_failed (once : SentOnce s.log) {err : Thrown}
    (last : Accepted s.log → (classifyUploadError err).retryable = true → LastAttempt cfg s) : Sound (failed cfg s err) := by
  unfold failed
  dsimp only
  split_ifs with signalled again record
  · exact ⟨once,trivial⟩
  · refine ⟨once,fun accepted => ?_⟩
    rcases last accepted again.1 with signal | used | tripped
    · exact signalled signal
    · exact absurd again.2.1 (by omega)
    · simp [tripped] at again
  · exact ⟨once,trivial⟩
  · exact ⟨once,trivial⟩

theorem sound_rethrow (once : SentOnce s.log) {err : Thrown}
    (last : (classifyUploadError err).retryable = true → LastAttempt cfg s) : Sound (rethrow cfg s err) := by
  unfold rethrow
  split_ifs with signalled
  · exact sound_failed once fun _ _ => .inl signalled
  · exact sound_failed once fun _ => last

theorem sound_pollFrom (once : SentOnce s.log) (jobId : String) (consecutivePollFailures : Nat) (elapsed : Int) :
    Sound (pollFrom cfg s jobId consecutivePollFailures elapsed) := by
  unfold pollFrom
  split_ifs
  · have final : (classifyUploadError (error "上传处理超时")).retryable = false := by decide +kernel
    exact sound_rethrow once fun retryable => by simp [final] at retryable
  · exact ⟨once,trivial⟩

omit [DecidableEq Signal] in
theorem sound_attempt (once : SentOnce s.log) (unaccepted : ¬Accepted s.log) : Sound (attempt cfg s) := by
  have more : ∀ event,event.accepts = false → SentOnce (s.log ++ [event]) ∧ ¬Accepted (s.log ++ [event]) := fun event none =>
    ⟨once.append (sentOnce_one event) fun accepted => absurd accepted unaccepted,
      fun accepted => (accepted_append.mp accepted).elim unaccepted (by simp [Accepted,none])⟩
  unfold attempt
  split
  · exact ⟨once,trivial⟩
  · split
    · obtain ⟨once,unaccepted⟩ := more .init rfl
      exact ⟨once,nofun,fun accepted => absurd accepted unaccepted⟩
    · obtain ⟨once,unaccepted⟩ := more .uploadAsync rfl
      exact ⟨once,unaccepted⟩

section
variable {config : ChunkedUpload.Config Signal Byte} {upload : ChunkedUpload.State Signal Byte} {label : ChunkedUpload.Label Signal}
  {log : List Event}

/-- A merge that is accepted is the last that the upload sends. -/
theorem log_chunkedStep (once : SentOnce log) (triggered : Triggered upload)
    (watched : Accepted log → Watched upload.phase ∧ upload.mergeTriggered = true) (allowed : ChunkedUpload.Allowed config upload label) :
    SentOnce (log ++ news upload (ChunkedUpload.step config upload label) label) ∧
      (Accepted (log ++ news upload (ChunkedUpload.step config upload label) label) →
        Follows upload (ChunkedUpload.step config upload label)) := by
  by_cases merge : merges upload label = true
  · obtain ⟨reply,rfl⟩ : ∃ reply,label = .completeReply (.ok reply) := by
      unfold merges at merge
      split at merge
      · exact ⟨_,rfl⟩
      · cases merge
    obtain ⟨retry,phase⟩ := allowed
    have follows : Follows upload (ChunkedUpload.step config upload (.completeReply (.ok reply))) := by
      simp only [ChunkedUpload.step,phase]
      exact follows_complete (triggered (by rw [phase]; rfl)) ..
    have unaccepted : ¬Accepted log := fun accepted => by
      have watched := (watched accepted).1
      rw [phase] at watched
      exact watched
    have new : news upload (ChunkedUpload.step config upload (.completeReply (.ok reply))) (.completeReply (.ok reply)) = [.merging] := by
      simp [news,merge,follows.same]
    rw [new]
    exact ⟨once.append (sentOnce_one _) fun accepted => absurd accepted unaccepted,fun _ => follows⟩
  · have new : news upload (ChunkedUpload.step config upload label) label =
        List.replicate (inits (ChunkedUpload.step config upload label).log - inits upload.log) .init := by simp [news,merge]
    rw [new]
    have sent : SentOnce (List.replicate (inits (ChunkedUpload.step config upload label).log - inits upload.log) Event.init) :=
      List.pairwise_replicate.mpr (.inr nofun)
    by_cases accepted : Accepted log
    · obtain ⟨watched,triggered⟩ := watched accepted
      have follows := follows_step watched triggered allowed
      refine ⟨once.append sent fun _ event new => ?_,fun _ => follows⟩
      rw [follows.same,Nat.sub_self] at new
      cases new
    · refine ⟨once.append sent fun already => absurd already accepted,fun already => ?_⟩
      rcases accepted_append.mp already with old | ⟨event,new,accepts⟩
      · exact absurd old accepted
      · rw [List.eq_of_mem_replicate new] at accepts
        cases accepts

theorem sound_chunkedStep (sound : Sound s) (stage : s.stage = .chunked config upload)
    (allowed : ChunkedUpload.Allowed config upload label) : Sound (chunkedStep cfg s config upload label) := by
  obtain ⟨once,now⟩ := sound
  rw [stage] at now
  have triggered := triggered_step now.1 allowed
  obtain ⟨once,follows⟩ := log_chunkedStep once now.1 now.2 allowed
  unfold chunkedStep
  dsimp only
  split
  · exact ⟨once,trivial⟩
  · next err phase =>
    refine sound_failed once fun accepted retryable => ?_
    have watched := (follows accepted).watched
    rw [phase] at watched
    simp [Watched,retryable] at watched
  · exact ⟨once,triggered,fun accepted => ⟨(follows accepted).watched,(follows accepted).triggered⟩⟩

end

theorem sound_step {label : Label Signal} (sound : Sound s) (allowed : Allowed cfg s label) (fits : Fits cfg s label) :
    Sound (step cfg s label) := by
  have once := sound.once
  have now := sound.stage
  cases label with
  | setStrictSerialUpload | breaker | foreign => exact ⟨once,now⟩
  | postReply reply elapsed =>
    simp only [step]
    split
    · next stage =>
      rw [stage] at now
      cases reply with
      | ok jobId => exact sound_pollFrom (once.append (sentOnce_one _) fun accepted => absurd accepted now) ..
      | error err => exact sound_failed once fun accepted => absurd accepted now
    · exact sound
  | pollReply reply elapsed =>
    simp only [step]
    split
    · next jobId consecutivePollFailures stage =>
      simp only [Fits,stage] at fits
      unfold pollReply
      split
      · exact ⟨once,trivial⟩
      · exact sound_rethrow once fits
      · exact sound_pollFrom once ..
      · split_ifs with signalled last
        · exact sound_rethrow once fun _ => .inl signalled
        · refine sound_rethrow once fun retryable => fits ⟨?_,retryable⟩
          exact last.resolve_left (by simp [retryable])
        · exact ⟨once,trivial⟩
    · exact sound
  | chunked label =>
    simp only [step]
    split
    · next config upload stage =>
      simp only [Allowed,stage] at allowed
      exact sound_chunkedStep sound stage allowed
    · exact sound
  | wake elapsed =>
    simp only [step]
    unfold wake
    split
    · split_ifs with signalled
      · exact sound_rethrow once fun _ => .inl signalled
      · exact ⟨once,trivial⟩
    · exact sound_pollFrom once ..
    · next stage =>
      rw [stage] at now
      exact sound_attempt once now
    · exact sound
  | cancelWait =>
    simp only [step]
    unfold cancelWait
    split
    · exact sound_rethrow once fun _ => .inl allowed
    · exact sound_rethrow once fun _ => .inl allowed
    · exact ⟨once,trivial⟩
    · exact sound

/-- Where no job accepted is misread with attempts left, an upload that was accepted is not sent again.
-/
theorem accepted_sent_once (cfg : Config Signal Byte) (scheduler : UploadScheduler.State Signal) (strictSerialUpload : Bool)
    {labels : List (Label Signal)} (legal : Legal (step cfg) (Allowed cfg) (begin cfg scheduler strictSerialUpload) labels)
    (fit : Legal (step cfg) (Fits cfg) (begin cfg scheduler strictSerialUpload) labels) :
    Throughout (step cfg) (fun s => SentOnce s.log) (fun _ _ => True) (begin cfg scheduler strictSerialUpload) labels :=
  throughout_of_fits (fun _ sound => sound.once) (fun _ _ sound allowed fits => ⟨sound_step sound allowed fits,trivial⟩)
    (sound_attempt List.Pairwise.nil fun accepted => by simp [Accepted] at accepted) legal fit

end

def failsSaying (text : String) : List (Label Unit) :=
  [.postReply (.ok "job") 0,.wake 2000,.pollReply (.ok (.failed (some text))) 2100,.wake 5100]

theorem accepted_sent_once_storage :
    Throughout (step ⟨some [0],()⟩) (fun s => SentOnce s.log) (fun _ _ => True)
      (begin (⟨some [0],()⟩ : Config Unit Nat) (UploadScheduler.constructor Unit) false) (failsSaying "存储不可用") := by
  refine accepted_sent_once _ _ _ ⟨trivial,trivial,trivial,trivial,trivial⟩ ⟨trivial,trivial,fun misread => ?_,trivial,trivial⟩
  exact absurd misread (by decide +kernel : ¬(classifyUploadError (jobError (some "存储不可用"))).retryable = true)

theorem accepted_sent_again : ¬∀ (cfg : Config Unit Nat) scheduler strictSerialUpload labels,
    Legal (step cfg) (Allowed cfg) (begin cfg scheduler strictSerialUpload) labels →
      Throughout (step cfg) (fun s => SentOnce s.log) (fun _ _ => True) (begin cfg scheduler strictSerialUpload) labels := by
  intro all
  obtain ⟨_,_,_,_,_,_,_,_,once⟩ := all ⟨some [0],()⟩ (UploadScheduler.constructor Unit) false (failsSaying "timeout")
    ⟨trivial,trivial,trivial,trivial,trivial⟩
  have log : ((failsSaying "timeout").foldl (step ⟨some [0],()⟩)
      (begin (⟨some [0],()⟩ : Config Unit Nat) (UploadScheduler.constructor Unit) false)).log =
        [.uploadAsync,.accepted "job",.uploadAsync] := by decide +kernel
  have once : SentOnce [.uploadAsync,.accepted "job",.uploadAsync] := log ▸ once
  simp [SentOnce,Event.accepts,Event.sends] at once

end Tgtc.UploadEntries
