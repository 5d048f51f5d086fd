import Tgtc.Coordinator

/-!
`DownloadTaskService`, the first phase of a two-phase download. A task holds a disk reservation and gives out a
one-time ticket for it. Records stay in `records` for good; the id of a task is its place there.
-/
namespace Tgtc.DownloadTask
open Numbers Resources Maps Coordinator

inductive DownloadTaskStatus
  | queued
  | streamable
  | cancelled
  | expired
deriving DecidableEq

inductive DownloadTaskMode
  | cache
  | direct

/-- The `errorCode` of a task: its own expiry or a code of the coordinator. -/
inductive TaskErrorCode
  | taskExpired
  | resource (code : DownloadErrorCode)

structure CreateDownloadTaskInput where
  ownerKey : String
  fileId : String
  contentVersion : Option String
  expectedSize : Int
  downloadUrl : String
  countsTowardCache : Bool

/-- A call of `acquireReservation` that awaits the promise of a request. -/
structure Call where
  request : Nat
  resumed : Bool
deriving DecidableEq

structure DownloadTaskRecord where
  ownerKey : String
  fileId : String
  contentVersion : Option String
  expectedSize : Int
  downloadUrl : String
  countsTowardCache : Bool
  status : DownloadTaskStatus
  queueReason : Option DownloadQueueReason
  queuePosition : Option Nat
  retryAfterMs : Option Nat
  errorCode : Option TaskErrorCode
  message : Option String
  mode : Option DownloadTaskMode
  createdAt : Nat
  updatedAt : Nat
  expiresAt : ℚ
  reservation : Option Nat
  /-- `abortController.signal.aborted`. -/
  aborted : Bool
  ticket : Option Nat
  ticketExpiresAt : Option Nat
  handedOff : Bool
  /-- The call of `acquireReservation` made for the task. -/
  acquiring : Option Call

/-- `TASK_TICKET_TTL_MS`. -/
def taskTicketTtlMs : Nat := 120000

/-- `downloadTaskRetentionMs`; the configuration is clamped to its range. -/
structure Retention where
  ms : ℚ
  least : 60000 ≤ ms
  most : ms ≤ 86400000

def defaultRetention : Retention := ⟨900000,by norm_num,by norm_num⟩

structure TaskService where
  resources : Service
  records : List DownloadTaskRecord
  tasks : List Nat
  ticketIndex : OrderedMap Nat Nat
  nextTicket : Nat
  sweepTimer : Bool
  /-- The files for which `getCachedPath` finds a published cache file. -/
  cached : String → Bool
  retention : Retention

def fresh (config : Config) (world : World) (evictionHook : Bool) (cached : String → Bool) (retention : Retention) :
    TaskService where
  resources := Coordinator.fresh config world evictionHook
  records := []
  tasks := []
  ticketIndex := .empty
  nextTicket := 0
  sweepTimer := true
  cached := cached
  retention := retention

abbrev TaskService.now (s : TaskService) : Nat := s.resources.world.now

abbrev TaskService.disk (s : TaskService) : DiskQueue.Disk := s.resources.disk

def amend (s : TaskService) (task : Nat) (f : DownloadTaskRecord → DownloadTaskRecord) : TaskService :=
  { s with records := s.records.modify task f }

def coordinate (s : TaskService) (op : Op) : TaskService := { s with resources := Coordinator.step s.resources op }

/-- `sessionKeyFor`. -/
def sessionKeyFor (fileId : String) (contentVersion : Option String) : String :=
  match contentVersion with
  | none => "file:" ++ fileId
  | some version => "file:" ++ fileId ++ ":v" ++ version

def DownloadTaskRecord.sessionKey (r : DownloadTaskRecord) : String := sessionKeyFor r.fileId r.contentVersion

/-- `tasks.get`. -/
def recordOf (s : TaskService) (task : Nat) : Option DownloadTaskRecord :=
  if task ∈ s.tasks then s.records[task]? else none

structure DownloadTaskView where
  taskId : Nat
  status : DownloadTaskStatus
  queueReason : Option DownloadQueueReason
  queuePosition : Option Nat
  retryAfterMs : Option Nat
  expectedSize : Int
  downloadUrl : Option String
  ticket : Option Nat
  ticketExpiresAt : Option Nat
  mode : Option DownloadTaskMode
  expiresAt : ℚ
  errorCode : Option TaskErrorCode
  message : Option String

/-- `deliverableUrl`: the target with the ticket, once there is one. -/
def deliverableUrl (r : DownloadTaskRecord) : String :=
  match r.ticket with
  | none => r.downloadUrl
  | some ticket =>
    r.downloadUrl ++ (if r.downloadUrl.contains '?' then "&" else "?") ++ "taskTicket=" ++ toString ticket

def toView (task : Nat) (r : DownloadTaskRecord) : DownloadTaskView :=
  let deliverable := r.status = .streamable ∨ r.status = .queued
  let disclosed := deliverable ∧ r.ticket.isSome ∧ r.ticketExpiresAt.isSome
  { taskId := task
    status := r.status
    queueReason := r.queueReason
    queuePosition := r.queuePosition
    retryAfterMs := r.retryAfterMs
    expectedSize := r.expectedSize
    downloadUrl := if deliverable then some (deliverableUrl r) else none
    ticket := if disclosed then r.ticket else none
    ticketExpiresAt := if disclosed then r.ticketExpiresAt else none
    mode := r.mode
    expiresAt := r.expiresAt
    errorCode := r.errorCode
    message := r.message }

/-- `issueTicket`: an older ticket of the task is invalid from now on. -/
def issueTicket (s : TaskService) (task : Nat) : TaskService :=
  match s.records[task]? with
  | none => s
  | some record =>
    let index := match record.ticket with
      | some old => s.ticketIndex.delete old
      | none => s.ticketIndex
    { amend s task (fun r =>
        { r with ticket := some s.nextTicket, ticketExpiresAt := some (s.now + taskTicketTtlMs) }) with
      ticketIndex := index.set s.nextTicket task
      nextTicket := s.nextTicket + 1 }

def revokeTicket (s : TaskService) (task : Nat) : TaskService :=
  match (s.records[task]?).bind (·.ticket) with
  | none => s
  | some ticket =>
    { amend s task (fun r => { r with ticket := none, ticketExpiresAt := none }) with
      ticketIndex := s.ticketIndex.delete ticket }

/-- `abortController.abort()`: only the first call runs the listener of the awaited request. -/
def abort (s : TaskService) (task : Nat) : TaskService :=
  match s.records[task]? with
  | none => s
  | some record =>
    if record.aborted then s
    else
      let aborted := amend s task (fun r => { r with aborted := true })
      match record.acquiring with
      | none => aborted
      | some call => coordinate aborted (.diskAbort call.request)

def returnReservation (s : TaskService) (task : Nat) : TaskService :=
  match (s.records[task]?).bind (·.reservation) with
  | none => s
  | some reservation => amend (coordinate s (.release reservation)) task (fun r => { r with reservation := none })

def releaseResources (s : TaskService) (task : Nat) : TaskService :=
  returnReservation (abort (revokeTicket s task) task) task

def markStreamable (message : String) (r : DownloadTaskRecord) : DownloadTaskRecord :=
  { r with
    status := .streamable
    queueReason := none
    queuePosition := none
    retryAfterMs := none
    errorCode := none
    message := some message }

def reservedText : String := "已为该任务预留磁盘空间，正在开始下载"
def handedOffText : String := "资源已交给下载请求，正在传输"
def directText : String := "文件较大，将以直通方式下载（不占用本地缓存）"

def queueMessage (reason : Option DownloadQueueReason) (position : Nat) : String :=
  match reason with
  | some .upstream => "服务器下载连接繁忙，任务已排队"
  | some .serverLoad => "服务器当前下载负载较高，任务已排队，请稍后重试"
  | _ =>
    let ahead := position - 1
    if 0 < ahead then "正在等待服务器释放磁盘空间，前面还有 " ++ toString ahead ++ " 个任务"
    else "正在等待服务器释放磁盘空间"

/-- The end of `evaluate`: what the read-only probe makes of a task that holds nothing. -/
def probed (probe : AdmissionProbe) (r : DownloadTaskRecord) : DownloadTaskRecord :=
  if probe.admitted then markStreamable "服务器资源可用，正在开始下载" r
  else if probe.structural then markStreamable directText { r with status := .queued, errorCode := none, mode := some .direct }
  else { r with
    status := .queued
    errorCode := none
    queueReason := probe.reason
    queuePosition := some probe.queuePosition
    retryAfterMs := some probe.retryAfterMs
    message := some (queueMessage probe.reason probe.queuePosition) }

/-- What `evaluate` shows for a task that is not over, by what it holds. -/
def appraise (s : TaskService) (r : DownloadTaskRecord) : DownloadTaskRecord :=
  if r.reservation.isSome ∨ r.handedOff then
    if r.status ≠ .streamable then markStreamable (if r.handedOff then handedOffText else reservedText) r else r
  else if s.cached r.fileId then markStreamable "文件已就绪，正在开始下载" r
  else probed (probeAdmission s.resources r.expectedSize r.countsTowardCache) r

def evaluateTicket (s : TaskService) (task : Nat) : TaskService :=
  match s.records[task]? with
  | none => s
  | some record =>
    if record.reservation.isSome ∧ record.ticketExpiresAt.any (· < s.now) then
      amend (releaseResources s task) task
        (fun r => { r with status := .queued, message := some "下载准备已超时，正在重新准备" })
    else s

def expire (r : DownloadTaskRecord) : DownloadTaskRecord :=
  { r with
    status := .expired
    errorCode := some .taskExpired
    message := some "下载任务已过期，请重新发起下载"
    queueReason := none
    queuePosition := none
    retryAfterMs := none }

def evaluate (s : TaskService) (task : Nat) : TaskService :=
  match s.records[task]? with
  | none => s
  | some record =>
    if record.status = .cancelled then s
    else
      let touched := amend s task (fun r => { r with updatedAt := s.now })
      if record.expiresAt < s.now then amend (releaseResources touched task) task expire
      else
        let current := evaluateTicket touched task
        amend current task (appraise current)

/-- `tryHoldReservationNow`. -/
def tryHoldReservationNow (s : TaskService) (record : DownloadTaskRecord) : Option Nat × TaskService :=
  let (granted,disk) := DiskQueue.tryReserveNow s.resources.ctx s.resources.shuttingDown s.disk record.sessionKey
    (.whole record.expectedSize) record.countsTowardCache
  (granted,{ s with resources := onDisk s.resources disk })

/-- What `acquireReservation` asks the coordinator for. -/
def DownloadTaskRecord.request (r : DownloadTaskRecord) : DiskQueue.ReserveOptions where
  sessionKey := r.sessionKey
  bytes := .whole r.expectedSize
  countsTowardCache := r.countsTowardCache
  signal := if r.aborted then .aborted else .pending

/-- `acquireReservation` up to its `await`. -/
def acquireReservation (s : TaskService) (task : Nat) : TaskService :=
  match s.records[task]? with
  | none => s
  | some record =>
    if record.reservation.isSome ∨ record.handedOff then s
    else if record.status ≠ .queued then s
    else amend (coordinate s (.reserve record.request)) task
      (fun r => { r with acquiring := some ⟨s.disk.nextRequest,false⟩ })

/-- The call of `acquireReservation` is over. -/
def finishCall (r : DownloadTaskRecord) : DownloadTaskRecord :=
  { r with acquiring := r.acquiring.map (fun call => { call with resumed := true }) }

/-- `acquireReservation` after its `await` has yielded a reservation: one that came
    too late goes back at once. -/
def acquired (s : TaskService) (task : Nat) (record : DownloadTaskRecord) (reservation : Nat) : TaskService :=
  if record.status ≠ .queued ∨ record.expiresAt < s.now then amend (coordinate s (.release reservation)) task finishCall
  else
    let holding := amend s task (fun r => { finishCall r with reservation := some reservation })
    amend (issueTicket holding task) task (markStreamable reservedText)

/-- The `catch` of `acquireReservation`. -/
def acquireFailed (failure : Failure) (r : DownloadTaskRecord) : DownloadTaskRecord :=
  if r.status ≠ .queued then r
  else
    match failure with
    | .resource e =>
      if e.errorCode = .insufficientStorage then markStreamable directText { r with mode := some .direct }
      else { r with
        status := .queued
        errorCode := some (.resource e.errorCode)
        queueReason := some (e.queueReason.getD .serverLoad)
        retryAfterMs := e.retryAfterMs
        queuePosition := none
        message := some e.message }
    | .illegalSize _ => { r with
        status := .queued
        errorCode := some (.resource .serverBusy)
        queueReason := some .serverLoad
        retryAfterMs := none
        queuePosition := none
        message := some "服务器繁忙，任务仍在排队，请稍后重试" }

/-- `acquireReservation` from its `await` on, once the promise is settled. -/
def resume (s : TaskService) (task : Nat) : TaskService :=
  match s.records[task]? with
  | none => s
  | some record =>
    match record.acquiring with
    | none => s
    | some call =>
      if call.resumed then s
      else
        match DiskQueue.settlement s.disk call.request with
        | none => s
        | some (.ok reservation) => acquired s task record reservation
        | some (.error failure) => amend s task (fun r => acquireFailed failure (finishCall r))

def newRecord (s : TaskService) (input : CreateDownloadTaskInput) : DownloadTaskRecord where
  ownerKey := input.ownerKey
  fileId := input.fileId
  contentVersion := input.contentVersion
  expectedSize := input.expectedSize
  downloadUrl := input.downloadUrl
  countsTowardCache := input.countsTowardCache
  status := .queued
  queueReason := none
  queuePosition := none
  retryAfterMs := none
  errorCode := none
  message := none
  mode := none
  createdAt := s.now
  updatedAt := s.now
  expiresAt := s.now + s.retention.ms
  reservation := none
  aborted := false
  ticket := none
  ticketExpiresAt := none
  handedOff := false
  acquiring := none

/-- `tasks.set(record.id, record)`. -/
def addTask (s : TaskService) (record : DownloadTaskRecord) : TaskService :=
  { s with records := s.records ++ [record], tasks := s.tasks ++ [s.records.length] }

/-- The part of `create` after its evaluation: a task that can start holds its
    reservation at once, one that cannot waits for it. -/
def secure (s : TaskService) (task : Nat) : TaskService :=
  match s.records[task]? with
  | none => s
  | some record =>
    if record.status = .streamable ∧ record.mode = none then
      match tryHoldReservationNow s record with
      | (none,tried) => tried
      | (some granted,tried) =>
        let holding := amend tried task (fun r => { r with reservation := some granted })
        amend (issueTicket holding task) task (fun r => { r with message := some reservedText })
    else if record.status = .queued then acquireReservation s task
    else s

def create (s : TaskService) (input : CreateDownloadTaskInput) : Option DownloadTaskView × TaskService :=
  let task := s.records.length
  let created := secure (evaluate (addTask s (newRecord s input)) task) task
  ((created.records[task]?).map (toView task),created)

/-- `requireOwned`: a task of somebody else does not exist either. -/
def requireOwned (s : TaskService) (task : Nat) (ownerKey : String) : Option DownloadTaskRecord :=
  match recordOf s task with
  | none => none
  | some record => if record.ownerKey ≠ ownerKey then none else some record

/-- `refresh`; no view stands for the `NotFoundException`. -/
def refresh (s : TaskService) (task : Nat) (ownerKey : String) : Option DownloadTaskView × TaskService :=
  match requireOwned s task ownerKey with
  | none => (none,s)
  | some _ =>
    let evaluated := evaluate s task
    ((evaluated.records[task]?).map (toView task),evaluated)

def markCancelled (now : Nat) (r : DownloadTaskRecord) : DownloadTaskRecord :=
  { r with
    status := .cancelled
    message := some "下载任务已取消"
    queueReason := none
    queuePosition := none
    retryAfterMs := none
    updatedAt := now }

def cancel (s : TaskService) (task : Nat) (ownerKey : String) : Option DownloadTaskView × TaskService :=
  match requireOwned s task ownerKey with
  | none => (none,s)
  | some record =>
    let cancelled :=
      if record.handedOff then s
      else if record.status = .queued ∨ record.status = .streamable then
        amend (releaseResources s task) task (markCancelled s.now)
      else s
    ((cancelled.records[task]?).map (toView task),cancelled)

def handOff (s : TaskService) (task : Nat) (record : DownloadTaskRecord) (reservation : Nat) : TaskService :=
  coordinate
    (amend s task (fun r =>
      { r with reservation := none, handedOff := true, updatedAt := s.now, message := some handedOffText }))
    (.handOffToSession record.sessionKey reservation)

/-- `consumeTicket`: the ticket is spent whatever comes of it. -/
def consumeTicket (s : TaskService) (ticket : Nat) (ownerKey fileId : String) : Bool × TaskService :=
  match s.ticketIndex.get ticket with
  | none => (false,s)
  | some task =>
    let unindexed := { s with ticketIndex := s.ticketIndex.delete ticket }
    match recordOf s task with
    | none => (false,unindexed)
    | some record =>
      let spent := amend unindexed task (fun r => { r with ticket := none, ticketExpiresAt := none })
      if record.ticket ≠ some ticket ∨ record.ownerKey ≠ ownerKey ∨ record.fileId ≠ fileId then (false,spent)
      else if record.ticketExpiresAt.any (· < s.now) then (false,spent)
      else
        match record.reservation with
        | none => (false,spent)
        | some reservation =>
          if !DiskQueue.isActive s.disk reservation then (false,spent)
          else (true,handOff spent task record reservation)

/-- One turn of the loop of `sweep`. -/
def sweepTurn (retention : Retention) (s : TaskService) (task : Nat) : TaskService :=
  match s.records[task]? with
  | none => s
  | some record =>
    let released :=
      if record.expiresAt < s.now ∧ (record.reservation.isSome ∨ record.ticket.isSome) then releaseResources s task else s
    if record.expiresAt + retention.ms < s.now then { released with tasks := released.tasks.filter (· ≠ task) }
    else released

def sweep (s : TaskService) : TaskService :=
  coordinate (s.tasks.foldl (sweepTurn s.retention) s) .purgeExpiredHandOffs

/-- One turn of the loop of `onApplicationShutdown`. -/
def shutdownTurn (s : TaskService) (task : Nat) : TaskService :=
  match s.records[task]? with
  | none => s
  | some record =>
    if record.status = .queued then
      amend (releaseResources
          (amend s task (fun r => { r with message := some "服务正在重启，下载任务已取消，请稍后重试" })) task)
        task (fun r => { r with status := .cancelled })
    else releaseResources s task

def onApplicationShutdown (s : TaskService) : TaskService :=
  let released := s.tasks.foldl shutdownTurn { s with sweepTimer := false }
  coordinate { released with tasks := [], ticketIndex := .empty } .purgeExpiredHandOffs

inductive TaskOp
  | create (input : CreateDownloadTaskInput)
  | refresh (task : Nat) (ownerKey : String)
  | cancel (task : Nat) (ownerKey : String)
  | consumeTicket (ticket : Nat) (ownerKey fileId : String)
  /-- The promise that a call of `acquireReservation` awaits is settled and the call goes on. -/
  | resume (task : Nat)
  /-- The timer of `sweep` fires. -/
  | sweep
  | onApplicationShutdown
  /-- Whoever else uses the coordinator, its callbacks, the clock and the volume. -/
  | outside (op : Op)
  | publish (cached : String → Bool)
  | retain (retention : Retention)

def step (s : TaskService) : TaskOp → TaskService
  | .create input => (create s input).2
  | .refresh task ownerKey => (refresh s task ownerKey).2
  | .cancel task ownerKey => (cancel s task ownerKey).2
  | .consumeTicket ticket ownerKey fileId => (consumeTicket s ticket ownerKey fileId).2
  | .resume task => resume s task
  | .sweep => if s.sweepTimer then sweep s else s
  | .onApplicationShutdown => onApplicationShutdown s
  | .outside op => coordinate s op
  | .publish cached => { s with cached := cached }
  | .retain retention => { s with retention := retention }

end Tgtc.DownloadTask
