import Mathlib.Data.Rat.Floor
import Mathlib.Data.List.Basic
import Tgtc.Maps
import Tgtc.Resources

/-!
The disk half of the download resource coordinator: reservations and their ledger, the bounded FIFO queue of requests
that wait for space, the pool of reservations handed from a download task to the request that reads the body, and the
wait statistics.
-/
namespace Tgtc.DiskQueue
open Numbers Resources Maps

structure ReservationRecord where
  sessionKey : String
  grantedBytes : Int
  remainingBytes : Int
  countsTowardCache : Bool
  createdAt : Nat
  active : Bool

structure DiskWaiter where
  id : Nat
  sessionKey : String
  bytes : Int
  countsTowardCache : Bool
  enqueuedAt : Nat
  settled : Bool

/-- An entry of `handedOffReservations`. -/
structure HandOff where
  reservation : Nat
  expiresAt : Nat

inductive DiskWaitOutcome
  | granted
  | timeout
  | cancelled
  | queueFull
  | directDegrade
  | shutdown
deriving DecidableEq

/-- `DISK_WAIT_HISTOGRAM_BUCKETS_MS`. -/
def diskWaitHistogramBucketsMs : List Nat := [1000,5000,10000,30000,60000,180000]

/-- A new reservation with the requests that waited and both ledgers right after it. -/
structure DiskGrant where
  reservation : Nat
  bytes : Int
  countsTowardCache : Bool
  waiting : List Nat
  reservedPendingBytes : Int
  cacheReservedBytes : Int
  capacity : Option CacheCapacity

inductive Answer
  | granted (grant : DiskGrant)
  | adopted (reservation : Nat)
  | rejected (failure : Failure)

inductive WaitEnd
  | granted (grant : DiskGrant)
  | timeout (exception : DownloadResourceException)
  | cancelled (exception : DownloadResourceException)
  | shutdown (exception : DownloadResourceException)

/-- `answered`: the promise of a request that never waited is settled. `queued`
    and `left`: a request joins the queue; it leaves and its promise is settled.
    `heldNow`: `tryReserveNow` creates a reservation. -/
inductive DiskEvent
  | answered (request : Nat) (answer : Answer)
  | queued (request : Nat) (info : QueueInfo)
  | left (request : Nat) (ending : WaitEnd)
  | heldNow (grant : DiskGrant)

def DiskEvent.grant : DiskEvent → Option DiskGrant
  | .answered _ (.granted grant) => some grant
  | .left _ (.granted grant) => some grant
  | .heldNow grant => some grant
  | _ => none

/-- The call of `reserve` an event is about. -/
def DiskEvent.request : DiskEvent → Option Nat
  | .answered request _ | .queued request _ | .left request _ => some request
  | .heldNow _ => none

/-- How an event settles the promise of a request, if it does. -/
def DiskEvent.settles (request : Nat) : DiskEvent → Option (Except Failure Nat)
  | .answered r result =>
    if r = request then
      match result with
      | .granted grant => some (.ok grant.reservation)
      | .adopted reservation => some (.ok reservation)
      | .rejected failure => some (.error failure)
    else none
  | .left r ending =>
    if r = request then
      match ending with
      | .granted grant => some (.ok grant.reservation)
      | .timeout e | .cancelled e | .shutdown e => some (.error (.resource e))
    else none
  | .queued _ _ | .heldNow _ => none

structure Disk where
  records : List ReservationRecord
  reservations : List Nat
  reservedPendingBytes : Int
  cacheReservedBytes : Int
  waitingDisk : List DiskWaiter
  handedOffReservations : OrderedMap String HandOff
  /-- Requests whose `setTimeout` is armed. -/
  timers : List Nat
  listeners : List Nat
  pollTimer : Bool
  evictionHook : Bool
  evictionInFlight : Bool
  lastEvictionAt : Nat
  diskWaitHistogram : List Nat
  diskWaitOutcomes : DiskWaitOutcome → Nat
  diskWaitSampled : Nat
  diskWaitTotalMs : Nat
  nextRequest : Nat
  log : List DiskEvent

/-- The fields as the constructor leaves them; whether an eviction hook is
    installed is up to the cache service. -/
def fresh (evictionHook : Bool) : Disk where
  records := []
  reservations := []
  reservedPendingBytes := 0
  cacheReservedBytes := 0
  waitingDisk := []
  handedOffReservations := .empty
  timers := []
  listeners := []
  pollTimer := false
  evictionHook := evictionHook
  evictionInFlight := false
  lastEvictionAt := 0
  diskWaitHistogram := List.replicate (diskWaitHistogramBucketsMs.length + 1) 0
  diskWaitOutcomes := fun _ => 0
  diskWaitSampled := 0
  diskWaitTotalMs := 0
  nextRequest := 0
  log := []

def waitingIds (d : Disk) : List Nat := d.waitingDisk.map (·.id)

/-- `reservation.active` of a handle. -/
def isActive (d : Disk) (id : Nat) : Bool := ((d.records[id]?).map (·.active)).getD false

/-- `reservation.grantedBytes` of a handle. -/
def grantedBytes (d : Disk) (id : Nat) : Int := ((d.records[id]?).map (·.grantedBytes)).getD 0

def settlement (d : Disk) (request : Nat) : Option (Except Failure Nat) := d.log.findSome? (·.settles request)

def emit (d : Disk) (event : DiskEvent) : Disk := { d with log := d.log ++ [event] }

def answer (d : Disk) (result : Answer) : Disk :=
  emit { d with nextRequest := d.nextRequest + 1 } (.answered d.nextRequest result)

def recordDiskWaitOutcome (d : Disk) (outcome : DiskWaitOutcome) (waitMs : Option Nat) : Disk :=
  { d with
    diskWaitOutcomes := fun o => if o = outcome then d.diskWaitOutcomes o + 1 else d.diskWaitOutcomes o
    diskWaitSampled := if waitMs.isSome then d.diskWaitSampled + 1 else d.diskWaitSampled
    diskWaitTotalMs := d.diskWaitTotalMs + waitMs.getD 0
    diskWaitHistogram := match waitMs with
      | none => d.diskWaitHistogram
      | some duration => d.diskWaitHistogram.modify
          (diskWaitHistogramBucketsMs.findIdx (fun bound => duration < bound)) (· + 1) }

def ensurePollTimer (d : Disk) : Disk := { d with pollTimer := true }

def stopPollTimer (d : Disk) : Disk := { d with pollTimer := false }

/-- `detachWaiter`: clears the timer and removes the abort listener. -/
def detachWaiter (d : Disk) (id : Nat) : Disk :=
  { d with timers := d.timers.filter (· ≠ id), listeners := d.listeners.filter (· ≠ id) }

/-- `removeDiskWaiter`; the flag is its result. -/
def removeDiskWaiter (d : Disk) (id : Nat) : Bool × Disk :=
  if d.waitingDisk.any (fun w => w.id = id) then
    (true,detachWaiter { d with waitingDisk := d.waitingDisk.eraseP (fun w => w.id = id) } id)
  else (false,d)

/-- `requestEviction`: starts the eviction hook unless it is missing, running or was started just now. -/
def requestEviction (ctx : Context) (d : Disk) : Disk :=
  if !d.evictionHook || d.evictionInFlight then d
  else if ctx.world.now - d.lastEvictionAt < evictionThrottleMs then d
  else { d with lastEvictionAt := ctx.world.now, evictionInFlight := true }

inductive Verdict
  | ok
  | refused (structural : Bool) (reason : DownloadResourceScope)
deriving DecidableEq

/-- The last check of `evaluateGrant`: what other tasks have reserved and not yet written is not free. -/
def evaluateContention (ctx : Context) (d : Disk) (bytes freeBytes : Int) : Verdict :=
  if (freeBytes : ℚ) - ctx.config.minFreeBytes - d.reservedPendingBytes < bytes then .refused false .disk else .ok

def evaluateGrant (ctx : Context) (d : Disk) (bytes : Int) (countsTowardCache : Bool) (freeBytes : Int) : Verdict :=
  if (freeBytes : ℚ) - ctx.config.minFreeBytes < bytes then .refused true .disk
  else if 0 < ctx.config.maxReservedBytes ∧
      ctx.config.maxReservedBytes < (d.reservedPendingBytes : ℚ) + bytes then .refused false .global
  else
    match (if countsTowardCache then ctx.world.cache else none) with
    | some cache =>
      if cache.maxBytes < bytes then .refused true .cache
      else if cache.maxBytes < cache.committedBytes + d.cacheReservedBytes + bytes then .refused false .cache
      else evaluateContention ctx d bytes freeBytes
    | none => evaluateContention ctx d bytes freeBytes

/-- `createReservation`: the new record gets the next place in `records`. -/
def createReservation (ctx : Context) (d : Disk) (sessionKey : String) (bytes : Int) (countsTowardCache : Bool) :
    Disk :=
  { d with
    records := d.records ++ [⟨sessionKey,bytes,bytes,countsTowardCache,ctx.world.now,true⟩]
    reservations := d.reservations ++ [d.records.length]
    reservedPendingBytes := d.reservedPendingBytes + bytes
    cacheReservedBytes := if countsTowardCache then d.cacheReservedBytes + bytes else d.cacheReservedBytes }

/-- The record of the reservation that `createReservation` creates in `d`. -/
def diskGrant (ctx : Context) (d : Disk) (sessionKey : String) (bytes : Int) (countsTowardCache : Bool) : DiskGrant :=
  let created := createReservation ctx d sessionKey bytes countsTowardCache
  ⟨d.records.length,bytes,countsTowardCache,waitingIds d,created.reservedPendingBytes,created.cacheReservedBytes,
    ctx.world.cache⟩

inductive GrantResult
  | granted (grant : DiskGrant) (d : Disk)
  | refused (structural : Bool) (reason : DownloadResourceScope)

def tryGrant (ctx : Context) (d : Disk) (sessionKey : String) (bytes : Int) (countsTowardCache : Bool)
    (freeBytes : Int) : GrantResult :=
  match evaluateGrant ctx d bytes countsTowardCache freeBytes with
  | .refused structural reason => .refused structural reason
  | .ok => .granted (diskGrant ctx d sessionKey bytes countsTowardCache)
      (createReservation ctx d sessionKey bytes countsTowardCache)

def classifyQueueReason (ctx : Context) (d : Disk) (bytes : Int) (countsTowardCache : Bool) : DownloadQueueReason :=
  if 0 < ctx.config.maxReservedBytes ∧ ctx.config.maxReservedBytes < (d.reservedPendingBytes : ℚ) + bytes then
    .serverLoad
  else
    match (if countsTowardCache then ctx.world.cache else none) with
    | some cache =>
      if cache.maxBytes < cache.committedBytes + d.cacheReservedBytes + bytes then .serverLoad else .disk
    | none => .disk

/-- The `while` loop of `pumpDisk`, which each round leaves or takes the head off the queue. -/
def pumpDiskLoop (ctx : Context) (freeBytes : Int) : Nat → Disk → Disk
  | 0, d => d
  | rounds+1, d =>
    match d.waitingDisk with
    | [] => stopPollTimer d
    | head :: _ =>
      match tryGrant ctx d head.sessionKey head.bytes head.countsTowardCache freeBytes with
      | .refused _ _ => requestEviction ctx d
      | .granted grant created =>
        let removed := (removeDiskWaiter created head.id).2
        let recorded := recordDiskWaitOutcome removed .granted (some (ctx.world.now - head.enqueuedAt))
        pumpDiskLoop ctx freeBytes rounds (emit recorded (.left head.id (.granted grant)))

def pumpDisk (ctx : Context) (d : Disk) : Disk :=
  if d.waitingDisk = [] then stopPollTimer d
  else
    let freeBytes := probeAdmissionFreeBytes ctx
    if freeBytes < 0 then d else pumpDiskLoop ctx freeBytes (d.waitingDisk.length + 1) d

/-- The `consumed` of `consumeReservation`, 0 for an amount it ignores. -/
def consumedBytes (record : ReservationRecord) : Number → Int
  | .finite q => if q ≤ 0 then 0 else min record.remainingBytes ⌊q⌋
  | _ => 0

def consumeReservation (d : Disk) (id : Nat) (bytes : Number) : Disk :=
  match d.records[id]? with
  | none => d
  | some record =>
    if !record.active then d
    else if consumedBytes record bytes ≤ 0 then d
    else
      { d with
        records := d.records.modify id
          (fun r => { r with remainingBytes := r.remainingBytes - consumedBytes record bytes })
        reservedPendingBytes := max 0 (d.reservedPendingBytes - consumedBytes record bytes) }

/-- `releaseReservation` up to the pump: the record leaves both ledgers. -/
def retire (d : Disk) (id : Nat) (record : ReservationRecord) : Disk :=
  { d with
    records := d.records.modify id (fun r => { r with active := false, remainingBytes := 0 })
    reservations := d.reservations.filter (· ≠ id)
    reservedPendingBytes := max 0 (d.reservedPendingBytes - record.remainingBytes)
    cacheReservedBytes :=
      if record.countsTowardCache then max 0 (d.cacheReservedBytes - record.grantedBytes) else d.cacheReservedBytes }

def releaseReservation (ctx : Context) (d : Disk) (id : Nat) : Disk :=
  match d.records[id]? with
  | none => d
  | some record => if !record.active then d else pumpDisk ctx (retire d id record)

/-- One turn of the loop of `purgeExpiredHandOffs`. -/
def purgeHandOff (ctx : Context) (d : Disk) (entry : String × HandOff) : Disk :=
  if ctx.world.now < entry.2.expiresAt then d
  else releaseReservation ctx { d with handedOffReservations := d.handedOffReservations.delete entry.1 }
    entry.2.reservation

def purgeExpiredHandOffs (ctx : Context) (d : Disk) : Disk := d.handedOffReservations.entries.foldl (purgeHandOff ctx) d

/-- `takeHandedOffReservation`: the entry leaves the pool whether it is still good or not. -/
def takeHandedOffReservation (ctx : Context) (d : Disk) (sessionKey : String) : Option Nat × Disk :=
  match d.handedOffReservations.get sessionKey with
  | none => (none,d)
  | some entry =>
    let taken := { d with handedOffReservations := d.handedOffReservations.delete sessionKey }
    if entry.expiresAt ≤ ctx.world.now ∨ !isActive taken entry.reservation then
      (none,releaseReservation ctx taken entry.reservation)
    else (some entry.reservation,taken)

def returnReplaced (ctx : Context) (d : Disk) (sessionKey : String) (reservation : Nat) : Disk :=
  match d.handedOffReservations.get sessionKey with
  | none => d
  | some existing =>
    if existing.reservation ≠ reservation then releaseReservation ctx d existing.reservation else d

def handOffToSession (ctx : Context) (d : Disk) (sessionKey : String) (reservation : Nat) : Disk :=
  let returned := returnReplaced ctx (purgeExpiredHandOffs ctx d) sessionKey reservation
  { returned with
    handedOffReservations := returned.handedOffReservations.set sessionKey
      ⟨reservation,ctx.world.now + handoffTtlMs⟩ }

structure ReserveOptions where
  sessionKey : String
  bytes : Number
  countsTowardCache : Bool
  signal : Signal

/-- `Number.isSafeInteger(bytes) && bytes > 0`, with the number of bytes. -/
def legalBytes (bytes : Number) : Option Int :=
  match bytes.safeInteger with
  | some n => if 0 < n then some n else none
  | none => none

/-- `enqueueDisk`. -/
def enqueueDisk (ctx : Context) (d : Disk) (o : ReserveOptions) (bytes : Int) : Disk :=
  let request := d.nextRequest
  let pushed := { d with
    nextRequest := request + 1
    waitingDisk := d.waitingDisk ++ [⟨request,o.sessionKey,bytes,o.countsTowardCache,ctx.world.now,false⟩]
    timers := d.timers ++ [request]
    listeners := if o.signal = .absent then d.listeners else d.listeners ++ [request] }
  emit pushed (.queued request
    ⟨classifyQueueReason ctx d bytes o.countsTowardCache,pushed.waitingDisk.length,retryAfterMs⟩)

/-- `reserve` once no handed-off reservation serves the request. -/
def reserveFresh (ctx : Context) (d : Disk) (o : ReserveOptions) (bytes : Int) : Disk :=
  let freeBytes := probeAdmissionFreeBytes ctx
  if freeBytes < 0 then answer d (.rejected (.resource probeUnavailableError))
  else
    match tryGrant ctx d o.sessionKey bytes o.countsTowardCache freeBytes with
    | .granted grant created => answer (recordDiskWaitOutcome created .granted none) (.granted grant)
    | .refused structural reason =>
      if structural then
        answer (recordDiskWaitOutcome d .directDegrade none)
          (.rejected (.resource (insufficientStorageError reason bytes freeBytes)))
      else if ctx.config.queueCapacity ≤ (d.waitingDisk.length : ℚ) then
        answer (recordDiskWaitOutcome d .queueFull none) (.rejected (.resource (queueFullError .disk)))
      else ensurePollTimer (enqueueDisk ctx d o bytes)

/-- `reserve` once the request is known to be well formed: a handed-off
    reservation that is large enough is adopted, a smaller one goes back. -/
def reserveAdmitted (ctx : Context) (d : Disk) (o : ReserveOptions) (bytes : Int) : Disk :=
  match takeHandedOffReservation ctx d o.sessionKey with
  | (some handedOff,taken) =>
    if bytes ≤ grantedBytes taken handedOff then answer taken (.adopted handedOff)
    else reserveFresh ctx (releaseReservation ctx taken handedOff) o bytes
  | (none,taken) => reserveFresh ctx taken o bytes

def reserve (ctx : Context) (shuttingDown : Bool) (d : Disk) (o : ReserveOptions) : Disk :=
  if shuttingDown then answer d (.rejected (.resource shuttingDownError))
  else
    match legalBytes o.bytes with
    | none => answer d (.rejected (.illegalSize o.bytes))
    | some bytes =>
      if o.signal = .aborted then answer d (.rejected (.resource (cancelledError cancelledText)))
      else reserveAdmitted ctx d o bytes

/-- `tryReserveNow` past its guards. -/
def tryReserveAdmitted (ctx : Context) (d : Disk) (sessionKey : String) (bytes : Int) (countsTowardCache : Bool) :
    Option Nat × Disk :=
  match takeHandedOffReservation ctx d sessionKey with
  | (some handedOff,taken) =>
    if bytes ≤ grantedBytes taken handedOff then (some handedOff,taken)
    else (none,releaseReservation ctx taken handedOff)
  | (none,taken) =>
    let freeBytes := probeAdmissionFreeBytes ctx
    if freeBytes < 0 then (none,taken)
    else
      match tryGrant ctx taken sessionKey bytes countsTowardCache freeBytes with
      | .granted grant created => (some grant.reservation,emit created (.heldNow grant))
      | .refused _ _ => (none,taken)

def tryReserveNow (ctx : Context) (shuttingDown : Bool) (d : Disk) (sessionKey : String) (bytes : Number)
    (countsTowardCache : Bool) : Option Nat × Disk :=
  if shuttingDown then (none,d)
  else
    match legalBytes bytes with
    | none => (none,d)
    | some bytes => tryReserveAdmitted ctx d sessionKey bytes countsTowardCache

def waiterOf (d : Disk) (request : Nat) : Option DiskWaiter := d.waitingDisk.find? (fun w => w.id = request)

/-- The `setTimeout` callback of a waiting request. -/
def timeoutCallback (ctx : Context) (d : Disk) (request : Nat) : Disk :=
  match waiterOf d request with
  | none => d
  | some waiter =>
    let removed := (removeDiskWaiter d request).2
    let recorded := recordDiskWaitOutcome removed .timeout (some (ctx.world.now - waiter.enqueuedAt))
    pumpDisk ctx (emit recorded (.left request (.timeout
      (queueTimeoutError (classifyQueueReason ctx recorded waiter.bytes waiter.countsTowardCache)))))

def abortCallback (ctx : Context) (d : Disk) (request : Nat) : Disk :=
  match waiterOf d request with
  | none => d
  | some waiter =>
    let removed := (removeDiskWaiter d request).2
    let recorded := recordDiskWaitOutcome removed .cancelled (some (ctx.world.now - waiter.enqueuedAt))
    pumpDisk ctx (emit recorded (.left request (.cancelled (cancelledError cancelledText))))

def fireTimer (ctx : Context) (d : Disk) (request : Nat) : Disk :=
  if request ∈ d.timers then timeoutCallback ctx d request else d

def fireAbort (ctx : Context) (d : Disk) (request : Nat) : Disk :=
  if request ∈ d.listeners then abortCallback ctx d request else d

/-- The `setInterval` callback of `ensurePollTimer`. -/
def pollTick (ctx : Context) (d : Disk) : Disk :=
  if !d.pollTimer then d else if d.waitingDisk = [] then stopPollTimer d else pumpDisk ctx d

/-- The `finally` of `requestEviction`. -/
def evictionSettled (ctx : Context) (d : Disk) : Disk :=
  if d.evictionInFlight then pumpDisk ctx { d with evictionInFlight := false } else d

/-- One turn of the loop of `shutdown` over the hand-off pool. -/
def shutdownHandOff (ctx : Context) (d : Disk) (entry : String × HandOff) : Disk :=
  let released := releaseReservation ctx d entry.2.reservation
  { released with handedOffReservations := released.handedOffReservations.delete entry.1 }

/-- One turn of the loop of `shutdown` over the waiting requests. -/
def shutdownWaiter (d : Disk) (waiter : DiskWaiter) : Disk :=
  let detached := detachWaiter d waiter.id
  if waiter.settled then detached
  else emit (recordDiskWaitOutcome detached .shutdown none) (.left waiter.id (.shutdown shuttingDownError))

/-- What `shutdown` does to the disk half. -/
def shutdown (ctx : Context) (d : Disk) : Disk :=
  let stopped := stopPollTimer d
  let emptied := stopped.handedOffReservations.entries.foldl (shutdownHandOff ctx) stopped
  emptied.waitingDisk.foldl shutdownWaiter { emptied with waitingDisk := [] }

end Tgtc.DiskQueue
