import Mathlib.Data.Rat.Floor
import Mathlib.Data.List.Basic
import Tgtc.Resources

/-!
The upstream half of the download resource coordinator: weighted leases on a budget that can change while they are
held, and the queue of requests that wait for weight, served in strict order or by the bounded fit policy.
-/
namespace Tgtc.UpstreamQueue
open Numbers Resources

structure LeaseRecord where
  weight : Int
  active : Bool

structure UpstreamWaiter where
  id : Nat
  enqueuedAt : Nat
  weight : Int
  effectiveWeight : Int
  bypassCount : Nat
  settled : Bool
deriving DecidableEq

inductive UpstreamGrantReason
  | head
  | headAfterWait
  | fitSkip

/-- A new lease with the budget in force, the weight held after it, the requests that waited and the
clock. -/
structure LeaseGrant where
  lease : Nat
  weight : Int
  budget : Option Int
  activeUpstreamWeight : Int
  waiting : List Nat
  grantedAt : Nat

inductive Answer
  | granted (grant : LeaseGrant)
  | rejected (exception : DownloadResourceException)

inductive WaitEnd
  | granted (grant : LeaseGrant) (reason : UpstreamGrantReason)
  | timeout (exception : DownloadResourceException)
  | cancelled (exception : DownloadResourceException)
  | shutdown (exception : DownloadResourceException)

/-- `answered`: the promise of a request that never waited is settled. `queued`
    and `left`: a request joins the queue; it leaves and its promise is settled. -/
inductive UpstreamEvent
  | answered (request : Nat) (answer : Answer)
  | queued (request enqueuedAt : Nat) (info : QueueInfo)
  | left (request : Nat) (ending : WaitEnd)

def UpstreamEvent.grant : UpstreamEvent → Option LeaseGrant
  | .answered _ (.granted grant) => some grant
  | .left _ (.granted grant _) => some grant
  | _ => none

def UpstreamEvent.request : UpstreamEvent → Nat
  | .answered request _ | .queued request _ _ | .left request _ => request

structure Upstream where
  leases : List LeaseRecord
  upstreamLeases : List Nat
  activeUpstreams : Int
  activeUpstreamWeight : Int
  waitingUpstream : List UpstreamWaiter
  upstreamBypassTotal : Nat
  timers : List Nat
  listeners : List Nat
  nextRequest : Nat
  log : List UpstreamEvent

def fresh : Upstream where
  leases := []
  upstreamLeases := []
  activeUpstreams := 0
  activeUpstreamWeight := 0
  waitingUpstream := []
  upstreamBypassTotal := 0
  timers := []
  listeners := []
  nextRequest := 0
  log := []

def waitingIds (u : Upstream) : List Nat := u.waitingUpstream.map (·.id)

def emit (u : Upstream) (event : UpstreamEvent) : Upstream := { u with log := u.log ++ [event] }

def answer (u : Upstream) (result : Answer) : Upstream :=
  emit { u with nextRequest := u.nextRequest + 1 } (.answered u.nextRequest result)

def largeFileThresholdBytes : ℚ := 1024 ^ 3
def mediumFileThresholdBytes : ℚ := 256 * 1024 ^ 2
def largeFileWeight : Int := 8
def mediumFileWeight : Int := 2
def smallFileWeight : Int := 1

def upstreamWeightForSize (bytes budget : Number) : Int :=
  let total := budget.atLeastOne
  match bytes with
  | .finite q =>
    if q ≤ 0 then clip smallFileWeight total
    else if largeFileThresholdBytes < q then clip largeFileWeight total
    else if mediumFileThresholdBytes < q then clip mediumFileWeight total
    else clip smallFileWeight total
  | _ => clip smallFileWeight total

def currentUpstreamBudget (c : Config) : Option Int := c.maxConcurrentUpstreams.atLeastOne

def budgetNumber : Option Int → Number
  | none => .infinity
  | some n => .whole n

/-- `effectiveWaiterWeight`: a weight clipped to the budget in force now. -/
def effectiveWaiterWeight (c : Config) (weight : Int) : Int :=
  clip (max 1 (if weight = 0 then 1 else weight)) (currentUpstreamBudget c)

structure AcquireUpstreamOptions where
  weight : Option Number
  bytes : Option Number
  signal : Signal

/-- `requested` of `resolveUpstreamWeight`: a finite explicit weight comes first, then the size. -/
def requestedWeight (budget : Option Int) (o : AcquireUpstreamOptions) : Int :=
  match o.weight with
  | some (.finite q) => ⌊q⌋
  | _ => upstreamWeightForSize (o.bytes.getD (.whole 0)) (budgetNumber budget)

def resolveUpstreamWeight (c : Config) (o : AcquireUpstreamOptions) : Int :=
  let budget := currentUpstreamBudget c
  clip (max 1 (requestedWeight budget o)) budget

def canGrantUpstream (c : Config) (u : Upstream) (weight : Int) : Bool :=
  within (u.activeUpstreamWeight + weight) (currentUpstreamBudget c)

/-- `grantUpstreamLease`: the new lease gets the next place in `leases`. -/
def grantUpstreamLease (u : Upstream) (weight : Int) : Upstream :=
  { u with
    leases := u.leases ++ [⟨weight,true⟩]
    upstreamLeases := u.upstreamLeases ++ [u.leases.length]
    activeUpstreams := u.activeUpstreams + 1
    activeUpstreamWeight := u.activeUpstreamWeight + weight }

/-- The record of the lease that `grantUpstreamLease` creates in `u`, decided
    while the requests `waiting` were in the queue. -/
def leaseGrant (ctx : Context) (u : Upstream) (weight : Int) (waiting : List Nat) : LeaseGrant :=
  ⟨u.leases.length,weight,currentUpstreamBudget ctx.config,(grantUpstreamLease u weight).activeUpstreamWeight,waiting,
    ctx.world.now⟩

def detachWaiter (u : Upstream) (id : Nat) : Upstream :=
  { u with timers := u.timers.filter (· ≠ id), listeners := u.listeners.filter (· ≠ id) }

/-- `removeUpstreamWaiter`; the flag is its result. -/
def removeUpstreamWaiter (u : Upstream) (id : Nat) : Bool × Upstream :=
  if u.waitingUpstream.any (fun w => w.id = id) then
    (true,detachWaiter { u with waitingUpstream := u.waitingUpstream.eraseP (fun w => w.id = id) } id)
  else (false,u)

def isHeadReserved (ctx : Context) (head : UpstreamWaiter) : Bool :=
  maxHeadBypass ≤ head.bypassCount || headFairWaitMs ≤ ctx.world.now - head.enqueuedAt

/-- A waiter behind the head that `findFitCandidateIndex` would pick. -/
def fitsNow (ctx : Context) (u : Upstream) (w : UpstreamWaiter) : Bool :=
  !w.settled && canGrantUpstream ctx.config u (effectiveWaiterWeight ctx.config w.weight)

/-- `findFitCandidateIndex`: the first waiter that fits among the `scanWindow` behind the head. -/
def findFitCandidate (ctx : Context) (u : Upstream) : Option UpstreamWaiter :=
  (u.waitingUpstream.tail.take scanWindow).find? (fitsNow ctx u)

def updateHead (u : Upstream) (f : UpstreamWaiter → UpstreamWaiter) : Upstream :=
  { u with waitingUpstream := u.waitingUpstream.modify 0 f }

def grantWaiter (ctx : Context) (u : Upstream) (id : Nat) (weight : Int) (reason : UpstreamGrantReason) : Upstream :=
  let removed := (removeUpstreamWaiter u id).2
  emit (grantUpstreamLease removed weight)
    (.left id (.granted (leaseGrant ctx removed weight (waitingIds u)) reason))

def countBypass (u : Upstream) : Upstream :=
  { updateHead u (fun w => { w with bypassCount := w.bypassCount + 1 }) with
    upstreamBypassTotal := u.upstreamBypassTotal + 1 }

/-- The `while` loop of `pumpUpstream`, each round of which takes one waiter off the queue. -/
def pumpUpstreamLoop (ctx : Context) : Nat → Upstream → Upstream
  | 0, u => u
  | rounds+1, u =>
    match u.waitingUpstream with
    | [] => u
    | head :: _ =>
      let headWeight := effectiveWaiterWeight ctx.config head.weight
      let weighed := updateHead u (fun w => { w with effectiveWeight := headWeight })
      if canGrantUpstream ctx.config weighed headWeight then
        pumpUpstreamLoop ctx rounds
          (grantWaiter ctx weighed head.id headWeight (if 0 < head.bypassCount then .headAfterWait else .head))
      else if ctx.config.upstreamQueuePolicy ≠ .boundedFit then weighed
      else if isHeadReserved ctx head then weighed
      else
        match findFitCandidate ctx weighed with
        | none => weighed
        | some candidate =>
          pumpUpstreamLoop ctx rounds
            (countBypass (grantWaiter ctx weighed candidate.id
              (effectiveWaiterWeight ctx.config candidate.weight) .fitSkip))

def pumpUpstream (ctx : Context) (u : Upstream) : Upstream := pumpUpstreamLoop ctx u.waitingUpstream.length u

/-- `lease.release()` up to the pump. -/
def retireLease (u : Upstream) (id : Nat) (record : LeaseRecord) : Upstream :=
  { u with
    leases := u.leases.modify id (fun l => { l with active := false })
    upstreamLeases := u.upstreamLeases.filter (· ≠ id)
    activeUpstreams := max 0 (u.activeUpstreams - 1)
    activeUpstreamWeight := max 0 (u.activeUpstreamWeight - record.weight) }

/-- `lease.release()`. -/
def releaseLease (ctx : Context) (u : Upstream) (id : Nat) : Upstream :=
  match u.leases[id]? with
  | none => u
  | some record => if !record.active then u else pumpUpstream ctx (retireLease u id record)

/-- The part of `acquireUpstreamSlot` that joins the queue. -/
def enqueueUpstream (ctx : Context) (u : Upstream) (o : AcquireUpstreamOptions) (weight : Int) : Upstream :=
  let request := u.nextRequest
  let pushed := { u with
    nextRequest := request + 1
    waitingUpstream := u.waitingUpstream ++
      [⟨request,ctx.world.now,weight,effectiveWaiterWeight ctx.config weight,0,false⟩]
    timers := u.timers ++ [request]
    listeners := if o.signal = .absent then u.listeners else u.listeners ++ [request] }
  emit pushed (.queued request ctx.world.now ⟨.upstream,pushed.waitingUpstream.length,retryAfterMs⟩)

def acquireUpstreamSlot (ctx : Context) (shuttingDown : Bool) (u : Upstream) (o : AcquireUpstreamOptions) : Upstream :=
  if shuttingDown then answer u (.rejected shuttingDownError)
  else if o.signal = .aborted then answer u (.rejected (cancelledError cancelledText))
  else
    let weight := resolveUpstreamWeight ctx.config o
    if canGrantUpstream ctx.config u weight then
      answer (grantUpstreamLease u weight) (.granted (leaseGrant ctx u weight (waitingIds u)))
    else if ctx.config.queueCapacity ≤ (u.waitingUpstream.length : ℚ) then
      answer u (.rejected (queueFullError .upstream))
    else enqueueUpstream ctx u o weight

def busyText : String := "下载连接等待超时，请稍后重试"

def dropWaiter (ctx : Context) (u : Upstream) (request : Nat) (ending : WaitEnd) : Upstream :=
  match removeUpstreamWaiter u request with
  | (false,_) => u
  | (true,removed) => pumpUpstream ctx (emit removed (.left request ending))

def fireTimer (ctx : Context) (u : Upstream) (request : Nat) : Upstream :=
  if request ∈ u.timers then dropWaiter ctx u request (.timeout (serverBusyError busyText)) else u

def fireAbort (ctx : Context) (u : Upstream) (request : Nat) : Upstream :=
  if request ∈ u.listeners then dropWaiter ctx u request (.cancelled (cancelledError cancelledText)) else u

/-- `setActiveUpstreamCount`, the hook of tests and diagnostics. -/
def setActiveUpstreamCount (ctx : Context) (u : Upstream) (value : Number) : Upstream :=
  let normalized := match value with
    | .finite q => max 0 ⌊q⌋
    | _ => 0
  pumpUpstream ctx { u with activeUpstreams := normalized, activeUpstreamWeight := normalized }

/-- One turn of the loop of `shutdown` over the waiting requests. -/
def shutdownWaiter (u : Upstream) (waiter : UpstreamWaiter) : Upstream :=
  let detached := detachWaiter u waiter.id
  if waiter.settled then detached else emit detached (.left waiter.id (.shutdown shuttingDownError))

/-- What `shutdown` does to the upstream half. -/
def shutdown (u : Upstream) : Upstream := u.waitingUpstream.foldl shutdownWaiter { u with waitingUpstream := [] }

end Tgtc.UpstreamQueue
