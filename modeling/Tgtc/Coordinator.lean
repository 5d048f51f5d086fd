import Tgtc.Runs
import Tgtc.DiskQueue
import Tgtc.UpstreamQueue

/-!
`DownloadResourceCoordinatorService` as one machine. Its public operations and the callbacks of its timers, listeners
and hooks run to their end one after the other, so a history of the service is a list of `Op`.
-/
namespace Tgtc.Coordinator
open Numbers Resources DiskQueue

structure Service where
  config : Config
  world : World
  shuttingDown : Bool
  disk : Disk
  upstream : UpstreamQueue.Upstream

def Service.ctx (s : Service) : Context := ⟨s.config,s.world⟩

def fresh (config : Config) (world : World) (evictionHook : Bool) : Service where
  config := config
  world := world
  shuttingDown := false
  disk := DiskQueue.fresh evictionHook
  upstream := UpstreamQueue.fresh

/-- `configure`: granted reservations and leases stay, both queues are pumped. -/
def configure (s : Service) (update : ConfigUpdate) : Service :=
  let ctx : Context := ⟨s.config.merge update,s.world⟩
  { s with
    config := s.config.merge update
    disk := pumpDisk ctx s.disk
    upstream := UpstreamQueue.pumpUpstream ctx s.upstream }

def shutdown (s : Service) : Service :=
  if s.shuttingDown then s
  else
    { s with
      shuttingDown := true
      disk := DiskQueue.shutdown s.ctx s.disk
      upstream := UpstreamQueue.shutdown s.upstream }

/-- `reset`: accepts work again after a shutdown; for tests and warm restarts. -/
def reset (s : Service) : Service := { s with shuttingDown := false, disk := stopPollTimer s.disk }

inductive Op
  | observe (world : World)
  | reserve (o : ReserveOptions)
  | tryReserveNow (sessionKey : String) (bytes : Number) (countsTowardCache : Bool)
  | consume (reservation : Nat) (bytes : Number)
  | release (reservation : Nat)
  | handOffToSession (sessionKey : String) (reservation : Nat)
  | purgeExpiredHandOffs
  | diskTimeout (request : Nat)
  | diskAbort (request : Nat)
  | pollTick
  | evictionSettled
  | acquireUpstreamSlot (o : UpstreamQueue.AcquireUpstreamOptions)
  | releaseLease (lease : Nat)
  | upstreamTimeout (request : Nat)
  | upstreamAbort (request : Nat)
  | configure (update : ConfigUpdate)
  | shutdown
  | reset
  | setActiveUpstreamCount (value : Number)

def onDisk (s : Service) (d : Disk) : Service := { s with disk := d }

def onUpstream (s : Service) (u : UpstreamQueue.Upstream) : Service := { s with upstream := u }

def step (s : Service) : Op → Service
  | .observe world => { s with world := world }
  | .reserve o => onDisk s (DiskQueue.reserve s.ctx s.shuttingDown s.disk o)
  | .tryReserveNow key bytes counts => onDisk s (tryReserveNow s.ctx s.shuttingDown s.disk key bytes counts).2
  | .consume id bytes => onDisk s (consumeReservation s.disk id bytes)
  | .release id => onDisk s (releaseReservation s.ctx s.disk id)
  -- A handle comes from a record, so there is nothing to hand off without one.
  | .handOffToSession key id =>
    if id < s.disk.records.length then onDisk s (handOffToSession s.ctx s.disk key id) else s
  | .purgeExpiredHandOffs => onDisk s (purgeExpiredHandOffs s.ctx s.disk)
  | .diskTimeout request => onDisk s (fireTimer s.ctx s.disk request)
  | .diskAbort request => onDisk s (fireAbort s.ctx s.disk request)
  | .pollTick => onDisk s (pollTick s.ctx s.disk)
  | .evictionSettled => onDisk s (evictionSettled s.ctx s.disk)
  | .acquireUpstreamSlot o => onUpstream s (UpstreamQueue.acquireUpstreamSlot s.ctx s.shuttingDown s.upstream o)
  | .releaseLease id => onUpstream s (UpstreamQueue.releaseLease s.ctx s.upstream id)
  | .upstreamTimeout request => onUpstream s (UpstreamQueue.fireTimer s.ctx s.upstream request)
  | .upstreamAbort request => onUpstream s (UpstreamQueue.fireAbort s.ctx s.upstream request)
  | .configure update => Coordinator.configure s update
  | .shutdown => Coordinator.shutdown s
  | .reset => Coordinator.reset s
  | .setActiveUpstreamCount value => onUpstream s (UpstreamQueue.setActiveUpstreamCount s.ctx s.upstream value)

/-- What `probeAdmission` returns. -/
structure AdmissionProbe where
  admitted : Bool
  structural : Bool
  reason : Option DownloadQueueReason
  scope : Option DownloadResourceScope
  queuePosition : Nat
  waitingDiskTasks : Nat
  waitingUpstreamTasks : Nat
  activeUpstreams : Int
  freeBytes : Int
  retryAfterMs : Nat

def probeAdmission (s : Service) (bytes : Int) (countsTowardCache : Bool) : AdmissionProbe :=
  let waitingDisk := s.disk.waitingDisk.length
  let waitingUpstream := s.upstream.waitingUpstream.length
  let base : AdmissionProbe :=
    ⟨false,false,none,none,waitingDisk + 1,waitingDisk,waitingUpstream,s.upstream.activeUpstreams,-1,retryAfterMs⟩
  if s.shuttingDown then { base with reason := some .serverLoad, scope := some .system }
  else
    let freeBytes := probeAdmissionFreeBytes s.ctx
    if freeBytes < 0 then { base with reason := some .disk, scope := some .disk, retryAfterMs := probeRetryAfterMs }
    else
      let weight := UpstreamQueue.upstreamWeightForSize (.whole bytes) s.config.maxConcurrentUpstreams
      let upstreamReady := waitingUpstream = 0 ∧ UpstreamQueue.canGrantUpstream s.config s.upstream weight = true
      match evaluateGrant s.ctx s.disk bytes countsTowardCache freeBytes with
      | .ok =>
        if upstreamReady then { base with admitted := true, freeBytes := freeBytes }
        else { base with
          reason := some .upstream, scope := some .upstream, freeBytes := freeBytes, queuePosition := waitingUpstream + 1 }
      | .refused structural reason => { base with
          structural := structural, reason := some (if reason = .disk then .disk else .serverLoad),
          scope := some reason, freeBytes := freeBytes }

def Forward (s : Service) : Op → Prop
  | .observe world => s.world.now ≤ world.now
  | _ => True

def after (config : Config) (free : Int) (history : List Op) : Service :=
  history.foldl step (fresh config (volume 0 free) false)

end Tgtc.Coordinator
