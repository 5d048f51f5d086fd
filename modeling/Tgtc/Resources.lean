import Tgtc.Numbers

/-!
The vocabulary of the download resource coordinator: its configuration, what
it reads from outside (clock, file system, cache size), the exceptions it
raises with their texts, and the constants of its queues.
-/
namespace Tgtc.Resources
open Numbers

/-- `UPSTREAM_QUEUE_POLICIES`. -/
inductive UpstreamQueuePolicy
  | strictFifo
  | boundedFit
deriving DecidableEq

/-- `DOWNLOAD_ERROR_CODES`. -/
inductive DownloadErrorCode
  | queueFull
  | queueTimeout
  | queueCancelled
  | serverBusy
  | sourceAccountUnavailable
  | accountPoolBusy
  | storageProbeUnavailable
  | insufficientStorage
  | shuttingDown
deriving DecidableEq

inductive DownloadQueueReason
  | disk
  | upstream
  | serverLoad
deriving DecidableEq

inductive DownloadResourceScope
  | disk
  | cache
  | upstream
  | global
  | system
deriving DecidableEq

structure DownloadResourceException where
  status : Nat
  errorCode : DownloadErrorCode
  message : String
  scope : DownloadResourceScope
  retryAfterMs : Option Nat
  queueReason : Option DownloadQueueReason
deriving DecidableEq

/-- What a rejected promise carries: a resource exception, or the plain error
    that names an illegal reservation size. -/
inductive Failure
  | resource (exception : DownloadResourceException)
  | illegalSize (bytes : Number)

def Failure.code : Failure → Option DownloadErrorCode
  | .resource e => some e.errorCode
  | .illegalSize _ => none

def retryAfterMs : Nat := 5000
def probeRetryAfterMs : Nat := 15000
def evictionThrottleMs : Nat := 1000
def handoffTtlMs : Nat := 120000
def scanWindow : Nat := 8
def maxHeadBypass : Nat := 8
def headFairWaitMs : Nat := 10000

def shuttingDownError : DownloadResourceException where
  status := 503
  errorCode := .shuttingDown
  message := "服务正在关闭，下载请求已取消"
  scope := .system
  retryAfterMs := none
  queueReason := none

def probeUnavailableError : DownloadResourceException where
  status := 503
  errorCode := .storageProbeUnavailable
  message := "磁盘空间探测失败，暂时无法开始下载，请稍后重试"
  scope := .disk
  retryAfterMs := some probeRetryAfterMs
  queueReason := none

def insufficientStorageError (reason : DownloadResourceScope) (bytes freeBytes : Int) :
    DownloadResourceException where
  status := 507
  errorCode := .insufficientStorage
  message :=
    if reason = .cache then "文件大小超过服务器缓存容量上限（需要 " ++ toString bytes ++ " 字节）"
    else "服务器可用空间不足，无法完整暂存该文件（需要 " ++ toString bytes ++ " 字节，可用 " ++
      toString freeBytes ++ " 字节）"
  scope := if reason = .cache then .cache else .disk
  retryAfterMs := some retryAfterMs
  queueReason := none

def queueFullError (reason : DownloadQueueReason) : DownloadResourceException where
  status := 429
  errorCode := .queueFull
  message := "服务器当前下载任务较多，请稍后重试"
  scope := if reason = .upstream then .upstream else .global
  retryAfterMs := some retryAfterMs
  queueReason := some reason

def queueTimeoutError (reason : DownloadQueueReason) : DownloadResourceException where
  status := 503
  errorCode := .queueTimeout
  message := "等待服务器释放下载空间超时，请稍后重新下载"
  scope := .disk
  retryAfterMs := some retryAfterMs
  queueReason := some reason

def serverBusyError (message : String) : DownloadResourceException where
  status := 503
  errorCode := .serverBusy
  message := message
  scope := .upstream
  retryAfterMs := some retryAfterMs
  queueReason := some .upstream

def cancelledError (message : String) : DownloadResourceException where
  status := 499
  errorCode := .queueCancelled
  message := message
  scope := .system
  retryAfterMs := none
  queueReason := none

def cancelledText : String := "下载任务已取消"

/-- The part of `DownloadResourceConfig` that the coordinator reads; numbers may be fractional, and the
coordinator guards the upstream budget itself. -/
structure Config where
  minFreeBytes : ℚ
  maxReservedBytes : ℚ
  queueCapacity : ℚ
  maxConcurrentUpstreams : Number
  upstreamQueuePolicy : UpstreamQueuePolicy
  volumePeerReserveBytes : ℚ

def defaultConfig : Config where
  minFreeBytes := 0
  maxReservedBytes := 0
  queueCapacity := 128
  maxConcurrentUpstreams := .whole 8
  upstreamQueuePolicy := .strictFifo
  volumePeerReserveBytes := 0

/-- `Partial<DownloadResourceConfig>`. -/
structure ConfigUpdate where
  minFreeBytes : Option ℚ
  maxReservedBytes : Option ℚ
  queueCapacity : Option ℚ
  maxConcurrentUpstreams : Option Number
  upstreamQueuePolicy : Option UpstreamQueuePolicy
  volumePeerReserveBytes : Option ℚ

/-- `{ ...this.config, ...partial }`. -/
def Config.merge (c : Config) (u : ConfigUpdate) : Config where
  minFreeBytes := u.minFreeBytes.getD c.minFreeBytes
  maxReservedBytes := u.maxReservedBytes.getD c.maxReservedBytes
  queueCapacity := u.queueCapacity.getD c.queueCapacity
  maxConcurrentUpstreams := u.maxConcurrentUpstreams.getD c.maxConcurrentUpstreams
  upstreamQueuePolicy := u.upstreamQueuePolicy.getD c.upstreamQueuePolicy
  volumePeerReserveBytes := u.volumePeerReserveBytes.getD c.volumePeerReserveBytes

/-- What `statfsSync` returns; a call that throws is `none` in `World`. -/
structure StatFs where
  bsize : Nat
  bavail : Int

structure CacheCapacity where
  committedBytes : Int
  maxBytes : Int
deriving DecidableEq

structure World where
  now : Nat
  statfs : Option StatFs
  cache : Option CacheCapacity

def volume (now : Nat) (free : Int) : World := ⟨now,some ⟨1,free⟩,none⟩

/-- An operation runs to its end without interleaving, so it sees one
    configuration and one set of readings. -/
structure Context where
  config : Config
  world : World

/-- `probeFreeBytes`: the free bytes shown to users, -1 when the probe fails. -/
def probeFreeBytes (w : World) : Int :=
  match w.statfs with
  | some stats => stats.bsize * (if 0 < stats.bavail then stats.bavail else 0)
  | none => -1

/-- `Math.max(0, Math.floor(this.config.volumePeerReserveBytes) || 0)`. -/
def peerReserve (c : Config) : Int := max 0 ⌊c.volumePeerReserveBytes⌋

/-- `probeAdmissionFreeBytes`: the free bytes admission works with. -/
def probeAdmissionFreeBytes (ctx : Context) : Int :=
  let raw := probeFreeBytes ctx.world
  if raw < 0 then raw else raw - peerReserve ctx.config

/-- The `signal` of a request: none given, one that may still abort, or one that has aborted already. -/
inductive Signal
  | absent
  | pending
  | aborted
deriving DecidableEq

/-- What `onQueued` is told. -/
structure QueueInfo where
  reason : DownloadQueueReason
  position : Nat
  retryAfterMs : Nat

end Tgtc.Resources
