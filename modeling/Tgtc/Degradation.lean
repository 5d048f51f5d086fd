import Tgtc.CacheDirectory
import Tgtc.DirectRelay
import Tgtc.SessionLeases
import Tgtc.UploadSessions

/-!
Downloads of files of known size, and what becomes of them where the file cannot be staged. A download goes through a
number of waits, and is a function of what it finds at each of the moments it goes on from.
-/
namespace Tgtc.Degradation
open Maps Numbers Resources
open SessionLocks (buildSessionKey)
open CacheService (sameContentVersion)
open UploadSessions (isUuid)
open UpstreamQueue (emit)

/-! ### What a download finds -/

structure BuildSession where
  expectedSize : Int
  contentVersion : Option String

structure SpoolSession where
  expectedSize : Int
  contentVersion : Option String
  error : Option String
  fileReady : Bool
  completed : Bool

structure View where
  resources : Coordinator.Service
  shuttingDown : Bool
  invalidatingFileIds : List String
  noCacheMode : Bool
  now : Nat
  cacheTtlMs : Nat
  files : OrderedMap String CacheDirectory.CacheFile
  buildSessions : OrderedMap String BuildSession
  spoolSessions : OrderedMap String SpoolSession

inductive Waited where
  | granted
  | timeout (reason : DownloadQueueReason)
  | cancelled
  | shutdown

def Waited.diskFailure : Waited → Option DownloadResourceException
  | .granted => none
  | .timeout reason => some (queueTimeoutError reason)
  | .cancelled => some (cancelledError cancelledText)
  | .shutdown => some shuttingDownError

def Waited.upstreamFailure : Waited → Option DownloadResourceException
  | .granted => none
  | .timeout _ => some (serverBusyError UpstreamQueue.busyText)
  | .cancelled => some (cancelledError cancelledText)
  | .shutdown => some shuttingDownError

/-- The waits of `acquireSessionResources`. -/
structure Admission where
  diskWait : Waited
  reserved : View
  aborted : Bool
  upstreamWait : Waited
  leased : View

structure Moments where
  entry : View
  locked : View
  /-- the answer of `prepareCacheCapacity` -/
  capacity : Bool
  prepared : View
  building : Admission
  /-- the error of the build session, if it fails before it has written anything -/
  unreadable : Option String
  /-- `abortBuildSession` is over -/
  bypassed : View
  spoolLocked : View
  intact : Bool
  cleared : View
  spooling : Admission
  replaced : View
  /-- `getSpooledStream` has failed -/
  refused : View
  upstreamWait : Waited
  /-- what `fetchFn` answers: the file in chunks, or an error -/
  fetched : Except String (List (List UInt8))

inductive Rejection where
  | illegalFileId (fileId : String)
  | illegalSize (expectedSize : Int)
  | illegalRange (start last : Int)
  | unavailable (message : String)
  | resource (exception : DownloadResourceException)
  /-- `reserve` was asked for a size that is none -/
  | illegalReservation (bytes : Number)
  | sizeMismatch
  | session (error : String)
  | fetch (error : String)
deriving DecidableEq

inductive Served where
  | cached (start last : Int)
  | build (start last : Int)
  | spool (start last : Int)
  | direct (bytes : List UInt8)
deriving DecidableEq

def isInsufficientStorage : Rejection → Bool
  | .resource exception => exception.errorCode = .insufficientStorage
  | _ => false

structure Request where
  fileId : String
  expectedSize : Int
  contentVersion : Option String

def closingText : String := "服务正在关闭，下载请求已取消，请稍后重试"

def busyText : String := "系统回源繁忙，请稍后重试"

def invalidatingText : String := "文件缓存正在失效，请稍后重试"

/-- `reserve`: what it answers is the last thing the queue reports, unless the request waits. -/
def reserve (v : View) (r : Request) (countsTowardCache : Bool) (wait : Waited) : Option Rejection :=
  let disk := DiskQueue.reserve v.resources.ctx v.resources.shuttingDown v.resources.disk
    ⟨buildSessionKey r.fileId r.contentVersion,.whole r.expectedSize,countsTowardCache,.pending⟩
  match disk.log.getLast? with
  | some (.answered _ (.rejected (.resource exception))) => some (.resource exception)
  | some (.answered _ (.rejected (.illegalSize bytes))) => some (.illegalReservation bytes)
  | some (.answered _ _) => none
  | _ => wait.diskFailure.map .resource

/-- `acquireUpstreamSlot`, likewise. -/
def acquireUpstreamSlot (v : View) (bytes : Int) (signal : Signal) (wait : Waited) : Option Rejection :=
  let upstream := UpstreamQueue.acquireUpstreamSlot v.resources.ctx v.resources.shuttingDown v.resources.upstream
    ⟨none,some (.whole bytes),signal⟩
  match upstream.log.getLast? with
  | some (.answered _ (.rejected exception)) => some (.resource exception)
  | some (.answered _ _) => none
  | _ => wait.upstreamFailure.map .resource

def acquireSessionResources (v : View) (r : Request) (countsTowardCache : Bool) (a : Admission) : Option Rejection :=
  if r.fileId ∈ v.invalidatingFileIds then some (.unavailable invalidatingText)
  else match reserve v r countsTowardCache a.diskWait with
    | some rejection => some rejection
    | none => acquireUpstreamSlot a.reserved r.expectedSize (if a.aborted then .aborted else .pending) a.upstreamWait

def relay (start last : Nat) : Nat → List (List UInt8) → List (List UInt8)
  | _, [] => []
  | offset, chunk :: rest =>
    if offset > last then []
    else
      let sliceStart := if offset < start then min chunk.length (start - offset) else 0
      if sliceStart ≥ chunk.length then relay start last (offset + chunk.length) rest
      else
        let sliceEnd := min chunk.length (last - offset + 1)
        if sliceEnd ≤ sliceStart then relay start last (offset + chunk.length) rest
        else (chunk.take sliceEnd).drop sliceStart :: relay start last (offset + chunk.length) rest

def getDirectStream (m : Moments) (r : Request) (start last : Int) : Except Rejection Served :=
  match acquireUpstreamSlot m.refused r.expectedSize .absent m.upstreamWait with
  | some rejection => .error rejection
  | none => match m.fetched with
    | .error error => .error (.fetch error)
    | .ok chunks => .ok (.direct (relay start.toNat last.toNat 0 chunks).flatten)

/-- `Number.MAX_SAFE_INTEGER`. -/
def maxSafeInteger : Int := 9007199254740991

def legalRange (r : Request) (start last : Int) : Bool := 0 ≤ start && start ≤ last && last < r.expectedSize

/-- `isReusableSpoolSession`. -/
def reusable (session : SpoolSession) (r : Request) (intact : Bool) : Bool :=
  session.error.isNone && session.expectedSize = r.expectedSize &&
    sameContentVersion session.contentVersion r.contentVersion && (!session.fileReady || intact)

/-- The last part of both `getOrCreate` functions. -/
def create (v : View) (r : Request) : Option Rejection :=
  if v.shuttingDown then some (.unavailable busyText)
  else if r.fileId ∈ v.invalidatingFileIds then some (.unavailable invalidatingText)
  else none

def getOrCreateSpoolSession (m : Moments) (r : Request) : Option Rejection :=
  if r.fileId ∈ m.spooling.leased.invalidatingFileIds then some (.unavailable invalidatingText)
  else match m.spooling.leased.spoolSessions.get r.fileId with
    | some current =>
      if current.expectedSize = r.expectedSize && sameContentVersion current.contentVersion r.contentVersion then none
      else create m.replaced r
    | none => create m.spooling.leased r

def leadSpool (v : View) (m : Moments) (r : Request) (start last : Int) : Except Rejection Served :=
  match acquireSessionResources v r false m.spooling with
  | some rejection => .error rejection
  | none => match getOrCreateSpoolSession m r with
    | some rejection => .error rejection
    | none => .ok (.spool start last)

def getSpooledStream (v : View) (m : Moments) (r : Request) (start last : Int) : Except Rejection Served :=
  if r.fileId ∈ v.invalidatingFileIds then .error (.unavailable invalidatingText)
  else if !(legalRange r start last && last ≤ maxSafeInteger) then .error (.illegalRange start last)
  else if r.fileId ∈ m.spoolLocked.invalidatingFileIds then .error (.unavailable invalidatingText)
  else match m.spoolLocked.spoolSessions.get r.fileId with
    | some existing =>
      if reusable existing r m.intact then .ok (.spool start last) else leadSpool m.cleared m r start last
    | none => leadSpool m.spoolLocked m r start last

def getDegradableSpooledStream (v : View) (m : Moments) (r : Request) (start last : Int) : Except Rejection Served :=
  match getSpooledStream v m r start last with
  | .ok served => .ok served
  | .error rejection =>
    if isInsufficientStorage rejection then getDirectStream m r start last else .error rejection

/-- The `getNoCacheStream` of the coordinator of sessions. -/
def bypassCache (v : View) (m : Moments) (r : Request) (start last : Int) : Except Rejection Served :=
  if r.fileId ∈ v.invalidatingFileIds then .error (.unavailable invalidatingText)
  else getSpooledStream m.bypassed m r start last

def getDegradableNoCacheStream (m : Moments) (r : Request) : Except Rejection Served :=
  getDegradableSpooledStream m.bypassed m r 0 (r.expectedSize - 1)

/-! ### Entry points -/

def cachedWhole (v : View) (r : Request) : Bool :=
  !v.noCacheMode && (v.files.get r.fileId).any
    (fun file => file.size = r.expectedSize && 0 < file.size && v.now - file.mtimeMs ≤ v.cacheTtlMs)

/-- `getCachedPath` finds a file. -/
def cachedPath (v : View) (r : Request) : Bool :=
  !v.noCacheMode && (v.files.get r.fileId).any (fun file => 0 < file.size && v.now - file.mtimeMs ≤ v.cacheTtlMs)

def joinable (v : View) (r : Request) : Bool :=
  (v.buildSessions.get r.fileId).any (fun session => sameContentVersion session.contentVersion r.contentVersion)

def getOrCreateBuildSession (v : View) (r : Request) : Option Rejection :=
  match v.buildSessions.get r.fileId with
  | some existing =>
    if sameContentVersion existing.contentVersion r.contentVersion then
      if existing.expectedSize ≠ r.expectedSize then some .sizeMismatch else none
    else create v r
  | none => create v r

def followReadable (m : Moments) (start last : Int) : Except Rejection Served :=
  match m.unreadable with
  | some error => .error (.session error)
  | none => .ok (.build start last)

def startOrJoinBuildSession (m : Moments) (r : Request) : Except Rejection Served :=
  if r.fileId ∈ m.locked.invalidatingFileIds then .error (.unavailable invalidatingText)
  else if cachedWhole m.locked r then .ok (.cached 0 (r.expectedSize - 1))
  else if joinable m.locked r then followReadable m 0 (r.expectedSize - 1)
  else if !m.capacity then getDegradableSpooledStream m.prepared m r 0 (r.expectedSize - 1)
  else if m.prepared.noCacheMode then getDegradableNoCacheStream m r
  else match acquireSessionResources m.prepared r true m.building with
    | some rejection =>
      if isInsufficientStorage rejection then
        getDegradableSpooledStream m.building.reserved m r 0 (r.expectedSize - 1)
      else .error rejection
    | none => match getOrCreateBuildSession m.building.leased r with
      | some rejection => .error rejection
      | none => followReadable m 0 (r.expectedSize - 1)

def getOrCacheStream (m : Moments) (r : Request) : Except Rejection Served :=
  if !isUuid r.fileId then .error (.illegalFileId r.fileId)
  else if !(0 < r.expectedSize && r.expectedSize ≤ maxSafeInteger) then .error (.illegalSize r.expectedSize)
  else if m.entry.shuttingDown then .error (.unavailable closingText)
  else if r.fileId ∈ m.entry.invalidatingFileIds then .error (.unavailable invalidatingText)
  else if m.entry.noCacheMode then getDegradableNoCacheStream m r
  else if cachedWhole m.entry r then .ok (.cached 0 (r.expectedSize - 1))
  else startOrJoinBuildSession m r

/-- The part of `getOrCacheRangeStream` in the lock. -/
def startOrJoinRange (m : Moments) (r : Request) (start last : Int) : Except Rejection Served :=
  if r.fileId ∈ m.locked.invalidatingFileIds then .error (.unavailable invalidatingText)
  else if cachedPath m.locked r then .ok (.cached start last)
  else if joinable m.locked r then .ok (.build start last)
  else if !m.capacity then getDegradableSpooledStream m.prepared m r start last
  else if m.prepared.noCacheMode then bypassCache m.prepared m r start last
  else match acquireSessionResources m.prepared r true m.building with
    | some rejection =>
      if isInsufficientStorage rejection then getDegradableSpooledStream m.building.reserved m r start last
      else .error rejection
    | none => match getOrCreateBuildSession m.building.leased r with
      | some rejection => .error rejection
      | none => .ok (.build start last)

def getOrCacheRangeStream (m : Moments) (r : Request) (start last : Int) (noCache : Bool) :
    Except Rejection (Option Served) :=
  if !isUuid r.fileId then .error (.illegalFileId r.fileId)
  else if !legalRange r start last then .ok none
  else if m.entry.shuttingDown then .error (.unavailable closingText)
  else if r.fileId ∈ m.entry.invalidatingFileIds then .error (.unavailable invalidatingText)
  else if m.entry.noCacheMode || noCache then (bypassCache m.entry m r start last).map some
  else if cachedPath m.entry r then .ok (some (.cached start last))
  else if joinable m.entry r then .ok (some (.build start last))
  else (startOrJoinRange m r start last).map some

def getNoCacheStream (m : Moments) (r : Request) (start last : Int) : Except Rejection Served :=
  if !isUuid r.fileId then .error (.illegalFileId r.fileId)
  else if r.fileId ∈ m.entry.invalidatingFileIds then .error (.unavailable invalidatingText)
  else bypassCache m.entry m r start last

inductive Call where
  | full (r : Request)
  | range (r : Request) (start last : Int) (noCache : Bool)
  | noCache (r : Request) (start last : Int)

def answer (m : Moments) : Call → Except Rejection (Option Served)
  | .full r => (getOrCacheStream m r).map some
  | .range r start last noCache => getOrCacheRangeStream m r start last noCache
  | .noCache r start last => (getNoCacheStream m r start last).map some

/-- The loop is that of `DirectRelay`, with an end. -/
theorem relay_bytes (start last : Nat) (chunks : List (List UInt8)) : ∀ front : List UInt8,
    DirectRelay.Range.bytes ⟨start,some last⟩ front ++ (relay start last front.length chunks).flatten =
      DirectRelay.Range.bytes ⟨start,some last⟩ (front ++ chunks.flatten) := by
  induction chunks with
  | nil => simp [relay]
  | cons chunk rest ih =>
    intro front
    have later := ih (front ++ chunk)
    rw [List.append_assoc] at later
    rw [List.flatten_cons]
    by_cases past : front.length > last
    · rw [DirectRelay.bytes_past (by simpa [DirectRelay.Range.past] using past),relay,if_pos past]
      simp
    · rw [DirectRelay.bytes_chunk (by simpa [DirectRelay.Range.past] using past),DirectRelay.Range.slice] at later
      rw [← later,relay]
      dsimp only
      generalize (if front.length < start then min chunk.length (start - front.length) else 0) = sliceStart
      split_ifs <;> simp

/-! ### Staging -/

def stagingView (m : Moments) (r : Request) : View :=
  if (m.spoolLocked.spoolSessions.get r.fileId).isSome then m.cleared else m.spoolLocked

/-- `getSpooledStream` asks for a reservation, and there is no room for the file at all. -/
structure StagingRefused (v : View) (m : Moments) (r : Request) (start last : Int) : Prop where
  callOpen : r.fileId ∉ v.invalidatingFileIds
  legal : (legalRange r start last && last ≤ maxSafeInteger) = true
  lockOpen : r.fileId ∉ m.spoolLocked.invalidatingFileIds
  alone : ∀ existing, m.spoolLocked.spoolSessions.get r.fileId = some existing → reusable existing r m.intact = false
  stagingOpen : r.fileId ∉ (stagingView m r).invalidatingFileIds
  impossible : ∃ rejection, reserve (stagingView m r) r false m.spooling.diskWait = some rejection ∧
    isInsufficientStorage rejection = true

section
variable {v : View} {m : Moments} {r : Request} {start last : Int} {rejection : Rejection}

theorem upstreamFailure_sufficient {wait : Waited} {exception : DownloadResourceException}
    (failed : wait.upstreamFailure = some exception) : isInsufficientStorage (.resource exception) = false := by
  cases wait with
  | granted => cases failed
  | timeout reason | cancelled | shutdown =>
    cases failed
    rfl

theorem upstream_sufficient {bytes : Int} {signal : Signal} {wait : Waited}
    (rejected : acquireUpstreamSlot v bytes signal wait = some rejection) : isInsufficientStorage rejection = false := by
  unfold acquireUpstreamSlot UpstreamQueue.acquireUpstreamSlot at rejected
  dsimp only at rejected
  split_ifs at rejected
  · simp [UpstreamQueue.answer,emit] at rejected
    subst rejected
    rfl
  · simp [UpstreamQueue.answer,emit] at rejected
    subst rejected
    rfl
  · simp [UpstreamQueue.answer,emit] at rejected
  · simp [UpstreamQueue.answer,emit] at rejected
    subst rejected
    rfl
  · simp [UpstreamQueue.enqueueUpstream,emit] at rejected
    obtain ⟨exception,failed,rfl⟩ := rejected
    exact upstreamFailure_sufficient failed

theorem acquire_insufficient {countsTowardCache : Bool} {a : Admission}
    (rejected : acquireSessionResources v r countsTowardCache a = some rejection)
    (insufficient : isInsufficientStorage rejection = true) :
    r.fileId ∉ v.invalidatingFileIds ∧ reserve v r countsTowardCache a.diskWait = some rejection := by
  unfold acquireSessionResources at rejected
  by_cases invalidating : r.fileId ∈ v.invalidatingFileIds
  · rw [if_pos invalidating] at rejected
    cases rejected
    cases insufficient
  · rw [if_neg invalidating] at rejected
    refine ⟨invalidating,?_⟩
    cases asked : reserve v r countsTowardCache a.diskWait with
    | some refusal =>
      rw [asked] at rejected
      exact rejected
    | none =>
      rw [asked] at rejected
      rw [upstream_sufficient rejected] at insufficient
      cases insufficient

theorem create_sufficient (rejected : create v r = some rejection) : isInsufficientStorage rejection = false := by
  unfold create at rejected
  split_ifs at rejected
  · cases rejected
    rfl
  · cases rejected
    rfl

theorem getOrCreateSpoolSession_sufficient (rejected : getOrCreateSpoolSession m r = some rejection) :
    isInsufficientStorage rejection = false := by
  unfold getOrCreateSpoolSession at rejected
  split_ifs at rejected
  · cases rejected
    rfl
  · split at rejected
    · split_ifs at rejected
      exact create_sufficient rejected
    · exact create_sufficient rejected

theorem getOrCreateBuildSession_sufficient (rejected : getOrCreateBuildSession v r = some rejection) :
    isInsufficientStorage rejection = false := by
  unfold getOrCreateBuildSession at rejected
  split at rejected
  · split_ifs at rejected
    · cases rejected
      rfl
    · exact create_sufficient rejected
  · exact create_sufficient rejected

theorem leadSpool_insufficient (failed : leadSpool v m r start last = .error rejection)
    (insufficient : isInsufficientStorage rejection = true) :
    r.fileId ∉ v.invalidatingFileIds ∧ reserve v r false m.spooling.diskWait = some rejection := by
  unfold leadSpool at failed
  split at failed
  · next refusal rejected =>
    cases failed
    exact acquire_insufficient rejected insufficient
  · split at failed
    · next refusal rejected =>
      cases failed
      rw [getOrCreateSpoolSession_sufficient rejected] at insufficient
      cases insufficient
    · cases failed

theorem leadSpool_refused (lockOpen : r.fileId ∉ v.invalidatingFileIds)
    (refused : reserve v r false m.spooling.diskWait = some rejection) :
    leadSpool v m r start last = .error rejection := by
  simp [leadSpool,acquireSessionResources,lockOpen,refused]

theorem getSpooledStream_insufficient (failed : getSpooledStream v m r start last = .error rejection)
    (insufficient : isInsufficientStorage rejection = true) : StagingRefused v m r start last := by
  unfold getSpooledStream at failed
  split_ifs at failed with invalidating illegal lockInvalidating
  · cases failed
    cases insufficient
  · cases failed
    cases insufficient
  · cases failed
    cases insufficient
  · have legal : (legalRange r start last && last ≤ maxSafeInteger) = true := by simpa using illegal
    cases known : m.spoolLocked.spoolSessions.get r.fileId with
    | none =>
      have view : stagingView m r = m.spoolLocked := by simp [stagingView,known]
      simp only [known] at failed
      obtain ⟨stagingOpen,refused⟩ := leadSpool_insufficient failed insufficient
      rw [← view] at stagingOpen refused
      refine ⟨invalidating,legal,lockInvalidating,fun existing found => ?_,stagingOpen,rejection,refused,insufficient⟩
      rw [known] at found
      cases found
    | some existing =>
      have view : stagingView m r = m.cleared := by simp [stagingView,known]
      simp only [known] at failed
      split_ifs at failed with fit
      obtain ⟨stagingOpen,refused⟩ := leadSpool_insufficient failed insufficient
      rw [← view] at stagingOpen refused
      refine ⟨invalidating,legal,lockInvalidating,fun other found => ?_,stagingOpen,rejection,refused,insufficient⟩
      rw [known] at found
      cases found
      simpa using fit

theorem getSpooledStream_refused (refused : StagingRefused v m r start last) :
    ∃ rejection, getSpooledStream v m r start last = .error rejection ∧ isInsufficientStorage rejection = true := by
  obtain ⟨callOpen,legal,lockOpen,alone,stagingOpen,rejection,impossible,insufficient⟩ := refused
  refine ⟨rejection,?_,insufficient⟩
  unfold getSpooledStream
  rw [if_neg callOpen,if_neg (by rw [legal]; simp),if_neg lockOpen]
  cases known : m.spoolLocked.spoolSessions.get r.fileId with
  | none =>
    have view : stagingView m r = m.spoolLocked := by simp [stagingView,known]
    rw [view] at stagingOpen impossible
    exact leadSpool_refused stagingOpen impossible
  | some existing =>
    have view : stagingView m r = m.cleared := by simp [stagingView,known]
    rw [view] at stagingOpen impossible
    simp only [alone existing known]
    exact leadSpool_refused stagingOpen impossible

def directAnswer (m : Moments) (r : Request) (start last : Int) : Except Rejection Served :=
  match acquireUpstreamSlot m.refused r.expectedSize .absent m.upstreamWait with
  | some rejection => .error rejection
  | none => match m.fetched with
    | .error error => .error (.fetch error)
    | .ok chunks => .ok (.direct ((chunks.flatten.take (last.toNat + 1)).drop start.toNat))

theorem getDirectStream_eq : getDirectStream m r start last = directAnswer m r start last := by
  unfold getDirectStream directAnswer
  split
  · rfl
  split
  · rfl
  · next chunks _ =>
    have whole := relay_bytes start.toNat last.toNat chunks []
    simp only [DirectRelay.Range.bytes,List.take_nil,List.drop_nil] at whole
    exact congrArg (fun bytes => Except.ok (Served.direct bytes)) whole

theorem directAnswer_sufficient (failed : directAnswer m r start last = .error rejection) :
    isInsufficientStorage rejection = false := by
  unfold directAnswer at failed
  split at failed
  · next refusal rejected =>
    cases failed
    exact upstream_sufficient rejected
  · split at failed
    · cases failed
      rfl
    · cases failed

theorem degradable_refused (refused : StagingRefused v m r start last) :
    getDegradableSpooledStream v m r start last = directAnswer m r start last := by
  obtain ⟨rejection,failed,insufficient⟩ := getSpooledStream_refused refused
  simp [getDegradableSpooledStream,failed,insufficient,getDirectStream_eq]

theorem degradable_sufficient (failed : getDegradableSpooledStream v m r start last = .error rejection) :
    isInsufficientStorage rejection = false := by
  unfold getDegradableSpooledStream at failed
  split at failed
  · cases failed
  · split_ifs at failed with insufficient
    · rw [getDirectStream_eq] at failed
      exact directAnswer_sufficient failed
    · cases failed
      simpa using insufficient

end

/-! ### The branches -/

def Call.request : Call → Request
  | .full r => r
  | .range r _ _ _ => r
  | .noCache r _ _ => r

def Call.start : Call → Int
  | .full _ => 0
  | .range _ start _ _ => start
  | .noCache _ start _ => start

def Call.last : Call → Int
  | .full r => r.expectedSize - 1
  | .range _ _ last _ => last
  | .noCache _ _ last => last

/-- The file is named and sized, and neither the service nor the file is on its way out. -/
structure FullOpen (m : Moments) (r : Request) : Prop where
  named : isUuid r.fileId = true
  sized : (0 < r.expectedSize && r.expectedSize ≤ maxSafeInteger) = true
  running : m.entry.shuttingDown = false
  valid : r.fileId ∉ m.entry.invalidatingFileIds

structure RangeOpen (m : Moments) (r : Request) (start last : Int) : Prop where
  named : isUuid r.fileId = true
  legal : legalRange r start last = true
  running : m.entry.shuttingDown = false
  valid : r.fileId ∉ m.entry.invalidatingFileIds

/-- There is neither a cached file nor a session to join, before the lock and in it. -/
structure FullCold (m : Moments) (r : Request) : Prop extends FullOpen m r where
  caching : m.entry.noCacheMode = false
  missing : cachedWhole m.entry r = false
  lockValid : r.fileId ∉ m.locked.invalidatingFileIds
  lockMissing : cachedWhole m.locked r = false
  lockAlone : joinable m.locked r = false

structure RangeCold (m : Moments) (r : Request) (start last : Int) : Prop extends RangeOpen m r start last where
  caching : m.entry.noCacheMode = false
  missing : cachedPath m.entry r = false
  alone : joinable m.entry r = false
  lockValid : r.fileId ∉ m.locked.invalidatingFileIds
  lockMissing : cachedPath m.locked r = false
  lockAlone : joinable m.locked r = false

/-- The branches on which a call turns to the spool, the view it does so in, and whether it goes through the wrapper. -/
inductive Turns (m : Moments) : Call → View → Bool → Prop
  | fullMode {r : Request} (opened : FullOpen m r) (mode : m.entry.noCacheMode = true) :
      Turns m (.full r) m.bypassed true
  | fullCapacity {r : Request} (cold : FullCold m r) (full : m.capacity = false) : Turns m (.full r) m.prepared true
  | fullFlipped {r : Request} (cold : FullCold m r) (room : m.capacity = true) (mode : m.prepared.noCacheMode = true) :
      Turns m (.full r) m.bypassed true
  | fullUnbuildable {r : Request} {rejection : Rejection} (cold : FullCold m r) (room : m.capacity = true)
      (mode : m.prepared.noCacheMode = false)
      (rejected : acquireSessionResources m.prepared r true m.building = some rejection)
      (insufficient : isInsufficientStorage rejection = true) : Turns m (.full r) m.building.reserved true
  | rangeMode {r : Request} {start last : Int} {noCache : Bool} (opened : RangeOpen m r start last)
      (mode : (m.entry.noCacheMode || noCache) = true) : Turns m (.range r start last noCache) m.bypassed false
  | rangeCapacity {r : Request} {start last : Int} (cold : RangeCold m r start last) (full : m.capacity = false) :
      Turns m (.range r start last false) m.prepared true
  | rangeFlipped {r : Request} {start last : Int} (cold : RangeCold m r start last) (room : m.capacity = true)
      (mode : m.prepared.noCacheMode = true) (valid : r.fileId ∉ m.prepared.invalidatingFileIds) :
      Turns m (.range r start last false) m.bypassed false
  | rangeUnbuildable {r : Request} {start last : Int} {rejection : Rejection} (cold : RangeCold m r start last)
      (room : m.capacity = true) (mode : m.prepared.noCacheMode = false)
      (rejected : acquireSessionResources m.prepared r true m.building = some rejection)
      (insufficient : isInsufficientStorage rejection = true) :
      Turns m (.range r start last false) m.building.reserved true
  | noCache {r : Request} {start last : Int} (named : isUuid r.fileId = true)
      (valid : r.fileId ∉ m.entry.invalidatingFileIds) : Turns m (.noCache r start last) m.bypassed false

section
variable {m : Moments} {r : Request} {start last : Int} {rejection : Rejection}

theorem fullCold_answer (cold : FullCold m r) : getOrCacheStream m r = startOrJoinBuildSession m r := by
  simp only [getOrCacheStream,cold.named,cold.sized,cold.running,cold.valid,cold.caching,cold.missing]
  rfl

theorem rangeCold_answer (cold : RangeCold m r start last) :
    getOrCacheRangeStream m r start last false = (startOrJoinRange m r start last).map some := by
  simp only [getOrCacheRangeStream,cold.named,cold.legal,cold.running,cold.valid,cold.caching,cold.missing,cold.alone]
  rfl

theorem turns_answer {call : Call} {v : View} {degradable : Bool} (turns : Turns m call v degradable) :
    answer m call = (if degradable then getDegradableSpooledStream v m call.request call.start call.last
      else getSpooledStream v m call.request call.start call.last).map some := by
  cases turns with
  | fullMode opened mode =>
    simp [answer,getOrCacheStream,opened.named,opened.sized,opened.running,opened.valid,mode,getDegradableNoCacheStream,
      Call.request,Call.start,Call.last]
  | fullCapacity cold full =>
    simp [answer,fullCold_answer cold,startOrJoinBuildSession,cold.lockValid,cold.lockMissing,cold.lockAlone,full,
      Call.request,Call.start,Call.last]
  | fullFlipped cold room mode =>
    simp [answer,fullCold_answer cold,startOrJoinBuildSession,cold.lockValid,cold.lockMissing,cold.lockAlone,room,mode,
      getDegradableNoCacheStream,Call.request,Call.start,Call.last]
  | fullUnbuildable cold room mode rejected insufficient =>
    simp [answer,fullCold_answer cold,startOrJoinBuildSession,cold.lockValid,cold.lockMissing,cold.lockAlone,room,mode,
      rejected,insufficient,Call.request,Call.start,Call.last]
  | rangeMode opened mode =>
    simp only [answer,getOrCacheRangeStream,opened.named,opened.legal,opened.running,opened.valid,mode,bypassCache]
    rfl
  | rangeCapacity cold full =>
    simp [answer,rangeCold_answer cold,startOrJoinRange,cold.lockValid,cold.lockMissing,cold.lockAlone,full,
      Call.request,Call.start,Call.last]
  | rangeFlipped cold room mode valid =>
    simp [answer,rangeCold_answer cold,startOrJoinRange,cold.lockValid,cold.lockMissing,cold.lockAlone,room,mode,
      bypassCache,valid,Call.request,Call.start,Call.last]
  | rangeUnbuildable cold room mode rejected insufficient =>
    simp [answer,rangeCold_answer cold,startOrJoinRange,cold.lockValid,cold.lockMissing,cold.lockAlone,room,mode,
      rejected,insufficient,Call.request,Call.start,Call.last]
  | noCache named valid =>
    simp [answer,getNoCacheStream,named,valid,bypassCache,Call.request,Call.start,Call.last]

theorem map_some_error {result : Except Rejection Served} (failed : result.map some = .error rejection) :
    result = .error rejection := by
  cases result with
  | error other =>
    cases failed
    rfl
  | ok served => cases failed

theorem followReadable_sufficient (failed : followReadable m start last = .error rejection) :
    isInsufficientStorage rejection = false := by
  unfold followReadable at failed
  split at failed
  · cases failed
    rfl
  · cases failed

theorem startOrJoinBuildSession_sufficient (failed : startOrJoinBuildSession m r = .error rejection) :
    isInsufficientStorage rejection = false := by
  unfold startOrJoinBuildSession at failed
  split_ifs at failed
  · cases failed
    rfl
  · exact followReadable_sufficient failed
  · exact degradable_sufficient failed
  · exact degradable_sufficient failed
  · split at failed
    · split_ifs at failed with insufficient
      · exact degradable_sufficient failed
      · cases failed
        simpa using insufficient
    · split at failed
      · next rejected =>
        cases failed
        exact getOrCreateBuildSession_sufficient rejected
      · exact followReadable_sufficient failed

theorem getOrCacheStream_sufficient (failed : getOrCacheStream m r = .error rejection) :
    isInsufficientStorage rejection = false := by
  unfold getOrCacheStream at failed
  split_ifs at failed
  · cases failed
    rfl
  · cases failed
    rfl
  · cases failed
    rfl
  · cases failed
    rfl
  · exact degradable_sufficient failed
  · exact startOrJoinBuildSession_sufficient failed

theorem bypassCache_insufficient {v : View} (failed : bypassCache v m r start last = .error rejection)
    (insufficient : isInsufficientStorage rejection = true) :
    r.fileId ∉ v.invalidatingFileIds ∧ getSpooledStream m.bypassed m r start last = .error rejection := by
  unfold bypassCache at failed
  split_ifs at failed with invalidating
  · cases failed
    cases insufficient
  · exact ⟨invalidating,failed⟩

theorem startOrJoinRange_insufficient (failed : startOrJoinRange m r start last = .error rejection)
    (insufficient : isInsufficientStorage rejection = true) :
    (r.fileId ∉ m.locked.invalidatingFileIds ∧ cachedPath m.locked r = false ∧ joinable m.locked r = false ∧
      m.capacity = true ∧ m.prepared.noCacheMode = true ∧ r.fileId ∉ m.prepared.invalidatingFileIds) ∧
    getSpooledStream m.bypassed m r start last = .error rejection := by
  have otherwise : isInsufficientStorage rejection ≠ false := by simp [insufficient]
  unfold startOrJoinRange at failed
  split_ifs at failed with lockInvalidating lockCached lockJoin room mode
  · cases failed
    cases insufficient
  · exact absurd (degradable_sufficient failed) otherwise
  · obtain ⟨valid,spooled⟩ := bypassCache_insufficient failed insufficient
    exact ⟨⟨lockInvalidating,by simpa using lockCached,by simpa using lockJoin,by simpa using room,mode,valid⟩,spooled⟩
  · split at failed
    · split_ifs at failed with unbuildable
      · exact absurd (degradable_sufficient failed) otherwise
      · cases failed
        exact absurd insufficient unbuildable
    · split at failed
      · next rejected =>
        cases failed
        exact absurd (getOrCreateBuildSession_sufficient rejected) otherwise
      · cases failed

theorem answer_insufficient {call : Call} (failed : answer m call = .error rejection)
    (insufficient : isInsufficientStorage rejection = true) :
    ∃ v, Turns m call v false ∧ getSpooledStream v m call.request call.start call.last = .error rejection := by
  cases call with
  | full r =>
    have sufficient := getOrCacheStream_sufficient (map_some_error failed)
    rw [sufficient] at insufficient
    cases insufficient
  | range r start last noCache =>
    simp only [answer,getOrCacheRangeStream] at failed
    split_ifs at failed with unnamed illegal closing invalidating mode cached join
    · cases failed
      cases insufficient
    · cases failed
      cases insufficient
    · cases failed
      cases insufficient
    · obtain ⟨valid,spooled⟩ := bypassCache_insufficient (map_some_error failed) insufficient
      have opened : RangeOpen m r start last :=
        ⟨by simpa using unnamed,by simpa using illegal,by simpa using closing,valid⟩
      exact ⟨m.bypassed,.rangeMode opened mode,spooled⟩
    · obtain ⟨⟨lockValid,lockMissing,lockAlone,room,flipped,valid⟩,spooled⟩ :=
        startOrJoinRange_insufficient (map_some_error failed) insufficient
      have opened : RangeOpen m r start last :=
        ⟨by simpa using unnamed,by simpa using illegal,by simpa using closing,invalidating⟩
      obtain ⟨caching,plain⟩ : m.entry.noCacheMode = false ∧ noCache = false := by simpa using mode
      have cold : RangeCold m r start last :=
        ⟨opened,caching,by simpa using cached,by simpa using join,lockValid,lockMissing,lockAlone⟩
      subst plain
      exact ⟨m.bypassed,.rangeFlipped cold room flipped valid,spooled⟩
  | noCache r start last =>
    have failed := map_some_error failed
    unfold getNoCacheStream at failed
    split_ifs at failed with unnamed invalidating
    · cases failed
      cases insufficient
    · cases failed
      cases insufficient
    · obtain ⟨valid,spooled⟩ := bypassCache_insufficient failed insufficient
      exact ⟨m.bypassed,.noCache (by simpa using unnamed) valid,spooled⟩

end

/-- The call does not fail for want of room; what cannot be staged is answered straight from upstream.
-/
def Degrades (m : Moments) (call : Call) : Prop :=
  (∀ rejection, answer m call = .error rejection → isInsufficientStorage rejection = false) ∧
  ∀ v degradable, Turns m call v degradable → StagingRefused v m call.request call.start call.last →
    answer m call = (directAnswer m call.request call.start call.last).map some

/-- A download degrades, whatever it finds, unless it turns to the spool past the wrapper and cannot be staged there. -/
theorem degrades_iff (m : Moments) (call : Call) :
    Degrades m call ↔ ¬∃ v, Turns m call v false ∧ StagingRefused v m call.request call.start call.last := by
  constructor
  · rintro ⟨never,_⟩ ⟨v,turns,refused⟩
    obtain ⟨rejection,failed,insufficient⟩ := getSpooledStream_refused refused
    have answered : answer m call = .error rejection := by
      rw [turns_answer turns,failed]
      rfl
    rw [never rejection answered] at insufficient
    cases insufficient
  · intro wrapped
    constructor
    · intro rejection failed
      by_contra sufficient
      have insufficient : isInsufficientStorage rejection = true := by simpa using sufficient
      obtain ⟨v,turns,spooled⟩ := answer_insufficient failed insufficient
      exact wrapped ⟨v,turns,getSpooledStream_insufficient spooled insufficient⟩
    · intro v degradable turns refused
      cases degradable with
      | false => exact absurd ⟨v,turns,refused⟩ wrapped
      | true => rw [turns_answer turns,if_pos rfl,degradable_refused refused]

def smallVolume (noCacheMode : Bool) : View where
  resources := Coordinator.fresh defaultConfig (volume 0 4) false
  shuttingDown := false
  invalidatingFileIds := []
  noCacheMode := noCacheMode
  now := 0
  cacheTtlMs := 1000
  files := .empty
  buildSessions := .empty
  spoolSessions := .empty

/-- Nothing changes while a download is under way. -/
def unchanging (v : View) : Moments where
  entry := v
  locked := v
  capacity := true
  prepared := v
  building := ⟨.granted,v,false,.granted,v⟩
  unreadable := none
  bypassed := v
  spoolLocked := v
  intact := true
  cleared := v
  spooling := ⟨.granted,v,false,.granted,v⟩
  replaced := v
  refused := v
  upstreamWait := .granted
  fetched := .ok [[1,2,3],[4,5]]

def fiveBytes : Request := ⟨"00000000-0000-4000-8000-000000000000",5,none⟩

/-- With four bytes free a file of five is streamed directly; a range of it in no-cache mode and a
request without the cache fail. -/
theorem no_cache_range_refused :
    answer (unchanging (smallVolume false)) (.full fiveBytes) = .ok (some (.direct [1,2,3,4,5])) ∧
    answer (unchanging (smallVolume true)) (.full fiveBytes) = .ok (some (.direct [1,2,3,4,5])) ∧
    answer (unchanging (smallVolume false)) (.range fiveBytes 1 3 false) = .ok (some (.direct [2,3,4])) ∧
    answer (unchanging (smallVolume true)) (.range fiveBytes 1 3 false) =
      .error (.resource (insufficientStorageError .disk 5 4)) ∧
    answer (unchanging (smallVolume false)) (.range fiveBytes 1 3 true) =
      .error (.resource (insufficientStorageError .disk 5 4)) ∧
    answer (unchanging (smallVolume false)) (.noCache fiveBytes 0 4) =
      .error (.resource (insufficientStorageError .disk 5 4)) ∧
    ¬Degrades (unchanging (smallVolume true)) (.range fiveBytes 1 3 false) := by
  have refused : answer (unchanging (smallVolume true)) (.range fiveBytes 1 3 false) =
      .error (.resource (insufficientStorageError .disk 5 4)) := by decide +kernel
  refine ⟨by decide +kernel,by decide +kernel,by decide +kernel,refused,by decide +kernel,by decide +kernel,?_⟩
  intro degrades
  cases degrades.1 _ refused

end Tgtc.Degradation
