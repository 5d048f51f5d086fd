import Tgtc.CacheService
import Tgtc.UpstreamHandles
import Tgtc.UpstreamLedger

/-!
Cold requests and the resources of their sessions: a reservation of the disk and a slot of the upstream, which a
request acquires one after the other and hands to the session that it leads.
-/
namespace Tgtc.SessionLeases
open Numbers Resources Maps Runs Coordinator
open DiskHandles (Claim)
open CacheService (sameContentVersion)
open SessionLocks (buildSessionKey)

inductive LockKind
  | build
  | spool
deriving DecidableEq

/-- `SessionResourceLease`. -/
structure Lease where
  reservation : Nat
  upstream : Nat
  released : Bool
  releases : Nat
deriving DecidableEq

/-- `lease.release()`, as the lease sees it. -/
def Lease.release (lease : Lease) : Lease :=
  if lease.released then lease else { lease with released := true, releases := lease.releases + 1 }

/-- `lease.release()`, as the coordinator of resources sees it. -/
def Lease.giveBack (lease : Lease) (s : Service) : Service :=
  if lease.released then s
  else Coordinator.step (Coordinator.step s (.release lease.reservation)) (.releaseLease lease.upstream)

inductive Phase
  | queued
  /-- the spool session found passed the first part of the reuse check, and its file is looked at -/
  | checking (session : Nat)
  | preparing
  | reserving (request : Nat)
  | connecting (reservation request : Nat)
  | leased (lease : Lease)
  | replacing (lease : Lease)
  | leading (session : Nat) (lease : Lease)
  | unwinding (session : Nat) (lease : Lease)
  | joined (session : Nat) (lease : Option Lease)
  | closed (lease : Option Lease)
deriving DecidableEq

structure Request where
  kind : LockKind
  fileId : String
  expectedSize : Nat
  contentVersion : Option String
  aborted : Bool
  phase : Phase
  /-- the calls of `reserve` and `acquireUpstreamSlot` it made -/
  ticket : Option Nat
  slot : Option Nat
  torn : Option Nat
deriving DecidableEq

structure Session where
  kind : LockKind
  fileId : String
  expectedSize : Nat
  contentVersion : Option String
  fileReady : Bool
  completed : Bool
  error : Option String
deriving DecidableEq

def Session.abort (s : Session) (error : String) : Session :=
  if s.error.isSome ∨ s.completed = true then s else { s with error := some error }

structure State where
  resources : Service
  requests : List Request
  sessions : List Session
  buildSessions : OrderedMap String Nat
  spoolSessions : OrderedMap String Nat
  invalidatingFileIds : List String
  shuttingDown : Bool

def initial (config : Config) (world : World) (evictionHook : Bool) : State :=
  { resources := Coordinator.fresh config world evictionHook, requests := [], sessions := [], buildSessions := .empty
    spoolSessions := .empty, invalidatingFileIds := [], shuttingDown := false }

/-- How the `try` block of a runner ends. -/
inductive RunEnd
  | completed
  | left
  | failed (error : String)
deriving DecidableEq

inductive Action
  /-- its turn in its lock; `cached` says whether the file is in the cache -/
  | enter (cached : Bool)
  | checked (intact : Bool)
  /-- no room in the cache, or no-cache mode: the request goes on in the spool lock -/
  | degrade
  | acquire
  | cancel
  | reserved
  | connected
  | hold
  | replaced
  | write (bytes : Nat)
  | ended (how : RunEnd)
  | unwound
deriving DecidableEq

inductive Label
  | resources (op : Op)
  | arrive (kind : LockKind) (fileId : String) (expectedSize : Nat) (contentVersion : Option String)
  | request (i : Nat) (action : Action)
  | ready (session : Nat)
  | abort (session : Nat) (error : String)
  /-- what a build runner leaves to `setImmediate` -/
  | unregister (session : Nat)
  | teardown (session : Nat)
  | invalidate (fileId : String)
  | validate (fileId : String)
  | shutDown

def State.registered (s : State) : LockKind → OrderedMap String Nat
  | .build => s.buildSessions
  | .spool => s.spoolSessions

def State.found (s : State) (kind : LockKind) (fileId : String) : Option (Nat × Session) :=
  ((s.registered kind).get fileId).bind fun n => (s.sessions[n]?).map fun session => (n,session)

def State.register (s : State) (kind : LockKind) (fileId : String) (n : Nat) : State :=
  match kind with
  | .build => { s with buildSessions := s.buildSessions.set fileId n }
  | .spool => { s with spoolSessions := s.spoolSessions.set fileId n }

def State.drop (s : State) (n : Nat) (session : Session) : State :=
  if (s.registered session.kind).get session.fileId = some n then
    match session.kind with
    | .build => { s with buildSessions := s.buildSessions.delete session.fileId }
    | .spool => { s with spoolSessions := s.spoolSessions.delete session.fileId }
  else s

def State.onSession (s : State) (n : Nat) (f : Session → Session) : State :=
  { s with sessions := s.sessions.modify n f }

def tornDownText : String := "spool 会话已被替换或清理，请重新发起请求"

def State.teardownSpoolSession (s : State) (n : Nat) (session : Session) : State :=
  (s.drop n session).onSession n fun session => { session with error := session.error.or (some tornDownText) }

def State.setRequest (s : State) (i : Nat) (r : Request) : State := { s with requests := s.requests.set i r }

def State.setPhase (s : State) (i : Nat) (r : Request) (phase : Phase) : State := s.setRequest i { r with phase := phase }

def newRequest (kind : LockKind) (fileId : String) (expectedSize : Nat) (contentVersion : Option String) : Request :=
  { kind, fileId, expectedSize, contentVersion, aborted := false, phase := .queued, ticket := none, slot := none
    torn := none }

def State.toSpool (s : State) (r : Request) : State :=
  { s with requests := s.requests ++ [newRequest .spool r.fileId r.expectedSize r.contentVersion] }

/-- An acquisition fails: a build request goes on in the spool lock if there is no room for the file at all. -/
def State.fail (s : State) (i : Nat) (r : Request) (failure : Failure) : State :=
  if r.kind = .build ∧ failure.code = some .insufficientStorage then (s.setPhase i r (.closed none)).toSpool r
  else s.setPhase i r (.closed none)

def State.letGo (s : State) (i : Nat) (r : Request) (lease : Lease) (next : Option Lease → Phase) : State :=
  { s.setPhase i r (next (some lease.release)) with resources := lease.giveBack s.resources }

def Session.fits (session : Session) (r : Request) : Bool :=
  session.expectedSize = r.expectedSize && sameContentVersion session.contentVersion r.contentVersion

/-- The last part of both `getOrCreate` functions. -/
def State.create (s : State) (i : Nat) (r : Request) (lease : Lease) : State :=
  if s.shuttingDown = true ∨ r.fileId ∈ s.invalidatingFileIds then s.letGo i r lease .closed
  else
    { (s.setPhase i r (.leading s.sessions.length lease)).register r.kind r.fileId s.sessions.length with
      sessions := s.sessions ++ [⟨r.kind,r.fileId,r.expectedSize,r.contentVersion,r.kind = .build,false,none⟩] }

def State.enter (s : State) (i : Nat) (r : Request) (cached : Bool) : State :=
  if r.fileId ∈ s.invalidatingFileIds then s.setPhase i r (.closed none)
  else
    match r.kind with
    | .build =>
      if cached then s.setPhase i r (.closed none)
      else
        match s.found .build r.fileId with
        | some (n,session) =>
          if sameContentVersion session.contentVersion r.contentVersion then s.setPhase i r (.joined n none)
          else s.setPhase i r .preparing
        | none => s.setPhase i r .preparing
    | .spool =>
      match s.found .spool r.fileId with
      | some (n,session) =>
        if session.error.isSome ∨ session.fits r = false then
          (s.teardownSpoolSession n session).setRequest i { r with phase := .preparing, torn := some n }
        else if session.fileReady = false then s.setPhase i r (.joined n none)
        else s.setPhase i r (.checking n)
      | none => s.setPhase i r .preparing

def State.checked (s : State) (i : Nat) (r : Request) (n : Nat) (intact : Bool) : State :=
  if intact then s.setPhase i r (.joined n none)
  else
    match s.sessions[n]? with
    | none => s
    | some session => (s.teardownSpoolSession n session).setRequest i { r with phase := .preparing, torn := some n }

/-- `acquireSessionResources` up to its first wait. -/
def State.acquire (s : State) (i : Nat) (r : Request) : State :=
  if r.fileId ∈ s.invalidatingFileIds then s.setPhase i r (.closed none)
  else
    { s.setRequest i { r with phase := .reserving s.resources.disk.nextRequest
                              ticket := some s.resources.disk.nextRequest } with
      resources := Coordinator.step s.resources (.reserve ⟨buildSessionKey r.fileId r.contentVersion,
        .whole r.expectedSize,r.kind = .build,.pending⟩) }

def State.connect (s : State) (i : Nat) (r : Request) (reservation : Nat) : State :=
  { s.setRequest i { r with phase := .connecting reservation s.resources.upstream.nextRequest
                            slot := some s.resources.upstream.nextRequest } with
    resources := Coordinator.step s.resources (.acquireUpstreamSlot ⟨none,some (.whole r.expectedSize),
      if r.aborted then .aborted else .pending⟩) }

/-- `getOrCreateBuildSession`. -/
def State.getOrCreateBuildSession (s : State) (i : Nat) (r : Request) (lease : Lease) : State :=
  match s.found .build r.fileId with
  | some (n,session) =>
    if sameContentVersion session.contentVersion r.contentVersion then
      if session.expectedSize ≠ r.expectedSize then s.letGo i r lease .closed else s.letGo i r lease (.joined n)
    else ((s.onSession n (·.abort "文件内容已更新，缓存构建已中止")).drop n session).create i r lease
  | none => s.create i r lease

/-- `getOrCreateSpoolSession` up to its wait; what it throws is caught by a second release. -/
def State.getOrCreateSpoolSession (s : State) (i : Nat) (r : Request) (lease : Lease) : State :=
  if r.fileId ∈ s.invalidatingFileIds then s.letGo i r lease .closed
  else
    match s.found .spool r.fileId with
    | some (n,session) =>
      if session.fits r then s.letGo i r lease (.joined n)
      else (s.teardownSpoolSession n session).setPhase i r (.replacing lease)
    | none => s.create i r lease

/-- The `finally` of a runner, and what follows a completed one at once. -/
def State.ended (s : State) (i : Nat) (r : Request) (n : Nat) (lease : Lease) : RunEnd → State
  | .completed => (s.onSession n fun session => { session with completed := true }).letGo i r lease (.joined n)
  | .left =>
    if r.kind = .spool ∧ s.spoolSessions.get r.fileId ≠ some n then s.letGo i r lease (.joined n) else s
  | .failed error =>
    (s.onSession n fun session => { session with error := some error }).setPhase i r (.unwinding n lease)

def State.unwound (s : State) (i : Nat) (r : Request) (n : Nat) (lease : Lease) : State :=
  match s.sessions[n]? with
  | some session =>
    if r.kind = .spool then (s.drop n session).letGo i r lease (.joined n) else s.letGo i r lease (.joined n)
  | none => s.letGo i r lease (.joined n)

def State.act (s : State) (i : Nat) (r : Request) (a : Action) : State :=
  match r.phase, a with
  | .queued, .enter cached => s.enter i r cached
  | .checking n, .checked intact => s.checked i r n intact
  | .preparing, .degrade => if r.kind = .build then (s.setPhase i r (.closed none)).toSpool r else s
  | .preparing, .acquire => s.acquire i r
  | .reserving request, .cancel =>
    { s.setRequest i { r with aborted := true } with resources := Coordinator.step s.resources (.diskAbort request) }
  | .connecting _ request, .cancel =>
    { s.setRequest i { r with aborted := true } with resources := Coordinator.step s.resources (.upstreamAbort request) }
  | .reserving request, .reserved =>
    match DiskQueue.settlement s.resources.disk request with
    | some (.ok reservation) => s.connect i r reservation
    | some (.error failure) => s.fail i r failure
    | none => s
  | .connecting reservation request, .connected =>
    match UpstreamHandles.settlement s.resources.upstream request with
    | some (.ok upstream) => s.setPhase i r (.leased ⟨reservation,upstream,false,0⟩)
    | some (.error exception) =>
      { s with resources := Coordinator.step s.resources (.release reservation) }.fail i r (.resource exception)
    | none => s
  | .leased lease, .hold =>
    match r.kind with
    | .build => s.getOrCreateBuildSession i r lease
    | .spool => s.getOrCreateSpoolSession i r lease
  | .replacing lease, .replaced => s.create i r lease
  | .leading _ lease, .write bytes =>
    { s with resources := Coordinator.step s.resources (.consume lease.reservation (.whole bytes)) }
  | .leading n lease, .ended how => s.ended i r n lease how
  | .unwinding n lease, .unwound => s.unwound i r n lease
  | _, _ => s

def step (s : State) : Label → State
  | .resources op => { s with resources := Coordinator.step s.resources op }
  | .arrive kind fileId expectedSize contentVersion =>
    { s with requests := s.requests ++ [newRequest kind fileId expectedSize contentVersion] }
  | .request i action =>
    match s.requests[i]? with
    | none => s
    | some r => s.act i r action
  | .ready n => s.onSession n fun session => { session with fileReady := true }
  | .abort n error => s.onSession n (·.abort error)
  | .unregister n =>
    match s.sessions[n]? with
    | none => s
    | some session => if session.kind = .build then s.drop n session else s
  | .teardown n =>
    match s.sessions[n]? with
    | none => s
    | some session => if session.kind = .spool then s.teardownSpoolSession n session else s
  | .invalidate fileId => { s with invalidatingFileIds := fileId :: s.invalidatingFileIds }
  | .validate fileId => { s with invalidatingFileIds := s.invalidatingFileIds.filter (· ≠ fileId) }
  | .shutDown => { s with shuttingDown := true }

def Phase.lease : Phase → Option Lease
  | .leased lease | .replacing lease | .leading _ lease | .unwinding _ lease => some lease
  | .joined _ lease | .closed lease => lease
  | _ => none

/-- The request and, if it became a leader, the runner of its session have come to their end. -/
def Phase.Finished : Phase → Prop
  | .joined _ _ | .closed _ => True
  | _ => False

instance decidableFinished : ∀ phase : Phase, Decidable phase.Finished := fun phase => by
  cases phase <;> unfold Phase.Finished <;> infer_instance

def Lease.claim (lease : Lease) (id : Nat) : Claim := if lease.released then .nothing else .inHand id

def Phase.diskClaim : Phase → Claim
  | .reserving request => .awaited request
  | .connecting reservation _ => .inHand reservation
  | phase => match phase.lease with
    | some lease => lease.claim lease.reservation
    | none => .nothing

def Phase.upstreamClaim : Phase → Claim
  | .connecting _ request => .awaited request
  | phase => match phase.lease with
    | some lease => lease.claim lease.upstream
    | none => .nothing

def diskClaims (requests : List Request) (i : Nat) : Claim :=
  ((requests[i]?).map fun r => r.phase.diskClaim).getD .nothing

def upstreamClaims (requests : List Request) (i : Nat) : Claim :=
  ((requests[i]?).map fun r => r.phase.upstreamClaim).getD .nothing

/-- Others use their own handles and not the hook of tests, and a session whose runner still works stays on its map. -/
def Allowed (s : State) : Label → Prop
  | .resources op => UpstreamLedger.NoHook s.resources op ∧
      DiskHandles.Foreign (diskClaims s.requests) s.resources.disk op ∧
      UpstreamHandles.Foreign (upstreamClaims s.requests) s.resources.upstream op
  | .unregister n => ∀ r ∈ s.requests, ∀ lease, r.phase ≠ .leading n lease ∧ r.phase ≠ .unwinding n lease
  | _ => True

abbrev Reached (config : Config) (world : World) (evictionHook : Bool) (s : State) : Prop :=
  Reachable step Allowed (initial config world evictionHook) s

inductive Phase.Carries (lease : Lease) : Phase → Prop
  | leased : Carries lease (.leased lease)
  | replacing : Carries lease (.replacing lease)
  | leading (n : Nat) : Carries lease (.leading n lease)
  | unwinding (n : Nat) : Carries lease (.unwinding n lease)

def Harmless : Op → Prop
  | .diskAbort _ | .upstreamAbort _ | .consume _ _ => True
  | _ => False

inductive Turn (s : Service) (r : Request) : Service → Request → Prop
  | turnedAway (early : r.phase = .queued ∨ r.phase = .preparing) : Turn s r s { r with phase := .closed none }
  | join (n : Nat) (early : r.phase = .queued ∨ r.phase = .checking n) : Turn s r s { r with phase := .joined n none }
  | inspect (n : Nat) (queued : r.phase = .queued) : Turn s r s { r with phase := .checking n }
  | prepare (queued : r.phase = .queued) : Turn s r s { r with phase := .preparing }
  | tear (n : Nat) (early : r.phase = .queued ∨ r.phase = .checking n) :
      Turn s r s { r with phase := .preparing, torn := some n }
  | ask (prepared : r.phase = .preparing) (o : DiskQueue.ReserveOptions) :
      Turn s r (Coordinator.step s (.reserve o))
        { r with phase := .reserving s.disk.nextRequest, ticket := some s.disk.nextRequest }
  | signal (op : Op) (harmless : Harmless op) (aborted : Bool) :
      Turn s r (Coordinator.step s op) { r with aborted := aborted }
  | refused (request : Nat) (asked : r.phase = .reserving request) (failure : Failure)
      (settled : DiskQueue.settlement s.disk request = some (.error failure)) : Turn s r s { r with phase := .closed none }
  | connect (request reservation : Nat) (asked : r.phase = .reserving request)
      (settled : DiskQueue.settlement s.disk request = some (.ok reservation))
      (o : UpstreamQueue.AcquireUpstreamOptions) :
      Turn s r (Coordinator.step s (.acquireUpstreamSlot o))
        { r with phase := .connecting reservation s.upstream.nextRequest, slot := some s.upstream.nextRequest }
  | cutOff (reservation request : Nat) (asked : r.phase = .connecting reservation request)
      (exception : DownloadResourceException)
      (settled : UpstreamHandles.settlement s.upstream request = some (.error exception)) :
      Turn s r (Coordinator.step s (.release reservation)) { r with phase := .closed none }
  | lease (reservation request upstream : Nat) (asked : r.phase = .connecting reservation request)
      (settled : UpstreamHandles.settlement s.upstream request = some (.ok upstream)) :
      Turn s r s { r with phase := .leased ⟨reservation,upstream,false,0⟩ }
  | keep (lease : Lease) (before : r.phase.Carries lease) (phase : Phase) (after : phase.Carries lease) :
      Turn s r s { r with phase := phase }
  | letGo (lease : Lease) (before : r.phase.Carries lease) (phase : Phase) (finished : phase.Finished)
      (released : phase.lease = some lease.release) : Turn s r (lease.giveBack s) { r with phase := phase }

structure Moves (s s' : State) (i : Nat) (r r' : Request) : Prop where
  at_i : s.requests[i]? = some r
  turn : Turn s.resources r s'.resources r'
  requests : s'.requests = s.requests.set i r' ∨
    ∃ kind fileId expectedSize contentVersion,
      s'.requests = s.requests.set i r' ++ [newRequest kind fileId expectedSize contentVersion]

section
variable (s : State) {i : Nat} {r : Request}

@[simp] theorem drop_resources (n : Nat) (session : Session) : (s.drop n session).resources = s.resources := by
  unfold State.drop
  split
  · split <;> rfl
  · rfl

@[simp] theorem drop_requests (n : Nat) (session : Session) : (s.drop n session).requests = s.requests := by
  unfold State.drop
  split
  · split <;> rfl
  · rfl

@[simp] theorem onSession_resources (n : Nat) (f : Session → Session) : (s.onSession n f).resources = s.resources := rfl

@[simp] theorem onSession_requests (n : Nat) (f : Session → Session) : (s.onSession n f).requests = s.requests := rfl

@[simp] theorem register_resources (kind : LockKind) (fileId : String) (n : Nat) :
    (s.register kind fileId n).resources = s.resources := by
  cases kind <;> rfl

@[simp] theorem register_requests (kind : LockKind) (fileId : String) (n : Nat) :
    (s.register kind fileId n).requests = s.requests := by
  cases kind <;> rfl

@[simp] theorem teardown_resources (n : Nat) (session : Session) :
    (s.teardownSpoolSession n session).resources = s.resources := by
  simp [State.teardownSpoolSession]

@[simp] theorem teardown_requests (n : Nat) (session : Session) :
    (s.teardownSpoolSession n session).requests = s.requests := by
  simp [State.teardownSpoolSession]

variable {s}

variable {lease : Lease} {n : Nat}

theorem letGo_moves {s' : State} (at_i : s.requests[i]? = some r) (before : r.phase.Carries lease)
    (resources : s'.resources = s.resources) (requests : s'.requests = s.requests) {next : Option Lease → Phase}
    (finished : ∀ l, (next l).Finished) (released : ∀ l, (next l).lease = l) :
    ∃ r', Moves s (s'.letGo i r lease next) i r r' := by
  refine ⟨{ r with phase := next (some lease.release) },at_i,?_,.inl ?_⟩
  · show Turn s.resources r (lease.giveBack s'.resources) _
    rw [resources]
    exact .letGo lease before _ (finished _) (released _)
  · show (s'.requests).set i _ = _
    rw [requests]

theorem create_moves {s' : State} (at_i : s.requests[i]? = some r) (before : r.phase.Carries lease)
    (resources : s'.resources = s.resources) (requests : s'.requests = s.requests) :
    ∃ r', Moves s (s'.create i r lease) i r r' := by
  unfold State.create
  split
  · exact letGo_moves at_i before resources requests (fun _ => trivial) (fun _ => rfl)
  · refine ⟨{ r with phase := .leading s'.sessions.length lease },at_i,?_,.inl ?_⟩
    · simp only [register_resources,State.setPhase,State.setRequest,resources]
      exact .keep lease before _ (.leading _)
    · simp [State.setPhase,State.setRequest,requests]

theorem fail_moves {s' : State} (at_i : s.requests[i]? = some r) (requests : s'.requests = s.requests) (failure : Failure)
    (turn : Turn s.resources r s'.resources { r with phase := .closed none }) :
    ∃ r', Moves s (s'.fail i r failure) i r r' := by
  unfold State.fail
  split
  · refine ⟨{ r with phase := .closed none },at_i,turn,.inr ⟨.spool,r.fileId,r.expectedSize,r.contentVersion,?_⟩⟩
    simp [State.toSpool,State.setPhase,State.setRequest,requests]
  · refine ⟨{ r with phase := .closed none },at_i,turn,.inl ?_⟩
    simp [State.setPhase,State.setRequest,requests]

theorem phase_moves {s' : State} (at_i : s.requests[i]? = some r) (resources : s'.resources = s.resources)
    (requests : s'.requests = s.requests) {r' : Request} (turn : Turn s.resources r s.resources r') :
    ∃ next, Moves s (s'.setRequest i r') i r next := by
  refine ⟨r',at_i,?_,.inl ?_⟩
  · show Turn s.resources r s'.resources r'
    rwa [resources]
  · show s'.requests.set i r' = _
    rw [requests]

theorem enter_moves (at_i : s.requests[i]? = some r) (queued : r.phase = .queued) (cached : Bool) :
    ∃ r', Moves s (s.enter i r cached) i r r' := by
  have away := @phase_moves s i r s at_i rfl rfl _ (.turnedAway (.inl queued))
  have prepare := @phase_moves s i r s at_i rfl rfl _ (.prepare queued)
  unfold State.enter
  split
  · exact away
  split
  · split
    · exact away
    split
    · next n session _ =>
      split
      · exact phase_moves at_i rfl rfl (.join n (.inl queued))
      · exact prepare
    · exact prepare
  · split
    · next n session _ =>
      split
      · exact phase_moves at_i (teardown_resources s n session) (teardown_requests s n session) (.tear n (.inl queued))
      · split
        · exact phase_moves at_i rfl rfl (.join n (.inl queued))
        · exact phase_moves at_i rfl rfl (.inspect n queued)
    · exact prepare

theorem checked_moves (at_i : s.requests[i]? = some r) (checking : r.phase = .checking n) (intact : Bool) :
    s.checked i r n intact = s ∨ ∃ r', Moves s (s.checked i r n intact) i r r' := by
  unfold State.checked
  split
  · exact .inr (phase_moves at_i rfl rfl (.join n (.inr checking)))
  · split
    · exact .inl rfl
    · next session _ =>
      exact .inr (phase_moves at_i (teardown_resources s n session) (teardown_requests s n session)
        (.tear n (.inr checking)))

theorem acquire_moves (at_i : s.requests[i]? = some r) (prepared : r.phase = .preparing) :
    ∃ r', Moves s (s.acquire i r) i r r' := by
  unfold State.acquire
  split
  · exact phase_moves at_i rfl rfl (.turnedAway (.inr prepared))
  · exact ⟨_,at_i,.ask prepared _,.inl rfl⟩

theorem buildSession_moves (at_i : s.requests[i]? = some r) (leased : r.phase = .leased lease) :
    ∃ r', Moves s (s.getOrCreateBuildSession i r lease) i r r' := by
  have carries : r.phase.Carries lease := leased ▸ .leased
  unfold State.getOrCreateBuildSession
  split
  · next n session _ =>
    split
    · split
      · exact letGo_moves at_i carries rfl rfl (fun _ => trivial) (fun _ => rfl)
      · exact letGo_moves at_i carries rfl rfl (fun _ => trivial) (fun _ => rfl)
    · exact create_moves at_i carries (by simp) (by simp)
  · exact create_moves at_i carries rfl rfl

theorem spoolSession_moves (at_i : s.requests[i]? = some r) (leased : r.phase = .leased lease) :
    ∃ r', Moves s (s.getOrCreateSpoolSession i r lease) i r r' := by
  have carries : r.phase.Carries lease := leased ▸ .leased
  unfold State.getOrCreateSpoolSession
  split
  · exact letGo_moves at_i carries rfl rfl (fun _ => trivial) (fun _ => rfl)
  split
  · next n session _ =>
    split
    · exact letGo_moves at_i carries rfl rfl (fun _ => trivial) (fun _ => rfl)
    · exact phase_moves at_i (teardown_resources s n session) (teardown_requests s n session)
        (.keep lease carries _ .replacing)
  · exact create_moves at_i carries rfl rfl

theorem ended_moves (at_i : s.requests[i]? = some r) (leading : r.phase = .leading n lease)
    (how : RunEnd) : s.ended i r n lease how = s ∨ ∃ r', Moves s (s.ended i r n lease how) i r r' := by
  have carries : r.phase.Carries lease := leading ▸ .leading n
  have joins : ∀ l, (Phase.joined n l).Finished := fun _ => trivial
  cases how with
  | completed =>
    exact .inr (letGo_moves at_i carries (onSession_resources s n _) (onSession_requests s n _) joins (fun _ => rfl))
  | left =>
    simp only [State.ended]
    split
    · exact .inr (letGo_moves at_i carries rfl rfl joins (fun _ => rfl))
    · exact .inl rfl
  | failed error =>
    exact .inr (phase_moves at_i (onSession_resources s n _) (onSession_requests s n _)
      (.keep lease carries _ (.unwinding n)))

theorem unwound_moves (at_i : s.requests[i]? = some r) (unwinding : r.phase = .unwinding n lease) :
    ∃ r', Moves s (s.unwound i r n lease) i r r' := by
  have carries : r.phase.Carries lease := unwinding ▸ .unwinding n
  unfold State.unwound
  split
  · next session _ =>
    split
    · exact letGo_moves at_i carries (drop_resources s n session) (drop_requests s n session) (fun _ => trivial)
        (fun _ => rfl)
    · exact letGo_moves at_i carries rfl rfl (fun _ => trivial) (fun _ => rfl)
  · exact letGo_moves at_i carries rfl rfl (fun _ => trivial) (fun _ => rfl)

theorem act_moves (at_i : s.requests[i]? = some r) (action : Action) :
    s.act i r action = s ∨ ∃ r', Moves s (s.act i r action) i r r' := by
  have here : s.requests.set i r = s.requests := by
    obtain ⟨known,rfl⟩ := List.getElem?_eq_some_iff.mp at_i
    simp
  unfold State.act
  split
  · next cached queued => exact .inr (enter_moves at_i queued cached)
  · next n intact checking => exact checked_moves at_i checking intact
  · next prepared =>
    split
    · exact .inr ⟨{ r with phase := .closed none },at_i,.turnedAway (.inr prepared),
        .inr ⟨.spool,r.fileId,r.expectedSize,r.contentVersion,rfl⟩⟩
    · exact .inl rfl
  · next prepared => exact .inr (acquire_moves at_i prepared)
  · next request reserving => exact .inr ⟨_,at_i,.signal (.diskAbort request) trivial true,.inl rfl⟩
  · next reservation request connecting => exact .inr ⟨_,at_i,.signal (.upstreamAbort request) trivial true,.inl rfl⟩
  · next request reserving =>
    split
    · next reservation settled => exact .inr ⟨_,at_i,.connect request reservation reserving settled _,.inl rfl⟩
    · next failure settled => exact .inr (fail_moves at_i rfl failure (.refused request reserving failure settled))
    · exact .inl rfl
  · next reservation request connecting =>
    split
    · next upstream settled => exact .inr ⟨_,at_i,.lease reservation request upstream connecting settled,.inl rfl⟩
    · next exception settled =>
      exact .inr (@fail_moves s i r { s with resources := Coordinator.step s.resources (.release reservation) } at_i rfl
        (.resource exception) (.cutOff reservation request connecting exception settled))
    · exact .inl rfl
  · next lease leased =>
    cases r.kind with
    | build => exact .inr (buildSession_moves at_i leased)
    | spool => exact .inr (spoolSession_moves at_i leased)
  · next lease replacing => exact .inr (create_moves at_i (replacing ▸ .replacing) rfl rfl)
  · next n lease bytes leading =>
    refine .inr ⟨r,at_i,.signal (.consume lease.reservation (.whole bytes)) trivial r.aborted,.inl here.symm⟩
  · next n lease how leading => exact ended_moves at_i leading how
  · next n lease unwinding => exact .inr (unwound_moves at_i unwinding)
  · exact .inl rfl

end

theorem step_cases (s : State) (l : Label) :
    ((step s l).resources = s.resources ∧ (step s l).requests = s.requests) ∨
    (∃ op, l = .resources op ∧ (step s l).resources = Coordinator.step s.resources op ∧
      (step s l).requests = s.requests) ∨
    (∃ kind fileId expectedSize contentVersion, (step s l).resources = s.resources ∧
      (step s l).requests = s.requests ++ [newRequest kind fileId expectedSize contentVersion]) ∨
    ∃ i r r', Moves s (step s l) i r r' := by
  cases l with
  | resources op => exact .inr (.inl ⟨op,rfl,rfl,rfl⟩)
  | arrive kind fileId expectedSize contentVersion =>
    exact .inr (.inr (.inl ⟨kind,fileId,expectedSize,contentVersion,rfl,rfl⟩))
  | request i action =>
    simp only [step]
    split
    · exact .inl ⟨rfl,rfl⟩
    · next r at_i =>
      rcases act_moves at_i action with same | ⟨r',moves⟩
      · rw [same]
        exact .inl ⟨rfl,rfl⟩
      · exact .inr (.inr (.inr ⟨i,r,r',moves⟩))
  | unregister n =>
    simp only [step]
    split
    · exact .inl ⟨rfl,rfl⟩
    · split
      · exact .inl ⟨drop_resources s n _,drop_requests s n _⟩
      · exact .inl ⟨rfl,rfl⟩
  | teardown n =>
    simp only [step]
    split
    · exact .inl ⟨rfl,rfl⟩
    · split
      · exact .inl ⟨teardown_resources s n _,teardown_requests s n _⟩
      · exact .inl ⟨rfl,rfl⟩
  | ready | abort | invalidate | validate | shutDown => exact .inl ⟨rfl,rfl⟩

end Tgtc.SessionLeases
