import Mathlib.Data.List.Basic

/-!
A follower of a build or spool session: the stream of `createFollowerReadable`, which reads a range of the session
file while the leader still writes it.
-/
namespace Tgtc.FollowerStream
universe u

inductive SessionKind
  | build
  | spool
deriving DecidableEq

inductive Place
  | session
  | cache
deriving DecidableEq

/-- `FOLLOWER_READ_CHUNK_BYTES`. -/
def followerReadChunkBytes : Nat := 256 * 1024

/-- The bytes from `start` to `last`, the `end` of the source, of the content of a session. -/
structure Range (α : Type u) where
  kind : SessionKind
  content : List α
  start : Nat
  last : Nat
  ordered : start ≤ last
  inside : last < content.length

structure Session where
  bytesWritten : Nat
  completed : Bool
  error : Bool
  /-- The `failed` that follows the error is still to be emitted. -/
  failureDue : Bool
  renamed : Bool

/-- Where a call of `pump` stands. -/
inductive Pump (α : Type u)
  /-- Awaits `fsp.open`; the outcome is there once the thread pool has run the call. -/
  | opening (place : Place) (fileOffset bytes : Nat) (outcome : Option Bool)
  /-- Awaits `fsp.open` on the fallback path. -/
  | reopening (place : Place) (fileOffset bytes : Nat) (outcome : Option Bool)
  | reading (fileOffset bytes : Nat)
  /-- Awaits `handle.close`, with what was read or after a failed read. -/
  | closing (data : Option (List α))
  /-- Awaits `waitForSessionChange`, with its listeners registered. -/
  | waiting
  | stranded
  | woken
  | refused
  | ended
deriving DecidableEq

structure Follower (α : Type u) where
  session : Session
  offset : Nat
  pumping : Bool
  finished : Bool
  destroyed : Bool
  /-- `push(null)`: the stream ends normally. -/
  ended : Bool
  failed : Bool
  pushed : List α
  pumps : List (Pump α)

section
variable {α : Type u} (range : Range α)

def Range.expectedSize (range : Range α) : Nat := range.content.length

def Range.wanted (range : Range α) : List α := (range.content.drop range.start).take (range.last + 1 - range.start)

def fresh : Follower α where
  session := ⟨0,false,false,false,false⟩
  offset := range.start
  pumping := false
  finished := false
  destroyed := false
  ended := false
  failed := false
  pushed := []
  pumps := []

def primaryPath (session : Session) : Place :=
  if range.kind = .build ∧ session.completed then .cache else .session

/-- `fallbackPath`; spool files keep their path, so only a completed session is tried again. -/
def fallbackPath (session : Session) : Option Place :=
  if session.completed then some (if range.kind = .build then .cache else .session) else none

def isTerminal (session : Session) (offset : Nat) : Bool :=
  session.completed && (range.kind = .spool || range.expectedSize ≤ offset)

/-- A `progress` reaches a pump. -/
def Pump.notified : Pump α → Pump α
  | .waiting => .woken
  | pump => pump

/-- A `failed` reaches a pump. -/
def Pump.rejected : Pump α → Pump α
  | .waiting => .refused
  | pump => pump

/-- `removeAllListeners` on the events of the session. -/
def Pump.deafened : Pump α → Pump α
  | .waiting => .stranded
  | pump => pump

/-- `waiterAbort.abort()` reaches a pump. -/
def Pump.aborted : Pump α → Pump α
  | .waiting => .woken
  | .stranded => .woken
  | pump => pump

def destroy (s : Follower α) (withError : Bool) : Follower α :=
  if s.destroyed then s
  else { s with destroyed := true, failed := withError, pumps := s.pumps.map Pump.aborted }

def setPump (s : Follower α) (i : Nat) (pump : Pump α) : Follower α := { s with pumps := s.pumps.set i pump }

/-- The `finally` of `pump`. -/
def leave (s : Follower α) (i : Nat) : Follower α := setPump { s with pumping := false } i .ended

/-- The `catch` of `pump`. -/
def throwing (s : Follower α) (i : Nat) : Follower α := leave (destroy { s with finished := true } true) i

def finish (s : Follower α) : Follower α := if s.finished then s else { s with finished := true, ended := true }

/-- The end of the loop of `pump`; `waitForSessionChange` looks once more for what happened before its
listeners. -/
def awaitChange (s : Follower α) (i : Nat) : Follower α :=
  if s.session.error then throwing s i
  else if isTerminal range s.session s.offset then leave (finish s) i
  else if s.destroyed then setPump s i .woken
  else if s.offset < s.session.bytesWritten ∨ s.session.completed ∨ s.session.error then setPump s i .woken
  else setPump s i .waiting

/-- The loop of `pump` from its head to the next await. -/
def turn (s : Follower α) (i : Nat) : Follower α :=
  if s.finished || s.destroyed then leave s i
  else if s.session.error then throwing s i
  else if range.last < s.offset then leave (finish s) i
  else if s.offset < s.session.bytesWritten then
    let available := min followerReadChunkBytes (min (s.session.bytesWritten - s.offset) (range.last - s.offset + 1))
    if 0 < available then setPump s i (.opening (primaryPath range s.session) s.offset available none)
    else awaitChange range s i
  else awaitChange range s i

/-- The loop of `pump` after `readInto`; `accepts` is what `push` returns. -/
def received (s : Follower α) (i : Nat) (data : List α) (accepts : Bool) : Follower α :=
  if s.destroyed || s.finished then leave s i
  else if 0 < data.length then
    let grown := { s with offset := s.offset + data.length, pushed := s.pushed ++ data }
    if accepts then turn range grown i else leave grown i
  else awaitChange range s i

inductive Label (α : Type u)
  /-- The stream calls `_read`. -/
  | read
  /-- The thread pool runs the `open` of a pump. -/
  | pool (pump : Nat) (ok : Bool)
  /-- The completion of an `open` is delivered. -/
  | opened (pump : Nat)
  | fileRead (pump : Nat) (file : List α) (count : Nat)
  | readFailed (pump : Nat)
  | closed (pump : Nat) (accepts : Bool)
  | closeFailed (pump : Nat)
  /-- A pump goes on after `waitForChange`. -/
  | resumed (pump : Nat)
  | destroy
  /-- The leader has written a chunk and emits `progress`. -/
  | write (bytes : Nat)
  | rename
  /-- The leader sets `completed` and emits `progress` and `complete`. -/
  | complete
  /-- `session.error` is set. -/
  | setError
  | emitFailed
  | dropListeners
  /-- `failed` is emitted and the listeners are removed in the same turn. -/
  | teardown

def poolOpen (s : Follower α) (i : Nat) (ok : Bool) : Follower α :=
  match s.pumps[i]? with
  | some (.opening place fileOffset bytes none) => setPump s i (.opening place fileOffset bytes (some ok))
  | some (.reopening place fileOffset bytes none) => setPump s i (.reopening place fileOffset bytes (some ok))
  | _ => s

/-- `readFollowerBytes` once an `open` is settled. -/
def deliverOpen (s : Follower α) (i : Nat) : Follower α :=
  match s.pumps[i]? with
  | some (.opening _ fileOffset bytes (some true)) => setPump s i (.reading fileOffset bytes)
  | some (.opening _ fileOffset bytes (some false)) =>
    match fallbackPath range s.session with
    | some place => setPump s i (.reopening place fileOffset bytes none)
    | none => throwing s i
  | some (.reopening _ fileOffset bytes (some true)) => setPump s i (.reading fileOffset bytes)
  | some (.reopening _ _ _ (some false)) => throwing s i
  | _ => s

/-- What `handle.read` returns of a file. -/
def readOf (file : List α) (fileOffset bytes count : Nat) : List α := (file.drop fileOffset).take (min count bytes)

def deliverRead (s : Follower α) (i : Nat) (result : Nat → Nat → Option (List α)) : Follower α :=
  match s.pumps[i]? with
  | some (.reading fileOffset bytes) => setPump s i (.closing (result fileOffset bytes))
  | _ => s

def deliverClose (s : Follower α) (i : Nat) (ok accepts : Bool) : Follower α :=
  match s.pumps[i]? with
  | some (.closing (some data)) => if ok then received range s i data accepts else throwing s i
  | some (.closing none) => throwing s i
  | _ => s

/-- `pump` after `waitForChange`. -/
def resume (s : Follower α) (i : Nat) : Follower α :=
  match s.pumps[i]? with
  | some .woken => if s.destroyed || s.finished then leave s i else turn range s i
  | some .refused => throwing s i
  | _ => s

def step (s : Follower α) : Label α → Follower α
  | .read =>
    if s.pumping || s.finished || s.destroyed then s
    else turn range { s with pumping := true, pumps := s.pumps ++ [.woken] } s.pumps.length
  | .pool i ok => poolOpen s i ok
  | .opened i => deliverOpen range s i
  | .fileRead i file count => deliverRead s i (fun fileOffset bytes => some (readOf file fileOffset bytes count))
  | .readFailed i => deliverRead s i (fun _ _ => none)
  | .closed i accepts => deliverClose range s i true accepts
  | .closeFailed i => deliverClose range s i false false
  | .resumed i => resume range s i
  | .destroy => destroy s false
  | .write bytes =>
    { s with
      session := { s.session with bytesWritten := s.session.bytesWritten + bytes }
      pumps := s.pumps.map Pump.notified }
  | .rename => { s with session := { s.session with renamed := true } }
  | .complete => { s with session := { s.session with completed := true }, pumps := s.pumps.map Pump.notified }
  | .setError => { s with session := { s.session with error := true, failureDue := true } }
  | .emitFailed =>
    { s with session := { s.session with failureDue := false }, pumps := s.pumps.map Pump.rejected }
  | .dropListeners => { s with pumps := s.pumps.map Pump.deafened }
  | .teardown =>
    { s with session := { s.session with failureDue := false }, pumps := (s.pumps.map Pump.rejected).map Pump.deafened }

/-- The file holds what was reported as written whenever it is read, chunks stay within the expected
size, which a completed session has, and the listeners go once the session is over. -/
def Allowed (s : Follower α) : Label α → Prop
  | .fileRead _ file count => 0 < count ∧ range.content.take s.session.bytesWritten <+: file
  | .write bytes => s.session.completed = false ∧ s.session.bytesWritten + bytes ≤ range.expectedSize
  | .complete => s.session.bytesWritten = range.expectedSize
  | .dropListeners => s.session.completed = true ∨ (s.session.error = true ∧ s.session.failureDue = false)
  | _ => True

end
end Tgtc.FollowerStream
