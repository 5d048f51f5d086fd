import Tgtc.Maps
import Tgtc.MirrorTasks
import Tgtc.Runs

/-!
The message of an owner in the main chat. Mirrors are fed from one message in the main chat, the anchor, and the Bot
API has no key under which a forward could be made twice without harm.
-/
namespace Tgtc.MainChatAnchor
open Runs Maps
open MirrorTasks (OwnerType ErrorKind)

def plantReservationLeaseMs : Int := 5 * 60000
def plantRetryAfterMarginMs : Int := 15000

structure Input where
  mainChatId : String
  sourceChatId : String
  sourceMessageId : String
deriving DecidableEq

inductive RowStatus where
  | pending | ready | failed
deriving DecidableEq

structure Payload where
  anchorChatId : String
  anchorMessageId : String
  sourceChatId : String
  sourceMessageId : String
  status : RowStatus
  plantedAt : Option Int
deriving DecidableEq

structure Row where
  id : Nat
  data : Payload
deriving DecidableEq

structure Anchor where
  chatId : String
  messageId : String
deriving DecidableEq

/-- `MirrorExecutionError` -/
structure Failure where
  code : String
  kind : ErrorKind
  retryAfterMs : Option Int
deriving DecidableEq

inductive Result where
  | returned (anchor : Anchor) (planted : Bool)
  | threw (failure : Failure)
deriving DecidableEq

def unavailable (kind : ErrorKind) : Result := .threw ⟨"main_chat_anchor_unavailable",kind,none⟩

section
variable (ownerType : OwnerType)

def isSourceFingerprintMatch (input : Input) (data : Payload) : Bool :=
  ownerType ≠ .file || input.sourceChatId = "" || input.sourceMessageId = "" ||
    data.sourceChatId = "" || data.sourceMessageId = "" ||
    (data.sourceChatId = input.sourceChatId && data.sourceMessageId = input.sourceMessageId)

/-- `findReusable`, and the same conditions in `reserve` -/
def reusable (input : Input) (data : Payload) : Option Anchor :=
  if data.status = .ready ∧ data.anchorChatId = input.mainChatId ∧ data.anchorMessageId ≠ "" ∧
      isSourceFingerprintMatch ownerType input data = true then
    some ⟨input.mainChatId,data.anchorMessageId⟩
  else none

def leaseExpired (now : Int) (data : Payload) : Bool :=
  data.plantedAt.getD 0 = 0 || data.plantedAt.getD 0 + plantReservationLeaseMs ≤ now

inductive Verdict where
  | reuse (anchor : Anchor)
  | wait (failure : Failure)
  | takeOver

/-- What `reserve` does about the row that was there first. -/
def verdict (input : Input) (now : Int) (data : Payload) : Verdict := match reusable ownerType input data with
  | some anchor => .reuse anchor
  | none =>
    if data.status = .pending ∧ leaseExpired now data = false then
      .wait ⟨"main_chat_anchor_pending",.retryable,
        some (max 0 (data.plantedAt.getD 0 + plantReservationLeaseMs - now) + plantRetryAfterMarginMs)⟩
    else .takeOver

def Input.reservation (input : Input) (since : Int) : Payload :=
  ⟨input.mainChatId,"",input.sourceChatId,input.sourceMessageId,.pending,some since⟩

/-- The columns that `persistReady` writes. -/
def Input.ready (input : Input) (messageId : String) (now : Int) : Payload :=
  ⟨input.mainChatId,messageId,input.sourceChatId,input.sourceMessageId,.ready,some now⟩

/-- The columns that `persistFailed` writes. -/
def Input.failed (input : Input) : Payload :=
  ⟨input.mainChatId,"",input.sourceChatId,input.sourceMessageId,.failed,none⟩

/-- An `upsert`, and what the call answers after it. -/
structure Record where
  payload : Payload
  keepReady : Bool
  result : Result
deriving DecidableEq

inductive Stage where
  /-- `findReusable` of `ensureAnchor` -/
  | reading
  | joined (leader : Nat)
  /-- `findReusable` of `plantToMainChat` -/
  | rechecking
  | resolving
  /-- `reserve`, with the time in its columns -/
  | inserting (since : Int)
  | requiring (since : Int)
  | deleting (since : Int) (old : Row)
  | reinserting (since : Int)
  | rereading
  | forwarding
  | finding (r : Record)
  | updating (r : Record) (id : Nat)
  | adding (r : Record)
  | refinding (r : Record)
  | ended (result : Result)
deriving DecidableEq

structure Call where
  process : Nat
  input : Input
  stage : Stage
  reserved : Option (Nat × Int)
deriving DecidableEq

structure Plant where
  input : Input
  messageId : String
deriving DecidableEq

structure State where
  row : Option Row
  nextId : Nat
  now : Int
  calls : List Call
  inflight : OrderedMap Nat Nat
  plants : List Plant

/-- Nothing is under way, whatever the row is. The clock is past its epoch, which stands for no time at all. -/
def State.start (row : Option Payload) : State := ⟨row.map (Row.mk 0),1,1,[],.empty,[]⟩

inductive Reply where
  | ok
  | threw (applied : Bool)
deriving DecidableEq

def Reply.applied : Reply → Bool
  | .ok => true
  | .threw applied => applied

def State.goes (s : State) (n : Nat) (stage : Stage) : State :=
  { s with calls := s.calls.modify n fun c => { c with stage } }

def State.finish (s : State) (n : Nat) (c : Call) (result : Result) : State :=
  { s.goes n (.ended result) with
    inflight := if s.inflight.get c.process = some n then s.inflight.delete c.process else s.inflight }

/-- What `findReusable` finds. -/
def State.found (s : State) (input : Input) : Option Anchor := s.row.bind fun row => reusable ownerType input row.data

/-- `reserve` inserts its row if there is none. -/
def State.reserves (s : State) (n : Nat) (c : Call) (since : Int) (reply : Reply) (taken : Stage) : State :=
  match s.row with
  | some _ => if reply = .ok then s.goes n taken else s.finish n c (unavailable .blocked)
  | none =>
    if reply.applied then
      let s' := { s with row := some ⟨s.nextId,c.input.reservation since⟩, nextId := s.nextId + 1 }
      if reply = .ok then { s' with calls := s'.calls.modify n fun c => { c with stage := .forwarding, reserved := some (s.nextId,since) } }
      else s'.finish n c (unavailable .blocked)
    else s.finish n c (unavailable .blocked)

/-- An update by id; `keepReady` leaves a row alone that is ready. -/
def State.write (s : State) (r : Record) (id : Nat) : State :=
  { s with row := s.row.map fun row =>
      if row.id = id ∧ (r.keepReady = true → row.data.status ≠ .ready) then { row with data := r.payload } else row }

/-- The next access of a call. -/
def State.advance (s : State) (n : Nat) (c : Call) (reply : Reply) : State := match c.stage with
  | .reading =>
    if reply ≠ .ok then s.finish n c (unavailable .blocked)
    else match s.found ownerType c.input with
      | some anchor => s.finish n c (.returned anchor false)
      | none =>
        if c.input.sourceChatId = c.input.mainChatId then
          s.goes n (.finding ⟨c.input.ready c.input.sourceMessageId s.now,false,
            .returned ⟨c.input.mainChatId,c.input.sourceMessageId⟩ false⟩)
        else match s.inflight.get c.process with
          | some leader => s.goes n (.joined leader)
          | none => { s.goes n .rechecking with inflight := s.inflight.set c.process n }
  | .joined leader => match (s.calls[leader]?).map Call.stage with
    | some (.ended result) => s.finish n c result
    | _ => s
  | .rechecking =>
    if reply ≠ .ok then s.finish n c (unavailable .blocked)
    else match s.found ownerType c.input with
      | some anchor => s.finish n c (.returned anchor false)
      | none => s.goes n .resolving
  -- answered by `bot`
  | .resolving => s
  | .inserting since => s.reserves n c since reply (.requiring since)
  | .requiring since =>
    if reply ≠ .ok then s.finish n c (unavailable .blocked)
    else match s.row with
      | none => s.finish n c (unavailable .retryable)
      | some row => match verdict ownerType c.input s.now row.data with
        | .reuse anchor => s.finish n c (.returned anchor false)
        | .wait failure => s.finish n c (.threw failure)
        | .takeOver => s.goes n (.deleting since row)
  | .deleting since old =>
    let s' := if reply.applied then
      { s with row := s.row.filter fun row => ¬ (row.id = old.id ∧ row.data.status = old.data.status) } else s
    if reply = .ok then s'.goes n (.reinserting since) else s'.finish n c (unavailable .blocked)
  | .reinserting since => s.reserves n c since reply .rereading
  | .rereading =>
    if reply ≠ .ok then s.finish n c (unavailable .blocked)
    else match s.row with
      | none => s.finish n c (unavailable .retryable)
      | some row => match reusable ownerType c.input row.data with
        | some anchor => s.finish n c (.returned anchor false)
        | none => s.finish n c (.threw ⟨"main_chat_anchor_pending",.retryable,none⟩)
  -- answered by `forward`
  | .forwarding => s
  | .finding r =>
    if reply ≠ .ok then s.finish n c r.result
    else match s.row with
      | some row => s.goes n (.updating r row.id)
      | none => s.goes n (.adding r)
  | .updating r id => (if reply.applied then s.write r id else s).finish n c r.result
  | .adding r => match s.row with
    | some _ => if reply = .ok then s.goes n (.refinding r) else s.finish n c r.result
    | none =>
      (if reply.applied then { s with row := some ⟨s.nextId,r.payload⟩, nextId := s.nextId + 1 } else s).finish n c r.result
  | .refinding r =>
    if reply ≠ .ok then s.finish n c r.result
    else match s.row with
      | some row => s.goes n (.updating r row.id)
      | none => s.finish n c r.result
  | .ended _ => s

inductive Forwarded where
  | message (id : Nat)
  | failed (failure : Failure)

inductive Label where
  /-- `ensureAnchor`, with the main chat that it has resolved -/
  | call (process : Nat) (input : Input)
  | go (n : Nat) (reply : Reply)
  | bot (n : Nat) (failure : Option Failure)
  | forward (n : Nat) (outcome : Forwarded)
  | tick (ms : Nat)

def State.forwarded (s : State) (n : Nat) (c : Call) : Forwarded → State
  | .message id =>
    { s.goes n (.finding ⟨c.input.ready id.repr s.now,false,.returned ⟨c.input.mainChatId,id.repr⟩ true⟩) with
      plants := s.plants ++ [⟨c.input,id.repr⟩] }
  | .failed failure => s.goes n (.finding ⟨c.input.failed,true,.threw failure⟩)

def step (s : State) : Label → State
  | .call process input =>
    { s with calls := s.calls ++ [⟨process,input,
        if input.sourceChatId = "" ∨ input.sourceMessageId = "" then
          .ended (.threw ⟨"source_message_unresolved",.blocked,none⟩) else .reading,none⟩] }
  | .go n reply => match s.calls[n]? with
    | some c => s.advance ownerType n c reply
    | none => s
  | .bot n failure => match s.calls[n]? with
    | some c => if c.stage = .resolving then match failure with
        | some failure => s.finish n c (.threw failure)
        | none => s.goes n (.inserting s.now)
      else s
    | none => s
  | .forward n outcome => match s.calls[n]? with
    | some c => if c.stage = .forwarding then s.forwarded n c outcome else s
    | none => s
  | .tick ms => { s with now := s.now + ms }

end

section
variable {ownerType : OwnerType} {input : Input} {s t : State} {n : Nat} {c : Call}

variable {change : Call → Call}

section
variable (there : s.calls[n]? = some c) (calls : t.calls = s.calls.modify n change)
include there calls

theorem at_calls {m : Nat} {d : Call} (found : t.calls[m]? = some d) : m = n ∧ d = change c ∨ m ≠ n ∧ s.calls[m]? = some d := by
  rw [calls] at found
  rcases at_of_modify found with ⟨rfl,old,known,rfl⟩ | other
  · cases there.symm.trans known
    exact .inl ⟨rfl,rfl⟩
  · exact .inr other

theorem at_change : t.calls[n]? = some (change c) := by
  rw [calls]
  exact at_modify there change

end

theorem at_other (calls : t.calls = s.calls.modify n change) {m : Nat} (other : m ≠ n) :
    t.calls[m]? = s.calls[m]? := by
  rw [calls]
  exact List.getElem?_modify_ne _ _ (Ne.symm other)

theorem found_of_row (row : Row) (known : s.row = some row) : s.found ownerType input = reusable ownerType input row.data := by
  unfold State.found
  rw [known]
  rfl

end
end Tgtc.MainChatAnchor
