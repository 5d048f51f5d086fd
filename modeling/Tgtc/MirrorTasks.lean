import Mathlib
import Tgtc.Runs

/-!
Tasks that copy a file to a mirror chat. A task is a row with a status; a job of the queue only says which row to look
at, and whoever turns the row from queued or retrying to running executes it.
-/
namespace Tgtc.MirrorTasks

def mirrorMaxAttempts : Nat := 5
def mirrorRetryBaseMs : Int := 30000
def mirrorRetryMaxMs : Int := 30 * 60 * 1000

inductive OwnerType where
  | file | grant | fileUnique
deriving DecidableEq

structure Key where
  ruleId : String
  ownerType : OwnerType
  ownerId : String
  sourceVersion : Nat
deriving DecidableEq

inductive Status where
  | queued | running | succeeded | retrying | failed | blocked | cancelled
deriving DecidableEq

/-- What `claim` accepts. -/
def Status.waiting : Status → Bool
  | .queued | .retrying => true
  | _ => false

/-- `TERMINAL_STATUSES` -/
def Status.terminal : Status → Bool
  | .succeeded | .failed | .blocked | .cancelled => true
  | _ => false

structure Receipt where
  targetAccountId : String
  targetChatId : String
  targetMessageId : String
  targetTelegramFileId : String
deriving DecidableEq

structure Row where
  key : Key
  mode : String
  status : Status
  attempts : Nat
  target : Option Receipt
  receiptPending : Bool
  nextRetryAt : Option Int
  withdrawn : Bool
  executions : Nat
  handedBack : Nat
deriving DecidableEq

/-- The row that `enqueue` inserts. -/
def Key.row (key : Key) : Row := ⟨key,"user_copy",.queued,0,none,false,none,false,0,0⟩

def backoffMsFor (attempts : Nat) : Int := min (mirrorRetryBaseMs * 2 ^ (max 1 attempts - 1)) mirrorRetryMaxMs

section
variable (row : Row)

def Row.claim : Row := { row with status := .running, attempts := row.attempts + 1, executions := row.executions + 1 }

def Row.markSucceeded (result : Receipt) : Row :=
  { row with status := .succeeded, target := some result, mode := "user_copy", receiptPending := false, nextRetryAt := none }

def Row.markFailed : Row := { row with status := .failed, nextRetryAt := none }

def Row.markBlocked : Row := { row with status := .blocked, nextRetryAt := none }

def Row.markCancelled : Row := { row with status := .cancelled, nextRetryAt := none }

/-- `attempts` are those of the execution, not those of the row. -/
def Row.markRetrying (attempts : Nat) (delayMs now : Int) : Row :=
  if attempts ≥ mirrorMaxAttempts then row.markFailed
  else { row with status := .retrying, nextRetryAt := some (now + min delayMs mirrorRetryMaxMs) }

def Row.saveReceipt (receipt : Receipt) : Row := { row with target := some receipt, receiptPending := true }

def Row.returnToQueue : Row :=
  { row with status := .queued, attempts := 0, nextRetryAt := none, handedBack := row.handedBack + 1 }

def Row.retry (receiptPending : Bool) : Row :=
  { row with
    status := .queued, attempts := 0, receiptPending, nextRetryAt := none
    withdrawn := false, executions := 0, handedBack := 0 }

def Row.cancel : Row := { row with status := .cancelled, nextRetryAt := none, withdrawn := true }

def Row.requeueTerminal : Row :=
  { row with
    status := .queued, attempts := 0, nextRetryAt := none, receiptPending := false, target := none
    withdrawn := false, executions := 0, handedBack := 0 }

def Row.resume (now : Int) : Row := { row with status := .retrying, nextRetryAt := some now }

end

inductive ErrorKind where
  | retryable | blocked | permanent
deriving DecidableEq

/-- `MirrorErrorClassification`, as far as it decides. -/
structure Classification where
  kind : ErrorKind
  retryAfterMs : Option Int

inductive Copy where
  | copied (result : Receipt)
  | failed (classification : Classification)

/-- What `execute` finds around the row. -/
structure Surroundings where
  rule : Option Bool
  isMirrorEnabled : Bool
  uploadVersion : Option Nat
  copy : Copy

inductive Write where
  | markSucceeded (result : Receipt) (copied : Bool)
  | markBlocked
  | markCancelled
  | markFailed
  | returnToQueue
  | markRetrying (delayMs : Int)
  | saveReceipt (result : Receipt)
  /-- `markRetrying` after the copy whose success could not be written down -/
  | unsettled (delayMs : Int)
  /-- `markRetrying` for what `execute` has thrown -/
  | rescue (delayMs : Int)
deriving DecidableEq

def Write.apply (claimed : Row) (now : Int) : Write → Row → Row
  | .markSucceeded result _ => (·.markSucceeded result)
  | .markBlocked => Row.markBlocked
  | .markCancelled => Row.markCancelled
  | .markFailed => Row.markFailed
  | .returnToQueue => Row.returnToQueue
  | .markRetrying delayMs | .unsettled delayMs | .rescue delayMs => (·.markRetrying claimed.attempts delayMs now)
  | .saveReceipt result => (·.saveReceipt result)

/-- `settle` -/
def settle (claimed : Row) (c : Classification) : Write := match c.kind with
  | .blocked => .markBlocked
  | .permanent => .markFailed
  | .retryable => .markRetrying (c.retryAfterMs.getD (backoffMsFor claimed.attempts))

def Copy.write (claimed : Row) : Copy → Write
  | .copied result => .markSucceeded result true
  | .failed classification => settle claimed classification

/-- `execute` from the third step on. -/
def execute (claimed : Row) (around : Surroundings) : Write := match around.rule with
  | none | some false => .markBlocked
  | some true =>
    if ¬ around.isMirrorEnabled then .returnToQueue
    else if claimed.key.ownerType = .file then match around.uploadVersion with
      | none => .markBlocked
      | some version => if version ≠ claimed.key.sourceVersion then .markCancelled else around.copy.write claimed
    else around.copy.write claimed

/-- `jobId`: the key of a row, and the number of attempts for a retry. -/
structure JobId where
  task : Nat
  retry : Option Nat
deriving DecidableEq

inductive Call where
  | enqueue (key : Key)
  | retry (i : Nat)
  | cancel (i : Nat)
  | requeueTerminal (i : Nat)
  | reconcileQueued (limit : Nat)
  | resumeInterrupted

inductive Proc where
  /-- `handle` before the claim -/
  | claiming (job : JobId)
  | executing (job : JobId) (claimed : Row)
  | writing (job : JobId) (claimed : Row) (w : Write)
  | scheduling (job : JobId) (claimed : Row)
  | enqueue (key : Key)
  | insert (key : Key)
  /-- `safeAddJob` or `scheduleRetry` at the end of a call -/
  | add (job : JobId)
  | retry (i : Nat)
  | writeRetry (i : Nat) (receiptPending : Bool)
  | refresh (i : Nat)
  | cancel (i : Nat)
  | writeCancel (i : Nat)
  | requeue (i : Nat)
  | writeRequeue (i : Nat)
  | reconcile (limit : Nat)
  | addQueued (limit : Nat) (todo : List Nat)
  | addRetrying (todo : List (Nat × Nat))
  | resume
  | writeResume (todo : List (Nat × Nat))
  | addResumed (i attempts : Nat) (todo : List (Nat × Nat))
  | ended
deriving DecidableEq

def Call.proc : Call → Proc
  | .enqueue key => .enqueue key
  | .retry i => .retry i
  | .cancel i => .cancel i
  | .requeueTerminal i => .requeue i
  | .reconcileQueued limit => .reconcile limit
  | .resumeInterrupted => .resume

def Proc.executes : Proc → Option Nat
  | .executing job _ | .writing job _ _ => some job.task
  | _ => none

structure State where
  rows : List Row
  jobs : List JobId
  now : Int
  procs : List Proc
  /-- the rows that have been claimed, each with whether it was withdrawn at that time -/
  claims : List (Nat × Bool)

def State.start : State := ⟨[],[],0,[],[]⟩

/-- How an access ends. One that throws may have taken effect; `retryAfterMs` is what the error says about a delay. -/
inductive Reply where
  | ok
  | threw (applied : Bool) (retryAfterMs : Option Int)
deriving DecidableEq

def Reply.applied : Reply → Bool
  | .ok => true
  | .threw applied _ => applied

def State.goes (s : State) (n : Nat) (proc : Proc) : State := { s with procs := s.procs.set n proc }

/-- `handle` is done, and its job is removed. -/
def State.finish (s : State) (n : Nat) (job : JobId) : State := { s.goes n .ended with jobs := s.jobs.erase job }

def State.update (s : State) (i : Nat) (reply : Reply) (change : Row → Row) : State :=
  if reply.applied then { s with rows := s.rows.modify i change } else s

def State.add (s : State) (reply : Reply) (job : JobId) : State :=
  if reply.applied ∧ job ∉ s.jobs then { s with jobs := s.jobs ++ [job] } else s

/-- `handle` after the claim: by the receipt, as a row of the old kind, or by `execute`. -/
def begun (job : JobId) (claimed : Row) : Proc :=
  match claimed.target.filter (fun receipt => claimed.receiptPending && receipt.targetMessageId ≠ "") with
  | some receipt => .writing job claimed (.markSucceeded receipt false)
  | none => if claimed.mode ≠ "" ∧ claimed.mode ≠ "user_copy" then .writing job claimed .markBlocked else .executing job claimed

def State.claim (s : State) (n : Nat) (job : JobId) (reply : Reply) : State :=
  match s.rows[job.task]?.filter (·.status.waiting) with
  | some row =>
    if reply.applied then
      let claimed := { s with rows := s.rows.modify job.task Row.claim, claims := s.claims ++ [(job.task,row.withdrawn)] }
      if reply = .ok then claimed.goes n (begun job row.claim) else claimed.finish n job
    else s.finish n job
  | none => s.finish n job

def Write.next (job : JobId) (claimed : Row) : Write → Reply → Option Proc
  | .markRetrying _,.ok | .rescue _,.ok =>
    if claimed.attempts ≥ mirrorMaxAttempts then none else some (.scheduling job claimed)
  | .unsettled _,.ok => some (.scheduling job claimed)
  | .saveReceipt _,_ => some (.writing job claimed (.unsettled (backoffMsFor claimed.attempts)))
  | _,.ok => none
  | .markSucceeded result true,.threw _ _ => some (.writing job claimed (.saveReceipt result))
  | .rescue _,.threw _ _ => none
  | _,.threw _ retryAfterMs => some (.writing job claimed (.rescue (retryAfterMs.getD (backoffMsFor claimed.attempts))))

def State.write (s : State) (n : Nat) (job : JobId) (claimed : Row) (w : Write) (reply : Reply) : State :=
  let s' := s.update job.task reply (w.apply claimed s.now)
  match w.next job claimed reply with
  | some proc => s'.goes n proc
  | none => s'.finish n job

def queuedRows (rows : List Row) (limit : Nat) : List Nat :=
  ((List.range rows.length).filter fun i => rows[i]?.any (·.status = .queued)).take limit

def dueRows (rows : List Row) (now : Int) (limit : Nat) : List (Nat × Nat) :=
  let due := (List.range rows.length).filter fun i => rows[i]?.any fun row =>
    row.status = .retrying && row.nextRetryAt.any (· ≤ now)
  let dueAt := fun i => (rows[i]?.bind Row.nextRetryAt).getD 0
  ((due.insertionSort fun i j => dueAt i ≤ dueAt j).take limit).map fun i => (i,(rows[i]?.map Row.attempts).getD 0)

def runningRows (rows : List Row) : List (Nat × Nat) :=
  ((List.range rows.length).filter fun i => rows[i]?.any (·.status = .running)).map fun i =>
    (i,(rows[i]?.map Row.attempts).getD 0)

def State.read (s : State) (n : Nat) (reply : Reply) (next : Proc) : State :=
  s.goes n (if reply = .ok then next else .ended)

/-- `existing` of `enqueue`. -/
def foundTask (rows : List Row) (key : Key) : Proc :=
  match rows.findIdx? (·.key = key) with
  | none => .insert key
  | some i => match rows[i]? with
    | some row => match row.status with
      | .queued => .add ⟨i,none⟩
      | .retrying => .add ⟨i,some row.attempts⟩
      | _ => .ended
    | none => .ended

def retryOf (i : Nat) : Option Row → Proc
  | some row => if row.status = .succeeded ∨ row.status = .running then .ended else .writeRetry i row.receiptPending
  | none => .ended

def cancelOf (i : Nat) : Option Row → Proc
  | some row => if row.status = .running ∨ row.status = .succeeded then .ended else .writeCancel i
  | none => .ended

/-- `retryForOwner` before `requeueTerminal`, and the status that this looks at. -/
def requeueOf (i : Nat) : Option Row → Proc
  | some row =>
    if row.key.ownerType = .grant ∧ row.status = .succeeded ∨ ¬ row.status.terminal then .ended else .writeRequeue i
  | none => .ended

/-- The next access of a call. -/
def State.advance (s : State) (n : Nat) (reply : Reply) : Proc → State
  | .claiming job => s.claim n job reply
  -- its reads are answered by `execute`
  | .executing _ _ => s
  | .writing job claimed w => s.write n job claimed w reply
  | .scheduling job claimed => (s.add reply ⟨job.task,some claimed.attempts⟩).finish n job
  | .enqueue key => s.read n reply (foundTask s.rows key)
  | .insert key =>
    if reply.applied ∧ s.rows.all (·.key ≠ key) then
      ({ s with rows := s.rows ++ [key.row] }).read n reply (.add ⟨s.rows.length,none⟩)
    else s.goes n .ended
  | .add job => (s.add reply job).goes n .ended
  | .retry i => s.read n reply (retryOf i s.rows[i]?)
  | .writeRetry i receiptPending => (s.update i reply (·.retry receiptPending)).read n reply (.refresh i)
  | .refresh i => s.read n reply (.add ⟨i,none⟩)
  | .cancel i => s.read n reply (cancelOf i s.rows[i]?)
  | .writeCancel i => (s.update i reply Row.cancel).goes n .ended
  | .requeue i => s.read n reply (requeueOf i s.rows[i]?)
  | .writeRequeue i => (s.update i reply Row.requeueTerminal).read n reply (.add ⟨i,none⟩)
  | .reconcile limit => s.read n reply (.addQueued limit (queuedRows s.rows limit))
  | .addQueued limit (i :: todo) => (s.add reply ⟨i,none⟩).goes n (.addQueued limit todo)
  | .addQueued limit [] => s.read n reply (.addRetrying (dueRows s.rows s.now limit))
  | .addRetrying ((i,attempts) :: todo) => (s.add reply ⟨i,some attempts⟩).goes n (.addRetrying todo)
  | .addRetrying [] => s.goes n .ended
  | .resume => s.read n reply (.writeResume (runningRows s.rows))
  | .writeResume ((i,attempts) :: todo) => (s.update i reply (·.resume s.now)).read n reply (.addResumed i attempts todo)
  | .writeResume [] => s.goes n .ended
  | .addResumed i attempts todo => (s.add reply ⟨i,some attempts⟩).goes n (.writeResume todo)
  | .ended => s

/-- How the reads of `execute` end. -/
inductive Answer where
  | found (around : Surroundings)
  | threw (retryAfterMs : Option Int)

def Answer.write (claimed : Row) : Answer → Write
  | .found around => execute claimed around
  | .threw retryAfterMs => .rescue (retryAfterMs.getD (backoffMsFor claimed.attempts))

inductive Label where
  | deliver (job : JobId)
  | call (c : Call)
  | execute (n : Nat) (answer : Answer)
  | go (n : Nat) (reply : Reply)
  | tick (ms : Nat)
  | restart (gone : List Nat)

def step (s : State) : Label → State
  | .deliver job => { s with procs := s.procs ++ [.claiming job] }
  | .call c => { s with procs := s.procs ++ [c.proc] }
  | .execute n answer => match s.procs[n]? with
    | some (.executing job claimed) => s.goes n (.writing job claimed (answer.write claimed))
    | _ => s
  | .go n reply => match s.procs[n]? with
    | some proc => s.advance n reply proc
    | none => s
  | .tick ms => { s with now := s.now + ms }
  | .restart gone =>
    { s with procs := s.procs.mapIdx (fun n proc => if n ∈ gone then .ended else proc) ++ [Call.resumeInterrupted.proc] }

/-- The executions of a row are one after the other, and none begins after a cancel. -/
structure Exclusive (s : State) : Prop where
  single : ∀ (i m n : Nat) (p q : Proc), s.procs[m]? = some p → s.procs[n]? = some q →
    p.executes = some i → q.executes = some i → m = n
  honored : ∀ c ∈ s.claims, c.2 = false

end Tgtc.MirrorTasks
