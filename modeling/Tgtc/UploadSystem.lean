import Tgtc.Runs
import Tgtc.UploadSessions
import Tgtc.UploadWorker

/-!
Chunked uploads from the first request to the last step of the worker: sessions and their chunk directories, merges
and the hand-over of the merged file to the pending path, the queue of upload jobs and the attempts of the worker,
cancellation, the reclaiming of idle sessions and the timers that clean up after a merge.
-/
namespace Tgtc.UploadSystem
open Maps Runs UploadWorker
open UploadSessions (MergeStatus)

/-- How far `init` has come. -/
inductive InitPhase where
  | acquired
  | opening
  | returned
  | failed
deriving DecidableEq

structure Session where
  strictDiskLease : Bool
  overwriteFileId : Option String
  mergeStatus : MergeStatus
  reclaiming : Bool
  /-- registered in `sessions` -/
  listed : Bool
  init : InitPhase
  /-- `savedFileId` and `savedFileUploadVersion` -/
  saved : Option (String × Nat)
  /-- `handoffPath` is set -/
  handedOff : Bool

def isActiveSession (session : Session) : Bool :=
  session.mergeStatus = .pending || session.mergeStatus = .merging || session.mergeStatus = .uploading

def isMergeInFlight (session : Session) : Bool := session.mergeStatus = .merging || session.mergeStatus = .uploading

inductive JobState where
  | waiting
  | active (attempt : Nat)
  | finished
deriving DecidableEq

structure Job where
  state : JobState
  attemptsMade : Nat
  strictDiskLease : Bool

/-- `attempts: 3`. -/
def maxAttempts : Nat := 3

def settleJob (i : Nat) (exit : Exit) (job : Job) : Job :=
  if job.state = .active i then
    match exit with
    | .crashed => job
    | .delayed => { job with state := .waiting }
    | .thrown =>
      if job.attemptsMade + 1 ≥ maxAttempts then { job with state := .finished, attemptsMade := job.attemptsMade + 1 }
      else { job with state := .waiting, attemptsMade := job.attemptsMade + 1 }
    | _ => { job with state := .finished }
  else job

/-- `cleanupUploadingSideEffects`. -/
inductive Cleaning where
  | looking
  | marking
  | unlinking
  | unreceipting (sourceRemoved : Bool)
deriving DecidableEq

inductive MergeEnd where
  | done
  | failed
  | unqueued

inductive MergePhase where
  | concatenating
  | checkingType
  | creating
  | clearing (fileId : String) (uploadVersion : Nat)
  | renaming (fileId : String) (uploadVersion : Nat)
  | renamed (fileId : String) (uploadVersion : Nat)
  | freeing (fileId : String) (uploadVersion : Nat)
  | adding (fileId : String) (uploadVersion : Nat)
  | removingJob (fileId : String) (uploadVersion : Nat)
  | cleaning (fileId : String) (uploadVersion : Nat) (cleaning : Cleaning)
  | sweeping (fileId : String) (uploadVersion : Nat)
  | ended (how : MergeEnd)

def MergePhase.file : MergePhase → Option (String × Nat)
  | .clearing fileId uploadVersion | .renaming fileId uploadVersion | .renamed fileId uploadVersion
  | .freeing fileId uploadVersion | .adding fileId uploadVersion | .removingJob fileId uploadVersion
  | .cleaning fileId uploadVersion _ | .sweeping fileId uploadVersion => some (fileId,uploadVersion)
  | _ => none

structure Merge where
  uploadId : String
  aborted : Bool
  settled : Bool
  phase : MergePhase

inductive MergeEvent where
  | go
  | fail
  | created (fresh tempId : String) (remote : Bool)
  | added (stored ok : Bool)

inductive AbortPhase where
  | cancelling
  | cleaning (fileId : String) (uploadVersion : Nat) (cleaning : Cleaning)
  | removing
  /-- `kept`: the job is removed and its source is not -/
  | ended (kept : Bool)
deriving DecidableEq

structure Abort where
  uploadId : String
  phase : AbortPhase

structure Reclaim where
  uploadId : String
  ended : Bool

structure State where
  store : Store
  jobs : OrderedMap (String × Nat) Job
  attempts : List Attempt
  sessions : OrderedMap String Session
  dirs : List String
  merges : List Merge
  aborts : List Abort
  reclaims : List Reclaim
  /-- the timers of `scheduleCleanup` -/
  timers : List String
  removals : List String
  files : List String

def initial : State :=
  { store := ⟨.empty,.empty,.empty,none,[]⟩, jobs := .empty, attempts := [], sessions := .empty, dirs := [], merges := []
    aborts := [], reclaims := [], timers := [], removals := [], files := [] }

def State.onSession (s : State) (uploadId : String) (f : Session → Session) : State :=
  { s with sessions := s.sessions.modify uploadId f }

def State.setLease (s : State) (lease : Option Lease) : State := { s with store := { s.store with activeLease := lease } }

def State.removeDir (s : State) (uploadId : String) : State := { s with dirs := s.dirs.filter (· ≠ uploadId) }

def State.setMerge (s : State) (n : Nat) (m : Merge) (phase : MergePhase) : State :=
  { s with merges := s.merges.set n { m with phase } }

def State.setAbort (s : State) (n : Nat) (a : Abort) (phase : AbortPhase) : State :=
  { s with aborts := s.aborts.set n { a with phase } }

def cancelRow (overwrites : Bool) (row : Row) : Row :=
  if overwrites then failRow row else { failRow row with isDeleted := true }

/-- One step of `cleanupUploadingSideEffects`, and its answer when it has come to its end. -/
def State.clean (s : State) (overwrites : Bool) (fileId : String) (uploadVersion : Nat) (c : Cleaning) (ok : Bool) :
    State × (Cleaning ⊕ Bool) :=
  match c with
  | .looking =>
    if ok && (s.jobs.get (fileId,uploadVersion)).any (fun job => job.state = .waiting) then
      ({ s with jobs := s.jobs.delete (fileId,uploadVersion) },.inl .marking)
    else (s,.inr false)
  | .marking =>
    if ok then
      ({ s with store := (update s.store fileId (fun row => row.status = .processing) (cancelRow overwrites)).1 },
        .inl .unlinking)
    else (s,.inl .unlinking)
  | .unlinking =>
    if ok || (s.store.pending.get fileId).isNone then
      ({ s with store := { s.store with pending := s.store.pending.delete fileId } },.inl (.unreceipting true))
    else (s,.inl (.unreceipting false))
  | .unreceipting sourceRemoved =>
    let unreceipted := if ok then { s with store := { s.store with receipts := s.store.receipts.delete fileId } } else s
    if sourceRemoved then
      (unreceipted.setLease (releaseJob unreceipted.store.activeLease fileId uploadVersion),.inr true)
    else (unreceipted,.inr false)

def State.settle (s : State) (m : Merge) (done : Bool) : State :=
  let counts := !(m.settled || (done && m.aborted))
  { s with
    sessions := if counts then s.sessions.modify m.uploadId (fun session =>
      { session with mergeStatus := if done then .done else .error }) else s.sessions
    timers := if counts then s.timers ++ [m.uploadId] else s.timers }

def State.failMerge (s : State) (n : Nat) (m : Merge) (how : MergeEnd) : State :=
  (s.settle m false).setMerge n m (.ended how)

def newRow (tempId : String) (remote : Bool) : Row := ⟨1,.processing,.pending,remote,⟨tempId,none⟩,false⟩

def overwriteRow (tempId : String) (row : Row) : Row :=
  { row with
    uploadVersion := row.uploadVersion + 1
    status := .processing
    uploadStage := .pending
    reference := { row.reference with telegramFileId := tempId } }

def State.setRow (s : State) (fileId : String) (row : Row) : State :=
  { s with store := { s.store with rows := s.store.rows.set fileId row } }

/-- `createProcessingFile`: the row, its file and its version. -/
def createProcessingFile (s : State) (overwriteFileId : Option String) (fresh tempId : String) (remote : Bool) :
    State × String × Nat :=
  let create := ({ s.setRow fresh (newRow tempId remote) with files := fresh :: s.files },fresh,1)
  match overwriteFileId with
  | none => create
  | some target => match s.store.rows.get target with
    | none => create
    | some row =>
      if row.isDeleted || row.status = .processing then create
      else (s.setRow target (overwriteRow tempId row),target,row.uploadVersion + 1)

def State.addJob (s : State) (fileId : String) (uploadVersion : Nat) (strictDiskLease : Bool) : State :=
  if (s.jobs.get (fileId,uploadVersion)).isSome then s
  else { s with jobs := s.jobs.set (fileId,uploadVersion) ⟨.waiting,0,strictDiskLease⟩ }

def State.enqueue (s : State) (n : Nat) (m : Merge) (session : Session) (fileId : String) (uploadVersion : Nat) : State :=
  if m.aborted then s.failMerge n m .failed
  else if session.strictDiskLease then
    match transferSessionToJob s.store.activeLease m.uploadId fileId uploadVersion with
    | some lease => (s.setLease lease).setMerge n m (.adding fileId uploadVersion)
    | none => s.failMerge n m .failed
  else s.setMerge n m (.adding fileId uploadVersion)

def State.added (s : State) (n : Nat) (m : Merge) (session : Session) (fileId : String) (uploadVersion : Nat)
    (stored ok : Bool) : State :=
  let s' := if stored || ok then s.addJob fileId uploadVersion session.strictDiskLease else s
  if !ok then
    (s'.setLease (transferJobToSession s'.store.activeLease m.uploadId fileId uploadVersion)).failMerge n m .unqueued
  else if m.aborted || !isActiveSession session then s'.setMerge n m (.removingJob fileId uploadVersion)
  else s'.setMerge n m (.sweeping fileId uploadVersion)

/-- The next step of a merge. -/
def State.mergeStep (s : State) (n : Nat) (m : Merge) (session : Session) : MergeEvent → State
  | .go => match m.phase with
    | .concatenating =>
      if m.aborted then s.failMerge n m .failed
      else (s.onSession m.uploadId (fun session => { session with mergeStatus := .uploading })).setMerge n m .checkingType
    | .checkingType => if m.aborted then s.failMerge n m .failed else s.setMerge n m .creating
    | .clearing fileId uploadVersion =>
      { s with store := { s.store with receipts := s.store.receipts.delete fileId } }.setMerge n m
        (.renaming fileId uploadVersion)
    | .renaming fileId uploadVersion =>
      { s with store := { s.store with pending := s.store.pending.set fileId uploadVersion } }.setMerge n m
        (.renamed fileId uploadVersion)
    | .renamed fileId uploadVersion =>
      (s.onSession m.uploadId (fun session => { session with handedOff := true })).setMerge n m (.freeing fileId uploadVersion)
    | .freeing fileId uploadVersion =>
      -- without a lease the directory stays until the job is in the queue
      (if session.strictDiskLease then s.removeDir m.uploadId else s).enqueue n m session fileId uploadVersion
    | .removingJob fileId uploadVersion =>
      let removed := if (s.jobs.get (fileId,uploadVersion)).any (fun job => job.state = .waiting) then
        { s with jobs := s.jobs.delete (fileId,uploadVersion) } else s
      removed.setMerge n m (.cleaning fileId uploadVersion .looking)
    | .cleaning fileId uploadVersion c =>
      match s.clean session.overwriteFileId.isSome fileId uploadVersion c true with
      | (s',.inl c') => s'.setMerge n m (.cleaning fileId uploadVersion c')
      | (s',.inr _) => s'.failMerge n m .failed
    | .sweeping _ _ => ((s.removeDir m.uploadId).settle m true).setMerge n m (.ended .done)
    | .creating | .adding _ _ | .ended _ => s
  | .fail => match m.phase with
    -- these errors are swallowed
    | .clearing fileId uploadVersion => s.setMerge n m (.renaming fileId uploadVersion)
    | .removingJob fileId uploadVersion => s.setMerge n m (.cleaning fileId uploadVersion .looking)
    | .cleaning fileId uploadVersion c =>
      match s.clean session.overwriteFileId.isSome fileId uploadVersion c false with
      | (s',.inl c') => s'.setMerge n m (.cleaning fileId uploadVersion c')
      | (s',.inr _) => s'.failMerge n m .failed
    | .sweeping _ _ => (s.settle m true).setMerge n m (.ended .done)
    | .renamed _ _ | .adding _ _ | .ended _ => s
    | _ => s.failMerge n m .failed
  | .created fresh tempId remote => match m.phase with
    | .creating =>
      match createProcessingFile s session.overwriteFileId fresh tempId remote with
      | (created,fileId,uploadVersion) =>
        let saved := created.onSession m.uploadId (fun session => { session with saved := some (fileId,uploadVersion) })
        if m.aborted then saved.failMerge n m .failed else saved.setMerge n m (.clearing fileId uploadVersion)
    | _ => s
  | .added stored ok => match m.phase with
    | .adding fileId uploadVersion => s.added n m session fileId uploadVersion stored ok
    | _ => s

def State.deadline (s : State) (n : Nat) (m : Merge) : State :=
  match m.phase with
  | .ended _ => s
  | _ =>
    if m.settled then s
    else { s.settle m false with merges := s.merges.set n { m with aborted := true, settled := true } }

/-- Whether `mergeAbortController` is there to be aborted. -/
def Merge.running (m : Merge) : Bool :=
  match m.phase with
  | .ended _ => false
  | _ => !m.settled

def State.abortMerges (s : State) (uploadId : String) : State :=
  { s with merges := s.merges.map (fun m => if m.uploadId = uploadId && m.running then { m with aborted := true } else m) }

def State.delist (s : State) (uploadId : String) : State :=
  s.onSession uploadId (fun session => { session with listed := false })

/-- The next step of `abort`. -/
def State.abortStep (s : State) (n : Nat) (a : Abort) (session : Session) (ok : Bool) : State :=
  match a.phase with
  | .cancelling => match session.saved, session.handedOff with
    | some (fileId,uploadVersion), true => s.setAbort n a (.cleaning fileId uploadVersion .looking)
    | _, _ => (s.delist a.uploadId).setAbort n a .removing
  | .cleaning fileId uploadVersion c =>
    match s.clean session.overwriteFileId.isSome fileId uploadVersion c ok with
    | (s',.inl c') => s'.setAbort n a (.cleaning fileId uploadVersion c')
    | (s',.inr true) => (s'.delist a.uploadId).setAbort n a .removing
    | (s',.inr false) => s'.setAbort n a (.ended (c ≠ .looking))
  | .removing =>
    let removed := if ok then s.removeDir a.uploadId else s
    (removed.setLease (releaseSession removed.store.activeLease a.uploadId)).setAbort n a (.ended false)
  | .ended _ => s

def State.reclaimStep (s : State) (n : Nat) (r : Reclaim) (session : Session) (ok : Bool) : State :=
  let ended := { s with reclaims := s.reclaims.set n { r with ended := true } }
  if r.ended then s
  else if ok then
    let delisted := (ended.removeDir r.uploadId).delist r.uploadId
    if session.strictDiskLease then delisted.setLease (releaseSession delisted.store.activeLease r.uploadId) else delisted
  -- the directory is made again where a part of it has gone
  else ended.onSession r.uploadId (fun session => { session with reclaiming := false })

def State.timer (s : State) (uploadId : String) : State :=
  let fired := { s with timers := s.timers.erase uploadId, removals := s.removals ++ [uploadId] }
  match s.sessions.get uploadId with
  | some session =>
    if session.listed then
      let delisted := fired.delist uploadId
      if session.mergeStatus = .error then delisted.setLease (releaseSession delisted.store.activeLease uploadId)
      else delisted
    else fired
  | none => fired

def State.deliver (s : State) (fileId : String) (uploadVersion : Nat) : State :=
  match s.jobs.get (fileId,uploadVersion) with
  | some job =>
    { s with
      jobs := s.jobs.set (fileId,uploadVersion) { job with state := .active s.attempts.length }
      attempts := s.attempts ++ [⟨fileId,uploadVersion,job.strictDiskLease,job.attemptsMade,.start⟩] }
  | none => s

def State.settleAttempt (s : State) (i : Nat) (a : Attempt) : Phase → State
  | .ended exit => match s.jobs.get (a.fileId,a.uploadVersion) with
    | some job => { s with jobs := s.jobs.set (a.fileId,a.uploadVersion) (settleJob i exit job) }
    | none => s
  | _ => s

def State.work (s : State) (i : Nat) (a : Attempt) (event : Event) : State :=
  match a.phase with
  | .ended _ => s
  | _ =>
    let went := go s.store i a event
    { s with store := went.1, attempts := s.attempts.set i { a with phase := went.2 } }.settleAttempt i a went.2

inductive Label where
  | init (uploadId : String) (strictDiskLease : Bool) (overwriteFileId : Option String)
  | register (uploadId : String) | refuse (uploadId : String) | opened (uploadId : String) (ok : Bool)
  | trigger (uploadId : String)
  | merge (n : Nat) (event : MergeEvent) | deadline (n : Nat)
  | abort (uploadId : String) | aborting (n : Nat) (ok : Bool)
  | reclaim (uploadId : String) | reclaiming (n : Nat) (ok : Bool)
  | timer (uploadId : String) | removal (uploadId : String) (ok : Bool)
  /-- `releaseOrphanSessionLease` -/
  | sweepOrphan
  | deliver (fileId : String) (uploadVersion : Nat) | work (i : Nat) (event : Event)
  | recover (fileId : String) (uploadVersion : Nat) (strictDiskLease : Bool)
  | overwriteSync (fileId : String) (remote : Bool) (reference : Reference)
  | markFailed (fileId : String) | markReady (fileId : String)
  | deleteRow (fileId : String)
  /-- `acquireSession` has found a source that nobody needed -/
  | discardPending (fileId : String)

def newSession (strictDiskLease : Bool) (overwriteFileId : Option String) : Session :=
  ⟨strictDiskLease,overwriteFileId,.pending,false,false,.acquired,none,false⟩

def step (s : State) : Label → State
  | .init uploadId strictDiskLease overwriteFileId =>
    { (if strictDiskLease then s.setLease (some ⟨.session uploadId,uploadId⟩) else s) with
      sessions := s.sessions.set uploadId (newSession strictDiskLease overwriteFileId) }
  | .register uploadId => s.onSession uploadId (fun session => { session with listed := true, init := .opening })
  | .refuse uploadId =>
    (s.onSession uploadId (fun session => { session with init := .failed })).setLease
      (releaseSession s.store.activeLease uploadId)
  | .opened uploadId ok =>
    if ok then { s.onSession uploadId (fun session => { session with init := .returned }) with dirs := uploadId :: s.dirs }
    else (s.onSession uploadId (fun session => { session with listed := false, init := .failed })).setLease
      (releaseSession s.store.activeLease uploadId)
  | .trigger uploadId =>
    { s.onSession uploadId (fun session => { session with mergeStatus := .merging }) with
      merges := s.merges ++ [⟨uploadId,false,false,.concatenating⟩] }
  | .merge n event => match s.merges[n]? with
    | some m => match s.sessions.get m.uploadId with
      | some session => s.mergeStep n m session event
      | none => s
    | none => s
  | .deadline n => match s.merges[n]? with
    | some m => s.deadline n m
    | none => s
  | .abort uploadId => { s.abortMerges uploadId with aborts := s.aborts ++ [⟨uploadId,.cancelling⟩] }
  | .aborting n ok => match s.aborts[n]? with
    | some a => match s.sessions.get a.uploadId with
      | some session => s.abortStep n a session ok
      | none => s
    | none => s
  | .reclaim uploadId =>
    { s.onSession uploadId (fun session => { session with reclaiming := true }) with
      reclaims := s.reclaims ++ [⟨uploadId,false⟩] }
  | .reclaiming n ok => match s.reclaims[n]? with
    | some r => match s.sessions.get r.uploadId with
      | some session => s.reclaimStep n r session ok
      | none => s
    | none => s
  | .timer uploadId => s.timer uploadId
  | .removal uploadId ok =>
    { (if ok then s.removeDir uploadId else s) with removals := s.removals.erase uploadId }
  | .sweepOrphan => match s.store.activeLease with
    | some ⟨.session uploadId,_⟩ => s.setLease (releaseSession s.store.activeLease uploadId)
    | _ => s
  | .deliver fileId uploadVersion => s.deliver fileId uploadVersion
  | .work i event => match s.attempts[i]? with
    | some a => s.work i a event
    | none => s
  | .recover fileId uploadVersion strictDiskLease =>
    { s with jobs := s.jobs.set (fileId,uploadVersion) ⟨.waiting,0,strictDiskLease⟩ }
  | .overwriteSync fileId remote reference =>
    { s with store := (update s.store fileId (fun row => !row.isDeleted && row.status ≠ .processing) (fun row =>
      { row with uploadVersion := row.uploadVersion + 1, remote := remote, reference := reference })).1 }
  | .markFailed fileId => { s with store := (update s.store fileId (fun _ => true) failRow).1 }
  | .markReady fileId =>
    { s with store := (update s.store fileId (fun row => row.status = .processing && row.uploadStage = .committed)
      (fun row => { row with status := .ready })).1 }
  | .deleteRow fileId => { s with store := { s.store with rows := s.store.rows.delete fileId } }
  | .discardPending fileId =>
    { s with store := { s.store with pending := s.store.pending.delete fileId, receipts := s.store.receipts.delete fileId } }

def State.open (s : State) (uploadId : String) (p : Session → Bool) : Prop :=
  ∃ session ∈ s.sessions.get uploadId, session.listed = true ∧ session.reclaiming = false ∧ p session = true

def State.initAt (s : State) (uploadId : String) (phase : InitPhase) : Prop :=
  ∃ session ∈ s.sessions.get uploadId, session.init = phase

instance (s : State) (uploadId : String) (p : Session → Bool) : Decidable (s.open uploadId p) := by
  unfold State.open
  infer_instance

instance (s : State) (uploadId : String) (phase : InitPhase) : Decidable (s.initAt uploadId phase) := by
  unfold State.initAt
  infer_instance

/-- What the orphaned lease is released for: its session is gone, and it is not that of an `init` under way. -/
def State.orphaned (s : State) : Bool :=
  match s.store.activeLease with
  | some ⟨.session uploadId,_⟩ =>
    (s.sessions.get uploadId).all (fun session => !session.listed && session.init ≠ .acquired)
  | _ => false

/-- Ids are never used twice, and a request finds the session it is for. -/
def Allowed (s : State) : Label → Prop
  | .init uploadId strictDiskLease _ =>
    s.sessions.get uploadId = none ∧ (strictDiskLease = true → s.store.activeLease = none)
  | .register uploadId => s.initAt uploadId .acquired
  | .refuse uploadId => s.initAt uploadId .acquired
  | .opened uploadId _ => s.initAt uploadId .opening
  | .trigger uploadId => s.open uploadId (fun session => session.mergeStatus = .pending && session.init = .returned)
  | .merge _ (.created fresh _ _) => fresh ∉ s.files
  | .abort uploadId => s.open uploadId (fun session => session.init = .returned)
  | .reclaim uploadId => s.open uploadId (fun session => !isMergeInFlight session && session.init = .returned)
  | .timer uploadId => uploadId ∈ s.timers
  | .removal uploadId _ => uploadId ∈ s.removals
  | .sweepOrphan => s.orphaned = true
  | .deliver fileId uploadVersion => ∃ job ∈ s.jobs.get (fileId,uploadVersion), job.state ≠ .finished
  | .recover fileId uploadVersion _ =>
    (∃ job ∈ s.jobs.get (fileId,uploadVersion), job.state = .finished) ∧
    ∃ row ∈ s.store.rows.get fileId, row.uploadVersion = uploadVersion ∧ row.status = .processing ∧
      (row.uploadStage = .recoverable ∨ row.uploadStage = .remoteCommitted)
  | _ => True

instance (s : State) (l : Label) : Decidable (Allowed s l) := by
  unfold Allowed
  split <;> infer_instance

abbrev Reached (s : State) : Prop := Reachable step Allowed initial s

/-- A session whose chunks are all there, up to where its merge, the `n`-th, creates the file. -/
def opening (uploadId : String) (strictDiskLease : Bool) (overwriteFileId : Option String) (n : Nat) : List Label :=
  [.init uploadId strictDiskLease overwriteFileId,.register uploadId,.opened uploadId true,.trigger uploadId,
    .merge n .go,.merge n .go]

def handingOver (n : Nat) (fresh : String) : List Label :=
  [.merge n (.created fresh "temp" false),.merge n .go,.merge n .go]

def queuing (n : Nat) : List Label := [.merge n .go,.merge n .go,.merge n (.added true true)]

def uploading (i : Nat) : List Label :=
  [.work i .go,.work i (.seen true),.work i .go,.work i .go,.work i .go,.work i (.uploaded ⟨"remote",none⟩ true),.work i .go]

def finishing (i : Nat) : List Label := [.work i .go,.work i .go,.work i .go,.work i .go]

def removing (i : Nat) : List Label := [.work i .go,.work i (.unlinkSource true),.work i (.unlinkReceipt true)]

end Tgtc.UploadSystem
