import Tgtc.Maps

/-!
The worker that uploads the merged file of a chunked upload. It works on the row of the file, the source at the
pending path, the receipt beside it and the lease; what an attempt does between two calls is one step.
-/
namespace Tgtc.UploadWorker
open Maps

inductive Status where
  | processing | ready | error
deriving DecidableEq

inductive Stage where
  | pending | uploading | remoteCommitted | committed | recoverable | failed
deriving DecidableEq

structure Reference where
  telegramFileId : String
  storageObjectRef : Option String
deriving DecidableEq

structure Row where
  uploadVersion : Nat
  status : Status
  uploadStage : Stage
  /-- `isRemoteStorageBackend(storageBackend)` -/
  remote : Bool
  reference : Reference
  isDeleted : Bool
deriving DecidableEq

structure Receipt where
  reference : Reference
  localCacheReleased : Bool
  uploadVersion : Nat
deriving DecidableEq

inductive LeaseKey where
  | session (uploadId : String)
  | job (fileId : String) (uploadVersion : Nat)
deriving DecidableEq

structure Lease where
  key : LeaseKey
  /-- the upload that `acquireSession` was called for -/
  uploadId : String
deriving DecidableEq

def transferSessionToJob (lease : Option Lease) (uploadId fileId : String) (uploadVersion : Nat) : Option (Option Lease) :=
  match lease with
  | some l => if l.key = .session uploadId then some (some { l with key := .job fileId uploadVersion }) else none
  | none => none

def transferJobToSession (lease : Option Lease) (uploadId fileId : String) (uploadVersion : Nat) : Option Lease :=
  lease.map fun l => if l.key = .job fileId uploadVersion then { l with key := .session uploadId } else l

def release (lease : Option Lease) (key : LeaseKey) : Option Lease :=
  lease.filter fun l => l.key ≠ key

def releaseSession (lease : Option Lease) (uploadId : String) : Option Lease := release lease (.session uploadId)

def releaseJob (lease : Option Lease) (fileId : String) (uploadVersion : Nat) : Option Lease :=
  release lease (.job fileId uploadVersion)

structure Sent where
  attempt : Nat
  fileId : String
  uploadVersion : Nat
  reference : Reference

structure Store where
  rows : OrderedMap String Row
  pending : OrderedMap String Nat
  receipts : OrderedMap String Receipt
  activeLease : Option Lease
  sent : List Sent

def update (s : Store) (fileId : String) (condition : Row → Bool) (change : Row → Row) : Store × Bool :=
  match s.rows.get fileId with
  | some row => if condition row then ({ s with rows := s.rows.set fileId (change row) },true) else (s,false)
  | none => (s,false)

def updateVersion (s : Store) (fileId : String) (uploadVersion : Nat) (change : Row → Row) : Store × Bool :=
  update s fileId (fun row => row.uploadVersion = uploadVersion) change

def isCommitted (row : Row) : Bool := row.uploadStage = .remoteCommitted || row.uploadStage = .committed

def loadReceipt (s : Store) (fileId : String) (expectedUploadVersion : Nat) : Option Receipt :=
  (s.receipts.get fileId).filter fun receipt => receipt.uploadVersion = expectedUploadVersion

/-- What `trim` takes off. -/
def isWhite (c : Char) : Bool :=
  c ∈ ['\t','\n','\u000b','\u000c','\r',' ','\u00a0','\u1680','\u2028','\u2029','\u202f','\u205f','\u3000','\ufeff'] ||
    ('\u2000' ≤ c && c ≤ '\u200a')

def blank (text : String) : Bool := text.toList.all isWhite

def hasReference (remote : Bool) (reference : Reference) : Bool :=
  if remote then reference.storageObjectRef.any (fun object => !blank object) else !blank reference.telegramFileId

/-! ### Attempts -/

inductive Exit where
  | stale
  | abandoned
  | unclaimed
  | superseded
  | moved
  | unready
  | removed (sourceRemoved : Bool)
  | thrown
  | delayed
  | crashed
deriving DecidableEq

inductive Phase where
  | start
  | checking (remote : Bool) (stage : Stage)
  | abandoning
  | claiming (remote : Bool) (stage : Stage)
  | reloading (remote : Bool)
  | loading (remote : Bool)
  | uploading (remote : Bool)
  | persisting (remote : Bool) (receipt : Receipt)
  | releasing (receipt : Receipt)
  | committing (remote : Bool) (receipt : Receipt)
  | failing
  | givingUp
  | recovering
  | rereading (remote : Bool)
  | refusing
  | finishing
  | readying
  | registering
  | removing (source : Option Bool) (receipt : Bool)
  | ended (exit : Exit)
deriving DecidableEq

structure Attempt where
  fileId : String
  uploadVersion : Nat
  strictDiskLease : Bool
  attemptsMade : Nat
  phase : Phase
deriving DecidableEq

inductive Event where
  | go
  | fail
  | lost
  /-- the answer of `existsSync` -/
  | seen (there : Bool)
  | uploaded (reference : Reference) (localCacheReleased : Bool)
  | wait
  | unlinkSource (ok : Bool)
  | unlinkReceipt (ok : Bool)
  | crash

def Phase.writes : Phase → Bool
  | .claiming _ _ | .persisting _ _ | .committing _ _ | .givingUp | .recovering | .refusing | .finishing | .readying => true
  | _ => false

def Phase.isEnded : Phase → Bool
  | .ended _ => true
  | _ => false

def afterReceipt (a : Attempt) (remote : Bool) (receipt : Receipt) : Phase :=
  if !remote && a.strictDiskLease && !receipt.localCacheReleased then .releasing receipt
  else if hasReference remote receipt.reference then .committing remote receipt
  else .failing

def commitRow (remote : Bool) (receipt : Receipt) (row : Row) : Row :=
  { row with
    uploadStage := .remoteCommitted
    reference := if remote then ⟨"",receipt.reference.storageObjectRef⟩
      else { row.reference with telegramFileId := receipt.reference.telegramFileId } }

def failRow (row : Row) : Row := { row with status := .error, uploadStage := .failed }

/-- The last part of `removeUploadArtifacts`, once both unlinks have been answered. -/
def afterUnlinks (a : Attempt) (s : Store) (source : Option Bool) (receipt : Bool) : Store × Phase :=
  match source, receipt with
  | some true, true => ({ s with activeLease := releaseJob s.activeLease a.fileId a.uploadVersion },.ended (.removed true))
  | some false, true => (s,.ended (.removed false))
  | _, _ => (s,.removing source receipt)

def current (a : Attempt) (s : Store) : Bool :=
  (s.rows.get a.fileId).any fun row => row.uploadVersion = a.uploadVersion && !row.isDeleted

/-- The call takes effect and the attempt goes on. -/
def onGo (s : Store) (a : Attempt) : Store × Phase :=
  match a.phase with
  | .start => match s.rows.get a.fileId with
    | none => (s,.removing none false)
    | some row =>
      if row.uploadVersion ≠ a.uploadVersion then (s,.ended .stale)
      else if isCommitted row then (s,.rereading row.remote)
      else (s,.checking row.remote row.uploadStage)
  | .abandoning =>
    let failed := (updateVersion s a.fileId a.uploadVersion failRow).1
    ({ failed with activeLease := releaseJob failed.activeLease a.fileId a.uploadVersion },.ended .abandoned)
  | .claiming remote stage =>
    match update s a.fileId (fun row => row.uploadVersion = a.uploadVersion && row.uploadStage = stage)
        (fun row => { row with uploadStage := .uploading }) with
    | (s',true) => (s',.reloading remote)
    | (_,false) => (s,.ended .unclaimed)
  | .reloading remote => if (s.rows.get a.fileId).isSome then (s,.loading remote) else (s,.ended .thrown)
  | .loading remote => match loadReceipt s a.fileId a.uploadVersion with
    | some receipt => (s,afterReceipt a remote receipt)
    | none => (s,.uploading remote)
  | .persisting remote receipt => ({ s with receipts := s.receipts.set a.fileId receipt },afterReceipt a remote receipt)
  | .releasing receipt => (s,.persisting false { receipt with localCacheReleased := true })
  | .committing remote receipt =>
    match updateVersion s a.fileId a.uploadVersion (commitRow remote receipt) with
    | (s',true) => (s',.rereading remote)
    | (_,false) => (s,.failing)
  | .failing => match loadReceipt s a.fileId a.uploadVersion with
    | none => if a.attemptsMade ≥ 2 then (s,.givingUp) else (s,.ended .thrown)
    | some _ => if a.attemptsMade ≥ 2 then (s,.recovering) else (s,.ended .thrown)
  | .givingUp => ((updateVersion s a.fileId a.uploadVersion failRow).1,.removing none false)
  | .recovering =>
    ((updateVersion s a.fileId a.uploadVersion (fun row => { row with uploadStage := .recoverable })).1,.ended .thrown)
  | .rereading remote => match s.rows.get a.fileId with
    | none => (s,.ended .thrown)
    | some row =>
      if row.uploadVersion ≠ a.uploadVersion || !isCommitted row then (s,.ended .moved)
      else if !hasReference remote row.reference then (s,.refusing)
      else if row.uploadStage ≠ .committed then (s,.finishing)
      else (s,.readying)
  | .refusing => ((updateVersion s a.fileId a.uploadVersion failRow).1,.removing none false)
  | .finishing =>
    ((updateVersion s a.fileId a.uploadVersion (fun row => { row with uploadStage := .committed })).1,.readying)
  | .readying =>
    match update s a.fileId (fun row => row.uploadVersion = a.uploadVersion &&
        (row.status = .processing || row.status = .error)) (fun row => { row with status := .ready }) with
    | (s',true) => (s',.registering)
    | (_,false) => (s,.ended .unready)
  | .registering => (s,.removing none false)
  | phase => (s,phase)

/-- The call fails. -/
def onFail : Phase → Phase
  -- within the `try` block of the upload
  | .uploading _ | .persisting _ _ | .releasing _ | .committing _ _ => .failing
  -- the derived pictures may fail, and the registration of the content as well
  | .finishing => .readying
  | .registering => .removing none false
  -- these do not throw
  | .checking remote stage => .checking remote stage
  | .loading remote => .loading remote
  | .failing => .failing
  | .removing source receipt => .removing source receipt
  | .ended exit => .ended exit
  | _ => .ended .thrown

/-- The next step of attempt `i`. -/
def go (s : Store) (i : Nat) (a : Attempt) : Event → Store × Phase
  | .go => onGo s a
  | .fail => (s,onFail a.phase)
  | .lost => if a.phase.writes then ((onGo s a).1,onFail a.phase) else (s,a.phase)
  | .seen there => match a.phase with
    | .checking remote stage =>
      if there then (s,.claiming remote stage)
      else if a.attemptsMade < 2 then (s,.ended .thrown)
      else (s,.abandoning)
    | phase => (s,phase)
  | .uploaded reference localCacheReleased => match a.phase with
    | .uploading remote =>
      ({ s with sent := s.sent ++ [⟨i,a.fileId,a.uploadVersion,reference⟩] },
        .persisting remote ⟨reference,localCacheReleased,a.uploadVersion⟩)
    | phase => (s,phase)
  | .wait => match a.phase with
    | .uploading remote =>
      -- a strict upload to Telegram does not go through the pool of accounts and never waits
      if !remote && a.strictDiskLease then (s,.uploading remote)
      else if !current a s then (s,.ended .superseded)
      else if remote then (s,.ended .delayed)
      else (s,.uploading remote)
    | phase => (s,phase)
  | .unlinkSource ok => match a.phase with
    | .removing none receipt =>
      -- a source that is not there counts as removed
      if (s.pending.get a.fileId).isNone then afterUnlinks a s (some true) receipt
      else if ok then afterUnlinks a { s with pending := s.pending.delete a.fileId } (some true) receipt
      else afterUnlinks a s (some false) receipt
    | phase => (s,phase)
  | .unlinkReceipt ok => match a.phase with
    | .removing source false =>
      afterUnlinks a (if ok then { s with receipts := s.receipts.delete a.fileId } else s) source true
    | phase => (s,phase)
  | .crash => (s,if a.phase.isEnded then a.phase else .ended .crashed)

/-! ### What a step does to the store -/

section
variable {s : Store} {fileId : String} {condition : Row → Bool} {change : Row → Row}

theorem update_eq : (update s fileId condition change).1 = { s with rows := (update s fileId condition change).1.rows } := by
  unfold update
  split
  · split_ifs <;> rfl
  · rfl

theorem get_update {other : String} {row' : Row} (found : (update s fileId condition change).1.rows.get other = some row') :
    s.rows.get other = some row' ∨
      other = fileId ∧ ∃ row, s.rows.get fileId = some row ∧ condition row = true ∧ row' = change row := by
  unfold update at found
  cases known : s.rows.get fileId with
  | none =>
    rw [known] at found
    exact .inl found
  | some row =>
    simp only [known] at found
    split_ifs at found with holds
    · rcases get_of_set found with ⟨rfl,rfl⟩ | ⟨_,old⟩
      · exact .inr ⟨rfl,row,rfl,holds,rfl⟩
      · exact .inl old
    · exact .inl found

theorem update_hit {s' : Store} (hit : update s fileId condition change = (s',true)) :
    ∃ row, s.rows.get fileId = some row ∧ condition row = true ∧
      s' = { s with rows := s.rows.set fileId (change row) } := by
  unfold update at hit
  cases known : s.rows.get fileId with
  | none =>
    rw [known] at hit
    cases hit
  | some row =>
    simp only [known] at hit
    split_ifs at hit with holds
    · cases hit
      exact ⟨row,rfl,holds,rfl⟩
    · cases hit

end

def Phase.spoils : Phase → Bool
  | .abandoning | .givingUp | .refusing | .recovering => true
  | _ => false

inductive Rewrite (a : Attempt) (row : Row) : Row → Prop
  | claim {remote : Bool} (phase : a.phase = .claiming remote row.uploadStage) :
      Rewrite a row { row with uploadStage := .uploading }
  | commit {remote : Bool} {receipt : Receipt} (phase : a.phase = .committing remote receipt) :
      Rewrite a row (commitRow remote receipt row)
  | fail (phase : a.phase.spoils = true) : Rewrite a row (failRow row)
  | recover (phase : a.phase.spoils = true) : Rewrite a row { row with uploadStage := .recoverable }
  | finish (phase : a.phase = .finishing) : Rewrite a row { row with uploadStage := .committed }
  | ready (phase : a.phase = .readying) : Rewrite a row { row with status := .ready }

section
variable {s : Store} {i : Nat} {a : Attempt}

theorem rewrite_version {row row' : Row} (rewrite : Rewrite a row row') : row'.uploadVersion = row.uploadVersion := by
  cases rewrite <;> rfl

theorem rewrite_remote {row row' : Row} (rewrite : Rewrite a row row') : row'.remote = row.remote := by
  cases rewrite <;> rfl

/-- An attempt writes the row of its own file at its own version, and the two paths of the file. -/
inductive Touch (s : Store) (i : Nat) (a : Attempt) : Store → Prop
  | none : Touch s i a s
  | row {row row' : Row} (known : s.rows.get a.fileId = some row) (version : row.uploadVersion = a.uploadVersion)
      (rewrite : Rewrite a row row') : Touch s i a { s with rows := s.rows.set a.fileId row' }
  | persist {remote : Bool} {receipt : Receipt} (phase : a.phase = .persisting remote receipt) :
      Touch s i a { s with receipts := s.receipts.set a.fileId receipt }
  | send {remote : Bool} (reference : Reference) (phase : a.phase = .uploading remote) :
      Touch s i a { s with sent := s.sent ++ [⟨i,a.fileId,a.uploadVersion,reference⟩] }
  | unlink {receipt : Bool} (phase : a.phase = .removing none receipt) :
      Touch s i a { s with pending := s.pending.delete a.fileId }
  | unreceipt {source : Option Bool} (phase : a.phase = .removing source false) :
      Touch s i a { s with receipts := s.receipts.delete a.fileId }

theorem touch_updateVersion {change : Row → Row} (rewrites : ∀ row, Rewrite a row (change row)) :
    Touch s i a (updateVersion s a.fileId a.uploadVersion change).1 := by
  unfold updateVersion update
  split
  · next row known =>
    split_ifs with version
    · exact .row known (by simpa using version) (rewrites row)
    · exact .none
  · exact .none

theorem touch_hit {condition : Row → Bool} {change : Row → Row} {s' : Store}
    (hit : update s a.fileId condition change = (s',true))
    (version : ∀ row, condition row = true → row.uploadVersion = a.uploadVersion)
    (rewrites : ∀ row, condition row = true → Rewrite a row (change row)) : Touch s i a s' := by
  obtain ⟨row,known,holds,rfl⟩ := update_hit hit
  exact .row known (version row holds) (rewrites row holds)

inductive Outcome (a : Attempt) (t : Store) : Store × Phase → Prop
  | keep (phase : Phase) : Outcome a t (t,phase)
  | giveBack {phase : Phase} (ends : phase = .ended .abandoned ∨ phase = .ended (.removed true)) :
      Outcome a t ({ t with activeLease := releaseJob t.activeLease a.fileId a.uploadVersion },phase)

theorem onGo_touch (other : a.phase ≠ .abandoning) : Touch s i a (onGo s a).1 := by
  unfold onGo
  cases phase : a.phase <;> simp only
  case start =>
    split
    · exact .none
    · split_ifs <;> exact .none
  case abandoning => exact absurd phase other
  case claiming remote stage =>
    split
    · next hit =>
      refine touch_hit hit (fun row holds => by simp at holds; exact holds.1) (fun row holds => ?_)
      simp only [Bool.and_eq_true,decide_eq_true_eq] at holds
      have here : a.phase = .claiming remote row.uploadStage := by rw [phase,holds.2]
      exact .claim here
    · exact .none
  case reloading => split_ifs <;> exact .none
  case loading => split <;> exact .none
  case persisting => exact .persist phase
  case committing remote receipt =>
    split
    · next hit => exact touch_hit hit (fun row holds => by simpa using holds) (fun _ _ => .commit phase)
    · exact .none
  case failing => split <;> split_ifs <;> exact .none
  case givingUp => exact touch_updateVersion (fun _ => .fail (by rw [phase]; rfl))
  case recovering => exact touch_updateVersion (fun _ => .recover (by rw [phase]; rfl))
  case rereading =>
    split
    · exact .none
    · split_ifs <;> exact .none
  case refusing => exact touch_updateVersion (fun _ => .fail (by rw [phase]; rfl))
  case finishing => exact touch_updateVersion (fun _ => .finish phase)
  case readying =>
    split
    · next hit => exact touch_hit hit (fun row holds => by simp at holds; exact holds.1) (fun _ _ => .ready phase)
    · exact .none
  all_goals exact .none

theorem onGo_effect : ∃ t, Touch s i a t ∧ Outcome a t (onGo s a) := by
  by_cases abandoning : a.phase = .abandoning
  · refine ⟨(updateVersion s a.fileId a.uploadVersion failRow).1,?_,?_⟩
    · exact touch_updateVersion (fun _ => .fail (by rw [abandoning]; rfl))
    · simp only [onGo,abandoning]
      exact .giveBack (.inl rfl)
  · exact ⟨_,onGo_touch abandoning,.keep _⟩

theorem afterUnlinks_outcome (t : Store) (source : Option Bool) (receipt : Bool) :
    Outcome a t (afterUnlinks a t source receipt) := by
  unfold afterUnlinks
  split
  · exact .giveBack (.inr rfl)
  · exact .keep _
  · exact .keep _

theorem go_effect (s : Store) (i : Nat) (a : Attempt) (event : Event) :
    ∃ t, Touch s i a t ∧ Outcome a t (go s i a event) := by
  cases event with
  | go => exact onGo_effect
  | fail => exact ⟨s,.none,.keep _⟩
  | lost =>
    simp only [go]
    split_ifs with writes
    · have other : a.phase ≠ .abandoning := by
        intro abandoning
        rw [abandoning] at writes
        cases writes
      exact ⟨_,onGo_touch other,.keep _⟩
    · exact ⟨s,.none,.keep _⟩
  | seen there =>
    simp only [go]
    split
    · split_ifs <;> exact ⟨s,.none,.keep _⟩
    · exact ⟨s,.none,.keep _⟩
  | uploaded reference localCacheReleased =>
    simp only [go]
    split
    · next phase => exact ⟨_,.send reference phase,.keep _⟩
    · exact ⟨s,.none,.keep _⟩
  | wait =>
    simp only [go]
    split
    · split_ifs <;> exact ⟨s,.none,.keep _⟩
    · exact ⟨s,.none,.keep _⟩
  | unlinkSource ok =>
    simp only [go]
    split
    · next phase =>
      split_ifs
      · exact ⟨s,.none,afterUnlinks_outcome _ _ _⟩
      · exact ⟨_,.unlink phase,afterUnlinks_outcome _ _ _⟩
      · exact ⟨s,.none,afterUnlinks_outcome _ _ _⟩
    · exact ⟨s,.none,.keep _⟩
  | unlinkReceipt ok =>
    simp only [go]
    split
    · next phase =>
      split_ifs
      · exact ⟨_,.unreceipt phase,afterUnlinks_outcome _ _ _⟩
      · exact ⟨s,.none,afterUnlinks_outcome _ _ _⟩
    · exact ⟨s,.none,.keep _⟩
  | crash => exact ⟨s,.none,.keep _⟩

/-! ### From call to call -/

/-- Calls of the `try` block, after which an error leads to the failure path. -/
def Phase.guarded : Phase → Bool
  | .loading _ | .uploading _ | .persisting _ _ | .releasing _ | .committing _ _ => true
  | _ => false

/-- How an attempt goes on: `t` is the store after the step. -/
inductive Turn (s : Store) (i : Nat) (a : Attempt) (t : Store) : Event → Phase → Prop
  | same (event : Event) : Turn s i a t event a.phase
  | ended (event : Event) (exit : Exit) : Turn s i a t event (.ended exit)
  | absent (phase : a.phase = .start) (absent : s.rows.get a.fileId = none) : Turn s i a t .go (.removing none false)
  | found {row : Row} (phase : a.phase = .start) (known : s.rows.get a.fileId = some row)
      (version : row.uploadVersion = a.uploadVersion) (uncommitted : isCommitted row = false) :
      Turn s i a t .go (.checking row.remote row.uploadStage)
  | resumed {row : Row} (phase : a.phase = .start) (known : s.rows.get a.fileId = some row)
      (version : row.uploadVersion = a.uploadVersion) : Turn s i a t .go (.rereading row.remote)
  | present {remote : Bool} {stage : Stage} (phase : a.phase = .checking remote stage) :
      Turn s i a t (.seen true) (.claiming remote stage)
  | missing {remote : Bool} {stage : Stage} (phase : a.phase = .checking remote stage) :
      Turn s i a t (.seen false) .abandoning
  | claimed {remote : Bool} {stage : Stage} (phase : a.phase = .claiming remote stage) :
      Turn s i a t .go (.reloading remote)
  | reloaded {remote : Bool} (phase : a.phase = .reloading remote) : Turn s i a t .go (.loading remote)
  | unsent {remote : Bool} (phase : a.phase = .loading remote)
      (absent : loadReceipt s a.fileId a.uploadVersion = none) : Turn s i a t .go (.uploading remote)
  | sent {remote localCacheReleased : Bool} {reference : Reference} (phase : a.phase = .uploading remote)
      (sent : ⟨i,a.fileId,a.uploadVersion,reference⟩ ∈ t.sent) :
      Turn s i a t (.uploaded reference localCacheReleased)
        (.persisting remote ⟨reference,localCacheReleased,a.uploadVersion⟩)
  | releasing {receipt : Receipt} (source : loadReceipt s a.fileId a.uploadVersion = some receipt ∧ a.phase = .loading false ∨
      a.phase = .persisting false receipt) : Turn s i a t .go (.releasing receipt)
  | committing {remote : Bool} {receipt : Receipt}
      (source : loadReceipt s a.fileId a.uploadVersion = some receipt ∧ a.phase = .loading remote ∨
        a.phase = .persisting remote receipt) (referenced : hasReference remote receipt.reference = true) :
      Turn s i a t .go (.committing remote receipt)
  | released {receipt : Receipt} (phase : a.phase = .releasing receipt) :
      Turn s i a t .go (.persisting false { receipt with localCacheReleased := true })
  | committed {remote : Bool} {receipt : Receipt} (phase : a.phase = .committing remote receipt) :
      Turn s i a t .go (.rereading remote)
  | failed (event : Event) (phase : a.phase.guarded = true) : Turn s i a t event .failing
  | givesUp (phase : a.phase = .failing) (last : 2 ≤ a.attemptsMade)
      (absent : loadReceipt s a.fileId a.uploadVersion = none) : Turn s i a t .go .givingUp
  | recovers (phase : a.phase = .failing) : Turn s i a t .go .recovering
  | refuses {remote : Bool} {row : Row} (phase : a.phase = .rereading remote) (known : s.rows.get a.fileId = some row)
      (version : row.uploadVersion = a.uploadVersion) : Turn s i a t .go .refusing
  | closes {remote : Bool} {row : Row} {next : Phase} (phase : a.phase = .rereading remote)
      (known : s.rows.get a.fileId = some row) (version : row.uploadVersion = a.uploadVersion)
      (committed : isCommitted row = true) (referenced : hasReference remote row.reference = true)
      (goesOn : next = .finishing ∨ next = .readying) : Turn s i a t .go next
  | finished (event : Event) (phase : a.phase = .finishing) : Turn s i a t event .readying
  | registers {row : Row} (phase : a.phase = .readying) (known : s.rows.get a.fileId = some row)
      (version : row.uploadVersion = a.uploadVersion) : Turn s i a t .go .registering
  | removes (event : Event) (phase : a.phase = .givingUp ∨ a.phase = .refusing ∨ a.phase = .registering) :
      Turn s i a t event (.removing none false)
  | unlinked {receipt ok : Bool} (source : Bool) (phase : a.phase = .removing none receipt) :
      Turn s i a t (.unlinkSource ok) (.removing (some source) receipt)
  | unreceipted {source : Option Bool} {ok : Bool} (phase : a.phase = .removing source false) :
      Turn s i a t (.unlinkReceipt ok) (.removing source true)

section
variable {t : Store}

theorem afterReceipt_turn {remote : Bool} {receipt : Receipt}
    (source : loadReceipt s a.fileId a.uploadVersion = some receipt ∧ a.phase = .loading remote ∨
      a.phase = .persisting remote receipt) : Turn s i a t .go (afterReceipt a remote receipt) := by
  have guarded : a.phase.guarded = true := by
    rcases source with ⟨_,phase⟩ | phase <;> rw [phase] <;> rfl
  unfold afterReceipt
  split_ifs with releases referenced
  · cases remote with
    | false => exact .releasing source
    | true => cases releases
  · exact .committing source referenced
  · exact .failed _ guarded

theorem rereading_turn {remote : Bool} (phase : a.phase = .rereading remote) : Turn s i a t .go (onGo s a).2 := by
  simp only [onGo,phase]
  split
  · exact .ended _ _
  next row known =>
  by_cases moved : (row.uploadVersion ≠ a.uploadVersion || !isCommitted row) = true
  · rw [if_pos moved]
    exact .ended _ _
  rw [if_neg moved]
  simp only [Bool.or_eq_true,decide_eq_true_eq,Bool.not_eq_eq_eq_not,Bool.not_true,not_or,not_not,
    Bool.not_eq_false] at moved
  by_cases referenced : hasReference remote row.reference = true
  · rw [referenced]
    simp only [Bool.not_true,Bool.false_eq_true,if_false]
    split_ifs
    · exact .closes phase known moved.1 moved.2 referenced (.inl rfl)
    · exact .closes phase known moved.1 moved.2 referenced (.inr rfl)
  · rw [Bool.not_eq_true] at referenced
    rw [referenced]
    exact .refuses phase known moved.1

theorem start_turn (phase : a.phase = .start) : Turn s i a t .go (onGo s a).2 := by
  simp only [onGo,phase]
  split
  · next absent => exact .absent phase absent
  · next row known =>
    split_ifs with other committed
    · exact .ended _ _
    · exact .resumed phase known (not_not.mp other)
    · exact .found phase known (not_not.mp other) (by simpa using committed)

theorem onGo_turn : Turn s i a t .go (onGo s a).2 := by
  cases phase : a.phase with
  | start => exact start_turn phase
  | rereading => exact rereading_turn phase
  | abandoning =>
    simp only [onGo,phase]
    exact .ended _ _
  | claiming =>
    simp only [onGo,phase]
    split
    · exact .claimed phase
    · exact .ended _ _
  | reloading =>
    simp only [onGo,phase]
    split_ifs
    · exact .reloaded phase
    · exact .ended _ _
  | loading =>
    simp only [onGo,phase]
    split
    · next known => exact afterReceipt_turn (.inl ⟨known,phase⟩)
    · next absent => exact .unsent phase absent
  | persisting =>
    simp only [onGo,phase]
    exact afterReceipt_turn (.inr phase)
  | releasing =>
    simp only [onGo,phase]
    exact .released phase
  | committing =>
    simp only [onGo,phase]
    split
    · exact .committed phase
    · exact .failed _ (by rw [phase]; rfl)
  | failing =>
    simp only [onGo,phase]
    split
    · next absent =>
      split_ifs with last
      · exact .givesUp phase last absent
      · exact .ended _ _
    · split_ifs
      · exact .recovers phase
      · exact .ended _ _
  | givingUp =>
    simp only [onGo,phase]
    exact .removes _ (.inl phase)
  | recovering =>
    simp only [onGo,phase]
    exact .ended _ _
  | refusing =>
    simp only [onGo,phase]
    exact .removes _ (.inr (.inl phase))
  | finishing =>
    simp only [onGo,phase]
    exact .finished _ phase
  | readying =>
    simp only [onGo,phase]
    split
    · next hit =>
      obtain ⟨row,known,holds,_⟩ := update_hit hit
      simp only [Bool.and_eq_true,decide_eq_true_eq] at holds
      exact .registers phase known holds.1
    · exact .ended _ _
  | registering =>
    simp only [onGo,phase]
    exact .removes _ (.inr (.inr phase))
  | checking | uploading | removing | ended =>
    simp only [onGo,phase]
    rw [← phase]
    exact .same _

theorem onFail_turn (event : Event) : Turn s i a t event (onFail a.phase) := by
  cases phase : a.phase with
  | uploading | persisting | releasing | committing => exact .failed _ (by rw [phase]; rfl)
  | finishing => exact .finished _ phase
  | registering => exact .removes _ (.inr (.inr phase))
  | checking | loading | failing | removing | ended =>
    simp only [onFail]
    rw [← phase]
    exact .same _
  | _ => exact .ended _ _

theorem afterUnlinks_turn {event : Event} {store : Store} {source : Option Bool} {receipt : Bool}
    (turn : Turn s i a t event (.removing source receipt)) : Turn s i a t event (afterUnlinks a store source receipt).2 := by
  unfold afterUnlinks
  split
  · exact .ended _ _
  · exact .ended _ _
  · exact turn

theorem go_turn (event : Event) : Turn s i a (go s i a event).1 event (go s i a event).2 := by
  cases event with
  | go => exact onGo_turn
  | fail => exact onFail_turn _
  | lost =>
    simp only [go]
    split_ifs
    · exact onFail_turn _
    · exact .same _
  | seen there =>
    simp only [go]
    split
    · next phase =>
      split_ifs with present
      · rw [present]
        exact .present phase
      · exact .ended _ _
      · rw [Bool.not_eq_true] at present
        rw [present]
        exact .missing phase
    · exact .same _
  | uploaded reference localCacheReleased =>
    simp only [go]
    split
    · next phase => exact .sent phase (List.mem_append_right _ List.mem_cons_self)
    · exact .same _
  | wait =>
    simp only [go]
    split
    · next phase =>
      rw [← phase]
      split_ifs <;> first | exact .same _ | exact .ended _ _
    · exact .same _
  | unlinkSource ok =>
    simp only [go]
    split
    · next phase => split_ifs <;> exact afterUnlinks_turn (.unlinked _ phase)
    · exact .same _
  | unlinkReceipt ok =>
    simp only [go]
    split
    · next phase => exact afterUnlinks_turn (.unreceipted phase)
    · exact .same _
  | crash =>
    simp only [go]
    split_ifs
    · exact .same _
    · exact .ended _ _

end

/-! ### Receipts in hand -/

def Phase.receipt : Phase → Option Receipt
  | .persisting _ receipt | .releasing receipt | .committing _ receipt => some receipt
  | _ => none

theorem turn_receipt {event : Event} {t : Store} {phase : Phase} {receipt : Receipt} (turn : Turn s i a t event phase)
    (held : phase.receipt = some receipt) :
    (∃ old, a.phase.receipt = some old ∧ receipt.reference = old.reference ∧
      receipt.uploadVersion = old.uploadVersion) ∨
    loadReceipt s a.fileId a.uploadVersion = some receipt ∨
    receipt.uploadVersion = a.uploadVersion ∧ ⟨i,a.fileId,a.uploadVersion,receipt.reference⟩ ∈ t.sent := by
  cases turn with
  | same => exact .inl ⟨receipt,held,rfl,rfl⟩
  | sent _ sent =>
    cases held
    exact .inr (.inr ⟨rfl,sent⟩)
  | releasing source | committing source =>
    cases held
    rcases source with ⟨loaded,_⟩ | phase
    · exact .inr (.inl loaded)
    · exact .inl ⟨_,by rw [phase]; rfl,rfl,rfl⟩
  | @released old phase =>
    cases held
    exact .inl ⟨old,by rw [phase]; rfl,rfl,rfl⟩
  | closes _ _ _ _ _ goesOn => rcases goesOn with rfl | rfl <;> cases held
  | _ => cases held

theorem afterUnlinks_receipts (t : Store) (source : Option Bool) (unlinked : Bool) :
    (afterUnlinks a t source unlinked).1.receipts = t.receipts := by
  unfold afterUnlinks
  split <;> rfl

theorem go_receipts {event : Event} {fileId : String} {receipt : Receipt}
    (found : (go s i a event).1.receipts.get fileId = some receipt) :
    s.receipts.get fileId = some receipt ∨ event = .go ∨ event = .lost := by
  cases event with
  | go => exact .inr (.inl rfl)
  | lost => exact .inr (.inr rfl)
  | fail => exact .inl found
  | seen there =>
    simp only [go] at found
    split at found
    · split_ifs at found <;> exact .inl found
    · exact .inl found
  | uploaded reference localCacheReleased =>
    simp only [go] at found
    split at found <;> exact .inl found
  | wait =>
    simp only [go] at found
    split at found
    · split_ifs at found <;> exact .inl found
    · exact .inl found
  | unlinkSource ok =>
    simp only [go] at found
    split at found
    · split_ifs at found <;> (rw [afterUnlinks_receipts] at found; exact .inl found)
    · exact .inl found
  | unlinkReceipt ok =>
    simp only [go] at found
    split at found
    · rw [afterUnlinks_receipts] at found
      split_ifs at found
      · exact .inl (get_of_delete found).2
      · exact .inl found
    · exact .inl found
  | crash => exact .inl found

theorem afterUnlinks_rows (t : Store) (source : Option Bool) (unlinked : Bool) :
    (afterUnlinks a t source unlinked).1.rows = t.rows := by
  unfold afterUnlinks
  split <;> rfl

theorem go_rows (event : Event) : (go s i a event).1.rows = s.rows ∨ event = .go ∨ event = .lost := by
  cases event with
  | go => exact .inr (.inl rfl)
  | lost => exact .inr (.inr rfl)
  | fail | crash => exact .inl rfl
  | seen there =>
    simp only [go]
    split
    · split_ifs <;> exact .inl rfl
    · exact .inl rfl
  | uploaded reference localCacheReleased =>
    simp only [go]
    split <;> exact .inl rfl
  | wait =>
    simp only [go]
    split
    · split_ifs <;> exact .inl rfl
    · exact .inl rfl
  | unlinkSource ok =>
    simp only [go]
    split
    · split_ifs <;> exact .inl (afterUnlinks_rows _ _ _)
    · exact .inl rfl
  | unlinkReceipt ok =>
    simp only [go]
    split
    · rw [afterUnlinks_rows]
      split_ifs <;> exact .inl rfl
    · exact .inl rfl

end
end Tgtc.UploadWorker
