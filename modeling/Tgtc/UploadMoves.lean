import Tgtc.UploadSystem

/-!
What one step of an upload can do. Cleaning up, merging and cancelling branch on the answers of many calls; here each
of them is given as a list of moves, with the phase it is made in and the state it leads to.
-/
namespace Tgtc.UploadMoves
open Maps UploadWorker UploadSystem
open UploadSessions (MergeStatus)

section
variable {s : State} {fileId : String} {uploadVersion : Nat}

def dropReceipt (s : State) (fileId : String) (ok : Bool) : State :=
  { s with store := { s.store with receipts := if ok then s.store.receipts.delete fileId else s.store.receipts } }

/-- The moves of `cleanupUploadingSideEffects`. -/
inductive Cleans (s : State) (fileId : String) (uploadVersion : Nat) : Cleaning → State → (Cleaning ⊕ Bool) → Prop
  | kept : Cleans s fileId uploadVersion .looking s (.inr false)
  | unqueued {job : Job} (found : s.jobs.get (fileId,uploadVersion) = some job) (waiting : job.state = .waiting) :
      Cleans s fileId uploadVersion .looking { s with jobs := s.jobs.delete (fileId,uploadVersion) } (.inl .marking)
  | marked {rows : OrderedMap String Row} (overwrites : Bool)
      (marks : rows = (update s.store fileId (fun row => row.status = .processing) (cancelRow overwrites)).1.rows) :
      Cleans s fileId uploadVersion .marking { s with store := { s.store with rows } } (.inl .unlinking)
  | unmarked : Cleans s fileId uploadVersion .marking s (.inl .unlinking)
  | unlinked : Cleans s fileId uploadVersion .unlinking
      { s with store := { s.store with pending := s.store.pending.delete fileId } } (.inl (.unreceipting true))
  | stuck : Cleans s fileId uploadVersion .unlinking s (.inl (.unreceipting false))
  | released (ok : Bool) : Cleans s fileId uploadVersion (.unreceipting true)
      ((dropReceipt s fileId ok).setLease (releaseJob s.store.activeLease fileId uploadVersion)) (.inr true)
  | unreceipted (ok : Bool) : Cleans s fileId uploadVersion (.unreceipting false) (dropReceipt s fileId ok) (.inr false)

theorem clean_moves (overwrites : Bool) (c : Cleaning) (ok : Bool) :
    Cleans s fileId uploadVersion c (s.clean overwrites fileId uploadVersion c ok).1
      (s.clean overwrites fileId uploadVersion c ok).2 := by
  cases c with
  | looking =>
    simp only [State.clean]
    split_ifs with free
    · simp only [Bool.and_eq_true,Option.any_eq_true_iff_get,decide_eq_true_eq] at free
      obtain ⟨_,here,waiting⟩ := free
      exact .unqueued (Option.some_get here).symm waiting
    · exact .kept
  | marking =>
    simp only [State.clean]
    split_ifs
    · rw [update_eq]
      exact .marked overwrites rfl
    · exact .unmarked
  | unlinking =>
    simp only [State.clean]
    split_ifs
    · exact .unlinked
    · exact .stuck
  | unreceipting sourceRemoved =>
    cases sourceRemoved with
    | false =>
      cases ok
      · exact .unreceipted false
      · exact .unreceipted true
    | true =>
      cases ok
      · exact .released false
      · exact .released true

end

/-! ### Merges -/

inductive Adds (jobs : OrderedMap (String × Nat) Job) (id : String × Nat) (job : Job) : OrderedMap (String × Nat) Job → Prop
  | there {old : Job} (found : jobs.get id = some old) : Adds jobs id job jobs
  | new (absent : jobs.get id = none) : Adds jobs id job (jobs.set id job)

def MergePhase.fails : MergePhase → Bool
  | .concatenating | .checkingType | .creating | .renaming _ _ | .freeing _ _ => true
  | _ => false

def MergePhase.early : MergePhase → Option (String × Nat)
  | .clearing fileId uploadVersion | .renaming fileId uploadVersion | .renamed fileId uploadVersion
  | .freeing fileId uploadVersion | .adding fileId uploadVersion => some (fileId,uploadVersion)
  | _ => none

inductive Merges (s : State) (n : Nat) (m : Merge) (session : Session) : MergeEvent → State → Prop
  | stay (event : MergeEvent) : Merges s n m session event s
  | failed (event : MergeEvent) (phase : MergePhase.fails m.phase = true) :
      Merges s n m session event (s.failMerge n m .failed)
  | merged (phase : m.phase = .concatenating) (live : m.aborted = false) : Merges s n m session .go
      ((s.onSession m.uploadId (fun session => { session with mergeStatus := .uploading })).setMerge n m .checkingType)
  | checked (phase : m.phase = .checkingType) : Merges s n m session .go (s.setMerge n m .creating)
  | created {fresh tempId fileId : String} {remote : Bool} {uploadVersion : Nat} {rows : OrderedMap String Row}
      {files : List String} (phase : m.phase = .creating)
      (makes : createProcessingFile s session.overwriteFileId fresh tempId remote =
        ({ s with store := { s.store with rows }, files },fileId,uploadVersion)) :
      Merges s n m session (.created fresh tempId remote)
        (({ s with store := { s.store with rows }, files }.onSession m.uploadId (fun session =>
          { session with saved := some (fileId,uploadVersion) })).setMerge n m (.clearing fileId uploadVersion))
  | createdLate {fresh tempId fileId : String} {remote : Bool} {uploadVersion : Nat} {rows : OrderedMap String Row}
      {files : List String} (phase : m.phase = .creating)
      (makes : createProcessingFile s session.overwriteFileId fresh tempId remote =
        ({ s with store := { s.store with rows }, files },fileId,uploadVersion)) :
      Merges s n m session (.created fresh tempId remote)
        (({ s with store := { s.store with rows }, files }.onSession m.uploadId (fun session =>
          { session with saved := some (fileId,uploadVersion) })).failMerge n m .failed)
  | cleared {fileId : String} {uploadVersion : Nat} (ok : Bool) (event : MergeEvent)
      (phase : m.phase = .clearing fileId uploadVersion) :
      Merges s n m session event ((dropReceipt s fileId ok).setMerge n m (.renaming fileId uploadVersion))
  | renamed {fileId : String} {uploadVersion : Nat} (phase : m.phase = .renaming fileId uploadVersion) :
      Merges s n m session .go
        ({ s with store := { s.store with pending := s.store.pending.set fileId uploadVersion } }.setMerge n m
          (.renamed fileId uploadVersion))
  | handedOff {fileId : String} {uploadVersion : Nat} (phase : m.phase = .renamed fileId uploadVersion) :
      Merges s n m session .go
        ((s.onSession m.uploadId (fun session => { session with handedOff := true })).setMerge n m
          (.freeing fileId uploadVersion))
  | freedLate {fileId : String} {uploadVersion : Nat} (phase : m.phase = .freeing fileId uploadVersion)
      (strict : session.strictDiskLease = true) :
      Merges s n m session .go ((s.removeDir m.uploadId).failMerge n m .failed)
  | transferred {fileId : String} {uploadVersion : Nat} {lease : Lease}
      (phase : m.phase = .freeing fileId uploadVersion) (strict : session.strictDiskLease = true)
      (held : s.store.activeLease = some lease) (key : lease.key = .session m.uploadId) :
      Merges s n m session .go
        (((s.removeDir m.uploadId).setLease (some { lease with key := .job fileId uploadVersion })).setMerge n m
          (.adding fileId uploadVersion))
  | passed {fileId : String} {uploadVersion : Nat} (phase : m.phase = .freeing fileId uploadVersion)
      (lax : session.strictDiskLease = false) :
      Merges s n m session .go (s.setMerge n m (.adding fileId uploadVersion))
  | unqueued {fileId : String} {uploadVersion : Nat} {jobs : OrderedMap (String × Nat) Job} {stored : Bool}
      (phase : m.phase = .adding fileId uploadVersion)
      (adds : jobs = s.jobs ∨ Adds s.jobs (fileId,uploadVersion) ⟨.waiting,0,session.strictDiskLease⟩ jobs) :
      Merges s n m session (.added stored false)
        (({ s with jobs }.setLease (transferJobToSession s.store.activeLease m.uploadId fileId uploadVersion)).failMerge n m
          .unqueued)
  | queued {fileId : String} {uploadVersion : Nat} {jobs : OrderedMap (String × Nat) Job} {stored : Bool} {next : MergePhase}
      (phase : m.phase = .adding fileId uploadVersion)
      (adds : Adds s.jobs (fileId,uploadVersion) ⟨.waiting,0,session.strictDiskLease⟩ jobs)
      (goesOn : next = .sweeping fileId uploadVersion ∨ next = .removingJob fileId uploadVersion) :
      Merges s n m session (.added stored true) ({ s with jobs }.setMerge n m next)
  | jobKept {fileId : String} {uploadVersion : Nat} (event : MergeEvent)
      (phase : m.phase = .removingJob fileId uploadVersion) :
      Merges s n m session event (s.setMerge n m (.cleaning fileId uploadVersion .looking))
  | jobRemoved {fileId : String} {uploadVersion : Nat} (phase : m.phase = .removingJob fileId uploadVersion) :
      Merges s n m session .go
        ({ s with jobs := s.jobs.delete (fileId,uploadVersion) }.setMerge n m (.cleaning fileId uploadVersion .looking))
  | cleans {fileId : String} {uploadVersion : Nat} {c c' : Cleaning} {t : State} (event : MergeEvent)
      (phase : m.phase = .cleaning fileId uploadVersion c) (move : Cleans s fileId uploadVersion c t (.inl c')) :
      Merges s n m session event (t.setMerge n m (.cleaning fileId uploadVersion c'))
  | cleaned {fileId : String} {uploadVersion : Nat} {c : Cleaning} {t : State} {gone : Bool} (event : MergeEvent)
      (phase : m.phase = .cleaning fileId uploadVersion c) (move : Cleans s fileId uploadVersion c t (.inr gone)) :
      Merges s n m session event (t.failMerge n m .failed)
  | swept {fileId : String} {uploadVersion : Nat} (phase : m.phase = .sweeping fileId uploadVersion) :
      Merges s n m session .go (((s.removeDir m.uploadId).settle m true).setMerge n m (.ended .done))
  | unswept {fileId : String} {uploadVersion : Nat} (phase : m.phase = .sweeping fileId uploadVersion) :
      Merges s n m session .fail ((s.settle m true).setMerge n m (.ended .done))

section
variable {s : State} {n : Nat} {m : Merge} {session : Session} {fileId : String} {uploadVersion : Nat}

theorem transferSessionToJob_some {lease : Option Lease} {uploadId : String} {lease' : Option Lease}
    (moves : transferSessionToJob lease uploadId fileId uploadVersion = some lease') :
    ∃ l, lease = some l ∧ l.key = .session uploadId ∧ lease' = some { l with key := .job fileId uploadVersion } := by
  cases lease with
  | none => cases moves
  | some l =>
    simp only [transferSessionToJob] at moves
    split_ifs at moves with key
    cases moves
    exact ⟨l,rfl,key,rfl⟩

theorem enqueue_moves (phase : m.phase = .freeing fileId uploadVersion) :
    Merges s n m session .go
      ((if session.strictDiskLease then s.removeDir m.uploadId else s).enqueue n m session fileId uploadVersion) := by
  have fails : MergePhase.fails m.phase = true := by rw [phase]; rfl
  cases strict : session.strictDiskLease with
  | false =>
    by_cases aborted : m.aborted = true
    · simpa [State.enqueue,aborted] using Merges.failed .go fails
    · simpa [State.enqueue,aborted,strict] using Merges.passed phase strict
  | true =>
    simp only [State.enqueue]
    split_ifs
    · exact .freedLate phase strict
    · split
      · next moves =>
        obtain ⟨l,held,key,rfl⟩ := transferSessionToJob_some moves
        exact .transferred phase strict held key
      · exact .freedLate phase strict

theorem addJob_adds (s : State) (fileId : String) (uploadVersion : Nat) (strictDiskLease : Bool) :
    ∃ jobs, s.addJob fileId uploadVersion strictDiskLease = { s with jobs } ∧
      Adds s.jobs (fileId,uploadVersion) ⟨.waiting,0,strictDiskLease⟩ jobs := by
  unfold State.addJob
  cases found : s.jobs.get (fileId,uploadVersion) with
  | none => exact ⟨_,rfl,.new found⟩
  | some old => exact ⟨_,rfl,.there found⟩

theorem added_moves (phase : m.phase = .adding fileId uploadVersion) (stored ok : Bool) :
    Merges s n m session (.added stored ok) (s.added n m session fileId uploadVersion stored ok) := by
  obtain ⟨jobs,eq,adds⟩ := addJob_adds s fileId uploadVersion session.strictDiskLease
  cases ok with
  | false =>
    simp only [State.added]
    cases stored with
    | false => exact .unqueued phase (.inl rfl)
    | true =>
      simp only [eq]
      exact .unqueued phase (.inr adds)
  | true =>
    simp only [State.added,Bool.or_true,Bool.not_true,Bool.false_eq_true,if_false,eq]
    split_ifs
    · exact .queued phase adds (.inr rfl)
    · exact .queued phase adds (.inl rfl)

theorem createProcessingFile_frame (overwriteFileId : Option String) (fresh tempId : String) (remote : Bool) :
    ∃ rows files, (createProcessingFile s overwriteFileId fresh tempId remote).1 =
      { s with store := { s.store with rows }, files } := by
  unfold createProcessingFile
  split
  · exact ⟨_,_,rfl⟩
  · split
    · exact ⟨_,_,rfl⟩
    · split_ifs
      · exact ⟨_,_,rfl⟩
      · exact ⟨_,_,rfl⟩

theorem mergeStep_moves (event : MergeEvent) : Merges s n m session event (s.mergeStep n m session event) := by
  unfold State.mergeStep
  cases event with
  | go =>
    cases phase : m.phase <;> simp only
    case concatenating =>
      split_ifs with aborted
      · exact .failed _ (by rw [phase]; rfl)
      · exact .merged phase (by simpa using aborted)
    case checkingType =>
      split_ifs
      · exact .failed _ (by rw [phase]; rfl)
      · exact .checked phase
    case clearing => exact .cleared true _ phase
    case «renaming» => exact .renamed phase
    case renamed => exact .handedOff phase
    case freeing => exact enqueue_moves phase
    case removingJob =>
      split_ifs
      · exact .jobRemoved phase
      · exact .jobKept _ phase
    case cleaning f v c =>
      have move : Cleans s f v c _ _ := clean_moves session.overwriteFileId.isSome c true
      split
      · next eq =>
        rw [eq] at move
        exact .cleans _ phase move
      · next eq =>
        rw [eq] at move
        exact .cleaned _ phase move
    case sweeping => exact .swept phase
    all_goals exact .stay _
  | fail =>
    cases phase : m.phase <;> simp only
    case clearing => exact .cleared false _ phase
    case removingJob => exact .jobKept _ phase
    case cleaning f v c =>
      have move : Cleans s f v c _ _ := clean_moves session.overwriteFileId.isSome c false
      split
      · next eq =>
        rw [eq] at move
        exact .cleans _ phase move
      · next eq =>
        rw [eq] at move
        exact .cleaned _ phase move
    case sweeping => exact .unswept phase
    case renamed | adding | ended => exact .stay _
    all_goals exact .failed _ (by rw [phase]; rfl)
  | created fresh tempId remote =>
    cases phase : m.phase <;> simp only
    case creating =>
      obtain ⟨rows,files,frame⟩ := createProcessingFile_frame (s := s) session.overwriteFileId fresh tempId remote
      generalize eq : createProcessingFile s session.overwriteFileId fresh tempId remote = result at frame
      obtain ⟨t,fileId,uploadVersion⟩ := result
      subst frame
      split_ifs
      · exact .createdLate phase eq
      · exact .created phase eq
    all_goals exact .stay _
  | added stored ok =>
    cases phase : m.phase <;> simp only
    case adding => exact added_moves phase stored ok
    all_goals exact .stay _

end

/-- The moves of `abort`. -/
inductive Cancels (s : State) (n : Nat) (a : Abort) (session : Session) : State → Prop
  | stay : Cancels s n a session s
  | looks {fileId : String} {uploadVersion : Nat} (phase : a.phase = .cancelling)
      (saved : session.saved = some (fileId,uploadVersion)) (handedOff : session.handedOff = true) :
      Cancels s n a session (s.setAbort n a (.cleaning fileId uploadVersion .looking))
  | delists (phase : a.phase = .cancelling) (free : session.saved = none ∨ session.handedOff = false) :
      Cancels s n a session ((s.delist a.uploadId).setAbort n a .removing)
  | cleans {fileId : String} {uploadVersion : Nat} {c c' : Cleaning} {t : State}
      (phase : a.phase = .cleaning fileId uploadVersion c) (move : Cleans s fileId uploadVersion c t (.inl c')) :
      Cancels s n a session (t.setAbort n a (.cleaning fileId uploadVersion c'))
  | cleaned {fileId : String} {uploadVersion : Nat} {c : Cleaning} {t : State}
      (phase : a.phase = .cleaning fileId uploadVersion c) (move : Cleans s fileId uploadVersion c t (.inr true)) :
      Cancels s n a session ((t.delist a.uploadId).setAbort n a .removing)
  | refused {fileId : String} {uploadVersion : Nat} {c : Cleaning} {t : State}
      (phase : a.phase = .cleaning fileId uploadVersion c) (move : Cleans s fileId uploadVersion c t (.inr false)) :
      Cancels s n a session (t.setAbort n a (.ended (c ≠ .looking)))
  | removed (ok : Bool) (phase : a.phase = .removing) :
      Cancels s n a session
        (({ s with dirs := if ok then s.dirs.filter (· ≠ a.uploadId) else s.dirs }.setLease
          (releaseSession s.store.activeLease a.uploadId)).setAbort n a (.ended false))

theorem abortStep_moves {s : State} {n : Nat} {a : Abort} {session : Session} (ok : Bool) :
    Cancels s n a session (s.abortStep n a session ok) := by
  unfold State.abortStep
  cases phase : a.phase with
  | cancelling =>
    simp only
    split
    · next saved handedOff => exact .looks phase saved handedOff
    · next other =>
      refine .delists phase ?_
      cases saved : session.saved with
      | none => exact .inl rfl
      | some file => exact .inr (by simpa using other file.1 file.2 saved)
  | cleaning fileId uploadVersion c =>
    have move : Cleans s fileId uploadVersion c _ _ := clean_moves session.overwriteFileId.isSome c ok
    simp only
    split
    · next eq =>
      rw [eq] at move
      exact .cleans phase move
    · next eq =>
      rw [eq] at move
      exact .cleaned phase move
    · next eq =>
      rw [eq] at move
      exact .refused phase move
  | removing =>
    cases ok
    · exact .removed false phase
    · exact .removed true phase
  | ended => exact .stay

/-! ### Every step -/

def settledJobs (jobs : OrderedMap (String × Nat) Job) (i : Nat) (a : Attempt) : Phase → OrderedMap (String × Nat) Job
  | .ended exit => jobs.modify (a.fileId,a.uploadVersion) (settleJob i exit)
  | _ => jobs

inductive Moves (s : State) : Label → State → Prop
  | stay (l : Label) : Moves s l s
  | init (uploadId : String) (strictDiskLease : Bool) (overwriteFileId : Option String) :
      Moves s (.init uploadId strictDiskLease overwriteFileId)
        { s.setLease (if strictDiskLease then some ⟨.session uploadId,uploadId⟩ else s.store.activeLease) with
          sessions := s.sessions.set uploadId (newSession strictDiskLease overwriteFileId) }
  | register (uploadId : String) : Moves s (.register uploadId)
      (s.onSession uploadId (fun session => { session with listed := true, init := .opening }))
  | refuse (uploadId : String) : Moves s (.refuse uploadId)
      ((s.onSession uploadId (fun session => { session with init := .failed })).setLease
        (releaseSession s.store.activeLease uploadId))
  | opened (uploadId : String) : Moves s (.opened uploadId true)
      { s.onSession uploadId (fun session => { session with init := .returned }) with dirs := uploadId :: s.dirs }
  | unopened (uploadId : String) : Moves s (.opened uploadId false)
      ((s.onSession uploadId (fun session => { session with listed := false, init := .failed })).setLease
        (releaseSession s.store.activeLease uploadId))
  | trigger (uploadId : String) : Moves s (.trigger uploadId)
      { s.onSession uploadId (fun session => { session with mergeStatus := .merging }) with
        merges := s.merges ++ [⟨uploadId,false,false,.concatenating⟩] }
  | merge {n : Nat} {m : Merge} {session : Session} {event : MergeEvent} {s' : State} (found : s.merges[n]? = some m)
      (known : s.sessions.get m.uploadId = some session) (move : Merges s n m session event s') :
      Moves s (.merge n event) s'
  | deadline {n : Nat} {m : Merge} (found : s.merges[n]? = some m) (going : ∀ how, m.phase ≠ .ended how)
      (unsettled : m.settled = false) :
      Moves s (.deadline n) { s.settle m false with merges := s.merges.set n { m with aborted := true, settled := true } }
  | abort (uploadId : String) : Moves s (.abort uploadId)
      { s.abortMerges uploadId with aborts := s.aborts ++ [⟨uploadId,.cancelling⟩] }
  | aborting {n : Nat} {a : Abort} {session : Session} {ok : Bool} {s' : State} (found : s.aborts[n]? = some a)
      (known : s.sessions.get a.uploadId = some session) (move : Cancels s n a session s') : Moves s (.aborting n ok) s'
  | reclaim (uploadId : String) : Moves s (.reclaim uploadId)
      { s.onSession uploadId (fun session => { session with reclaiming := true }) with
        reclaims := s.reclaims ++ [⟨uploadId,false⟩] }
  | reclaimed {n : Nat} {r : Reclaim} {session : Session} (found : s.reclaims[n]? = some r) (going : r.ended = false)
      (known : s.sessions.get r.uploadId = some session) :
      Moves s (.reclaiming n true)
        ((({ s with reclaims := s.reclaims.set n { r with ended := true } }.removeDir r.uploadId).delist
          r.uploadId).setLease (if session.strictDiskLease then releaseSession s.store.activeLease r.uploadId
            else s.store.activeLease))
  | unreclaimed {n : Nat} {r : Reclaim} (found : s.reclaims[n]? = some r) (going : r.ended = false) :
      Moves s (.reclaiming n false)
        ({ s with reclaims := s.reclaims.set n { r with ended := true } }.onSession r.uploadId (fun session =>
          { session with reclaiming := false }))
  | timerIdle (uploadId : String)
      (gone : ∀ session, s.sessions.get uploadId = some session → session.listed = false) :
      Moves s (.timer uploadId)
        { s with timers := s.timers.erase uploadId, removals := s.removals ++ [uploadId] }
  | timer {uploadId : String} {session : Session} (known : s.sessions.get uploadId = some session)
      (listed : session.listed = true) :
      Moves s (.timer uploadId)
        (({ s with timers := s.timers.erase uploadId, removals := s.removals ++ [uploadId] }.delist uploadId).setLease
          (if session.mergeStatus = MergeStatus.error then releaseSession s.store.activeLease uploadId
            else s.store.activeLease))
  | removal (uploadId : String) (ok : Bool) : Moves s (.removal uploadId ok)
      { s with dirs := if ok then s.dirs.filter (· ≠ uploadId) else s.dirs, removals := s.removals.erase uploadId }
  | sweepOrphan {lease : Lease} {uploadId : String} (held : s.store.activeLease = some lease)
      (key : lease.key = .session uploadId) :
      Moves s .sweepOrphan (s.setLease (releaseSession s.store.activeLease uploadId))
  | deliver {fileId : String} {uploadVersion : Nat} {job : Job} (found : s.jobs.get (fileId,uploadVersion) = some job) :
      Moves s (.deliver fileId uploadVersion)
        { s with
          jobs := s.jobs.set (fileId,uploadVersion) { job with state := .active s.attempts.length }
          attempts := s.attempts ++ [⟨fileId,uploadVersion,job.strictDiskLease,job.attemptsMade,.start⟩] }
  | work {i : Nat} {a : Attempt} {event : Event} {t t' : Store} {phase : Phase} (found : s.attempts[i]? = some a)
      (going : a.phase.isEnded = false) (goes : go s.store i a event = (t',phase)) (touch : Touch s.store i a t)
      (outcome : Outcome a t (t',phase)) :
      Moves s (.work i event)
        { s with store := t', attempts := s.attempts.set i { a with phase }, jobs := settledJobs s.jobs i a phase }
  | recover (fileId : String) (uploadVersion : Nat) (strictDiskLease : Bool) :
      Moves s (.recover fileId uploadVersion strictDiskLease)
        { s with jobs := s.jobs.set (fileId,uploadVersion) ⟨.waiting,0,strictDiskLease⟩ }
  | overwriteSync {rows : OrderedMap String Row} (fileId : String) (remote : Bool) (reference : Reference)
      (writes : rows = (update s.store fileId (fun row => !row.isDeleted && row.status ≠ .processing) (fun row =>
        { row with uploadVersion := row.uploadVersion + 1, remote := remote, reference := reference })).1.rows) :
      Moves s (.overwriteSync fileId remote reference) { s with store := { s.store with rows } }
  | markFailed {rows : OrderedMap String Row} (fileId : String)
      (writes : rows = (update s.store fileId (fun _ => true) failRow).1.rows) :
      Moves s (.markFailed fileId) { s with store := { s.store with rows } }
  | markReady {rows : OrderedMap String Row} (fileId : String)
      (writes : rows = (update s.store fileId (fun row => row.status = .processing && row.uploadStage = .committed)
        (fun row => { row with status := .ready })).1.rows) :
      Moves s (.markReady fileId) { s with store := { s.store with rows } }
  | deleteRow (fileId : String) : Moves s (.deleteRow fileId)
      { s with store := { s.store with rows := s.store.rows.delete fileId } }
  | discardPending (fileId : String) : Moves s (.discardPending fileId)
      { s with store :=
        { s.store with pending := s.store.pending.delete fileId, receipts := s.store.receipts.delete fileId } }

section
variable {s : State}

theorem settleAttempt_eq (i : Nat) (a : Attempt) (phase : Phase) :
    s.settleAttempt i a phase = { s with jobs := settledJobs s.jobs i a phase } := by
  cases phase with
  | ended exit =>
    simp only [State.settleAttempt,settledJobs,OrderedMap.modify]
    cases s.jobs.get (a.fileId,a.uploadVersion) <;> rfl
  | _ => rfl

variable {f : String} {v : Nat} {c : Cleaning} {n : Nat} {session : Session} {uploadId : String} {change : Session → Session} {m : Merge} {lease' : Lease} {i : Nat} {job : Job}

theorem work_moves {a : Attempt} (found : s.attempts[i]? = some a) (event : Event) :
    Moves s (.work i event) (s.work i a event) := by
  cases ended : a.phase.isEnded with
  | true =>
    cases phase : a.phase with
    | ended exit =>
      simp only [State.work,phase]
      exact .stay _
    | _ =>
      rw [phase] at ended
      cases ended
  | false =>
    have eq : s.work i a event =
        { s with
          store := (go s.store i a event).1
          attempts := s.attempts.set i { a with phase := (go s.store i a event).2 }
          jobs := settledJobs s.jobs i a (go s.store i a event).2 } := by
      unfold State.work
      split
      · next phase =>
        rw [phase] at ended
        cases ended
      · exact settleAttempt_eq i a _
    obtain ⟨t,touch,outcome⟩ := go_effect s.store i a event
    rw [eq]
    exact .work found ended rfl touch outcome

theorem reclaimStep_moves {r : Reclaim} (found : s.reclaims[n]? = some r)
    (known : s.sessions.get r.uploadId = some session) (ok : Bool) :
    Moves s (.reclaiming n ok) (s.reclaimStep n r session ok) := by
  unfold State.reclaimStep
  cases ended : r.ended with
  | true => exact .stay _
  | false =>
    cases ok with
    | false => exact .unreclaimed found ended
    | true =>
      have move := Moves.reclaimed found ended known
      cases strict : session.strictDiskLease with
      | true | false =>
        rw [strict] at move
        exact move

theorem timer_moves (uploadId : String) : Moves s (.timer uploadId) (s.timer uploadId) := by
  unfold State.timer
  cases known : s.sessions.get uploadId with
  | none => exact .timerIdle uploadId (fun session found => by rw [known] at found; cases found)
  | some session =>
    cases listed : session.listed with
    | false =>
      simp only [listed]
      refine .timerIdle uploadId (fun other found => ?_)
      rw [known] at found
      cases found
      exact listed
    | true =>
      have move := Moves.timer known listed
      by_cases failed : session.mergeStatus = MergeStatus.error
      · rw [if_pos failed] at move
        simp only [listed,failed]
        exact move
      · rw [if_neg failed] at move
        simp only [listed,failed]
        exact move

theorem step_moves (l : Label) : Moves s l (step s l) := by
  cases l with
  | init uploadId strictDiskLease overwriteFileId =>
    cases strictDiskLease
    · exact .init uploadId false overwriteFileId
    · exact .init uploadId true overwriteFileId
  | register uploadId => exact .register uploadId
  | refuse uploadId => exact .refuse uploadId
  | opened uploadId ok =>
    cases ok
    · exact .unopened uploadId
    · exact .opened uploadId
  | trigger uploadId => exact .trigger uploadId
  | merge n event =>
    simp only [step]
    split
    · next found =>
      split
      · next known => exact .merge found known (mergeStep_moves event)
      · exact .stay _
    · exact .stay _
  | deadline n =>
    simp only [step]
    split
    · next m found =>
      unfold State.deadline
      split
      · exact .stay _
      · next going =>
        split_ifs with settled
        · exact .stay _
        · exact .deadline found going (by simpa using settled)
    · exact .stay _
  | abort uploadId => exact .abort uploadId
  | aborting n ok =>
    simp only [step]
    split
    · next found =>
      split
      · next known => exact .aborting found known (abortStep_moves ok)
      · exact .stay _
    · exact .stay _
  | reclaim uploadId => exact .reclaim uploadId
  | reclaiming n ok =>
    simp only [step]
    split
    · next found =>
      split
      · next known => exact reclaimStep_moves found known ok
      · exact .stay _
    · exact .stay _
  | timer uploadId => exact timer_moves uploadId
  | removal uploadId ok =>
    cases ok
    · exact .removal uploadId false
    · exact .removal uploadId true
  | sweepOrphan =>
    simp only [step]
    split
    · next held => exact .sweepOrphan held rfl
    · exact .stay _
  | deliver fileId uploadVersion =>
    simp only [step,State.deliver]
    split
    · next found => exact .deliver found
    · exact .stay _
  | work i event =>
    simp only [step]
    split
    · next found => exact work_moves found event
    · exact .stay _
  | recover fileId uploadVersion strictDiskLease => exact .recover fileId uploadVersion strictDiskLease
  | overwriteSync fileId remote reference =>
    simp only [step]
    rw [update_eq]
    exact .overwriteSync fileId remote reference rfl
  | markFailed fileId =>
    simp only [step]
    rw [update_eq]
    exact .markFailed fileId rfl
  | markReady fileId =>
    simp only [step]
    rw [update_eq]
    exact .markReady fileId rfl
  | deleteRow fileId => exact .deleteRow fileId
  | discardPending fileId => exact .discardPending fileId

/-! ### What becomes of each part -/

variable {s' : State} {l : Label} {fileId : String} {uploadVersion : Nat}

theorem cleans_pending {answer : Cleaning ⊕ Bool} (move : Cleans s f v c s' answer)
    (found : s'.store.pending.get fileId = some uploadVersion) : s.store.pending.get fileId = some uploadVersion := by
  cases move with
  | unlinked => exact (get_of_delete found).2
  | kept | unqueued | marked | unmarked | stuck | released | unreceipted => exact found

theorem step_pending (move : Moves s l s') (found : s'.store.pending.get fileId = some uploadVersion) :
    s.store.pending.get fileId = some uploadVersion ∨
      ∃ n m, l = .merge n .go ∧ s.merges[n]? = some m ∧ m.phase = .renaming fileId uploadVersion ∧
        s'.merges[n]? = some { m with phase := .renamed fileId uploadVersion } := by
  cases move with
  | @merge n m _ _ _ at_n _ move =>
    cases move with
    | renamed phase =>
      rcases get_of_set found with ⟨rfl,rfl⟩ | ⟨_,old⟩
      · exact .inr ⟨n,m,rfl,at_n,phase,at_set at_n⟩
      · exact .inl old
    | cleans _ _ move | cleaned _ _ move => exact .inl (cleans_pending move found)
    | _ => exact .inl found
  | aborting _ _ move =>
    cases move with
    | cleans _ move | cleaned _ move | refused _ move => exact .inl (cleans_pending move found)
    | _ => exact .inl found
  | work _ _ _ touch outcome =>
    cases outcome <;> cases touch <;> first | exact .inl found | exact .inl (get_of_delete found).2
  | discardPending => exact .inl (get_of_delete found).2
  | _ => exact .inl found

theorem cleans_receipts {answer : Cleaning ⊕ Bool} {receipt : Receipt}
    (move : Cleans s f v c s' answer) (found : s'.store.receipts.get fileId = some receipt) :
    s.store.receipts.get fileId = some receipt := by
  cases move with
  | released ok | unreceipted ok =>
    cases ok with
    | false => exact found
    | true => exact (get_of_delete found).2
  | kept | unqueued | marked | unmarked | unlinked | stuck => exact found

theorem step_receipts {receipt : Receipt} (move : Moves s l s') (found : s'.store.receipts.get fileId = some receipt) :
    s.store.receipts.get fileId = some receipt ∨
      ∃ i a event remote, l = .work i event ∧ s.attempts[i]? = some a ∧ a.fileId = fileId ∧
        a.phase = .persisting remote receipt ∧ (event = .go ∨ event = .lost) := by
  cases move with
  | merge _ _ move =>
    cases move with
    | cleared ok =>
      cases ok with
      | false => exact .inl found
      | true => exact .inl (get_of_delete found).2
    | cleans _ _ move | cleaned _ _ move => exact .inl (cleans_receipts move found)
    | _ => exact .inl found
  | aborting _ _ move =>
    cases move with
    | cleans _ move | cleaned _ move | refused _ move => exact .inl (cleans_receipts move found)
    | _ => exact .inl found
  | @work i a event _ _ _ at_i _ goes touch outcome =>
    rcases go_receipts (by rwa [goes]) with old | effect
    · exact .inl old
    have kept : ∀ {t t' : Store} {phase : Phase}, Outcome a t (t',phase) → t'.receipts = t.receipts := by
      rintro t t' phase (_ | _) <;> rfl
    rw [kept outcome] at found
    cases touch with
    | persist phase =>
      rcases get_of_set found with ⟨rfl,rfl⟩ | ⟨_,old⟩
      · exact .inr ⟨i,a,event,_,rfl,at_i,rfl,phase,effect⟩
      · exact .inl old
    | unreceipt => exact .inl (get_of_delete found).2
    | none | row | send | unlink => exact .inl found
  | discardPending => exact .inl (get_of_delete found).2
  | _ => exact .inl found

theorem cleans_jobs {answer : Cleaning ⊕ Bool} {id : String × Nat}
    (move : Cleans s f v c s' answer) (found : s'.jobs.get id = some job) : s.jobs.get id = some job := by
  cases move with
  | unqueued => exact (get_of_delete found).2
  | kept | marked | unmarked | unlinked | stuck | released | unreceipted => exact found

theorem adds_get {jobs jobs' : OrderedMap (String × Nat) Job} {id id' : String × Nat} {new : Job}
    (adds : Adds jobs id new jobs') (found : jobs'.get id' = some job) : jobs.get id' = some job ∨ id' = id := by
  cases adds with
  | there => exact .inl found
  | new =>
    rcases get_of_set found with ⟨same,_⟩ | ⟨_,old⟩
    · exact .inr same
    · exact .inl old

theorem step_jobs (move : Moves s l s') (allowed : Allowed s l)
    (found : s'.jobs.get (fileId,uploadVersion) = some job) :
    (s.jobs.get (fileId,uploadVersion)).isSome = true ∨
      ∃ (n : Nat) (m : Merge) (phase : MergePhase), s.merges[n]? = some m ∧ m.phase = .adding fileId uploadVersion ∧
        s'.merges[n]? = some { m with phase } ∧ MergePhase.early phase = none := by
  have old : ∀ {job : Job}, s.jobs.get (fileId,uploadVersion) = some job →
      (s.jobs.get (fileId,uploadVersion)).isSome = true := fun known => by rw [known]; rfl
  cases move with
  | @merge n m _ _ _ at_n _ move =>
    cases move with
    | unqueued phase adds =>
      rcases adds with rfl | adds
      · exact .inl (old found)
      · rcases adds_get adds found with known | same
        · exact .inl (old known)
        · cases same
          exact .inr ⟨n,m,.ended .unqueued,at_n,phase,at_set at_n,rfl⟩
    | queued phase adds goesOn =>
      rcases adds_get adds found with known | same
      · exact .inl (old known)
      · cases same
        refine .inr ⟨n,m,_,at_n,phase,at_set at_n,?_⟩
        rcases goesOn with rfl | rfl <;> rfl
    | jobRemoved => exact .inl (old (get_of_delete found).2)
    | cleans _ _ move | cleaned _ _ move => exact .inl (old (cleans_jobs move found))
    | _ => exact .inl (old found)
  | aborting _ _ move =>
    cases move with
    | cleans _ move | cleaned _ move | refused _ move => exact .inl (old (cleans_jobs move found))
    | _ => exact .inl (old found)
  | deliver known =>
    rcases get_of_set found with ⟨same,_⟩ | ⟨_,kept⟩
    · cases same
      exact .inl (old known)
    · exact .inl (old kept)
  | @work i a _ _ _ phase =>
    cases phase with
    | ended =>
      have known : ((s.jobs.modify (a.fileId,a.uploadVersion) _).get (fileId,uploadVersion)) = _ := found
      rw [get_modify] at known
      split_ifs at known
      · obtain ⟨job',known,_⟩ := Option.map_eq_some_iff.mp known
        exact .inl (old known)
      · exact .inl (old known)
    | _ => exact .inl (old found)
  | recover =>
    rcases get_of_set found with ⟨same,_⟩ | ⟨_,kept⟩
    · cases same
      obtain ⟨job',known,_⟩ := allowed.1
      exact .inl (old known)
    · exact .inl (old kept)
  | _ => exact .inl (old found)

theorem step_attempts {a' : Attempt} (move : Moves s l s') (found : s'.attempts[i]? = some a') :
    (∃ a, s.attempts[i]? = some a ∧ a'.fileId = a.fileId ∧ a'.uploadVersion = a.uploadVersion ∧
      (a' = a ∨ ∃ event, l = .work i event ∧ Turn s.store i a s'.store event a'.phase)) ∨
    ∃ f v job, l = .deliver f v ∧ i = s.attempts.length ∧ s.jobs.get (f,v) = some job ∧
      a' = ⟨f,v,job.strictDiskLease,job.attemptsMade,.start⟩ := by
  cases move with
  | merge _ _ move =>
    cases move with
    | cleans _ _ move | cleaned _ _ move => cases move <;> exact .inl ⟨a',found,rfl,rfl,.inl rfl⟩
    | _ => exact .inl ⟨a',found,rfl,rfl,.inl rfl⟩
  | aborting _ _ move =>
    cases move with
    | cleans _ move | cleaned _ move | refused _ move => cases move <;> exact .inl ⟨a',found,rfl,rfl,.inl rfl⟩
    | _ => exact .inl ⟨a',found,rfl,rfl,.inl rfl⟩
  | deliver known =>
    rcases at_of_append found with old | ⟨here,rfl⟩
    · exact .inl ⟨a',old,rfl,rfl,.inl rfl⟩
    · exact .inr ⟨_,_,_,rfl,here,known,rfl⟩
  | @work _ a event t t' _ at_i _ goes =>
    rcases at_of_set found with ⟨rfl,rfl⟩ | ⟨_,old⟩
    · have turn : Turn s.store i a _ event _ := go_turn event
      rw [goes] at turn
      exact .inl ⟨a,at_i,rfl,rfl,.inr ⟨event,rfl,turn⟩⟩
    · exact .inl ⟨a',old,rfl,rfl,.inl rfl⟩
  | _ => exact .inl ⟨a',found,rfl,rfl,.inl rfl⟩

theorem cleans_attempts {answer : Cleaning ⊕ Bool}
    (move : Cleans s f v c s' answer) : s'.attempts = s.attempts := by
  cases move <;> rfl

theorem attempts_stay {a : Attempt} (move : Moves s l s') (found : s.attempts[i]? = some a) :
    ∃ a', s'.attempts[i]? = some a' ∧ a'.fileId = a.fileId ∧ a'.uploadVersion = a.uploadVersion := by
  cases move with
  | merge _ _ move =>
    cases move with
    | cleans _ _ move | cleaned _ _ move =>
      have same := cleans_attempts move
      exact ⟨a,same ▸ found,rfl,rfl⟩
    | _ => exact ⟨a,found,rfl,rfl⟩
  | aborting _ _ move =>
    cases move with
    | cleans _ move | cleaned _ move | refused _ move =>
      have same := cleans_attempts move
      exact ⟨a,same ▸ found,rfl,rfl⟩
    | _ => exact ⟨a,found,rfl,rfl⟩
  | deliver =>
    have known := at_lt found
    exact ⟨a,by rw [List.getElem?_append_left known,found],rfl,rfl⟩
  | @work j b _ _ _ phase at_j =>
    by_cases here : i = j
    · subst here
      cases found.symm.trans at_j
      exact ⟨{ a with phase },at_set at_j,rfl,rfl⟩
    · exact ⟨a,by rw [List.getElem?_set_ne (Ne.symm here),found],rfl,rfl⟩
  | _ => exact ⟨a,found,rfl,rfl⟩

theorem step_phases {p : Phase → Prop} (move : Moves s l s') (start : p .start)
    (turns : ∀ i a event phase, Turn s.store i a s'.store event phase → p a.phase → p phase)
    (holds : ∀ a ∈ s.attempts, p a.phase) : ∀ a' ∈ s'.attempts, p a'.phase := by
  intro a' member
  obtain ⟨i,at_i⟩ := List.getElem?_of_mem member
  rcases step_attempts move at_i with ⟨a,known,_,_,same | ⟨event,_,turn⟩⟩ | ⟨_,_,_,_,_,_,rfl⟩
  · subst same
    exact holds a' (List.mem_of_getElem? known)
  · exact turns i a event _ turn (holds a (List.mem_of_getElem? known))
  · exact start

theorem step_sent (move : Moves s l s') : s'.store.sent = s.store.sent ∨
    ∃ i a event remote reference, l = .work i event ∧ s.attempts[i]? = some a ∧ a.phase = .uploading remote ∧
      s'.store.sent = s.store.sent ++ [⟨i,a.fileId,a.uploadVersion,reference⟩] := by
  cases move with
  | merge _ _ move =>
    cases move with
    | cleans _ _ move | cleaned _ _ move => cases move <;> exact .inl rfl
    | _ => exact .inl rfl
  | aborting _ _ move =>
    cases move with
    | cleans _ move | cleaned _ move | refused _ move => cases move <;> exact .inl rfl
    | _ => exact .inl rfl
  | work found _ _ touch outcome =>
    cases touch with
    | send reference phase => cases outcome <;> exact .inr ⟨_,_,_,_,reference,rfl,found,phase,rfl⟩
    | none | row | persist | unlink | unreceipt => cases outcome <;> exact .inl rfl
  | _ => exact .inl rfl

def settleSession (m : Merge) (done : Bool) (session : Session) : Session :=
  if !(m.settled || (done && m.aborted)) then { session with mergeStatus := if done then .done else .error } else session

def saveFile (file : String × Nat) (session : Session) : Session := { session with saved := some file }

/-- The sessions of `s'` are those of `s`, but for one change. -/
def Changed (s s' : State) (uploadId : String) (change : Session → Session) : Prop :=
  ∀ other, s'.sessions.get other =
    if other = uploadId then (s.sessions.get other).map change else s.sessions.get other

theorem changed_same (uploadId : String) (sessions : s'.sessions = s.sessions) : Changed s s' uploadId id := by
  intro other
  rw [sessions,Option.map_id,id,ite_self]

section
variable (changed : Changed s s' uploadId change)
include changed

theorem changed_here (known : s.sessions.get uploadId = some session) :
    s'.sessions.get uploadId = some (change session) := by
  rw [changed,if_pos rfl,known]
  rfl

theorem changed_other {other : String} (apart : other ≠ uploadId) : s'.sessions.get other = s.sessions.get other := by
  rw [changed,if_neg apart]

theorem changed_back {other : String} {session' : Session} (found : s'.sessions.get other = some session') :
    other ≠ uploadId ∧ s.sessions.get other = some session' ∨
      other = uploadId ∧ ∃ session, s.sessions.get uploadId = some session ∧ session' = change session := by
  by_cases here : other = uploadId
  · subst here
    rw [changed,if_pos rfl] at found
    obtain ⟨session,known,eq⟩ := Option.map_eq_some_iff.mp found
    exact .inr ⟨rfl,session,known,eq.symm⟩
  · rw [changed_other changed here] at found
    exact .inl ⟨here,found⟩

end

theorem changed_modify
    (sessions : s'.sessions = s.sessions.modify uploadId change) : Changed s s' uploadId change := by
  intro other
  rw [sessions,get_modify]

theorem changed_settle {done : Bool} {t : State} (first : t.sessions = s.sessions)
    (sessions : s'.sessions = (t.settle m done).sessions) : Changed s s' m.uploadId (settleSession m done) := by
  intro other
  rw [sessions]
  unfold State.settle settleSession
  cases counts : !(m.settled || (done && m.aborted)) with
  | true =>
    rw [← first]
    exact get_modify _ _ _ _
  | false => simp [first]

theorem changed_settle_modify {done : Bool} {t : State}
    (first : t.sessions = s.sessions.modify m.uploadId change) (sessions : s'.sessions = (t.settle m done).sessions) :
    Changed s s' m.uploadId (settleSession m done ∘ change) := by
  intro other
  have second := changed_settle rfl sessions other
  rw [first,get_modify] at second
  split_ifs at second ⊢ with here
  · rw [second,Option.map_map]
  · exact second

theorem cleans_sessions {answer : Cleaning ⊕ Bool}
    (move : Cleans s f v c s' answer) : s'.sessions = s.sessions := by
  cases move <;> rfl

/-! ### Merges and their sessions -/

inductive Advances (s s' : State) (session : Session) (m : Merge) : MergeEvent → MergePhase → (Session → Session) → Prop
  | same (event : MergeEvent) : Advances s s' session m event m.phase id
  | failed (event : MergeEvent) (fails : MergePhase.fails m.phase = true) :
      Advances s s' session m event (.ended .failed) (settleSession m false)
  | merged (phase : m.phase = .concatenating) (live : m.aborted = false) :
      Advances s s' session m .go .checkingType (fun session => { session with mergeStatus := .uploading })
  | checked (phase : m.phase = .checkingType) : Advances s s' session m .go .creating id
  | created {fresh tempId fileId : String} {remote : Bool} {t : State} {uploadVersion : Nat} (phase : m.phase = .creating)
      (makes : createProcessingFile s session.overwriteFileId fresh tempId remote = (t,fileId,uploadVersion))
      (rows : s'.store.rows = t.store.rows) (files : s'.files = t.files) :
      Advances s s' session m (.created fresh tempId remote) (.clearing fileId uploadVersion)
        (saveFile (fileId,uploadVersion))
  | createdLate {fresh tempId fileId : String} {remote : Bool} {t : State} {uploadVersion : Nat}
      (phase : m.phase = .creating)
      (makes : createProcessingFile s session.overwriteFileId fresh tempId remote = (t,fileId,uploadVersion))
      (rows : s'.store.rows = t.store.rows) (files : s'.files = t.files) :
      Advances s s' session m (.created fresh tempId remote) (.ended .failed)
        (settleSession m false ∘ saveFile (fileId,uploadVersion))
  | cleared {fileId : String} {uploadVersion : Nat} (event : MergeEvent)
      (phase : m.phase = .clearing fileId uploadVersion) : Advances s s' session m event (.renaming fileId uploadVersion) id
  | renamed {fileId : String} {uploadVersion : Nat} (phase : m.phase = .renaming fileId uploadVersion) :
      Advances s s' session m .go (.renamed fileId uploadVersion) id
  | handedOff {fileId : String} {uploadVersion : Nat} (phase : m.phase = .renamed fileId uploadVersion) :
      Advances s s' session m .go (.freeing fileId uploadVersion) (fun session => { session with handedOff := true })
  | freed {fileId : String} {uploadVersion : Nat} (phase : m.phase = .freeing fileId uploadVersion) :
      Advances s s' session m .go (.adding fileId uploadVersion) id
  | unqueued {fileId : String} {uploadVersion : Nat} {stored : Bool} (phase : m.phase = .adding fileId uploadVersion) :
      Advances s s' session m (.added stored false) (.ended .unqueued) (settleSession m false)
  | queued {fileId : String} {uploadVersion : Nat} {stored : Bool} {next : MergePhase}
      (phase : m.phase = .adding fileId uploadVersion)
      (goesOn : next = .sweeping fileId uploadVersion ∨ next = .removingJob fileId uploadVersion) :
      Advances s s' session m (.added stored true) next id
  | unjobbed {fileId : String} {uploadVersion : Nat} (event : MergeEvent)
      (phase : m.phase = .removingJob fileId uploadVersion) :
      Advances s s' session m event (.cleaning fileId uploadVersion .looking) id
  | cleans {fileId : String} {uploadVersion : Nat} {c c' : Cleaning} (event : MergeEvent)
      (phase : m.phase = .cleaning fileId uploadVersion c)
      (unlinked : c' = .unreceipting true → s'.store.pending.get fileId = none) :
      Advances s s' session m event (.cleaning fileId uploadVersion c') id
  | cleaned {fileId : String} {uploadVersion : Nat} {c : Cleaning} (event : MergeEvent)
      (phase : m.phase = .cleaning fileId uploadVersion c) :
      Advances s s' session m event (.ended .failed) (settleSession m false)
  | swept {fileId : String} {uploadVersion : Nat} (event : MergeEvent)
      (phase : m.phase = .sweeping fileId uploadVersion) :
      Advances s s' session m event (.ended .done) (settleSession m true)

theorem cleans_merges {answer : Cleaning ⊕ Bool}
    (move : Cleans s f v c s' answer) : s'.merges = s.merges := by
  cases move <;> rfl

theorem cleans_unlinked {c' : Cleaning} (move : Cleans s f v c s' (.inl c'))
    (removed : c' = .unreceipting true) : s'.store.pending.get f = none := by
  subst removed
  cases move
  exact get_delete_same _ _

theorem merges_advance {event : MergeEvent}
    (found : s.merges[n]? = some m) (move : Merges s n m session event s') :
    ∃ phase change, Advances s s' session m event phase change ∧ s'.merges = s.merges.set n { m with phase } ∧
      Changed s s' m.uploadId change := by
  cases move with
  | stay =>
    refine ⟨m.phase,id,.same event,?_,changed_same _ rfl⟩
    obtain ⟨known,rfl⟩ := List.getElem?_eq_some_iff.mp found
    exact (List.set_getElem_self known).symm
  | failed _ fails => exact ⟨_,_,.failed _ fails,rfl,changed_settle rfl rfl⟩
  | merged phase live => exact ⟨_,_,.merged phase live,rfl,changed_modify rfl⟩
  | checked phase => exact ⟨_,_,.checked phase,rfl,changed_same _ rfl⟩
  | created phase makes => exact ⟨_,_,.created phase makes rfl rfl,rfl,changed_modify rfl⟩
  | createdLate phase makes => exact ⟨_,_,.createdLate phase makes rfl rfl,rfl,changed_settle_modify rfl rfl⟩
  | cleared _ _ phase => exact ⟨_,_,.cleared _ phase,rfl,changed_same _ rfl⟩
  | renamed phase => exact ⟨_,_,.renamed phase,rfl,changed_same _ rfl⟩
  | handedOff phase => exact ⟨_,_,.handedOff phase,rfl,changed_modify rfl⟩
  | freedLate phase => exact ⟨_,_,.failed _ (by rw [phase]; rfl),rfl,changed_settle rfl rfl⟩
  | transferred phase | passed phase => exact ⟨_,_,.freed phase,rfl,changed_same _ rfl⟩
  | unqueued phase => exact ⟨_,_,.unqueued phase,rfl,changed_settle rfl rfl⟩
  | queued phase _ goesOn => exact ⟨_,_,.queued phase goesOn,rfl,changed_same _ rfl⟩
  | jobKept _ phase | jobRemoved phase => exact ⟨_,_,.unjobbed _ phase,rfl,changed_same _ rfl⟩
  | cleans _ phase move =>
    exact ⟨_,_,.cleans _ phase (fun removed => (cleans_unlinked move removed :)),congrArg (List.set · n _) ((cleans_merges move :)),
      changed_same _ ((cleans_sessions move :))⟩
  | cleaned _ phase move =>
    exact ⟨_,_,.cleaned _ phase,congrArg (List.set · n _) ((cleans_merges move :)),
      changed_settle ((cleans_sessions move :)) rfl⟩
  | swept phase | unswept phase => exact ⟨_,_,.swept _ phase,rfl,changed_settle rfl rfl⟩

structure Advance (s : State) (l : Label) (s' : State) (n : Nat) (m : Merge) (session : Session) (event : MergeEvent)
    (phase : MergePhase) (change : Session → Session) : Prop where
  label : l = .merge n event
  found : s.merges[n]? = some m
  known : s.sessions.get m.uploadId = some session
  advances : Advances s s' session m event phase change
  merges : s'.merges = s.merges.set n { m with phase }
  changed : Changed s s' m.uploadId change

inductive Change (s : State) : Label → String → (Session → Session) → Prop
  | register (uploadId : String) :
      Change s (.register uploadId) uploadId (fun session => { session with listed := true, init := .opening })
  | refuse (uploadId : String) : Change s (.refuse uploadId) uploadId (fun session => { session with init := .failed })
  | opened (uploadId : String) :
      Change s (.opened uploadId true) uploadId (fun session => { session with init := .returned })
  | unopened (uploadId : String) :
      Change s (.opened uploadId false) uploadId (fun session => { session with listed := false, init := .failed })
  | trigger (uploadId : String) :
      Change s (.trigger uploadId) uploadId (fun session => { session with mergeStatus := .merging })
  | deadline {n : Nat} {m : Merge} (found : s.merges[n]? = some m) (going : ∀ how, m.phase ≠ .ended how) :
      Change s (.deadline n) m.uploadId (settleSession m false)
  | cancelled {n : Nat} {a : Abort} {ok : Bool} (found : s.aborts[n]? = some a) :
      Change s (.aborting n ok) a.uploadId (fun session => { session with listed := false })
  | reclaim (uploadId : String) :
      Change s (.reclaim uploadId) uploadId (fun session => { session with reclaiming := true })
  | reclaimed {n : Nat} {r : Reclaim} (found : s.reclaims[n]? = some r) :
      Change s (.reclaiming n true) r.uploadId (fun session => { session with listed := false })
  | unreclaimed {n : Nat} {r : Reclaim} (found : s.reclaims[n]? = some r) :
      Change s (.reclaiming n false) r.uploadId (fun session => { session with reclaiming := false })
  | timer (uploadId : String) :
      Change s (.timer uploadId) uploadId (fun session => { session with listed := false })

inductive Signalled (m : Merge) : Merge → Prop
  | same : Signalled m m
  | aborted : Signalled m { m with aborted := true }
  | settled (going : ∀ how, m.phase ≠ .ended how) : Signalled m { m with aborted := true, settled := true }

theorem signalled_same {m' : Merge} (signalled : Signalled m m') : m'.uploadId = m.uploadId ∧ m'.phase = m.phase := by
  cases signalled <;> exact ⟨rfl,rfl⟩

/-- A step that is not one of a merge: merges stay where they are, and a new one may begin. -/
structure Aside (s : State) (l : Label) (s' : State) : Prop where
  stay : ∀ (n : Nat) m, s.merges[n]? = some m → ∃ m', s'.merges[n]? = some m' ∧ Signalled m m'
  merges : ∀ n m', s'.merges[n]? = some m' →
    (∃ m, s.merges[n]? = some m ∧ Signalled m m') ∨
    ∃ uploadId, l = .trigger uploadId ∧ n = s.merges.length ∧ m' = ⟨uploadId,false,false,.concatenating⟩ ∧
      Changed s s' uploadId (fun session => { session with mergeStatus := .merging })
  sessions : s'.sessions = s.sessions ∨ (∃ uploadId change, Change s l uploadId change ∧ Changed s s' uploadId change) ∨
    ∃ uploadId strictDiskLease overwriteFileId, l = .init uploadId strictDiskLease overwriteFileId ∧
      s'.sessions = s.sessions.set uploadId (newSession strictDiskLease overwriteFileId)

theorem aside_of_merges (merges : s'.merges = s.merges) (sessions : s'.sessions = s.sessions ∨
    (∃ uploadId change, Change s l uploadId change ∧ Changed s s' uploadId change) ∨
    ∃ uploadId strictDiskLease overwriteFileId, l = .init uploadId strictDiskLease overwriteFileId ∧
      s'.sessions = s.sessions.set uploadId (newSession strictDiskLease overwriteFileId)) : Aside s l s' :=
  ⟨fun n m found => ⟨m,by rwa [merges],.same⟩,fun n m' found => .inl ⟨m',by rwa [← merges],.same⟩,sessions⟩

theorem cancels_aside {a : Abort} {ok : Bool} (found : s.aborts[n]? = some a)
    (move : Cancels s n a session s') : Aside s (.aborting n ok) s' := by
  cases move with
  | stay | looks | removed => exact aside_of_merges rfl (.inl rfl)
  | delists => exact aside_of_merges rfl (.inr (.inl ⟨_,_,.cancelled found,changed_modify rfl⟩))
  | cleans _ move | refused _ move =>
    exact aside_of_merges ((cleans_merges move :)) (.inl ((cleans_sessions move :)))
  | @cleaned _ _ _ t _ move =>
    have same : t.sessions = s.sessions := cleans_sessions move
    refine aside_of_merges ((cleans_merges move :)) (.inr (.inl ⟨_,_,.cancelled found,changed_modify ?_⟩))
    simp only [State.setAbort,State.delist,State.onSession,same]

theorem abortMerges_at (uploadId : String) (aborts : List Abort) (n : Nat) :
    ({ s.abortMerges uploadId with aborts }).merges[n]? = (s.merges[n]?).map (fun m =>
      if m.uploadId = uploadId && m.running then { m with aborted := true } else m) :=
  List.getElem?_map

theorem advance_or_aside (move : Moves s l s') :
    (∃ n m session event phase change, Advance s l s' n m session event phase change) ∨ Aside s l s' := by
  cases move with
  | @merge n m session event _ found known move =>
    obtain ⟨phase,change,advances,merges,changed⟩ := merges_advance found move
    exact .inl ⟨n,m,session,event,phase,change,rfl,found,known,advances,merges,changed⟩
  | init => exact .inr (aside_of_merges rfl (.inr (.inr ⟨_,_,_,rfl,rfl⟩)))
  | register => exact .inr (aside_of_merges rfl (.inr (.inl ⟨_,_,.register _,changed_modify rfl⟩)))
  | refuse => exact .inr (aside_of_merges rfl (.inr (.inl ⟨_,_,.refuse _,changed_modify rfl⟩)))
  | opened => exact .inr (aside_of_merges rfl (.inr (.inl ⟨_,_,.opened _,changed_modify rfl⟩)))
  | unopened => exact .inr (aside_of_merges rfl (.inr (.inl ⟨_,_,.unopened _,changed_modify rfl⟩)))
  | trigger uploadId =>
    refine .inr ⟨fun n m found => ?_,fun n m' found => ?_,.inr (.inl ⟨_,_,.trigger _,changed_modify rfl⟩)⟩
    · have known := at_lt found
      exact ⟨m,by rw [List.getElem?_append_left known,found],.same⟩
    · rcases at_of_append found with old | ⟨here,rfl⟩
      · exact .inl ⟨m',old,.same⟩
      · exact .inr ⟨uploadId,rfl,here,rfl,changed_modify rfl⟩
  | @deadline k x at_k going =>
    refine .inr ⟨fun n m found => ?_,fun n m' found => ?_,.inr (.inl ⟨_,_,.deadline at_k going,changed_settle rfl rfl⟩)⟩
    · by_cases here : n = k
      · subst here
        cases found.symm.trans at_k
        exact ⟨_,at_set at_k,.settled going⟩
      · exact ⟨m,by rw [List.getElem?_set_ne (Ne.symm here),found],.same⟩
    · rcases at_of_set found with ⟨rfl,rfl⟩ | ⟨_,old⟩
      · exact .inl ⟨_,at_k,.settled going⟩
      · exact .inl ⟨m',old,.same⟩
  | abort uploadId =>
    refine .inr ⟨fun n m found => ⟨_,by rw [abortMerges_at,found]; rfl,?_⟩,fun n m' found => .inl ?_,.inl rfl⟩
    · dsimp only
      split_ifs
      · exact .aborted
      · exact .same
    · rw [abortMerges_at] at found
      obtain ⟨m,old,eq⟩ := Option.map_eq_some_iff.mp found
      refine ⟨m,old,?_⟩
      subst eq
      split_ifs
      · exact .aborted
      · exact .same
  | aborting found _ move => exact .inr (cancels_aside found move)
  | reclaim => exact .inr (aside_of_merges rfl (.inr (.inl ⟨_,_,.reclaim _,changed_modify rfl⟩)))
  | reclaimed found => exact .inr (aside_of_merges rfl (.inr (.inl ⟨_,_,.reclaimed found,changed_modify rfl⟩)))
  | unreclaimed found => exact .inr (aside_of_merges rfl (.inr (.inl ⟨_,_,.unreclaimed found,changed_modify rfl⟩)))
  | timer => exact .inr (aside_of_merges rfl (.inr (.inl ⟨_,_,.timer _,changed_modify rfl⟩)))
  | _ => exact .inr (aside_of_merges rfl (.inl rfl))

inductive AbortAdvances (session : Session) : AbortPhase → AbortPhase → Prop
  | looks {fileId : String} {uploadVersion : Nat} (saved : session.saved = some (fileId,uploadVersion))
      (handedOff : session.handedOff = true) : AbortAdvances session .cancelling (.cleaning fileId uploadVersion .looking)
  | delists : AbortAdvances session .cancelling .removing
  | cleans (fileId : String) (uploadVersion : Nat) (c c' : Cleaning) :
      AbortAdvances session (.cleaning fileId uploadVersion c) (.cleaning fileId uploadVersion c')
  | cleaned (fileId : String) (uploadVersion : Nat) (c : Cleaning) :
      AbortAdvances session (.cleaning fileId uploadVersion c) .removing
  | refused (fileId : String) (uploadVersion : Nat) (c : Cleaning) :
      AbortAdvances session (.cleaning fileId uploadVersion c) (.ended (c ≠ .looking))
  | removed : AbortAdvances session .removing (.ended false)

theorem cleans_aborts {answer : Cleaning ⊕ Bool}
    (move : Cleans s f v c s' answer) : s'.aborts = s.aborts := by
  cases move <;> rfl

theorem cancels_advance {a : Abort} (move : Cancels s n a session s') :
    s' = s ∨ ∃ phase, AbortAdvances session a.phase phase ∧ s'.aborts = s.aborts.set n { a with phase } := by
  cases move with
  | stay => exact .inl rfl
  | looks phase saved handedOff => exact .inr ⟨_,phase ▸ .looks saved handedOff,rfl⟩
  | delists phase => exact .inr ⟨_,phase ▸ .delists,rfl⟩
  | cleans phase move => exact .inr ⟨_,phase ▸ .cleans _ _ _ _,congrArg (List.set · n _) (cleans_aborts move)⟩
  | @cleaned _ _ _ t phase move =>
    exact .inr ⟨_,phase ▸ .cleaned _ _ _,congrArg (List.set · n _) (show t.aborts = s.aborts from cleans_aborts move)⟩
  | refused phase move => exact .inr ⟨_,phase ▸ .refused _ _ _,congrArg (List.set · n _) (cleans_aborts move)⟩
  | removed _ phase => exact .inr ⟨_,phase ▸ .removed,rfl⟩

theorem step_aborts {a' : Abort} (move : Moves s l s') (found : s'.aborts[n]? = some a') :
    s.aborts[n]? = some a' ∨
    (∃ a session ok, s.aborts[n]? = some a ∧ a'.uploadId = a.uploadId ∧ l = .aborting n ok ∧
      s.sessions.get a.uploadId = some session ∧ AbortAdvances session a.phase a'.phase) ∨
    ∃ uploadId, l = .abort uploadId ∧ a' = ⟨uploadId,.cancelling⟩ := by
  cases move with
  | merge _ _ move =>
    cases move with
    | cleans _ _ move | cleaned _ _ move =>
      have old : s.aborts[n]? = some a' := cleans_aborts move ▸ found
      exact .inl old
    | _ => exact .inl found
  | abort uploadId =>
    rcases at_of_append found with old | ⟨here,rfl⟩
    · exact .inl old
    · exact .inr (.inr ⟨uploadId,rfl,rfl⟩)
  | @aborting _ a session ok _ at_n known move =>
    rcases cancels_advance move with rfl | ⟨phase,advances,aborts⟩
    · exact .inl found
    · rw [aborts] at found
      rcases at_of_set found with ⟨rfl,rfl⟩ | ⟨_,old⟩
      · exact .inr (.inl ⟨a,session,ok,at_n,rfl,rfl,known,advances⟩)
      · exact .inl old
  | _ => exact .inl found

theorem release_some {lease : Option Lease} {key : LeaseKey} (kept : release lease key = some lease') :
    lease = some lease' ∧ lease'.key ≠ key := by
  obtain ⟨held,other⟩ := Option.filter_eq_some_iff.mp kept
  exact ⟨held,by simpa using other⟩

theorem transferJobToSession_some {lease : Option Lease}
    (moves : transferJobToSession lease uploadId fileId uploadVersion = some lease') :
    ∃ old, lease = some old ∧ (old.key = .job fileId uploadVersion ∧ lease' = { old with key := .session uploadId } ∨
      old.key ≠ .job fileId uploadVersion ∧ lease' = old) := by
  obtain ⟨old,held,eq⟩ := Option.map_eq_some_iff.mp moves
  refine ⟨old,held,?_⟩
  split_ifs at eq with key
  · exact .inl ⟨key,eq.symm⟩
  · exact .inr ⟨key,eq.symm⟩

theorem cleans_lease {answer : Cleaning ⊕ Bool}
    (move : Cleans s f v c s' answer) (held : s'.store.activeLease = some lease') : s.store.activeLease = some lease' := by
  cases move with
  | released => exact (release_some held).1
  | kept | unqueued | marked | unmarked | unlinked | stuck | unreceipted => exact held

/-- Where a lease comes from: a new session, the queue, or the session again when the job could not be added. -/
inductive LeaseFrom (s : State) (l : Label) (s' : State) (lease' : Lease) : Prop
  | kept (held : s.store.activeLease = some lease')
  | acquired {uploadId : String} {overwriteFileId : Option String} (label : l = .init uploadId true overwriteFileId)
      (eq : lease' = ⟨.session uploadId,uploadId⟩)
      (sessions : s'.sessions = s.sessions.set uploadId (newSession true overwriteFileId))
  | transferred {n : Nat} {m : Merge} {session : Session} {f : String} {v : Nat} {lease : Lease}
      (found : s.merges[n]? = some m) (phase : m.phase = .freeing f v) (known : s.sessions.get m.uploadId = some session)
      (strict : session.strictDiskLease = true) (held : s.store.activeLease = some lease)
      (key : lease.key = .session m.uploadId) (eq : lease' = { lease with key := .job f v })
      (after : s'.merges[n]? = some { m with phase := .adding f v }) (sessions : s'.sessions = s.sessions)
      (dirs : s'.dirs = s.dirs.filter (· ≠ m.uploadId))
  | returned {n : Nat} {m : Merge} {f : String} {v : Nat} {lease : Lease} (found : s.merges[n]? = some m)
      (phase : m.phase = .adding f v) (held : s.store.activeLease = some lease) (key : lease.key = .job f v)
      (eq : lease' = { lease with key := .session m.uploadId })
      (after : s'.merges[n]? = some { m with phase := .ended .unqueued })

theorem step_lease (move : Moves s l s') (held : s'.store.activeLease = some lease') :
    LeaseFrom s l s' lease' := by
  cases move with
  | init uploadId strictDiskLease overwriteFileId =>
    cases strictDiskLease with
    | true =>
      cases held
      exact .acquired rfl rfl rfl
    | false => exact .kept held
  | refuse | unopened | sweepOrphan => exact .kept (release_some held).1
  | merge found known move =>
    cases move with
    | transferred phase strict lease key =>
      cases held
      exact .transferred found phase known strict lease key rfl (at_set found) rfl rfl
    | unqueued phase =>
      obtain ⟨old,before,⟨key,eq⟩ | ⟨_,rfl⟩⟩ := transferJobToSession_some held
      · exact .returned found phase before key eq (at_set found)
      · exact .kept before
    | cleans _ _ move | cleaned _ _ move => exact .kept (cleans_lease move held)
    | _ => exact .kept held
  | aborting _ _ move =>
    cases move with
    | cleans _ move | cleaned _ move | refused _ move => exact .kept (cleans_lease move held)
    | removed => exact .kept (release_some held).1
    | _ => exact .kept held
  | @reclaimed _ _ session =>
    split_ifs at held
    · exact .kept (release_some held).1
    · exact .kept held
  | @timer _ session =>
    split_ifs at held
    · exact .kept (release_some held).1
    · exact .kept held
  | work _ _ _ touch outcome =>
    cases outcome with
    | keep => cases touch <;> exact .kept held
    | giveBack => cases touch <;> exact .kept (release_some held).1
  | _ => exact .kept held

end
end Tgtc.UploadMoves
