import Tgtc.UploadCustody

/-!
The version of an upload as a fence between attempts. An attempt commits into the row only while the row is at its
version, and only a reference that was uploaded for this version; a receipt on disk keeps later attempts from
uploading again.
-/
namespace Tgtc.VersionFence
open Maps Runs UploadWorker UploadSystem UploadMoves UploadCustody

/-- The row is committed and has a reference for its backend. -/
def Complete (row : Row) : Prop := isCommitted row = true ∧ hasReference row.remote row.reference = true

instance (row : Row) : Decidable (Complete row) := inferInstanceAs (Decidable (_ ∧ _))

/-- The version fence, for whatever comes next. -/
structure Fenced (s : State) : Prop where
  commit : ∀ (i : Nat) a remote receipt event f, s.attempts[i]? = some a → a.phase = .committing remote receipt →
    (step s (.work i event)).store.rows.get f = s.store.rows.get f ∨
      f = a.fileId ∧ ∃ row, s.store.rows.get f = some row ∧ row.uploadVersion = a.uploadVersion ∧
        (step s (.work i event)).store.rows.get f = some (commitRow remote receipt row)
  /-- what it writes is stamped with the version and was uploaded by an attempt of the version -/
  source : ∀ (i : Nat) a remote receipt, s.attempts[i]? = some a → a.phase = .committing remote receipt →
    receipt.uploadVersion = a.uploadVersion ∧ ∃ e ∈ s.store.sent, e.reference = receipt.reference ∧
      ∃ sender, s.attempts[e.attempt]? = some sender ∧ sender.fileId = a.fileId ∧ sender.uploadVersion = a.uploadVersion
  ready : ∀ i event f row row', s.store.rows.get f = some row → row.status ≠ .ready →
    (step s (.work i event)).store.rows.get f = some row' → row'.status = .ready → Complete row'
  /-- as long as there is a receipt of a version, only attempts that were uploading already upload for it -/
  once : ∀ f v s', (loadReceipt s.store f v).isSome = true →
    Reachable step (fun t l => Allowed t l ∧ (loadReceipt (step t l).store f v).isSome = true) s s' →
    ∃ more, s'.store.sent = s.store.sent ++ more ∧ ∀ e ∈ more, e.fileId = f → e.uploadVersion = v →
      ∃ a remote, s.attempts[e.attempt]? = some a ∧ a.phase = .uploading remote

def closing : Phase → Bool
  | .finishing | .readying => true
  | _ => false

/-- The file whose row is marked as failed or as recoverable. -/
def spoils (s : State) : Label → Option String
  | .work i .go | .work i .lost => (s.attempts[i]?).bind fun a =>
    if a.phase.spoils && (s.store.rows.get a.fileId).any (fun row => row.uploadVersion = a.uploadVersion) then
      some a.fileId
    else none
  | .merge n _ => (s.merges[n]?).bind fun m =>
    match m.phase with
    | .cleaning fileId _ .marking => some fileId
    | _ => none
  | .aborting n _ => (s.aborts[n]?).bind fun a =>
    match a.phase with
    | .cleaning fileId _ .marking => some fileId
    | _ => none
  | .markFailed fileId => some fileId
  | _ => none

/-- A row is marked as failed or as recoverable while no attempt of its version is closing. -/
def Orderly (s : State) (l : Label) : Prop :=
  ∀ f ∈ spoils s l, ∀ a ∈ s.attempts, a.fileId = f → closing a.phase = true →
    ∀ row ∈ s.store.rows.get f, row.uploadVersion ≠ a.uploadVersion

instance (s : State) (l : Label) : Decidable (Orderly s l) := by
  unfold Orderly
  infer_instance

def backend : Phase → Option Bool
  | .checking remote _ | .claiming remote _ | .reloading remote | .loading remote | .uploading remote
  | .persisting remote _ | .committing remote _ | .rereading remote => some remote
  | .releasing _ => some false
  | _ => none

def stageFound : Phase → Option Stage
  | .checking _ stage | .claiming _ stage => some stage
  | _ => none

def RowOf (s : Store) (a : Attempt) (row : Row) : Prop :=
  s.rows.get a.fileId = some row ∧ row.uploadVersion = a.uploadVersion

def Referenced (phase : Phase) : Prop :=
  ∀ remote receipt, phase = .committing remote receipt → hasReference remote receipt.reference = true

def Uncommitted (phase : Phase) : Prop :=
  ∀ stage, stageFound phase = some stage → stage ≠ .remoteCommitted ∧ stage ≠ .committed

structure Fence (s : State) : Prop where
  custody : Custody s
  backend : ∀ a ∈ s.attempts, ∀ remote row, backend a.phase = some remote → RowOf s.store a row → row.remote = remote
  referenced : ∀ a ∈ s.attempts, Referenced a.phase
  uncommitted : ∀ a ∈ s.attempts, Uncommitted a.phase
  sentBy : ∀ e ∈ s.store.sent, ∃ a, s.attempts[e.attempt]? = some a ∧ a.fileId = e.fileId ∧
    a.uploadVersion = e.uploadVersion

def Closing (s : State) : Prop :=
  ∀ a ∈ s.attempts, ∀ row, closing a.phase = true → RowOf s.store a row → Complete row

section
variable {s : Store} {i : Nat} {a : Attempt} {event : Event} {t : Store} {phase : Phase}

section
variable (turn : Turn s i a t event phase)
include turn

theorem turn_backend {remote : Bool} (works : backend phase = some remote) :
    backend a.phase = some remote ∨ ∃ row, RowOf s a row ∧ row.remote = remote := by
  cases turn with
  | same => exact .inl works
  | found _ known version _ | resumed _ known version =>
    cases works
    exact .inr ⟨_,⟨known,version⟩,rfl⟩
  | present phase | claimed phase | reloaded phase | unsent phase | sent phase | committed phase | released phase =>
    refine .inl ?_
    rw [phase]
    exact works
  | releasing source | committing source =>
    refine .inl ?_
    rcases source with ⟨_,phase⟩ | phase <;> rw [phase] <;> exact works
  | closes _ _ _ _ _ goesOn => rcases goesOn with rfl | rfl <;> cases works
  | _ => cases works

theorem turn_stage {stage : Stage} (finds : stageFound phase = some stage) :
    stageFound a.phase = some stage ∨ stage ≠ .remoteCommitted ∧ stage ≠ .committed := by
  cases turn with
  | same => exact .inl finds
  | found _ _ _ uncommitted =>
    cases finds
    simp only [isCommitted,Bool.or_eq_false_iff,decide_eq_false_iff_not] at uncommitted
    exact .inr uncommitted
  | present phase =>
    rw [phase]
    exact .inl finds
  | closes _ _ _ _ _ goesOn => rcases goesOn with rfl | rfl <;> cases finds
  | _ => cases finds

theorem turn_committing {remote : Bool} {receipt : Receipt} (commits : phase = .committing remote receipt) :
    a.phase = .committing remote receipt ∨ hasReference remote receipt.reference = true := by
  cases turn with
  | same => exact .inl commits
  | committing _ referenced =>
    cases commits
    exact .inr referenced
  | closes _ _ _ _ _ goesOn => rcases goesOn with rfl | rfl <;> cases commits
  | _ => cases commits

theorem turn_closing (closes : closing phase = true) :
    closing a.phase = true ∨ ∃ remote row, a.phase = .rereading remote ∧ RowOf s a row ∧ isCommitted row = true ∧
      hasReference remote row.reference = true := by
  cases turn with
  | same => exact .inl closes
  | closes phase known version committed referenced => exact .inr ⟨_,_,phase,⟨known,version⟩,committed,referenced⟩
  | finished _ phase =>
    rw [phase]
    exact .inl rfl
  | _ => cases closes

theorem turn_uploading {remote : Bool} (uploads : phase = .uploading remote) :
    a.phase = .uploading remote ∨ loadReceipt s a.fileId a.uploadVersion = none := by
  cases turn with
  | same => exact .inl uploads
  | unsent _ absent => exact .inr absent
  | closes _ _ _ _ _ goesOn => rcases goesOn with rfl | rfl <;> cases uploads
  | _ => cases uploads

end

theorem commitRow_complete {remote : Bool} {receipt : Receipt} {row : Row} (same : row.remote = remote)
    (referenced : hasReference remote receipt.reference = true) : Complete (commitRow remote receipt row) := by
  refine ⟨rfl,?_⟩
  subst same
  unfold commitRow
  cases remote : row.remote with
  | true | false =>
    rw [remote] at referenced
    simpa [hasReference] using referenced

end

section
variable {s s' : State} {l : Label} {f : String} {row' : Row}

/-- A row after a step: it is new, or it has been marked, or it is as complete as before. -/
def Came (s : State) (l : Label) (f : String) (row' : Row) : Prop :=
  Fresh s f row'.uploadVersion ∨ ∃ row, s.store.rows.get f = some row ∧ row'.uploadVersion = row.uploadVersion ∧
    row'.remote = row.remote ∧ (spoils s l = some f ∨ (Complete row → Complete row'))

theorem came_same (found : s.store.rows.get f = some row') : Came s l f row' := .inr ⟨row',found,rfl,rfl,.inr id⟩

variable {i : Nat} {a : Attempt} {v : Nat} {event : Event} {row : Row} {fileId : String} {remote : Bool}

theorem came_work (fence : Fence s) (at_i : s.attempts[i]? = some a)
    (effect : event = .go ∨ event = .lost) (here : RowOf s.store a row) (rewrite : Rewrite a row row') :
    Came s (.work i event) a.fileId row' := by
  refine .inr ⟨row,here.1,rewrite_version rewrite,rewrite_remote rewrite,?_⟩
  have member := List.mem_of_getElem? at_i
  have marks : a.phase.spoils = true → spoils s (.work i event) = some a.fileId := by
    intro phase
    rcases effect with rfl | rfl <;> simp [spoils,at_i,phase,here.1,here.2]
  cases rewrite with
  | claim phase =>
    have unclaimed := fence.uncommitted a member row.uploadStage (by rw [phase]; rfl)
    refine .inr fun complete => ?_
    simp [Complete,isCommitted,unclaimed.1,unclaimed.2] at complete
  | commit phase =>
    exact .inr fun _ => commitRow_complete (fence.backend a member _ row (by rw [phase]; rfl) here)
      (fence.referenced a member _ _ phase)
  | fail phase | recover phase => exact .inl (marks phase)
  | finish => exact .inr fun complete => ⟨rfl,complete.2⟩
  | ready => exact .inr fun complete => ⟨complete.1,complete.2⟩

theorem came_cancelled {overwrites : Bool} (known : s.store.rows.get fileId = some row)
    (marks : spoils s l = some fileId) : Came s l fileId (cancelRow overwrites row) := by
  refine .inr ⟨row,known,?_,?_,.inl marks⟩ <;> unfold cancelRow <;> split_ifs <;> rfl

theorem came_cleans {c : Cleaning} {answer : Cleaning ⊕ Bool}
    (move : Cleans s fileId v c s' answer) (marks : c = .marking → spoils s l = some fileId)
    (found : s'.store.rows.get f = some row') : Came s l f row' := by
  cases move with
  | marked overwrites writes =>
    have hit : (update s.store fileId _ _).1.rows.get f = some row' := writes ▸ found
    rcases get_update hit with same | ⟨rfl,row,known,_,rfl⟩
    · exact came_same same
    · exact came_cancelled known (marks rfl)
  | kept | unqueued | unmarked | unlinked | stuck | released | unreceipted => exact came_same found

theorem came_created {t : State} {overwriteFileId : Option String} {fresh tempId : String}
    (unused : fresh ∉ s.files) (makes : createProcessingFile s overwriteFileId fresh tempId remote = (t,fileId,v))
    (found : t.store.rows.get f = some row') : Came s l f row' := by
  obtain ⟨new,_,⟨row,rows,version⟩,_⟩ := createProcessingFile_fresh unused makes
  rw [rows] at found
  rcases get_of_set found with ⟨rfl,rfl⟩ | ⟨_,old⟩
  · rw [← version] at new
    exact .inl new
  · exact came_same old

theorem came_step (fence : Fence s) (move : Moves s l s') (allowed : Allowed s l)
    (found : s'.store.rows.get f = some row') : Came s l f row' := by
  cases move with
  | merge at_n _ move =>
    cases move with
    | created _ makes | createdLate _ makes => exact came_created allowed makes found
    | cleans _ phase move | cleaned _ phase move =>
      refine came_cleans move (fun marking => ?_) found
      rw [marking] at phase
      simp [spoils,at_n,phase]
    | _ => exact came_same found
  | aborting at_n _ move =>
    cases move with
    | cleans phase move | cleaned phase move | refused phase move =>
      refine came_cleans move (fun marking => ?_) found
      rw [marking] at phase
      simp [spoils,at_n,phase]
    | _ => exact came_same found
  | @work i a event t t' phase at_i _ goes touch outcome =>
    have same : t'.rows = t.rows := by
      cases outcome <;> rfl
    have quiet : t'.rows = s.store.rows ∨ event = .go ∨ event = .lost := by
      rw [show t' = (go s.store i a event).1 by rw [goes]]
      exact go_rows event
    rcases quiet with quiet | effect
    · exact came_same (quiet ▸ found)
    have found : t.rows.get f = some row' := same ▸ found
    cases touch with
    | row known version rewrite =>
      rcases get_of_set found with ⟨rfl,rfl⟩ | ⟨_,old⟩
      · exact came_work fence at_i effect ⟨known,version⟩ rewrite
      · exact came_same old
    | none | persist | send | unlink | unreceipt => exact came_same found
  | overwriteSync fileId remote reference writes =>
    have hit : (update s.store fileId _ _).1.rows.get f = some row' := writes ▸ found
    rcases get_update hit with same | ⟨rfl,row,known,_,rfl⟩
    · exact came_same same
    · exact .inl (.inr ⟨row,known,Nat.lt_succ_self _⟩)
  | markFailed fileId writes =>
    have hit : (update s.store fileId _ _).1.rows.get f = some row' := writes ▸ found
    rcases get_update hit with same | ⟨rfl,row,known,_,rfl⟩
    · exact came_same same
    · exact .inr ⟨row,known,rfl,rfl,.inl rfl⟩
  | markReady fileId writes =>
    have hit : (update s.store fileId _ _).1.rows.get f = some row' := writes ▸ found
    rcases get_update hit with same | ⟨rfl,row,known,_,rfl⟩
    · exact came_same same
    · exact .inr ⟨row,known,rfl,rfl,.inr fun complete => complete⟩
  | deleteRow => exact came_same (get_of_delete found).2
  | _ => exact came_same found

section
variable (fence : Fence s) (move : Moves s l s')
include fence move

theorem rowOf_back {a' : Attempt} (allowed : Allowed s l)
    (member : a ∈ s.attempts) (file : a'.fileId = a.fileId) (version : a'.uploadVersion = a.uploadVersion)
    (here : RowOf s'.store a' row') :
    ∃ row, RowOf s.store a row ∧ row'.remote = row.remote ∧ (spoils s l = some a.fileId ∨ (Complete row → Complete row')) := by
  obtain ⟨found,at_version⟩ := here
  rw [file] at found
  rw [version] at at_version
  rcases came_step fence move allowed found with fresh | ⟨row,known,same,remote,rest⟩
  · rw [at_version] at fresh
    exact absurd (.attempt member rfl rfl) (not_mentioned_of_fresh fence.custody fresh)
  · exact ⟨row,⟨known,same.symm.trans at_version⟩,remote,rest⟩

theorem backend_step (allowed : Allowed s l) {a' : Attempt}
    (member : a' ∈ s'.attempts) (works : backend a'.phase = some remote) (here : RowOf s'.store a' row') :
    row'.remote = remote := by
  obtain ⟨i,at_i⟩ := List.getElem?_of_mem member
  rcases step_attempts move at_i with ⟨a,known,file,version,same | ⟨event,_,turn⟩⟩ | ⟨_,_,_,_,_,_,rfl⟩
  · subst same
    have old := List.mem_of_getElem? known
    obtain ⟨row,rowOf,remote',_⟩ := rowOf_back fence move allowed old rfl rfl here
    exact remote'.trans (fence.backend a' old remote row works rowOf)
  · have old := List.mem_of_getElem? known
    obtain ⟨row,rowOf,remote',_⟩ := rowOf_back fence move allowed old file version here
    rcases turn_backend turn works with worked | ⟨row₁,rowOf₁,rfl⟩
    · exact remote'.trans (fence.backend a old remote row worked rowOf)
    · cases rowOf.1.symm.trans rowOf₁.1
      exact remote'
  · cases works

theorem sentBy_step {e : Sent} (member : e ∈ s'.store.sent) :
    ∃ a, s'.attempts[e.attempt]? = some a ∧ a.fileId = e.fileId ∧ a.uploadVersion = e.uploadVersion := by
  have sender : ∃ a, s.attempts[e.attempt]? = some a ∧ a.fileId = e.fileId ∧ a.uploadVersion = e.uploadVersion := by
    rcases step_sent move with same | ⟨i,a,_,_,_,_,at_i,_,more⟩
    · rw [same] at member
      exact fence.sentBy e member
    rw [more] at member
    rcases List.mem_append.mp member with old | new
    · exact fence.sentBy e old
    · rw [List.mem_singleton] at new
      subst new
      exact ⟨a,at_i,rfl,rfl⟩
  obtain ⟨a,at_i,file,version⟩ := sender
  obtain ⟨a',at_i',file',version'⟩ := attempts_stay move at_i
  exact ⟨a',at_i',file'.trans file,version'.trans version⟩

end

theorem fence_step (fence : Fence s) (allowed : Allowed s l) : Fence (step s l) := by
  have move : Moves s l (step s l) := step_moves l
  refine ⟨custody_step fence.custody allowed,fun a' member remote row' works here =>
    backend_step fence move allowed member works here,?_,?_,fun e member => sentBy_step fence move member⟩
  · refine step_phases move nofun (fun i a event phase turn (before : Referenced a.phase) remote receipt commits => ?_)
      fence.referenced
    rcases turn_committing turn commits with same | referenced
    · exact before remote receipt same
    · exact referenced
  · refine step_phases move nofun (fun i a event phase turn (before : Uncommitted a.phase) stage finds => ?_)
      fence.uncommitted
    rcases turn_stage turn finds with same | unclaimed
    · exact before stage same
    · exact unclaimed

theorem initial_fence : Fence initial :=
  ⟨initial_custody,nofun,nofun,
    nofun,nofun⟩

theorem not_closing_of_spoils {phase : Phase} (spoils : phase.spoils = true) : closing phase = false := by
  cases phase <;> first | rfl | cases spoils

theorem spoils_work (marked : spoils s (.work i event) = some f)
    (at_i : s.attempts[i]? = some a) : a.phase.spoils = true := by
  cases event <;> simp only [spoils,at_i,Option.bind_some] at marked <;> try cases marked
  all_goals
    split_ifs at marked with marks
    simp only [Bool.and_eq_true] at marks
    exact marks.1

theorem closing_step (fence : Fence s) (closed : Closing s) (move : Moves s l s') (allowed : Allowed s l)
    (orderly : Orderly s l) : Closing s' := by
  intro a' member row' closes here
  obtain ⟨i,at_i⟩ := List.getElem?_of_mem member
  rcases step_attempts move at_i with ⟨a,known,file,version,same | ⟨event,rfl,turn⟩⟩ | ⟨_,_,_,_,_,_,rfl⟩
  · subst same
    have old := List.mem_of_getElem? known
    obtain ⟨row,rowOf,_,marked | kept⟩ := rowOf_back fence move allowed old rfl rfl here
    · exact absurd rowOf.2 (orderly _ marked a' old rfl closes row rowOf.1)
    · exact kept (closed a' old row closes rowOf)
  · have old := List.mem_of_getElem? known
    obtain ⟨row,rowOf,_,marked | kept⟩ := rowOf_back fence move allowed old file version here
    · -- a call that marks the row does not lead to one that closes
      have spoils := spoils_work marked known
      rcases turn_closing turn closes with before | ⟨_,_,phase,_⟩
      · rw [not_closing_of_spoils spoils] at before
        cases before
      · rw [phase] at spoils
        cases spoils
    · refine kept ?_
      rcases turn_closing turn closes with before | ⟨remote,row₁,phase,rowOf₁,committed,referenced⟩
      · exact closed a old row before rowOf
      · cases rowOf.1.symm.trans rowOf₁.1
        rw [← fence.backend a old remote row (by rw [phase]; rfl) rowOf] at referenced
        exact ⟨committed,referenced⟩
  · cases closes

theorem work_cases (event : Event) (found : s.attempts[i]? = some a) :
    step s (.work i event) = s ∨ ∃ t t' phase, (step s (.work i event)).store = t' ∧ Touch s.store i a t ∧
      Outcome a t (t',phase) := by
  generalize eq : step s (.work i event) = s'
  have move : Moves s (.work i event) s' := eq ▸ step_moves _
  cases move with
  | stay => exact .inl rfl
  | work at_i _ _ touch outcome =>
    cases found.symm.trans at_i
    exact .inr ⟨_,_,_,rfl,touch,outcome⟩

theorem fenced_commit {receipt : Receipt}
    (found : s.attempts[i]? = some a) (commits : a.phase = .committing remote receipt) :
    (step s (.work i event)).store.rows.get f = s.store.rows.get f ∨
      f = a.fileId ∧ ∃ row, s.store.rows.get f = some row ∧ row.uploadVersion = a.uploadVersion ∧
        (step s (.work i event)).store.rows.get f = some (commitRow remote receipt row) := by
  rcases work_cases event found with same | ⟨t,t',phase,store,touch,outcome⟩
  · rw [same]
    exact .inl rfl
  have rows : t'.rows = t.rows := by cases outcome <;> rfl
  rw [store,rows]
  cases touch with
  | @row row row' known version rewrite =>
    by_cases here : f = a.fileId
    · subst here
      refine .inr ⟨rfl,row,known,version,?_⟩
      rw [get_set_same]
      cases rewrite with
      | commit phase =>
        cases commits.symm.trans phase
        rfl
      | claim phase | finish phase | ready phase => cases commits.symm.trans phase
      | fail spoils | recover spoils =>
        rw [commits] at spoils
        cases spoils
    · exact .inl (get_set_other _ _ here)
  | none | persist | send | unlink | unreceipt => exact .inl rfl

theorem fenced_ready (closed : Closing s) (known : s.store.rows.get f = some row)
    (before : row.status ≠ .ready) (found : (step s (.work i event)).store.rows.get f = some row')
    (after : row'.status = .ready) : Complete row' := by
  have unchanged : s.store.rows.get f ≠ some row' := by
    intro same
    cases known.symm.trans same
    exact before after
  cases at_i : s.attempts[i]? with
  | none =>
    simp only [step,at_i] at found
    exact absurd found unchanged
  | some a =>
    rcases work_cases event at_i with same | ⟨t,t',phase,store,touch,outcome⟩
    · rw [same] at found
      exact absurd found unchanged
    have rows : t'.rows = t.rows := by cases outcome <;> rfl
    rw [store,rows] at found
    cases touch with
    | @row row₁ row₂ known₁ version rewrite =>
      rcases get_of_set found with ⟨rfl,rfl⟩ | ⟨_,old⟩
      · cases known.symm.trans known₁
        cases rewrite with
        | ready phase =>
          have complete := closed a (List.mem_of_getElem? at_i) row (by rw [phase]; rfl) ⟨known,version⟩
          exact ⟨complete.1,complete.2⟩
        | claim | commit | recover | finish => exact absurd after before
        | fail => cases after
      · exact absurd old unchanged
    | none | persist | send | unlink | unreceipt => exact absurd found unchanged

/-- Since `start` there has been a receipt of the version, and nobody has begun to upload for it. -/
structure Settled (start : State) (f : String) (v : Nat) (s : State) : Prop where
  receipt : (loadReceipt s.store f v).isSome = true
  uploading : ∀ (i : Nat) a remote, s.attempts[i]? = some a → a.fileId = f → a.uploadVersion = v →
    a.phase = .uploading remote → ∃ old, start.attempts[i]? = some old ∧ old.phase = .uploading remote
  sent : ∃ more, s.store.sent = start.store.sent ++ more ∧ ∀ e ∈ more, e.fileId = f → e.uploadVersion = v →
    ∃ a remote, start.attempts[e.attempt]? = some a ∧ a.phase = .uploading remote

theorem settled_start (receipt : (loadReceipt s.store f v).isSome = true) : Settled s f v s :=
  ⟨receipt,fun _ a _ found _ _ uploads => ⟨a,found,uploads⟩,[],(List.append_nil _).symm,nofun⟩

theorem settled_step {start : State} (settled : Settled start f v s)
    (receipt : (loadReceipt (step s l).store f v).isSome = true) : Settled start f v (step s l) := by
  have move : Moves s l (step s l) := step_moves l
  refine ⟨receipt,?_,?_⟩
  · intro i a' remote found file version uploads
    rcases step_attempts move found with ⟨a,known,sameFile,sameVersion,same | ⟨event,_,turn⟩⟩ | ⟨_,_,_,_,_,_,rfl⟩
    · subst same
      exact settled.uploading i a' remote known file version uploads
    · rcases turn_uploading turn uploads with before | absent
      · exact settled.uploading i a remote known (sameFile ▸ file) (sameVersion ▸ version) before
      · have there := settled.receipt
        rw [← file,← version,sameFile,sameVersion,absent] at there
        cases there
    · cases uploads
  · obtain ⟨more,sent,old⟩ := settled.sent
    rcases step_sent move with same | ⟨i,a,_,remote,reference,_,at_i,uploads,grown⟩
    · exact ⟨more,same.trans sent,old⟩
    refine ⟨more ++ [⟨i,a.fileId,a.uploadVersion,reference⟩],by rw [grown,sent,List.append_assoc],fun e member file version => ?_⟩
    rcases List.mem_append.mp member with before | now
    · exact old e before file version
    · rw [List.mem_singleton] at now
      subst now
      obtain ⟨first,found,phase⟩ := settled.uploading i a remote at_i file version uploads
      exact ⟨first,remote,found,phase⟩

theorem fenced_once (receipt : (loadReceipt s.store f v).isSome = true)
    (run : Reachable step (fun t l => Allowed t l ∧ (loadReceipt (step t l).store f v).isSome = true) s s') :
    Settled s f v s' := by
  have base : Settled s f v s := settled_start receipt
  exact reachable_invariant base (fun _ _ settled ok => settled_step settled ok.2) run

structure Guarded (s : State) : Prop where
  fence : Fence s
  closed : Closing s

theorem fenced_of_guarded (guarded : Guarded s) : Fenced s where
  commit _ _ _ _ _ _ found commits := fenced_commit found commits
  source i a remote receipt found commits := by
    obtain ⟨stamp,e,member,file,version,reference⟩ := guarded.fence.custody.inHand a (List.mem_of_getElem? found) receipt
      (by rw [commits]; rfl)
    obtain ⟨sender,at_e,sameFile,sameVersion⟩ := guarded.fence.sentBy e member
    exact ⟨stamp,e,member,reference,sender,at_e,sameFile.trans file,sameVersion.trans version⟩
  ready _ _ _ _ _ known before found after := fenced_ready guarded.closed known before found after
  once _ _ _ receipt run := (fenced_once receipt run).sent

/-- In a run where no row is marked as failed or recoverable while an attempt of its version is closing, the version
fence holds. -/
theorem version_fenced (run : Reachable step (fun s l => Allowed s l ∧ Orderly s l) initial s) : Fenced s := by
  have base : Guarded initial := ⟨initial_fence,nofun⟩
  have keep : ∀ s l, Guarded s → Allowed s l ∧ Orderly s l → Guarded (step s l) := fun s l guarded ok =>
    ⟨fence_step guarded.fence ok.1,closing_step guarded.fence guarded.closed (step_moves l) ok.1 ok.2⟩
  exact fenced_of_guarded (reachable_invariant base keep run)

def twice : List Label :=
  opening "a" false none 0 ++ handingOver 0 "f" ++ queuing 0 ++ [Label.deliver "f" 1,.work 0 .fail,.deliver "f" 1,.work 1 .fail,
    .deliver "f" 1] ++ uploading 2 ++ [Label.deliver "f" 1,.work 3 .go,.work 3 (.seen true),.work 3 .go,.work 3 .go,.work 3 .go,
    .work 2 .go,.work 2 .go,.work 2 .go]

theorem version_fenced_twice : (twice.foldl step initial).attempts[2]? = some ⟨"f",1,false,2,.readying⟩ ∧
    (twice.foldl step initial).attempts[3]? = some ⟨"f",1,false,2,.committing false ⟨⟨"remote",none⟩,true,1⟩⟩ ∧
    Fenced (twice.foldl step initial) :=
  ⟨by decide +kernel,by decide +kernel,version_fenced (reachable_run .start twice (by decide +kernel))⟩

def disturbed : List Label := twice ++ [Label.work 3 .fail,.work 3 .go,.work 3 .go]

theorem recoverable_made_ready : ∃ s, Reached s ∧ ¬Fenced s := by
  refine ⟨disturbed.foldl step initial,reachable_run .start disturbed (by decide +kernel),fun fenced => ?_⟩
  have known : (disturbed.foldl step initial).store.rows.get "f" =
      some ⟨1,.processing,.recoverable,false,⟨"remote",none⟩,false⟩ := by decide +kernel
  have found : (step (disturbed.foldl step initial) (.work 2 .go)).store.rows.get "f" =
      some ⟨1,.ready,.recoverable,false,⟨"remote",none⟩,false⟩ := by decide +kernel
  have complete := fenced.ready 2 .go "f" _ _ known (by decide) found rfl
  revert complete
  decide

end
end Tgtc.VersionFence
