import Tgtc.UploadMoves

/-!
Which uploads there are. A file and a version of it belong to one session, whose merge creates the row at this
version; jobs, attempts, sources and receipts of the version come after that, and the row is never at an earlier one
again.
-/
namespace Tgtc.UploadCustody
open Maps Runs UploadWorker UploadSystem UploadMoves

def Bounded (s : State) (fileId : String) (v : Nat) : Prop :=
  fileId ∈ s.files ∧ ∀ row, s.store.rows.get fileId = some row → v ≤ row.uploadVersion

inductive Mentions (s : State) (fileId : String) (v : Nat) : Prop
  | saved {uploadId : String} {session : Session} (found : s.sessions.get uploadId = some session)
      (saved : session.saved = some (fileId,v))
  | job {job : Job} (found : s.jobs.get (fileId,v) = some job)
  | attempt {a : Attempt} (member : a ∈ s.attempts) (file : a.fileId = fileId) (version : a.uploadVersion = v)
  | pending (found : s.store.pending.get fileId = some v)
  | receipt {receipt : Receipt} (found : s.store.receipts.get fileId = some receipt) (version : receipt.uploadVersion = v)

def Fresh (s : State) (fileId : String) (v : Nat) : Prop :=
  fileId ∉ s.files ∨ ∃ row, s.store.rows.get fileId = some row ∧ row.uploadVersion < v

structure Grows (s s' : State) : Prop where
  files : ∀ f ∈ s.files, f ∈ s'.files
  rows : ∀ f row', s'.store.rows.get f = some row' →
    (∃ row, s.store.rows.get f = some row ∧ row.uploadVersion ≤ row'.uploadVersion) ∨ f ∉ s.files ∧ f ∈ s'.files

section
variable {s s' : State} {fileId : String} {v : Nat}

theorem grows_same (rows : s'.store.rows = s.store.rows) (files : s'.files = s.files) : Grows s s' := by
  refine ⟨fun f member => by rwa [files],fun f row' found => ?_⟩
  rw [rows] at found
  exact .inl ⟨row',found,Nat.le_refl _⟩

theorem grows_update {condition : Row → Bool} {change : Row → Row}
    (rows : s'.store.rows = (update s.store fileId condition change).1.rows) (files : s'.files = s.files)
    (more : ∀ row, row.uploadVersion ≤ (change row).uploadVersion) : Grows s s' := by
  refine ⟨fun f member => by rwa [files],fun f row' found => ?_⟩
  rw [rows] at found
  rcases get_update found with same | ⟨rfl,row,known,_,rfl⟩
  · exact .inl ⟨row',same,Nat.le_refl _⟩
  · exact .inl ⟨row,known,more row⟩

theorem grows_touch {i : Nat} {a : Attempt} {t : Store} (touch : Touch s.store i a t) (rows : s'.store.rows = t.rows)
    (files : s'.files = s.files) : Grows s s' := by
  refine ⟨fun f member => by rwa [files],fun f row' found => ?_⟩
  rw [rows] at found
  cases touch with
  | row known version rewrite =>
    rcases get_of_set found with ⟨rfl,rfl⟩ | ⟨_,old⟩
    · exact .inl ⟨_,known,Nat.le_of_eq (rewrite_version rewrite).symm⟩
    · exact .inl ⟨row',old,Nat.le_refl _⟩
  | none | persist | send | unlink | unreceipt => exact .inl ⟨row',found,Nat.le_refl _⟩

theorem bounded_grows (grows : Grows s s') (bounded : Bounded s fileId v) : Bounded s' fileId v := by
  refine ⟨grows.files fileId bounded.1,fun row' found => ?_⟩
  rcases grows.rows fileId row' found with ⟨row,known,more⟩ | ⟨fresh,_⟩
  · exact Nat.le_trans (bounded.2 row known) more
  · exact absurd bounded.1 fresh

theorem not_bounded_of_fresh (fresh : Fresh s fileId v) : ¬Bounded s fileId v := by
  rintro ⟨known,less⟩
  rcases fresh with unknown | ⟨row,found,more⟩
  · exact unknown known
  · have := less row found
    omega

theorem createProcessingFile_fresh {overwriteFileId : Option String} {fresh tempId : String} {remote : Bool}
    {created : State} (unused : fresh ∉ s.files)
    (makes : createProcessingFile s overwriteFileId fresh tempId remote = (created,fileId,v)) :
    Fresh s fileId v ∧ Grows s created ∧ (∃ row, created.store.rows = s.store.rows.set fileId row ∧ row.uploadVersion = v) ∧
      (fileId ∈ s.files ∨ fileId = fresh ∧ created.files = fresh :: s.files ∨ (s.store.rows.get fileId).isSome) := by
  have create : createProcessingFile s none fresh tempId remote = (created,fileId,v) →
      Fresh s fileId v ∧ Grows s created ∧ (∃ row, created.store.rows = s.store.rows.set fileId row ∧ row.uploadVersion = v) ∧
        (fileId ∈ s.files ∨ fileId = fresh ∧ created.files = fresh :: s.files ∨ (s.store.rows.get fileId).isSome) := by
    rintro ⟨⟩
    refine ⟨.inl unused,⟨fun f member => List.mem_cons_of_mem _ member,fun f row' found => ?_⟩,
      ⟨newRow tempId remote,rfl,rfl⟩,.inr (.inl ⟨rfl,rfl⟩)⟩
    rcases get_of_set found with ⟨rfl,rfl⟩ | ⟨_,old⟩
    · exact .inr ⟨unused,List.mem_cons_self⟩
    · exact .inl ⟨row',old,Nat.le_refl _⟩
  cases overwriteFileId with
  | none => exact create makes
  | some target =>
    cases known : s.store.rows.get target with
    | none =>
      apply create
      simpa [createProcessingFile,known] using makes
    | some row =>
      by_cases kept : (row.isDeleted || row.status = .processing) = true
      · apply create
        simpa only [createProcessingFile,known,kept,if_true] using makes
      simp only [createProcessingFile,known,kept] at makes
      cases makes
      refine ⟨.inr ⟨row,known,Nat.lt_succ_self _⟩,⟨fun f member => member,fun f row' found => ?_⟩,
        ⟨overwriteRow tempId row,rfl,rfl⟩,.inr (.inr (by rw [known]; rfl))⟩
      rcases get_of_set found with ⟨rfl,rfl⟩ | ⟨_,old⟩
      · exact .inl ⟨row,known,Nat.le_succ _⟩
      · exact .inl ⟨row',old,Nat.le_refl _⟩

theorem cleans_grows {f : String} {w : Nat} {c : Cleaning} {answer : Cleaning ⊕ Bool} (move : Cleans s f w c s' answer) :
    Grows s s' := by
  cases move with
  | marked overwrites marks =>
    refine grows_update marks rfl fun row => ?_
    unfold cancelRow failRow
    split_ifs <;> exact Nat.le_refl _
  | kept | unqueued | unmarked | unlinked | stuck | released | unreceipted => exact grows_same rfl rfl

theorem step_grows {l : Label} (move : Moves s l s') (allowed : Allowed s l) : Grows s s' := by
  cases move with
  | merge _ _ move =>
    cases move with
    | created _ makes | createdLate _ makes =>
      obtain ⟨_,⟨files,rows⟩,_⟩ := createProcessingFile_fresh allowed makes
      exact ⟨files,rows⟩
    | cleans _ _ move | cleaned _ _ move =>
      obtain ⟨files,rows⟩ := cleans_grows move
      exact ⟨files,rows⟩
    | _ => exact grows_same rfl rfl
  | aborting _ _ move =>
    cases move with
    | cleans _ move | cleaned _ move | refused _ move =>
      obtain ⟨files,rows⟩ := cleans_grows move
      exact ⟨files,rows⟩
    | _ => exact grows_same rfl rfl
  | work _ _ _ touch outcome => cases outcome <;> exact grows_touch touch rfl rfl
  | overwriteSync _ _ _ writes => exact grows_update writes rfl fun _ => Nat.le_succ _
  | markFailed _ writes | markReady _ writes => exact grows_update writes rfl fun _ => Nat.le_refl _
  | deleteRow =>
    refine ⟨fun _ member => member,fun f row' found => ?_⟩
    exact .inl ⟨row',(get_of_delete found).2,Nat.le_refl _⟩
  | _ => exact grows_same rfl rfl

end

def Made (s : State) (fileId : String) (v : Nat) (receipt : Receipt) : Prop :=
  receipt.uploadVersion = v ∧
    ∃ e ∈ s.store.sent, e.fileId = fileId ∧ e.uploadVersion = v ∧ e.reference = receipt.reference

def Saves : MergePhase → Option (String × Nat) → Prop
  | .concatenating, saved | .checkingType, saved | .creating, saved => saved = none
  | .ended _, _ => True
  | phase, saved => saved = phase.file

def brought : MergePhase → Bool
  | .renamed _ _ | .freeing _ _ | .adding _ _ => true
  | _ => false

structure Custody (s : State) : Prop where
  rowsKnown : ∀ f row, s.store.rows.get f = some row → f ∈ s.files
  bounded : ∀ f v, Mentions s f v → Bounded s f v
  single : ∀ u u' session session' file, s.sessions.get u = some session → s.sessions.get u' = some session' →
    session.saved = some file → session'.saved = some file → u = u'
  merging : ∀ (n : Nat) m, s.merges[n]? = some m → ∃ session, s.sessions.get m.uploadId = some session ∧
    session.mergeStatus ≠ .pending ∧ Saves m.phase session.saved
  alone : ∀ (n n' : Nat) m m', s.merges[n]? = some m → s.merges[n']? = some m' → m.uploadId = m'.uploadId → n = n'
  unmerged : ∀ u session, s.sessions.get u = some session → session.mergeStatus = .pending → session.saved = none
  cancelling : ∀ (n : Nat) a f v c, s.aborts[n]? = some a → a.phase = .cleaning f v c →
    ∃ session, s.sessions.get a.uploadId = some session ∧ session.saved = some (f,v)
  inHand : ∀ a ∈ s.attempts, ∀ receipt, a.phase.receipt = some receipt → Made s a.fileId a.uploadVersion receipt
  onDisk : ∀ f receipt, s.store.receipts.get f = some receipt → Made s f receipt.uploadVersion receipt
  early : ∀ (n : Nat) m f v, s.merges[n]? = some m → MergePhase.early m.phase = some (f,v) →
    s.jobs.get (f,v) = none ∧ ∀ a ∈ s.attempts, a.fileId = f → a.uploadVersion ≠ v
  unhanded : ∀ (n : Nat) m f v, s.merges[n]? = some m → MergePhase.early m.phase = some (f,v) →
    brought m.phase = false → s.store.pending.get f ≠ some v

section
variable {s s' : State} {l : Label} {fileId : String} {v : Nat}

theorem initial_custody : Custody initial where
  rowsKnown _ _ found := nomatch found
  bounded f v mention := by
    cases mention with
    | saved found | job found | pending found | receipt found => cases found
    | attempt member => cases member
  single _ _ _ _ _ found := nomatch found
  merging _ _ found := nomatch found
  alone _ _ _ _ found := nomatch found
  unmerged _ _ found := nomatch found
  cancelling _ _ _ _ _ found := nomatch found
  inHand _ member := nomatch member
  onDisk _ _ found := nomatch found
  early _ _ _ _ found := nomatch found
  unhanded _ _ _ _ found := nomatch found

theorem settleSession_saved (m : Merge) (done : Bool) (session : Session) :
    (settleSession m done session).saved = session.saved := by
  unfold settleSession
  split_ifs <;> rfl

variable {n : Nat} {m : Merge} {session : Session} {u : String} {m' : Merge} {change : Session → Session} {phase : MergePhase} {event : MergeEvent} {file : String × Nat} {receipt : Receipt} {session' : Session}

theorem settleSession_status {done : Bool}
    (pending : (settleSession m done session).mergeStatus = .pending) : session.mergeStatus = .pending := by
  unfold settleSession at pending
  split at pending
  · cases done <;> cases pending
  · exact pending

theorem change_saved (changes : Change s l u change) (session : Session) :
    (change session).saved = session.saved := by
  cases changes with
  | deadline => exact settleSession_saved _ _ _
  | _ => rfl

theorem change_status (changes : Change s l u change)
    (pending : (change session).mergeStatus = .pending) : session.mergeStatus = .pending := by
  cases changes with
  | deadline => exact settleSession_status pending
  | trigger => cases pending
  | _ => exact pending

def Creates (s s' : State) (overwriteFileId : Option String) (event : MergeEvent) (file : String × Nat) : Prop :=
  ∃ fresh tempId remote t, event = .created fresh tempId remote ∧
    createProcessingFile s overwriteFileId fresh tempId remote = (t,file) ∧
    s'.store.rows = t.store.rows ∧ s'.files = t.files

theorem advances_saved
    (advances : Advances s s' session m event phase change) :
    (∀ x, (change x).saved = x.saved) ∨
      ∃ file, m.phase = .creating ∧ Creates s s' session.overwriteFileId event file ∧
        (phase = .clearing file.1 file.2 ∨ phase = .ended .failed) ∧ ∀ x, (change x).saved = some file := by
  cases advances with
  | created creating makes rows files =>
    exact .inr ⟨_,creating,⟨_,_,_,_,rfl,makes,rows,files⟩,.inl rfl,fun _ => rfl⟩
  | createdLate creating makes rows files =>
    exact .inr ⟨_,creating,⟨_,_,_,_,rfl,makes,rows,files⟩,.inr rfl,fun x => settleSession_saved _ _ _⟩
  | failed | unqueued | cleaned | swept => exact .inl fun x => settleSession_saved _ _ _
  | same | merged | checked | cleared | renamed | handedOff | freed | queued | unjobbed | cleans =>
    exact .inl fun _ => rfl

theorem advances_status
    (advances : Advances s s' session m event phase change) {x : Session}
    (pending : (change x).mergeStatus = .pending) : x.mergeStatus = .pending := by
  cases advances with
  | failed | unqueued | cleaned | swept => exact settleSession_status pending
  | createdLate => exact (settleSession_status pending :)
  | merged => cases pending
  | same | created | checked | cleared | renamed | handedOff | freed | queued | unjobbed | cleans => exact pending

theorem creates_new {overwriteFileId : Option String} (custody : Custody s)
    (allowed : Allowed s (.merge n event)) (creates : Creates s s' overwriteFileId event (fileId,v)) :
    Fresh s fileId v ∧ Bounded s' fileId v := by
  obtain ⟨fresh,tempId,remote,t,rfl,makes,rows,files⟩ := creates
  obtain ⟨new,grows,⟨row,here,version⟩,known⟩ := createProcessingFile_fresh allowed makes
  refine ⟨new,?_,fun row' found => ?_⟩
  · rw [files]
    rcases known with known | ⟨rfl,made⟩ | known
    · exact grows.files _ known
    · rw [made]
      exact List.mem_cons_self
    · obtain ⟨old,found⟩ := Option.isSome_iff_exists.mp known
      exact grows.files _ (custody.rowsKnown _ _ found)
  · rw [rows,here,get_set_same] at found
    cases found
    exact Nat.le_of_eq version.symm

theorem saved_back (custody : Custody s) (move : Moves s l s') (allowed : Allowed s l)
    (found : s'.sessions.get u = some session') (saved : session'.saved = some (fileId,v)) :
    (∃ session, s.sessions.get u = some session ∧ session.saved = some (fileId,v)) ∨
      (∃ n m event, l = .merge n event ∧ s.merges[n]? = some m ∧ m.uploadId = u) ∧
        Fresh s fileId v ∧ Bounded s' fileId v := by
  rcases advance_or_aside move with ⟨n,m,session,event,phase,change,advance⟩ | aside
  · rcases changed_back advance.changed found with ⟨_,old⟩ | ⟨rfl,session,old,rfl⟩
    · exact .inl ⟨session',old,saved⟩
    rcases advances_saved advance.advances with same | ⟨file,_,creates,_,saves⟩
    · exact .inl ⟨session,old,(same session).symm.trans saved⟩
    · cases (saves session).symm.trans saved
      have label := advance.label
      subst label
      exact .inr ⟨⟨n,m,event,rfl,advance.found,rfl⟩,creates_new custody allowed creates⟩
  · rcases aside.sessions with same | ⟨u',change,changes,changed⟩ | ⟨u',strict,target,rfl,sessions⟩
    · exact .inl ⟨session',same ▸ found,saved⟩
    · rcases changed_back changed found with ⟨_,old⟩ | ⟨rfl,session,old,rfl⟩
      · exact .inl ⟨session',old,saved⟩
      · exact .inl ⟨session,old,(change_saved changes session).symm.trans saved⟩
    · rw [sessions] at found
      rcases get_of_set found with ⟨rfl,rfl⟩ | ⟨_,old⟩
      · cases saved
      · exact .inl ⟨session',old,saved⟩

theorem saved_forth (custody : Custody s) (move : Moves s l s')
    (allowed : Allowed s l) (found : s.sessions.get u = some session) (saved : session.saved = some file) :
    ∃ session', s'.sessions.get u = some session' ∧ session'.saved = some file := by
  rcases advance_or_aside move with ⟨n,m,session₁,event,phase,change,advance⟩ | aside
  · by_cases here : u = m.uploadId
    · subst here
      refine ⟨change session,changed_here advance.changed found,?_⟩
      rcases advances_saved advance.advances with same | ⟨_,creating,_⟩
      · rw [same,saved]
      · obtain ⟨session₂,known,_,saves⟩ := custody.merging n m advance.found
        rw [found] at known
        cases known
        rw [creating] at saves
        cases saves.symm.trans saved
    · exact ⟨session,(changed_other advance.changed here).trans found,saved⟩
  · rcases aside.sessions with same | ⟨u',change,changes,changed⟩ | ⟨u',strict,target,rfl,sessions⟩
    · exact ⟨session,same ▸ found,saved⟩
    · by_cases here : u = u'
      · subst here
        exact ⟨change session,changed_here changed found,(change_saved changes session).trans saved⟩
      · exact ⟨session,(changed_other changed here).trans found,saved⟩
    · have other : u ≠ u' := by
        rintro rfl
        rw [allowed.1] at found
        cases found
      exact ⟨session,by rw [sessions,get_set_other _ _ other,found],saved⟩

theorem saves_file {saved : Option (String × Nat)} (saves : Saves phase saved)
    (here : phase.file = some file) : saved = some file := by
  cases phase with
  | ended => cases here
  | _ => exact saves.trans here

theorem merge_saved (custody : Custody s) (found : s.merges[n]? = some m)
    (file : m.phase.file = some (fileId,v)) :
    ∃ session, s.sessions.get m.uploadId = some session ∧ session.saved = some (fileId,v) := by
  obtain ⟨session,known,_,saves⟩ := custody.merging n m found
  exact ⟨session,known,saves_file saves file⟩

theorem step_mentions (custody : Custody s) (move : Moves s l s') (allowed : Allowed s l)
    (mention : Mentions s' fileId v) : Mentions s fileId v ∨ Fresh s fileId v ∧ Bounded s' fileId v := by
  have merged : ∀ {n : Nat} {m : Merge}, s.merges[n]? = some m → m.phase.file = some (fileId,v) → Mentions s fileId v := by
    intro n m found file
    obtain ⟨session,known,saved⟩ := merge_saved custody found file
    exact .saved known saved
  cases mention with
  | saved found saved =>
    rcases saved_back custody move allowed found saved with ⟨session,known,saved⟩ | ⟨_,new⟩
    · exact .inl (.saved known saved)
    · exact .inr new
  | job found =>
    rcases step_jobs move allowed found with old | ⟨n,m,_,known,phase,_⟩
    · obtain ⟨job,known⟩ := Option.isSome_iff_exists.mp old
      exact .inl (.job known)
    · exact .inl (merged known (by rw [phase]; rfl))
  | attempt member file version =>
    obtain ⟨i,found⟩ := List.getElem?_of_mem member
    rcases step_attempts move found with ⟨a,known,sameFile,sameVersion,_⟩ | ⟨f,w,job,_,_,known,rfl⟩
    · exact .inl (.attempt (List.mem_of_getElem? known) (sameFile ▸ file) (sameVersion ▸ version))
    · cases file
      cases version
      exact .inl (.job known)
  | pending found =>
    rcases step_pending move found with old | ⟨n,m,_,known,phase,_⟩
    · exact .inl (.pending old)
    · exact .inl (merged known (by rw [phase]; rfl))
  | receipt found version =>
    rcases step_receipts move found with old | ⟨i,a,_,_,_,known,file,phase,_⟩
    · exact .inl (.receipt old version)
    · have member := List.mem_of_getElem? known
      have made := custody.inHand a member _ (by rw [phase]; rfl)
      exact .inl (.attempt member file (made.1.symm.trans version))

theorem not_mentioned_of_fresh (custody : Custody s) (fresh : Fresh s fileId v) : ¬Mentions s fileId v :=
  fun mention => not_bounded_of_fresh fresh (custody.bounded _ _ mention)

theorem rowsKnown_step (custody : Custody s) (grows : Grows s s') (f : String) (row : Row)
    (found : s'.store.rows.get f = some row) : f ∈ s'.files := by
  rcases grows.rows f row found with ⟨old,known,_⟩ | ⟨_,now⟩
  · exact grows.files f (custody.rowsKnown f old known)
  · exact now

theorem bounded_step (custody : Custody s) (move : Moves s l s') (allowed : Allowed s l)
    (mention : Mentions s' fileId v) : Bounded s' fileId v := by
  rcases step_mentions custody move allowed mention with old | ⟨_,bounded⟩
  · exact bounded_grows (step_grows move allowed) (custody.bounded _ _ old)
  · exact bounded

theorem single_step (custody : Custody s) (move : Moves s l s') (allowed : Allowed s l) {u' : String}
     (found : s'.sessions.get u = some session)
    (found' : s'.sessions.get u' = some session') (saved : session.saved = some file)
    (saved' : session'.saved = some file) : u = u' := by
  rcases saved_back custody move allowed found saved with ⟨old,known,had⟩ | ⟨⟨n,m,event,label,at_n,rfl⟩,fresh,_⟩
  · rcases saved_back custody move allowed found' saved' with ⟨old',known',had'⟩ | ⟨_,fresh',_⟩
    · exact custody.single _ _ _ _ _ known known' had had'
    · exact absurd (.saved known had) (not_mentioned_of_fresh custody fresh')
  · rcases saved_back custody move allowed found' saved' with ⟨old',known',had'⟩ | ⟨⟨n',m',event',label',at_n',rfl⟩,_⟩
    · exact absurd (.saved known' had') (not_mentioned_of_fresh custody fresh)
    · cases label.symm.trans label'
      cases at_n.symm.trans at_n'
      rfl

theorem saves_advance
    (advances : Advances s s' session m event phase change) {x : Session}
    (saves : Saves m.phase x.saved) : Saves phase (change x).saved := by
  cases advances with
  | same => exact saves
  | failed | createdLate | unqueued | cleaned | swept => trivial
  | created => rfl
  | queued phase goesOn =>
    rw [phase] at saves
    rcases goesOn with rfl | rfl <;> exact saves
  | merged phase | checked phase | cleared _ phase | renamed phase | handedOff phase | freed phase | unjobbed _ phase
  | cleans _ phase =>
    rw [phase] at saves
    exact saves

section
variable (custody : Custody s) (move : Moves s l s')
include custody move

theorem merging_step (allowed : Allowed s l) (found : s'.merges[n]? = some m') : ∃ session, s'.sessions.get m'.uploadId = some session ∧
      session.mergeStatus ≠ .pending ∧ Saves m'.phase session.saved := by
  rcases advance_or_aside move with ⟨n₁,m,session₁,event,phase,change,advance⟩ | aside
  · rw [advance.merges] at found
    rcases at_of_set found with ⟨rfl,rfl⟩ | ⟨apart,old⟩
    · obtain ⟨session,known,started,saves⟩ := custody.merging n m advance.found
      exact ⟨change session,changed_here advance.changed known,fun pending => started (advances_status advance.advances pending),
        saves_advance advance.advances saves⟩
    · have other : m'.uploadId ≠ m.uploadId := fun same => apart (custody.alone _ _ _ _ old advance.found same)
      rw [changed_other advance.changed other]
      exact custody.merging n m' old
  · rcases aside.merges n m' found with ⟨m,old,signalled⟩ | ⟨u,rfl,_,rfl,changed⟩
    · obtain ⟨sameUpload,samePhase⟩ := signalled_same signalled
      obtain ⟨session,known,started,saves⟩ := custody.merging n m old
      rw [sameUpload,samePhase]
      rcases aside.sessions with same | ⟨u',change,changes,changed⟩ | ⟨u',strict,target,rfl,sessions⟩
      · exact ⟨session,same ▸ known,started,saves⟩
      · by_cases here : m.uploadId = u'
        · rw [here] at known ⊢
          refine ⟨change session,changed_here changed known,fun pending => started (change_status changes pending),?_⟩
          rw [change_saved changes]
          exact saves
        · exact ⟨session,(changed_other changed here).trans known,started,saves⟩
      · have other : m.uploadId ≠ u' := by
          intro same
          rw [same,allowed.1] at known
          cases known
        exact ⟨session,by rw [sessions,get_set_other _ _ other,known],started,saves⟩
    · obtain ⟨session,known,_,_,pending⟩ := allowed
      simp only [Bool.and_eq_true,decide_eq_true_eq] at pending
      exact ⟨_,changed_here changed known,nofun,custody.unmerged u session known pending.1⟩

theorem alone_step (allowed : Allowed s l) {n' : Nat}
    (found : s'.merges[n]? = some m) (found' : s'.merges[n']? = some m') (same : m.uploadId = m'.uploadId) : n = n' := by
  -- a merge that is there already has started its session
  have started : ∀ {u : String} {k : Nat} {x : Merge}, s.open u (fun session => session.mergeStatus = .pending &&
      session.init = .returned) → s.merges[k]? = some x → x.uploadId ≠ u := by
    rintro u k x ⟨session,known,_,_,pending⟩ at_k rfl
    obtain ⟨session',known',started,_⟩ := custody.merging k x at_k
    cases known.symm.trans known'
    simp only [Bool.and_eq_true,decide_eq_true_eq] at pending
    exact started pending.1
  rcases advance_or_aside move with ⟨k,x,_,_,phase,_,advance⟩ | aside
  · have back : ∀ {j : Nat} {y : Merge}, s'.merges[j]? = some y → ∃ z, s.merges[j]? = some z ∧ z.uploadId = y.uploadId := by
      intro j y at_j
      rw [advance.merges] at at_j
      rcases at_of_set at_j with ⟨rfl,rfl⟩ | ⟨_,old⟩
      · exact ⟨x,advance.found,rfl⟩
      · exact ⟨y,old,rfl⟩
    obtain ⟨z,old,upload⟩ := back found
    obtain ⟨z',old',upload'⟩ := back found'
    exact custody.alone _ _ _ _ old old' (upload.trans (same.trans upload'.symm))
  · rcases aside.merges n m found with ⟨z,old,signalled⟩ | ⟨u,rfl,here,rfl,_⟩
    · have upload := (signalled_same signalled).1
      rcases aside.merges n' m' found' with ⟨z',old',signalled'⟩ | ⟨u,rfl,here,rfl,_⟩
      · exact custody.alone _ _ _ _ old old' (upload.symm.trans (same.trans (signalled_same signalled').1))
      · exact absurd (upload.symm.trans same) (started allowed old)
    · rcases aside.merges n' m' found' with ⟨z',old',signalled'⟩ | ⟨u',label,here',rfl,_⟩
      · exact absurd ((signalled_same signalled').1.symm.trans same.symm) (started allowed old')
      · rw [here,here']

theorem unmerged_step (found : s'.sessions.get u = some session') (pending : session'.mergeStatus = .pending) : session'.saved = none := by
  rcases advance_or_aside move with ⟨n,m,_,event,phase,change,advance⟩ | aside
  · rcases changed_back advance.changed found with ⟨_,old⟩ | ⟨rfl,session,old,rfl⟩
    · exact custody.unmerged u session' old pending
    · obtain ⟨session₁,known,started,_⟩ := custody.merging n m advance.found
      cases old.symm.trans known
      exact absurd (advances_status advance.advances pending) started
  · rcases aside.sessions with same | ⟨u',change,changes,changed⟩ | ⟨u',strict,target,_,sessions⟩
    · exact custody.unmerged u session' (same ▸ found) pending
    · rcases changed_back changed found with ⟨_,old⟩ | ⟨rfl,session,old,rfl⟩
      · exact custody.unmerged u session' old pending
      · rw [change_saved changes]
        exact custody.unmerged u session old (change_status changes pending)
    · rw [sessions] at found
      rcases get_of_set found with ⟨rfl,rfl⟩ | ⟨_,old⟩
      · rfl
      · exact custody.unmerged u session' old pending

theorem cancelling_step (allowed : Allowed s l) {a' : Abort}
    {c : Cleaning} (found : s'.aborts[n]? = some a') (phase : a'.phase = .cleaning fileId v c) :
    ∃ session, s'.sessions.get a'.uploadId = some session ∧ session.saved = some (fileId,v) := by
  have here : ∃ session, s.sessions.get a'.uploadId = some session ∧ session.saved = some (fileId,v) := by
    rcases step_aborts move found with old | ⟨a,session,ok,old,sameUpload,_,known,advances⟩ | ⟨u,_,rfl⟩
    · exact custody.cancelling n a' fileId v c old phase
    · rw [phase] at advances
      rw [sameUpload]
      generalize before : a.phase = x at advances
      cases advances with
      | looks saved => exact ⟨session,known,saved⟩
      | cleans _ _ c => exact custody.cancelling n a fileId v c old before
    · cases phase
  obtain ⟨session,known,saved⟩ := here
  exact saved_forth custody move allowed known saved

end

theorem made_step (move : Moves s l s') (made : Made s fileId v receipt) :
    Made s' fileId v receipt := by
  obtain ⟨version,e,member,rest⟩ := made
  refine ⟨version,e,?_,rest⟩
  rcases step_sent move with same | ⟨_,_,_,_,_,_,_,_,more⟩
  · rw [same]
    exact member
  · rw [more]
    exact List.mem_append_left _ member

theorem loadReceipt_some {store : Store} (loaded : loadReceipt store fileId v = some receipt) :
    store.receipts.get fileId = some receipt ∧ receipt.uploadVersion = v := by
  obtain ⟨found,version⟩ := Option.filter_eq_some_iff.mp loaded
  exact ⟨found,by simpa using version⟩

theorem inHand_step (custody : Custody s) (move : Moves s l s') {a' : Attempt}
    (member : a' ∈ s'.attempts) (held : a'.phase.receipt = some receipt) :
    Made s' a'.fileId a'.uploadVersion receipt := by
  obtain ⟨i,found⟩ := List.getElem?_of_mem member
  rcases step_attempts move found with ⟨a,known,sameFile,sameVersion,same | ⟨event,_,turn⟩⟩ | ⟨_,_,_,_,_,_,rfl⟩
  · subst same
    exact made_step move (custody.inHand a' (List.mem_of_getElem? known) receipt held)
  · rw [sameFile,sameVersion]
    rcases turn_receipt turn held with ⟨old,had,reference,version⟩ | loaded | ⟨version,sent⟩
    · obtain ⟨stamp,e,sent,file,version',eq⟩ := custody.inHand a (List.mem_of_getElem? known) old had
      exact made_step move ⟨version.trans stamp,e,sent,file,version',eq.trans reference.symm⟩
    · obtain ⟨there,version⟩ := loadReceipt_some loaded
      rw [← version]
      exact made_step move (custody.onDisk _ _ there)
    · exact ⟨version,_,sent,rfl,rfl,rfl⟩
  · cases held

theorem onDisk_step (custody : Custody s) (move : Moves s l s')
    (found : s'.store.receipts.get fileId = some receipt) : Made s' fileId receipt.uploadVersion receipt := by
  rcases step_receipts move found with old | ⟨i,a,_,_,_,known,rfl,phase,_⟩
  · exact made_step move (custody.onDisk _ _ old)
  · have made := custody.inHand a (List.mem_of_getElem? known) receipt (by rw [phase]; rfl)
    rw [made.1]
    exact made_step move made

theorem early_file (early : MergePhase.early phase = some file) :
    phase.file = some file := by
  cases phase <;> first | exact early | cases early

section
variable (custody : Custody s)
include custody

theorem early_back (move : Moves s l s') (allowed : Allowed s l)
    (found : s'.merges[n]? = some m') (early : MergePhase.early m'.phase = some (fileId,v)) :
    (∃ m, s.merges[n]? = some m ∧ MergePhase.early m.phase = some (fileId,v) ∧
      (brought m.phase = true → brought m'.phase = true)) ∨ Fresh s fileId v := by
  rcases advance_or_aside move with ⟨k,m,_,event,phase,change,advance⟩ | aside
  · rw [advance.merges] at found
    rcases at_of_set found with ⟨rfl,rfl⟩ | ⟨_,old⟩
    · have label := advance.label
      have at_n := advance.found
      have advances := advance.advances
      subst label
      cases advances with
      | same => exact .inl ⟨m,at_n,early,id⟩
      | created creating makes rows files =>
        cases early
        exact .inr (creates_new custody allowed ⟨_,_,_,_,rfl,makes,rows,files⟩).1
      | cleared _ phase => exact .inl ⟨m,at_n,by rw [phase]; exact early,by rw [phase]; exact id⟩
      | renamed phase | handedOff phase | freed phase =>
        exact .inl ⟨m,at_n,by rw [phase]; exact early,fun _ => rfl⟩
      | queued _ goesOn => rcases goesOn with rfl | rfl <;> cases early
      | failed | merged | checked | createdLate | unqueued | unjobbed | cleans | cleaned | swept => cases early
    · exact .inl ⟨m',old,early,id⟩
  · rcases aside.merges n m' found with ⟨m,old,signalled⟩ | ⟨_,_,_,rfl,_⟩
    · rw [(signalled_same signalled).2] at early ⊢
      exact .inl ⟨m,old,early,id⟩
    · cases early

theorem merge_unique {n' : Nat} (found : s.merges[n]? = some m)
    (found' : s.merges[n']? = some m') (file : m.phase.file = some (fileId,v)) (file' : m'.phase.file = some (fileId,v)) :
    n = n' := by
  obtain ⟨session,known,saved⟩ := merge_saved custody found file
  obtain ⟨session',known',saved'⟩ := merge_saved custody found' file'
  exact custody.alone _ _ _ _ found found' (custody.single _ _ _ _ _ known known' saved saved')

theorem early_step (move : Moves s l s') (allowed : Allowed s l)
    (found : s'.merges[n]? = some m') (early : MergePhase.early m'.phase = some (fileId,v)) :
    s'.jobs.get (fileId,v) = none ∧ ∀ a ∈ s'.attempts, a.fileId = fileId → a.uploadVersion ≠ v := by
  have before : s.jobs.get (fileId,v) = none ∧ ∀ a ∈ s.attempts, a.fileId = fileId → a.uploadVersion ≠ v := by
    rcases early_back custody move allowed found early with ⟨m,old,was,_⟩ | fresh
    · exact custody.early n m fileId v old was
    · have unknown := not_mentioned_of_fresh custody fresh
      refine ⟨?_,fun a member file version => unknown (.attempt member file version)⟩
      exact Option.eq_none_iff_forall_ne_some.mpr fun job known => unknown (.job known)
  constructor
  · rw [Option.eq_none_iff_forall_ne_some]
    intro job there
    rcases step_jobs move allowed there with old | ⟨k,x,phase,at_k,adding,at_k',late⟩
    · rw [before.1] at old
      cases old
    -- the merge that adds the job is this one, and then it is no longer before its job
    rcases early_back custody move allowed found early with ⟨m,old,was,_⟩ | fresh
    · cases merge_unique custody at_k old (by rw [adding]; rfl) (early_file was)
      cases at_k'.symm.trans found
      rw [late] at early
      cases early
    · obtain ⟨session,known,saved⟩ := merge_saved (v := v) custody at_k (by rw [adding]; rfl)
      exact not_mentioned_of_fresh custody fresh (.saved known saved)
  · intro a' member file version
    obtain ⟨i,at_i⟩ := List.getElem?_of_mem member
    rcases step_attempts move at_i with ⟨a,known,sameFile,sameVersion,_⟩ | ⟨f,w,job,_,_,known,rfl⟩
    · exact before.2 a (List.mem_of_getElem? known) (sameFile ▸ file) (sameVersion ▸ version)
    · cases file
      cases version
      rw [before.1] at known
      cases known

theorem unhanded_step (move : Moves s l s') (allowed : Allowed s l)
    (found : s'.merges[n]? = some m') (early : MergePhase.early m'.phase = some (fileId,v))
    (unbrought : brought m'.phase = false) : s'.store.pending.get fileId ≠ some v := by
  intro there
  have before : s.store.pending.get fileId ≠ some v := by
    rcases early_back custody move allowed found early with ⟨m,old,was,keeps⟩ | fresh
    · refine custody.unhanded n m fileId v old was ?_
      cases had : brought m.phase with
      | false => rfl
      | true =>
        rw [keeps had] at unbrought
        cases unbrought
    · exact fun known => not_mentioned_of_fresh custody fresh (.pending known)
  rcases step_pending move there with old | ⟨k,x,_,at_k,phase,at_k'⟩
  · exact before old
  have file : x.phase.file = some (fileId,v) := by rw [phase]; rfl
  rcases early_back custody move allowed found early with ⟨m,old,was,_⟩ | fresh
  · cases merge_unique custody at_k old file (early_file was)
    cases at_k'.symm.trans found
    cases unbrought
  · obtain ⟨session,known,saved⟩ := merge_saved custody at_k file
    exact not_mentioned_of_fresh custody fresh (.saved known saved)

theorem custody_step (allowed : Allowed s l) : Custody (step s l) := by
  have move : Moves s l (step s l) := step_moves l
  exact
    { rowsKnown := rowsKnown_step custody (step_grows move allowed)
      bounded := fun _ _ mention => bounded_step custody move allowed mention
      single := fun _ _ _ _ _ found found' saved saved' => single_step custody move allowed found found' saved saved'
      merging := fun _ _ found => merging_step custody move allowed found
      alone := fun _ _ _ _ found found' same => alone_step custody move allowed found found' same
      unmerged := fun _ _ found pending => unmerged_step custody move found pending
      cancelling := fun _ _ _ _ _ found phase => cancelling_step custody move allowed found phase
      inHand := fun _ member _ held => inHand_step custody move member held
      onDisk := fun _ _ found => onDisk_step custody move found
      early := fun _ _ _ _ found early => early_step custody move allowed found early
      unhanded := fun _ _ _ _ found early unbrought => unhanded_step custody move allowed found early unbrought }

end

end

end Tgtc.UploadCustody
