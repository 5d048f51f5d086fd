import Mathlib
import Tgtc.LeaseTenure

/-!
What is on disk when the lease of an upload is given back. The bytes of an upload are in the directory of its chunks
until the merged file is renamed, and at the pending path from then on.
-/
namespace Tgtc.LeaseDisk
open Maps Runs UploadWorker UploadSystem UploadMoves UploadCustody SessionCourse LeaseTenure
open UploadSessions (MergeStatus)

/-- Neither the directory nor the source of the upload is there. -/
def Cleared (s : State) (uploadId : String) : Prop :=
  uploadId ∉ s.dirs ∧ ∀ session ∈ s.sessions.get uploadId, ∀ file ∈ session.saved, s.store.pending.get file.1 ≠ some file.2

instance (s : State) (uploadId : String) : Decidable (Cleared s uploadId) := by
  unfold Cleared
  infer_instance

def hasRenamed : MergePhase → Bool
  | .renamed _ _ => true
  | _ => false

def hasEnded : MergePhase → Bool
  | .ended _ => true
  | _ => false

/-- The source is handed over to the pending path: the session knows, or its merge has just renamed the file. -/
def HandedOver (s : State) (uploadId : String) : Prop :=
  (∃ session ∈ s.sessions.get uploadId, session.handedOff = true) ∨
    ∃ m ∈ s.merges, m.uploadId = uploadId ∧ hasRenamed m.phase = true

instance (s : State) (uploadId : String) : Decidable (HandedOver s uploadId) := by
  unfold HandedOver
  infer_instance

/-- The lease is given back with nothing left behind: no timer, orphan, merge or source outlives what it
belongs to. -/
def Orderly (s : State) : Label → Prop
  | .timer uploadId => ∀ session ∈ s.sessions.get uploadId, session.listed = true → session.mergeStatus = .error →
      ∀ lease ∈ s.store.activeLease, lease.key ≠ .session uploadId
  | .sweepOrphan => False
  | .aborting n ok => ∀ a ∈ s.aborts[n]?,
      (a.phase = .cancelling → ∀ session ∈ s.sessions.get a.uploadId, session.strictDiskLease = true →
        ∀ m ∈ s.merges, m.uploadId = a.uploadId → hasEnded m.phase = true) ∧
      (a.phase = .removing → ok = true ∨ a.uploadId ∉ s.dirs ∨ ∀ lease ∈ s.store.activeLease, lease.key ≠ .session a.uploadId)
  | .reclaiming n true => ∀ r ∈ s.reclaims[n]?, HandedOver s r.uploadId →
      ∀ lease ∈ s.store.activeLease, lease.key ≠ .session r.uploadId
  | .work i (.seen false) => ∀ a ∈ s.attempts[i]?, s.store.pending.get a.fileId ≠ some a.uploadVersion
  | _ => True

instance (s : State) (l : Label) : Decidable (Orderly s l) := by
  induction l using Label.casesOn
  case reclaiming n ok => induction ok using Bool.casesOn <;> unfold Orderly <;> infer_instance
  case work i event =>
    induction event using Event.casesOn
    case seen ok => induction ok using Bool.casesOn <;> unfold Orderly <;> infer_instance
    all_goals unfold Orderly; infer_instance
  all_goals unfold Orderly; infer_instance

def behind : MergePhase → Bool
  | .freeing _ _ | .adding _ _ | .removingJob _ _ | .cleaning _ _ _ | .sweeping _ _ | .ended _ => true
  | _ => false

def lostSource : Phase → Bool
  | .abandoning | .removing (some true) _ => true
  | .ended exit => givesBack exit
  | _ => false

structure Disk (s : State) : Prop where
  opened : ∀ u ∈ s.dirs, ∃ session, s.sessions.get u = some session ∧ session.init = .returned
  freed : ∀ lease f v, s.store.activeLease = some lease → lease.key = .job f v → lease.uploadId ∉ s.dirs
  handed : ∀ u session f v, s.sessions.get u = some session → session.saved = some (f,v) →
    s.store.pending.get f = some v → HandedOver s u
  past : ∀ u session, s.sessions.get u = some session → session.handedOff = true →
    ∃ (n : Nat) (m : Merge), s.merges[n]? = some m ∧ m.uploadId = u ∧ behind m.phase = true
  cancels : ∀ (n : Nat) a f v c, s.aborts[n]? = some a → a.phase = .cleaning f v c →
    ∃ session, s.sessions.get a.uploadId = some session ∧ session.handedOff = true
  cleaned : ∀ (n : Nat) a f v, s.aborts[n]? = some a → a.phase = .cleaning f v (.unreceipting true) →
    s.store.pending.get f ≠ some v
  withdrawn : ∀ (n : Nat) m f v, s.merges[n]? = some m → m.phase = .cleaning f v (.unreceipting true) →
    s.store.pending.get f ≠ some v
  removing : ∀ (n : Nat) a session, s.aborts[n]? = some a → a.phase = .removing →
    s.sessions.get a.uploadId = some session → session.listed = false ∧ (session.strictDiskLease = true →
      (∀ (k : Nat) m, s.merges[k]? = some m → m.uploadId = a.uploadId → behind m.phase = true) ∧
      ∀ file ∈ session.saved, s.store.pending.get file.1 ≠ some file.2)
  lost : ∀ a ∈ s.attempts, lostSource a.phase = true → s.store.pending.get a.fileId ≠ some a.uploadVersion

theorem initial_disk : Disk initial where
  opened _ member := nomatch member
  freed _ _ _ held := nomatch held
  handed _ _ _ _ found := nomatch found
  past _ _ found := nomatch found
  cancels _ _ _ _ _ found := nomatch found
  cleaned _ _ _ _ found := nomatch found
  withdrawn _ _ _ _ found := nomatch found
  removing _ _ _ found := nomatch found
  lost _ member := nomatch member

section
variable {s s' : State} {l : Label} {u f : String} {v : Nat}

variable {n : Nat} {session session' : Session} {phase : MergePhase} {m : Merge} {a' : Abort} {c : Cleaning} {change : Session → Session} {store : Store} {a : Attempt}

theorem renamed_of_hasRenamed (here : hasRenamed phase = true) : ∃ f v, phase = .renamed f v := by
  cases phase with
  | renamed f v => exact ⟨f,v,rfl⟩
  | _ => cases here

theorem behind_of_hasEnded (here : hasEnded phase = true) : behind phase = true := by
  cases phase with
  | ended => rfl
  | _ => cases here

/-! ### What a step leaves in place -/

theorem cleans_dirs {f : String} {v : Nat} {answer : Cleaning ⊕ Bool}
    (move : Cleans s f v c s' answer) : s'.dirs = s.dirs := by
  cases move <;> rfl

theorem step_dirs (move : Moves s l s') (member : u ∈ s'.dirs) : u ∈ s.dirs ∨ l = .opened u true := by
  cases move with
  | opened u' =>
    rcases List.mem_cons.mp member with rfl | old
    · exact .inr rfl
    · exact .inl old
  | merge _ _ move =>
    cases move with
    | freedLate | transferred | swept => exact .inl (List.mem_filter.mp member).1
    | cleans _ _ move | cleaned _ _ move =>
      have same := cleans_dirs move
      exact .inl (same ▸ member)
    | _ => exact .inl member
  | aborting _ _ move =>
    cases move with
    | cleans _ move | cleaned _ move | refused _ move =>
      have same := cleans_dirs move
      exact .inl (same ▸ member)
    | removed ok =>
      cases ok
      · exact .inl member
      · exact .inl (List.mem_filter.mp member).1
    | stay | looks | delists => exact .inl member
  | reclaimed => exact .inl (List.mem_filter.mp member).1
  | removal _ ok =>
    cases ok
    · exact .inl member
    · exact .inl (List.mem_filter.mp member).1
  | _ => exact .inl member

theorem advances_handed {event : MergeEvent}
    (advances : Advances s s' session m event phase change) (x : Session) :
    (change x).handedOff = x.handedOff ∨ (change x).handedOff = true ∧ behind phase = true := by
  cases advances with
  | handedOff => exact .inr ⟨rfl,rfl⟩
  | failed | unqueued | cleaned | swept => exact .inl (settleSession_rest m _ x).2.2.2
  | createdLate => exact .inl (settleSession_rest m false (saveFile _ x)).2.2.2
  | same | created | merged | checked | cleared | renamed | freed | queued | unjobbed | cleans => exact .inl rfl

theorem change_handed (changes : Change s l u change) (x : Session) :
    (change x).handedOff = x.handedOff := by
  cases changes with
  | deadline => exact (settleSession_rest _ _ _).2.2.2
  | _ => rfl

theorem handed_forth (move : Moves s l s') (allowed : Allowed s l)
    (known : s.sessions.get u = some session) (handed : session.handedOff = true) :
    ∃ session', s'.sessions.get u = some session' ∧ session'.handedOff = true := by
  rcases advance_or_aside move with ⟨n,m,_,_,_,change,advance⟩ | aside
  · by_cases here : u = m.uploadId
    · subst here
      refine ⟨_,changed_here advance.changed known,?_⟩
      rcases advances_handed advance.advances session with same | ⟨now,_⟩
      · exact same.trans handed
      · exact now
    · exact ⟨session,(changed_other advance.changed here).trans known,handed⟩
  · rcases aside.sessions with same | ⟨u',change,changes,changed⟩ | ⟨u',_,_,rfl,sessions⟩
    · exact ⟨session,same ▸ known,handed⟩
    · by_cases here : u = u'
      · subst here
        exact ⟨_,changed_here changed known,(change_handed changes session).trans handed⟩
      · exact ⟨session,(changed_other changed here).trans known,handed⟩
    · have other : u ≠ u' := by
        rintro rfl
        cases known.symm.trans allowed.1
      exact ⟨session,by rw [sessions,get_set_other _ _ other,known],handed⟩

theorem advances_behind {event : MergeEvent}
    (advances : Advances s s' session m event phase change) (here : behind m.phase = true) :
    behind phase = true := by
  have away : ∀ {x : MergePhase}, m.phase = x → behind x = true := fun eq => eq ▸ here
  cases advances with
  | same => exact here
  | merged phase | checked phase | created phase | cleared _ phase | renamed phase => cases away phase
  | queued _ goesOn => rcases goesOn with rfl | rfl <;> rfl
  | failed | createdLate | handedOff | freed | unqueued | unjobbed | cleans | cleaned | swept => rfl

theorem behind_forth (move : Moves s l s') (found : s.merges[n]? = some m)
    (here : behind m.phase = true) :
    ∃ m', s'.merges[n]? = some m' ∧ m'.uploadId = m.uploadId ∧ behind m'.phase = true := by
  rcases merge_forth move found with ⟨m',found',upload,same⟩ | ⟨session,event,_,merges⟩
  · exact ⟨m',found',upload,same ▸ here⟩
  · obtain ⟨phase,_,advances,after,_⟩ := merges_advance found merges
    exact ⟨{ m with phase },by rw [after]; exact at_set found,rfl,advances_behind advances here⟩

def AllBehind (s : State) (u : String) : Prop :=
  ∀ (n : Nat) m, s.merges[n]? = some m → m.uploadId = u → behind m.phase = true

theorem allBehind_step (move : Moves s l s') (untriggered : l ≠ .trigger u) (before : AllBehind s u) : AllBehind s' u := by
  intro n m' found upload
  rcases advance_or_aside move with ⟨_,m,session,_,_,_,advance⟩ | aside
  · rw [advance.merges] at found
    rcases at_of_set found with ⟨rfl,rfl⟩ | ⟨_,old⟩
    · exact advances_behind advance.advances (before n m advance.found upload)
    · exact before n m' old upload
  · rcases aside.merges n m' found with ⟨m,old,signalled⟩ | ⟨u',rfl,_,rfl,_⟩
    · obtain ⟨sameUpload,samePhase⟩ := signalled_same signalled
      rw [samePhase]
      exact before n m old (sameUpload.symm.trans upload)
    · cases upload
      exact absurd rfl untriggered

theorem allBehind_handed (custody : Custody s) (disk : Disk s) (known : s.sessions.get u = some session)
    (handed : session.handedOff = true) : AllBehind s u := by
  intro n m found upload
  obtain ⟨n',m',found',upload',here⟩ := disk.past u session known handed
  cases custody.alone _ _ _ _ found found' (upload.trans upload'.symm)
  cases found.symm.trans found'
  exact here

theorem renaming_saved (custody : Custody s) (found : s.merges[n]? = some m)
    (phase : m.phase = .renaming f v) : ∃ session, s.sessions.get m.uploadId = some session ∧ session.saved = some (f,v) := by
  have file : m.phase.file = some (f,v) := by rw [phase]; rfl
  exact merge_saved custody found file

theorem pending_back (custody : Custody s) (move : Moves s l s')
    (known : s.sessions.get u = some session) (saved : session.saved = some (f,v)) (all : AllBehind s u)
    (found : s'.store.pending.get f = some v) : s.store.pending.get f = some v := by
  rcases step_pending move found with old | ⟨n,m,_,at_n,phase,_⟩
  · exact old
  · obtain ⟨session',known',saved'⟩ := renaming_saved custody at_n phase
    have upload := custody.single _ _ _ _ _ known' known saved' saved
    have here := all n m at_n upload
    rw [phase] at here
    cases here

/-! ### Every step keeps the invariant -/

theorem opened_step (disk : Disk s) (move : Moves s l s') (allowed : Allowed s l) (member : u ∈ s'.dirs) :
    ∃ session, s'.sessions.get u = some session ∧ session.init = .returned := by
  rcases step_dirs move member with old | rfl
  · obtain ⟨session,known,returned⟩ := disk.opened u old
    exact returned_stays move allowed known returned
  cases move with
  | stay =>
    obtain ⟨session,known,returned⟩ := disk.opened u member
    exact ⟨session,known,returned⟩
  | opened =>
    obtain ⟨session,known,_⟩ := allowed
    refine ⟨_,changed_here (changed_modify rfl) known,?_⟩
    rfl

theorem freed_step {lease : Lease} (inv : Held s) (disk : Disk s) (move : Moves s l s') (allowed : Allowed s l)
    (held : s'.store.activeLease = some lease) (key : lease.key = .job f v) : lease.uploadId ∉ s'.dirs := by
  intro member
  cases step_lease move held with
  | kept before =>
    rcases step_dirs move member with old | rfl
    · exact disk.freed lease f v before key old
    · obtain ⟨session,known,_,own | ⟨_,_,_,saved⟩⟩ := inv.tenure.owner lease before
      · cases key.symm.trans own
      · obtain ⟨session',known',opening⟩ := allowed
        cases known.symm.trans known'
        cases opening.symm.trans (inv.course.saved _ _ _ known saved)
  | acquired _ eq =>
    subst eq
    cases key
  | @transferred _ m _ _ _ old _ _ _ _ before session eq _ _ dirs =>
    subst eq
    rw [dirs] at member
    have other : old.uploadId ≠ m.uploadId := by simpa using (List.mem_filter.mp member).2
    exact other (session_owner inv.tenure before session).1
  | returned _ _ _ _ eq =>
    subst eq
    cases key

theorem handedOver_forth (move : Moves s l s') (allowed : Allowed s l) (handed : HandedOver s u) : HandedOver s' u := by
  rcases handed with ⟨session,known,handed⟩ | ⟨m,member,upload,phase⟩
  · exact .inl (handed_forth move allowed known handed)
  obtain ⟨n,found⟩ := List.getElem?_of_mem member
  have differs : ∀ {x : MergePhase}, hasRenamed x = false → m.phase ≠ x := by
    rintro x unlike rfl
    cases phase.symm.trans unlike
  rcases merge_forth move found with ⟨m',found',sameUpload,samePhase⟩ | ⟨session,event,known,merges⟩
  · exact .inr ⟨m',List.mem_of_getElem? found',sameUpload.trans upload,by rw [samePhase]; exact phase⟩
  cases merges with
  | stay => exact .inr ⟨m,member,upload,phase⟩
  | handedOff =>
    subst upload
    refine .inl ⟨_,changed_here (changed_modify rfl) known,?_⟩
    rfl
  | failed _ fails =>
    obtain ⟨f,v,renamed⟩ := renamed_of_hasRenamed phase
    rw [renamed] at fails
    cases fails
  | merged here | checked here | created here | createdLate here | cleared _ _ here | renamed here | freedLate here
  | transferred here | passed here | unqueued here | queued here | jobKept _ here | jobRemoved here | cleans _ here
  | cleaned _ here | swept here | unswept here => exact absurd here (differs rfl)

theorem fresh_not_pending (custody : Custody s) (move : Moves s l s') (fresh : Fresh s f v) :
    s'.store.pending.get f ≠ some v := by
  intro there
  have unknown := not_mentioned_of_fresh custody fresh
  rcases step_pending move there with old | ⟨n,m,_,at_n,phase,_⟩
  · exact unknown (.pending old)
  · obtain ⟨session,known,saved⟩ := renaming_saved custody at_n phase
    exact unknown (.saved known saved)

theorem handed_step (custody : Custody s) (disk : Disk s) (move : Moves s l s')
    (allowed : Allowed s l) (found : s'.sessions.get u = some session') (saved' : session'.saved = some (f,v))
    (there : s'.store.pending.get f = some v) : HandedOver s' u := by
  rcases saved_back custody move allowed found saved' with ⟨session,known,saved⟩ | ⟨_,fresh,_⟩
  · rcases step_pending move there with old | ⟨n,m,_,at_n,phase,after⟩
    · exact handedOver_forth move allowed (disk.handed u session f v known saved old)
    · obtain ⟨session₁,known₁,saved₁⟩ := renaming_saved custody at_n phase
      have upload := custody.single _ _ _ _ _ known₁ known saved₁ saved
      exact .inr ⟨_,List.mem_of_getElem? after,upload,rfl⟩
  · exact absurd there (fresh_not_pending custody move fresh)

theorem past_step (disk : Disk s) (move : Moves s l s') (found : s'.sessions.get u = some session')
    (handed' : session'.handedOff = true) :
    ∃ (n : Nat) (m : Merge), s'.merges[n]? = some m ∧ m.uploadId = u ∧ behind m.phase = true := by
  have stays : ∀ {session : Session}, s.sessions.get u = some session → session.handedOff = true →
      ∃ (n : Nat) (m : Merge), s'.merges[n]? = some m ∧ m.uploadId = u ∧ behind m.phase = true := by
    intro session known handed
    obtain ⟨n,m,at_n,upload,here⟩ := disk.past u session known handed
    obtain ⟨m',at_n',sameUpload,here'⟩ := behind_forth move at_n here
    exact ⟨n,m',at_n',sameUpload.trans upload,here'⟩
  rcases advance_or_aside move with ⟨n,m,_,_,phase,change,advance⟩ | aside
  · rcases changed_back advance.changed found with ⟨_,old⟩ | ⟨rfl,session,old,rfl⟩
    · exact stays old handed'
    · rcases advances_handed advance.advances session with same | ⟨_,here⟩
      · exact stays old (same.symm.trans handed')
      · refine ⟨n,{ m with phase },?_,rfl,here⟩
        rw [advance.merges]
        exact at_set advance.found
  · rcases aside.sessions with same | ⟨u',change,changes,changed⟩ | ⟨u',_,_,rfl,sessions⟩
    · exact stays (same ▸ found) handed'
    · rcases changed_back changed found with ⟨_,old⟩ | ⟨rfl,session,old,rfl⟩
      · exact stays old handed'
      · exact stays old ((change_handed changes session).symm.trans handed')
    · rw [sessions] at found
      rcases get_of_set found with ⟨rfl,rfl⟩ | ⟨_,old⟩
      · cases handed'
      · exact stays old handed'

theorem cancels_step (disk : Disk s) (move : Moves s l s') (allowed : Allowed s l)
    (found : s'.aborts[n]? = some a') (phase : a'.phase = .cleaning f v c) :
    ∃ session, s'.sessions.get a'.uploadId = some session ∧ session.handedOff = true := by
  have before : ∃ session, s.sessions.get a'.uploadId = some session ∧ session.handedOff = true := by
    rcases step_aborts move found with old | ⟨a,session,ok,old,sameUpload,_,known,advances⟩ | ⟨u,_,rfl⟩
    · exact disk.cancels n a' f v c old phase
    · rw [phase] at advances
      rw [sameUpload]
      generalize before : a.phase = x at advances
      cases advances with
      | looks _ handed => exact ⟨session,known,handed⟩
      | cleans _ _ c => exact disk.cancels n a f v c old before
    · cases phase
  obtain ⟨session,known,handed⟩ := before
  exact handed_forth move allowed known handed

/-! ### Removed sources -/

theorem unlinked_abort (move : Moves s l s') (found : s'.aborts[n]? = some a')
    (phase : a'.phase = .cleaning f v (.unreceipting true)) : s.aborts[n]? = some a' ∨ s'.store.pending.get f = none := by
  cases move with
  | merge _ _ move =>
    cases move with
    | cleans _ _ move | cleaned _ _ move =>
      have same := cleans_aborts move
      exact .inl (same ▸ found)
    | _ => exact .inl found
  | abort =>
    rcases at_of_append found with old | ⟨_,rfl⟩
    · exact .inl old
    · cases phase
  | @aborting k a _ _ _ at_k _ move =>
    -- any other step of this cancellation leads to another phase
    have other : ∀ {t : State} {next : AbortPhase}, t.aborts = s.aborts → next ≠ .cleaning f v (.unreceipting true) →
        (t.setAbort k a next).aborts[n]? = some a' → s.aborts[n]? = some a' := by
      intro t next aborts differs here
      have here : (t.aborts.set k _)[n]? = some a' := here
      rw [aborts] at here
      rcases at_of_set here with ⟨rfl,rfl⟩ | ⟨_,old⟩
      · exact absurd phase differs
      · exact old
    cases move with
    | stay => exact .inl found
    | looks | delists | removed => exact .inl (other rfl (by simp) found)
    | @cleans f' v' c c' t _ move =>
      by_cases here : AbortPhase.cleaning f' v' c' = .cleaning f v (.unreceipting true)
      · cases here
        exact .inr ((cleans_unlinked move rfl :))
      · exact .inl (other (cleans_aborts move) here found)
    | cleaned _ move =>
      have same := cleans_aborts move
      exact .inl (other same (by simp) found)
    | refused _ move => exact .inl (other (cleans_aborts move) (by simp) found)
  | _ => exact .inl found

theorem unlinked_merge {m' : Merge} (move : Moves s l s') (found : s'.merges[n]? = some m')
    (phase : m'.phase = .cleaning f v (.unreceipting true)) :
    (∃ m, s.merges[n]? = some m ∧ m.phase = .cleaning f v (.unreceipting true)) ∨ s'.store.pending.get f = none := by
  rcases advance_or_aside move with ⟨k,m,_,_,next,_,advance⟩ | aside
  · rw [advance.merges] at found
    rcases at_of_set found with ⟨rfl,rfl⟩ | ⟨_,old⟩
    · have advances := advance.advances
      have here : next = .cleaning f v (.unreceipting true) := phase
      cases advances with
      | same => exact .inl ⟨m,advance.found,here⟩
      | cleans _ _ unlinked =>
        cases here
        exact .inr (unlinked rfl)
      | queued _ goesOn => rcases goesOn with rfl | rfl <;> cases here
      | _ => cases here
    · exact .inl ⟨m',old,phase⟩
  · rcases aside.merges n m' found with ⟨m,old,signalled⟩ | ⟨_,_,_,rfl,_⟩
    · exact .inl ⟨m,old,(signalled_same signalled).2.symm.trans phase⟩
    · cases phase

theorem cleaned_step (custody : Custody s) (disk : Disk s) (move : Moves s l s')
    (found : s'.aborts[n]? = some a') (phase : a'.phase = .cleaning f v (.unreceipting true)) :
    s'.store.pending.get f ≠ some v := by
  rcases unlinked_abort move found phase with old | gone
  · obtain ⟨session,known,saved⟩ := custody.cancelling n a' f v _ old phase
    obtain ⟨session',known',handed⟩ := disk.cancels n a' f v _ old phase
    have all := allBehind_handed custody disk known' handed
    intro there
    exact disk.cleaned n a' f v old phase (pending_back custody move known saved all there)
  · rw [gone]
    simp

theorem withdrawn_step {m' : Merge} (custody : Custody s) (disk : Disk s) (move : Moves s l s')
    (found : s'.merges[n]? = some m') (phase : m'.phase = .cleaning f v (.unreceipting true)) :
    s'.store.pending.get f ≠ some v := by
  rcases unlinked_merge move found phase with ⟨m,old,before⟩ | gone
  · intro there
    rcases step_pending move there with still | ⟨k,x,_,at_k,«renaming»,_⟩
    · exact disk.withdrawn n m f v old before still
    · have file : m.phase.file = some (f,v) := by rw [before]; rfl
      have file' : x.phase.file = some (f,v) := by rw [«renaming»]; rfl
      cases merge_unique custody old at_k file file'
      cases old.symm.trans at_k
      cases before.symm.trans «renaming»
  · rw [gone]
    simp

theorem onGo_lost (lost : lostSource (onGo store a).2 = true) : lostSource a.phase = true := by
  have receipts : ∀ {remote : Bool} {receipt : Receipt}, lostSource (afterReceipt a remote receipt) = false := by
    intro remote receipt
    unfold afterReceipt
    split_ifs <;> rfl
  cases phase : a.phase with
  | abandoning => rfl
  | loading =>
    simp only [onGo,phase] at lost
    split at lost
    · cases receipts.symm.trans lost
    · cases lost
  | persisting =>
    simp only [onGo,phase] at lost
    cases receipts.symm.trans lost
  | start | claiming | reloading | committing | failing | rereading | readying =>
    simp only [onGo,phase] at lost
    grind [lostSource,givesBack]
  | checking | uploading | removing | ended =>
    simp only [onGo,phase] at lost
    exact lost
  | releasing | givingUp | recovering | refusing | finishing | registering =>
    simp only [onGo,phase] at lost
    cases lost

theorem onFail_lost {phase : Phase} (lost : lostSource (onFail phase) = true) : lostSource phase = true := by
  cases phase <;> first | exact lost | cases lost

theorem afterUnlinks_lost {source : Option Bool} {receipt : Bool}
    (lost : lostSource (afterUnlinks a store source receipt).2 = true) :
    source = some true ∧ (afterUnlinks a store source receipt).1.pending = store.pending := by
  cases source with
  | none => cases lost
  | some removed =>
    cases removed with
    | false => cases receipt <;> cases lost
    | true => cases receipt <;> exact ⟨rfl,rfl⟩

theorem go_lost {i : Nat} {event : Event} (lost : lostSource (go store i a event).2 = true) :
    lostSource a.phase = true ∨ event = .seen false ∨ (go store i a event).1.pending.get a.fileId = none := by
  cases event with
  | go => exact .inl (onGo_lost lost)
  | fail => exact .inl (onFail_lost lost)
  | lost =>
    simp only [go] at lost
    split_ifs at lost
    · exact .inl (onFail_lost lost)
    · exact .inl lost
  | seen there =>
    cases there with
    | false => exact .inr (.inl rfl)
    | true =>
      simp only [go] at lost
      split at lost
      · cases lost
      · exact .inl lost
  | uploaded =>
    simp only [go] at lost
    split at lost
    · cases lost
    · exact .inl lost
  | wait =>
    simp only [go] at lost
    split at lost
    · split_ifs at lost <;> cases lost
    · exact .inl lost
  | unlinkSource ok =>
    simp only [go] at lost ⊢
    split at lost
    · next phase =>
      refine .inr (.inr ?_)
      split_ifs at lost ⊢ with absent
      · rw [(afterUnlinks_lost lost).2]
        simpa using absent
      · rw [(afterUnlinks_lost lost).2]
        exact get_delete_same _ _
      · cases (afterUnlinks_lost lost).1
    · exact .inl lost
  | unlinkReceipt ok =>
    simp only [go] at lost
    split at lost
    · next phase =>
      have known := (afterUnlinks_lost lost).1
      subst known
      rw [phase]
      exact .inl rfl
    · exact .inl lost
  | crash =>
    simp only [go] at lost
    split_ifs at lost
    · exact .inl lost
    · cases lost

theorem lost_step {a' : Attempt} (custody : Custody s) (disk : Disk s) (move : Moves s l s') (orderly : Orderly s l)
    (member : a' ∈ s'.attempts) (lost : lostSource a'.phase = true) : s'.store.pending.get a'.fileId ≠ some a'.uploadVersion := by
  obtain ⟨i,at_i⟩ := List.getElem?_of_mem member
  -- a merge brings its source before there is a job and an attempt at it
  have back : ∀ {a : Attempt}, s.attempts[i]? = some a →
      s'.store.pending.get a.fileId = some a.uploadVersion → s.store.pending.get a.fileId = some a.uploadVersion := by
    intro a known there
    rcases step_pending move there with old | ⟨n,m,_,at_n,phase,_⟩
    · exact old
    · have early : MergePhase.early m.phase = some (a.fileId,a.uploadVersion) := by rw [phase]; rfl
      exact absurd rfl ((custody.early n m _ _ at_n early).2 a (List.mem_of_getElem? known) rfl)
  have kept : ∀ {a : Attempt}, s.attempts[i]? = some a → lostSource a.phase = true →
      s'.store.pending.get a.fileId ≠ some a.uploadVersion := fun known lost there =>
    disk.lost _ (List.mem_of_getElem? known) lost (back known there)
  rcases step_attempts move at_i with ⟨a,known,file,version,same | ⟨event,rfl,_⟩⟩ | ⟨_,_,_,_,_,_,rfl⟩
  · subst same
    exact kept known lost
  · rw [file]
    cases move with
    | stay =>
      cases known.symm.trans at_i
      exact kept known lost
    | work at_i' _ goes =>
      cases known.symm.trans at_i'
      cases (at_set known).symm.trans at_i
      have lost : lostSource (go s.store i a event).2 = true := by rw [goes]; exact lost
      rcases go_lost lost with before | rfl | gone
      · exact kept known before
      · exact fun there => orderly a known (back known there)
      · rw [goes] at gone
        rw [gone]
        simp
  · cases lost

/-! ### Cancellations that remove the directory -/

theorem unlisted_forth (move : Moves s l s') (allowed : Allowed s l)
    (known : s.sessions.get u = some session) (returned : session.init = .returned) (gone : session.listed = false)
    (known' : s'.sessions.get u = some session') : session'.listed = false := by
  rcases advance_or_aside move with ⟨n,m,_,_,_,change,advance⟩ | aside
  · rcases changed_back advance.changed known' with ⟨_,old⟩ | ⟨rfl,session₀,old,rfl⟩
    · cases known.symm.trans old
      exact gone
    · cases known.symm.trans old
      exact (advances_rest advance.advances session).2.1.trans gone
  · rcases aside.sessions with same | ⟨u',change,changes,changed⟩ | ⟨u',_,_,rfl,sessions⟩
    · rw [same] at known'
      cases known.symm.trans known'
      exact gone
    · rcases changed_back changed known' with ⟨_,old⟩ | ⟨rfl,session₀,old,rfl⟩
      · cases known.symm.trans old
        exact gone
      cases known.symm.trans old
      cases changes with
      | register =>
        obtain ⟨session₁,known₁,acquired⟩ := allowed
        cases known.symm.trans known₁
        cases returned.symm.trans acquired
      | deadline => exact (settleSession_rest _ _ _).2.1.trans gone
      | unopened | cancelled | reclaimed | timer => rfl
      | refuse | opened | trigger | reclaim | unreclaimed => exact gone
    · have other : u ≠ u' := by
        rintro rfl
        cases known.symm.trans allowed.1
      rw [sessions,get_set_other _ _ other] at known'
      cases known.symm.trans known'
      exact gone

def Emptied (s : State) (u : String) (session : Session) : Prop :=
  session.listed = false ∧ (session.strictDiskLease = true →
    AllBehind s u ∧ ∀ file ∈ session.saved, s.store.pending.get file.1 ≠ some file.2)

theorem emptied_forth (custody : Custody s) (move : Moves s l s') (allowed : Allowed s l)
    (known : s.sessions.get u = some session) (returned : session.init = .returned) (emptied : Emptied s u session)
    (known' : s'.sessions.get u = some session') : Emptied s' u session' := by
  obtain ⟨gone,empty⟩ := emptied
  refine ⟨unlisted_forth move allowed known returned gone known',fun strict' => ?_⟩
  obtain ⟨session₁,known₁,same,_⟩ := session_forth custody move allowed known
  cases known'.symm.trans known₁
  obtain ⟨all,absent⟩ := empty (same.symm.trans strict')
  have untriggered : l ≠ .trigger u := by
    rintro rfl
    obtain ⟨session₂,known₂,listed,_⟩ := allowed
    cases known.symm.trans known₂
    cases gone.symm.trans listed
  refine ⟨allBehind_step move untriggered all,?_⟩
  rintro ⟨f,v⟩ saved' there
  rcases saved_back custody move allowed known' saved' with ⟨session₂,known₂,saved⟩ | ⟨_,fresh,_⟩
  · cases known.symm.trans known₂
    exact absent (f,v) saved (pending_back custody move known saved all there)
  · exact fresh_not_pending custody move fresh there

theorem emptied_cancels {a : Abort} (custody : Custody s) (disk : Disk s)
    (orderly : a.phase = .cancelling → session.strictDiskLease = true →
      ∀ m ∈ s.merges, m.uploadId = a.uploadId → hasEnded m.phase = true)
    (found : s.aborts[n]? = some a) (known : s.sessions.get a.uploadId = some session) (move : Cancels s n a session s')
    (found' : s'.aborts[n]? = some { a with phase := .removing }) (phase : a.phase ≠ .removing)
    (known' : s'.sessions.get a.uploadId = some session') : Emptied s' a.uploadId session' := by
  have step : ∀ {t : State}, t.sessions = s.sessions →
      ((t.delist a.uploadId).setAbort n a .removing).sessions.get a.uploadId = some session' →
      session' = { session with listed := false } := by
    intro t sessions found
    have changed : Changed t ((t.delist a.uploadId).setAbort n a .removing) a.uploadId _ := changed_modify rfl
    rw [← sessions] at known
    exact Option.mem_unique found (changed_here changed known)
  cases move with
  | delists here free =>
    cases step rfl known'
    refine ⟨rfl,fun strict => ?_⟩
    have all : AllBehind s a.uploadId := by
      intro k m at_k upload
      exact behind_of_hasEnded (orderly here strict m (List.mem_of_getElem? at_k) upload)
    refine ⟨all,?_⟩
    rintro ⟨f,v⟩ saved there
    rcases disk.handed _ session f v known saved there with ⟨session₁,known₁,handed⟩ | ⟨m,member,upload,renamed⟩
    · cases known.symm.trans known₁
      rcases free with unsaved | unhanded
      · cases saved.symm.trans unsaved
      · cases handed.symm.trans unhanded
    · obtain ⟨k,at_k⟩ := List.getElem?_of_mem member
      have here := all k m at_k upload
      obtain ⟨f',v',phase⟩ := renamed_of_hasRenamed renamed
      rw [phase] at here
      cases here
  | @cleaned f v c t here move =>
    cases step ((cleans_sessions move :)) known'
    refine ⟨rfl,fun _ => ?_⟩
    obtain ⟨session₁,known₁,handed⟩ := disk.cancels n a f v c found here
    have all := allBehind_handed custody disk known₁ handed
    obtain ⟨session₂,known₂,saved⟩ := custody.cancelling n a f v c found here
    cases known.symm.trans known₂
    cases move with
    | released =>
      refine ⟨all,?_⟩
      rintro file saved'
      cases saved.symm.trans saved'
      exact disk.cleaned n a f v found here
  | stay =>
    have same := congrArg Abort.phase (Option.mem_unique found found')
    exact absurd same phase
  | looks | removed => cases (at_set found).symm.trans found'
  | cleans _ move | refused _ move =>
    have after : (_ : List Abort)[n]? = some { a with phase := .removing } := found'
    rw [State.setAbort,cleans_aborts move] at after
    cases (at_set found).symm.trans after

theorem removing_step (custody : Custody s) (course : Course s) (disk : Disk s)
    (move : Moves s l s') (allowed : Allowed s l) (orderly : Orderly s l) (found : s'.aborts[n]? = some a')
    (phase : a'.phase = .removing) (known' : s'.sessions.get a'.uploadId = some session') :
    Emptied s' a'.uploadId session' := by
  have kept : s.aborts[n]? = some a' → Emptied s' a'.uploadId session' := by
    intro old
    obtain ⟨session,known,returned⟩ := course.returned a'.uploadId (.abort old rfl)
    exact emptied_forth custody move allowed known returned (disk.removing n a' session old phase known) known'
  rcases step_aborts move found with old | ⟨a,session,ok,old,upload,rfl,known,advances⟩ | ⟨_,_,rfl⟩
  · exact kept old
  · cases move with
    | stay => exact kept found
    | aborting at_n known₁ move =>
      cases old.symm.trans at_n
      cases known.symm.trans known₁
      have apart : a.phase ≠ .removing := by
        intro before
        rw [before,phase] at advances
        cases advances
      have same : a' = { a with phase := .removing } := by
        cases a'
        cases upload
        cases phase
        rfl
      subst same
      refine emptied_cancels (a := a) custody disk ?_ old known move found apart known'
      exact fun cancelling strict => (orderly a old).1 cancelling session known strict
  · cases phase

theorem disk_step (inv : Held s) (disk : Disk s) (allowed : Allowed s l) (orderly : Orderly s l) : Disk (step s l) := by
  have move : Moves s l (step s l) := step_moves l
  have custody := inv.custody
  have course := inv.course
  exact
    { opened := fun _ member => opened_step disk move allowed member
      freed := fun _ _ _ held key => freed_step inv disk move allowed held key
      handed := fun _ _ _ _ found saved there => handed_step custody disk move allowed found saved there
      past := fun _ _ found handed => past_step disk move found handed
      cancels := fun _ _ _ _ _ found phase => cancels_step disk move allowed found phase
      cleaned := fun _ _ _ _ found phase => cleaned_step custody disk move found phase
      withdrawn := fun _ _ _ _ found phase => withdrawn_step custody disk move found phase
      removing := fun _ _ _ found phase known => removing_step custody course disk move allowed orderly found phase known
      lost := fun _ member lost => lost_step custody disk move orderly member lost }

structure Sound (s : State) : Prop where
  inv : Held s
  disk : Disk s

theorem initial_sound : Sound initial := ⟨⟨initial_custody,initial_course,initial_tenure⟩,initial_disk⟩

theorem sound_step (sound : Sound s) (allowed : Allowed s l) (orderly : Orderly s l) : Sound (step s l) :=
  ⟨held_step sound.inv allowed,disk_step sound.inv sound.disk allowed orderly⟩

/-! ### Giving the lease back -/

inductive Gives (s : State) (l : Label) (s' : State) (lease : Lease) : Prop
  | refused {u : String} (label : l = .refuse u ∨ l = .opened u false) (key : lease.key = .session u) (dirs : s'.dirs = s.dirs)
  | removed {n : Nat} {a : Abort} {ok : Bool} (label : l = .aborting n ok) (found : s.aborts[n]? = some a)
      (phase : a.phase = .removing) (key : lease.key = .session a.uploadId)
  | cancelled {n : Nat} {a : Abort} {f : String} {v : Nat} (found : s.aborts[n]? = some a)
      (phase : a.phase = .cleaning f v (.unreceipting true)) (key : lease.key = .job f v)
  | withdrawn {n : Nat} {m : Merge} {f : String} {v : Nat} (found : s.merges[n]? = some m)
      (phase : m.phase = .cleaning f v (.unreceipting true)) (key : lease.key = .job f v)
  | reclaimed {n : Nat} {r : Reclaim} (label : l = .reclaiming n true) (found : s.reclaims[n]? = some r)
      (key : lease.key = .session r.uploadId) (dirs : s'.dirs = s.dirs.filter (· ≠ r.uploadId))
  | timer {u : String} {session : Session} (label : l = .timer u) (known : s.sessions.get u = some session)
      (listed : session.listed = true) (failed : session.mergeStatus = .error) (key : lease.key = .session u)
  | swept (label : l = .sweepOrphan)
  | worked {i : Nat} {a' : Attempt} (after : s'.attempts[i]? = some a') (lost : lostSource a'.phase = true)
      (key : lease.key = .job a'.fileId a'.uploadVersion)

variable {lease : Lease}

theorem release_none {key : LeaseKey} (held : s.store.activeLease = some lease)
    (free : release s.store.activeLease key = none) : lease.key = key := by
  rw [held] at free
  simpa [release] using free

theorem cleans_gives {answer : Cleaning ⊕ Bool} (move : Cleans s f v c s' answer)
    (held : s.store.activeLease = some lease) (free : s'.store.activeLease = none) :
    c = .unreceipting true ∧ lease.key = .job f v := by
  cases move with
  | released => exact ⟨rfl,release_none held free⟩
  | kept | unqueued | marked | unmarked | unlinked | stuck | unreceipted => cases held.symm.trans free

theorem step_gives (move : Moves s l s') (held : s.store.activeLease = some lease) (free : s'.store.activeLease = none) :
    Gives s l s' lease := by
  cases move with
  | init _ strict =>
    cases strict
    · cases held.symm.trans free
    · cases free
  | refuse => exact .refused (.inl rfl) (release_none held free) rfl
  | unopened => exact .refused (.inr rfl) (release_none held free) rfl
  | merge found _ move =>
    cases move with
    | transferred => cases free
    | unqueued =>
      have moved : transferJobToSession s.store.activeLease _ _ _ = none := free
      rw [held] at moved
      cases moved
    | cleans _ phase move | cleaned _ phase move =>
      obtain ⟨rfl,key⟩ := cleans_gives move held free
      exact .withdrawn found phase key
    | _ => cases held.symm.trans free
  | aborting found _ move =>
    cases move with
    | removed _ phase => exact .removed rfl found phase (release_none held free)
    | cleans phase move | cleaned phase move | refused phase move =>
      obtain ⟨rfl,key⟩ := cleans_gives move held free
      exact .cancelled found phase key
    | stay | looks | delists => cases held.symm.trans free
  | @reclaimed _ _ session found =>
    split_ifs at free
    · exact .reclaimed rfl found (release_none held free) rfl
    · cases held.symm.trans free
  | @timer _ session known listed =>
    split_ifs at free with failed
    · exact .timer rfl known listed failed (release_none held free)
    · cases held.symm.trans free
  | sweepOrphan => exact .swept rfl
  | @work _ a _ t _ _ found _ _ touch outcome =>
    have same : t.activeLease = s.store.activeLease := by cases touch <;> rfl
    cases outcome with
    | keep =>
      rw [same] at free
      cases held.symm.trans free
    | giveBack ends =>
      rw [same] at free
      refine .worked (at_set found) ?_ (release_none held free)
      rcases ends with rfl | rfl <;> rfl
  | _ => cases held.symm.trans free

theorem dir_stays_gone (move : Moves s l s') (allowed : Allowed s l)
    (known : s.sessions.get u = some session) (returned : session.init = .returned) (gone : u ∉ s.dirs) : u ∉ s'.dirs := by
  intro member
  rcases step_dirs move member with old | rfl
  · exact gone old
  · obtain ⟨session',known',opening⟩ := allowed
    cases known.symm.trans known'
    cases returned.symm.trans opening

section
variable (inv : Held s) (disk : Disk s) (move : Moves s l s') (allowed : Allowed s l)
include inv disk move allowed

section
variable (held : s.store.activeLease = some lease) (key : lease.key = .job f v)
include held key

theorem cleared_job (absent : s'.store.pending.get f ≠ some v) : Cleared s' lease.uploadId := by
  obtain ⟨session,known,_,own | ⟨f',v',job,saved⟩⟩ := inv.tenure.owner lease held
  · cases key.symm.trans own
  cases key.symm.trans job
  have returned := inv.course.saved _ _ _ known saved
  refine ⟨dir_stays_gone move allowed known returned (disk.freed lease f v held key),?_⟩
  rintro session' known' file saved'
  obtain ⟨session₁,known₁,saved₁⟩ := saved_forth inv.custody move allowed known saved
  cases known'.symm.trans known₁
  cases saved₁.symm.trans saved'
  exact absent

theorem cleared_cleaned (all : AllBehind s lease.uploadId) (gone : s.store.pending.get f ≠ some v) : Cleared s' lease.uploadId := by
  refine cleared_job inv disk move allowed held key fun there => ?_
  obtain ⟨session,known,_,own | ⟨f',v',job,saved⟩⟩ := inv.tenure.owner lease held
  · cases key.symm.trans own
  · cases key.symm.trans job
    exact gone (pending_back inv.custody move known saved all there)

end

theorem cleared_unreturned (known : s.sessions.get u = some session) (early : session.init ≠ .returned) (dirs : s'.dirs = s.dirs) :
    Cleared s' u := by
  refine ⟨fun member => ?_,?_⟩
  · rw [dirs] at member
    obtain ⟨session₁,known₁,returned⟩ := disk.opened u member
    cases known.symm.trans known₁
    exact early returned
  · rintro session' known' ⟨f,v⟩ saved' there
    rcases saved_back inv.custody move allowed known' saved' with ⟨session₁,known₁,saved⟩ | ⟨_,fresh,_⟩
    · cases known.symm.trans known₁
      exact early (inv.course.saved _ _ _ known saved)
    · exact fresh_not_pending inv.custody move fresh there

end

theorem removing_dirs {a : Abort} {ok : Bool} (found : s.aborts[n]? = some a)
    (known : s.sessions.get a.uploadId = some session) (phase : a.phase = .removing)
    (gone : ok = true ∨ a.uploadId ∉ s.dirs) : a.uploadId ∉ (step s (.aborting n ok)).dirs := by
  have dirs : (step s (.aborting n ok)).dirs = if ok then s.dirs.filter (· ≠ a.uploadId) else s.dirs := by
    simp only [step,found,known,State.abortStep,phase]
    cases ok <;> rfl
  rw [dirs]
  rcases gone with rfl | gone
  · simp
  · split_ifs
    · exact fun member => gone (List.mem_filter.mp member).1
    · exact gone

theorem cleared_removed {a : Abort} {ok : Bool} (inv : Held s) (disk : Disk s)
    (orderly : Orderly s (.aborting n ok)) (found : s.aborts[n]? = some a) (phase : a.phase = .removing)
    (held : s.store.activeLease = some lease) (key : lease.key = .session a.uploadId) :
    Cleared (step s (.aborting n ok)) a.uploadId := by
  have move : Moves s (.aborting n ok) (step s (.aborting n ok)) := step_moves _
  obtain ⟨_,session,known,strict⟩ := session_owner inv.tenure held key
  have gone : ok = true ∨ a.uploadId ∉ s.dirs := by
    rcases (orderly a found).2 phase with ok | gone | free
    · exact .inl ok
    · exact .inr gone
    · exact absurd key (free lease held)
  refine ⟨removing_dirs found known phase gone,fun session' known' => ?_⟩
  obtain ⟨session₁,known₁,returned⟩ := inv.course.returned a.uploadId (.abort found rfl)
  cases known.symm.trans known₁
  have emptied : Emptied s a.uploadId session := disk.removing n a session found phase known
  have emptied' := emptied_forth inv.custody move trivial known returned emptied known'
  obtain ⟨session₂,known₂,same,_⟩ := session_forth inv.custody move trivial known
  cases known'.symm.trans known₂
  exact (emptied'.2 (same.trans strict)).2

theorem cleared_reclaimed {r : Reclaim} (inv : Held s) (disk : Disk s) (move : Moves s (.reclaiming n true) s')
    (unhanded : ¬HandedOver s r.uploadId) (dirs : s'.dirs = s.dirs.filter (· ≠ r.uploadId)) : Cleared s' r.uploadId := by
  refine ⟨by rw [dirs]; simp,?_⟩
  rintro session' known' ⟨f,v⟩ saved' there
  rcases saved_back inv.custody move trivial known' saved' with ⟨session,known,saved⟩ | ⟨_,fresh,_⟩
  · rcases step_pending move there with old | ⟨_,_,label,_⟩
    · exact unhanded (disk.handed _ session f v known saved old)
    · cases label
  · exact fresh_not_pending inv.custody move fresh there

theorem cleared_step (inv : Held s) (disk : Disk s) (allowed : Allowed s l) (orderly : Orderly s l)
    (held : s.store.activeLease = some lease) (free : (step s l).store.activeLease = none) :
    Cleared (step s l) lease.uploadId := by
  have move : Moves s l (step s l) := step_moves l
  cases step_gives move held free with
  | @refused u label key dirs =>
    have own := (session_owner inv.tenure held key).1
    subst own
    rcases label with rfl | rfl
    · have start : s.initAt lease.uploadId .acquired := allowed
      obtain ⟨session,known,acquired⟩ := start
      exact cleared_unreturned inv disk move allowed known (by rw [acquired]; simp) dirs
    · have start : s.initAt lease.uploadId .opening := allowed
      obtain ⟨session,known,opening⟩ := start
      exact cleared_unreturned inv disk move allowed known (by rw [opening]; simp) dirs
  | removed label found phase key =>
    subst label
    rw [(session_owner inv.tenure held key).1]
    exact cleared_removed inv disk orderly found phase held key
  | @cancelled n a f v found phase key =>
    obtain ⟨session,known,handed⟩ := disk.cancels n a f v _ found phase
    obtain ⟨session',known',saved⟩ := inv.custody.cancelling n a f v _ found phase
    have own := job_owner inv.custody inv.tenure held key known' saved
    have all : AllBehind s lease.uploadId := own ▸ allBehind_handed inv.custody disk known handed
    exact cleared_cleaned inv disk move allowed held key all (disk.cleaned n a f v found phase)
  | @withdrawn n m f v found phase key =>
    have file : m.phase.file = some (f,v) := by rw [phase]; rfl
    obtain ⟨session,known,saved⟩ := merge_saved inv.custody found file
    have own := job_owner inv.custody inv.tenure held key known saved
    have all : AllBehind s lease.uploadId := by
      intro k m' at_k upload
      cases inv.custody.alone _ _ _ _ found at_k (own.symm.trans upload.symm)
      cases found.symm.trans at_k
      rw [phase]
      rfl
    exact cleared_cleaned inv disk move allowed held key all (disk.withdrawn n m f v found phase)
  | reclaimed label found key dirs =>
    subst label
    rw [(session_owner inv.tenure held key).1]
    exact cleared_reclaimed inv disk move (fun handed => orderly _ found handed lease held key) dirs
  | timer label known listed failed key =>
    subst label
    exact absurd key (orderly _ known listed failed lease held)
  | swept label =>
    subst label
    exact orderly.elim
  | worked after lost key =>
    have disk' := disk_step inv disk allowed orderly
    exact cleared_job inv disk move allowed held key (disk'.lost _ (List.mem_of_getElem? after) lost)

/-- In a run of orderly steps the lease of an upload goes back when its directory and its source are gone. -/
theorem lease_returned_clear (run : Reachable step (fun s l => Allowed s l ∧ Orderly s l) initial s) (allowed : Allowed s l)
    (orderly : Orderly s l) (held : s.store.activeLease = some lease) (free : (step s l).store.activeLease = none) :
    Cleared (step s l) lease.uploadId := by
  have sound : Sound s := reachable_invariant initial_sound (fun _ _ sound ok => sound_step sound ok.1 ok.2) run
  exact cleared_step sound.inv sound.disk allowed orderly held free

def finishedUpload : List Label :=
  opening "a" true none 0 ++ handingOver 0 "f" ++ queuing 0 ++ [Label.merge 0 .go,.deliver "f" 1] ++ uploading 0 ++ finishing 0 ++
    [Label.work 0 .go,.work 0 (.unlinkSource true)]

theorem lease_returned_clear_finished :
    (step (finishedUpload.foldl step initial) (.work 0 (.unlinkReceipt true))).store.activeLease = none ∧
      Cleared (step (finishedUpload.foldl step initial) (.work 0 (.unlinkReceipt true))) "a" := by
  have run : Reachable step (fun s l => Allowed s l ∧ Orderly s l) initial (finishedUpload.foldl step initial) :=
    reachable_run .start finishedUpload (by decide +kernel)
  have held : (finishedUpload.foldl step initial).store.activeLease = some ⟨.job "f" 1,"a"⟩ := by decide +kernel
  have free : (step (finishedUpload.foldl step initial) (.work 0 (.unlinkReceipt true))).store.activeLease = none := by
    decide +kernel
  exact ⟨free,lease_returned_clear (l := .work 0 (.unlinkReceipt true)) run trivial trivial held free⟩

def failedUpload : List Label :=
  [.init "a" true none,.register "a",.opened "a" true,.trigger "a",.merge 0 .fail]

/-- The timer gives the lease back and does not wait for the removal of the directory. -/
theorem lease_returned_early : ∃ s l lease, Reached s ∧ Allowed s l ∧ s.store.activeLease = some lease ∧
    (step s l).store.activeLease = none ∧ ¬Cleared (step s l) lease.uploadId := by
  have reached : Reached (failedUpload.foldl step initial) := reachable_run .start failedUpload (by decide +kernel)
  have held : (failedUpload.foldl step initial).store.activeLease = some ⟨.session "a","a"⟩ := by decide +kernel
  exact ⟨_,.timer "a",_,reached,by decide +kernel,held,by decide +kernel,by decide +kernel⟩

end
end Tgtc.LeaseDisk
