import Tgtc.SessionCourse

/-!
Who the lease of the disk budget belongs to. It goes from the session to the job of its file, and from there back to
nobody; in between there are calls to wait for, and some ways an upload can end do not give it back.
-/
namespace Tgtc.LeaseTenure
open Maps Runs UploadWorker UploadSystem UploadMoves UploadCustody SessionCourse
open UploadSessions (MergeStatus)

/-- The session is registered or its `init` has not returned; the job has not come to its end. -/
def Owned (s : State) : LeaseKey → Prop
  | .session uploadId => ∃ session ∈ s.sessions.get uploadId,
      session.listed = true ∨ session.init = .acquired ∨ session.init = .opening
  | .job fileId uploadVersion => ∃ job ∈ s.jobs.get (fileId,uploadVersion), job.state ≠ .finished

instance (s : State) : (key : LeaseKey) → Decidable (Owned s key) := fun key => by
  cases key <;> unfold Owned <;> infer_instance

def givesBack : Exit → Bool
  | .abandoned | .removed true => true
  | _ => false

inductive Carried (s : State) : LeaseKey → Prop
  /-- `abort` removes the directory before it gives the lease back -/
  | removing {n : Nat} {a : Abort} {u : String} (found : s.aborts[n]? = some a) (upload : a.uploadId = u)
      (phase : a.phase = .removing) : Carried s (.session u)
  | returned {n : Nat} {m : Merge} {u : String} (found : s.merges[n]? = some m) (upload : m.uploadId = u)
      (phase : m.phase = .ended .unqueued) : Carried s (.session u)
  | adding {n : Nat} {m : Merge} {f : String} {v : Nat} (found : s.merges[n]? = some m) (phase : m.phase = .adding f v) :
      Carried s (.job f v)
  /-- `abort` has taken the job out of the queue and removes its source -/
  | cancelling {n : Nat} {a : Abort} {f : String} {v : Nat} {c : Cleaning} (found : s.aborts[n]? = some a)
      (phase : a.phase = .cleaning f v c) (past : c ≠ .looking) : Carried s (.job f v)
  /-- `abort` has taken the job out of the queue and could not remove its source -/
  | kept {n : Nat} {a : Abort} {session : Session} {f : String} {v : Nat} (found : s.aborts[n]? = some a)
      (phase : a.phase = .ended true) (known : s.sessions.get a.uploadId = some session)
      (saved : session.saved = some (f,v)) : Carried s (.job f v)
  | left {i : Nat} {a : Attempt} {exit : Exit} {f : String} {v : Nat} (found : s.attempts[i]? = some a)
      (file : (a.fileId,a.uploadVersion) = (f,v)) (phase : a.phase = .ended exit) (keeps : givesBack exit = false) :
      Carried s (.job f v)
  /-- a merge that was cancelled after it had added the job has taken the job out of the queue -/
  | withdrawing {n : Nat} {m : Merge} {f : String} {v : Nat} {c : Cleaning} (found : s.merges[n]? = some m)
      (phase : m.phase = .cleaning f v c) : Carried s (.job f v)
  | withdrawn {n : Nat} {m : Merge} {session : Session} {f : String} {v : Nat} (found : s.merges[n]? = some m)
      (phase : m.phase = .ended .failed) (known : s.sessions.get m.uploadId = some session)
      (saved : session.saved = some (f,v)) : Carried s (.job f v)

section
variable {s s' : State} {l : Label}

/-! ### What stays where it is -/

variable {n : Nat} {session : Session} {u : String} {m : Merge} {a : Attempt} {exit : Exit} {job : Job} {c : Cleaning} {event : MergeEvent} {store : Store}

theorem merge_forth (move : Moves s l s') (found : s.merges[n]? = some m) :
    (∃ m', s'.merges[n]? = some m' ∧ m'.uploadId = m.uploadId ∧ m'.phase = m.phase) ∨
      ∃ session event, s.sessions.get m.uploadId = some session ∧ Merges s n m session event s' := by
  rcases advance_or_aside move with ⟨k,x,_,_,_,_,advance⟩ | aside
  · have label := advance.label
    subst label
    cases move with
    | stay => exact .inl ⟨m,found,rfl,rfl⟩
    | @merge _ _ session _ _ at_k known move =>
      by_cases here : n = k
      · subst here
        cases found.symm.trans at_k
        exact .inr ⟨session,_,known,move⟩
      · obtain ⟨_,_,_,merges,_⟩ := merges_advance at_k move
        exact .inl ⟨m,by rw [merges,List.getElem?_set_ne (Ne.symm here),found],rfl,rfl⟩
  · obtain ⟨m',found',signalled⟩ := aside.stay n m found
    obtain ⟨upload,phase⟩ := signalled_same signalled
    exact .inl ⟨m',found',upload,phase⟩

theorem abort_forth {a : Abort} (move : Moves s l s') (found : s.aborts[n]? = some a) :
    s'.aborts[n]? = some a ∨ ∃ session, s.sessions.get a.uploadId = some session ∧ Cancels s n a session s' := by
  cases move with
  | merge _ _ move =>
    cases move with
    | cleans _ _ move | cleaned _ _ move =>
      have same := cleans_aborts move
      exact .inl (same ▸ found)
    | _ => exact .inl found
  | abort =>
    have known := at_lt found
    exact .inl (by rw [List.getElem?_append_left known,found])
  | @aborting k b session _ _ at_k known move =>
    by_cases here : n = k
    · subst here
      cases found.symm.trans at_k
      exact .inr ⟨session,known,move⟩
    · rcases cancels_advance move with rfl | ⟨_,_,aborts⟩
      · exact .inl found
      · exact .inl (by rw [aborts,List.getElem?_set_ne (Ne.symm here),found])
  | _ => exact .inl found

theorem ended_attempt_stays {i : Nat} (move : Moves s l s') (found : s.attempts[i]? = some a)
    (phase : a.phase = .ended exit) : s'.attempts[i]? = some a := by
  cases move with
  | merge _ _ move =>
    cases move with
    | cleans _ _ move | cleaned _ _ move =>
      have same := cleans_attempts move
      exact same ▸ found
    | _ => exact found
  | aborting _ _ move =>
    cases move with
    | cleans _ move | cleaned _ move | refused _ move =>
      have same := cleans_attempts move
      exact same ▸ found
    | _ => exact found
  | deliver =>
    have known := at_lt found
    rw [List.getElem?_append_left known,found]
  | @work j b _ _ _ _ at_j going =>
    have other : i ≠ j := by
      rintro rfl
      cases found.symm.trans at_j
      rw [phase] at going
      cases going
    rw [List.getElem?_set_ne (Ne.symm other),found]
  | _ => exact found

theorem session_forth (custody : Custody s) (move : Moves s l s') (allowed : Allowed s l)
    (known : s.sessions.get u = some session) :
    ∃ session', s'.sessions.get u = some session' ∧ session'.strictDiskLease = session.strictDiskLease ∧
      ∀ file, session.saved = some file → session'.saved = some file := by
  have keeps : ∀ {session'}, s'.sessions.get u = some session' → ∀ file, session.saved = some file →
      session'.saved = some file := by
    intro session' known' file saved
    obtain ⟨session'',known'',saved''⟩ := saved_forth custody move allowed known saved
    cases known'.symm.trans known''
    exact saved''
  rcases advance_or_aside move with ⟨n,m,_,_,_,change,advance⟩ | aside
  · by_cases here : u = m.uploadId
    · subst here
      have after := changed_here advance.changed known
      exact ⟨_,after,(advances_rest advance.advances session).2.2,keeps after⟩
    · have after := (changed_other advance.changed here).trans known
      exact ⟨session,after,rfl,keeps after⟩
  · rcases aside.sessions with same | ⟨u',change,changes,changed⟩ | ⟨u',_,_,rfl,sessions⟩
    · exact ⟨session,same ▸ known,rfl,fun _ saved => saved⟩
    · by_cases here : u = u'
      · subst here
        have after := changed_here changed known
        exact ⟨_,after,change_strict changes session,keeps after⟩
      · have after := (changed_other changed here).trans known
        exact ⟨session,after,rfl,keeps after⟩
    · have other : u ≠ u' := by
        rintro rfl
        rw [allowed.1] at known
        cases known
      exact ⟨session,by rw [sessions,get_set_other _ _ other,known],rfl,fun _ saved => saved⟩

/-! ### The invariant -/

def resting : MergePhase → Bool
  | .adding _ _ | .removingJob _ _ | .cleaning _ _ _ | .sweeping _ _ | .ended .done => false
  | _ => true

structure Tenure (s : State) : Prop where
  owner : ∀ lease, s.store.activeLease = some lease → ∃ session, s.sessions.get lease.uploadId = some session ∧
    session.strictDiskLease = true ∧ (lease.key = .session lease.uploadId ∨
      ∃ f v, lease.key = .job f v ∧ session.saved = some (f,v))
  rests : ∀ lease (n : Nat) m, s.store.activeLease = some lease → lease.key = .session m.uploadId →
    s.merges[n]? = some m → resting m.phase = true
  borne : ∀ lease, s.store.activeLease = some lease → Owned s lease.key ∨ Carried s lease.key

theorem initial_tenure : Tenure initial where
  owner _ held := nomatch held
  rests _ _ _ held := nomatch held
  borne _ held := nomatch held

variable {lease : Lease}

theorem session_owner (tenure : Tenure s) (held : s.store.activeLease = some lease)
    (key : lease.key = .session u) :
    lease.uploadId = u ∧ ∃ session, s.sessions.get u = some session ∧ session.strictDiskLease = true := by
  obtain ⟨session,known,strict,own | ⟨f,v,job,_⟩⟩ := tenure.owner lease held
  · cases key.symm.trans own
    exact ⟨rfl,session,known,strict⟩
  · cases key.symm.trans job

theorem job_owner {f : String} {v : Nat} (custody : Custody s) (tenure : Tenure s)
    (held : s.store.activeLease = some lease) (key : lease.key = .job f v) (known : s.sessions.get u = some session)
    (saved : session.saved = some (f,v)) : lease.uploadId = u := by
  obtain ⟨session',known',_,own | ⟨f',v',job,saved'⟩⟩ := tenure.owner lease held
  · cases key.symm.trans own
  · cases key.symm.trans job
    exact custody.single _ _ _ _ _ known' known saved' saved

theorem owner_step (custody : Custody s) (tenure : Tenure s) (move : Moves s l s') (allowed : Allowed s l)
    (held : s'.store.activeLease = some lease) : ∃ session, s'.sessions.get lease.uploadId = some session ∧
      session.strictDiskLease = true ∧ (lease.key = .session lease.uploadId ∨
        ∃ f v, lease.key = .job f v ∧ session.saved = some (f,v)) := by
  cases step_lease move held with
  | kept before =>
    obtain ⟨session,known,strict,place⟩ := tenure.owner lease before
    obtain ⟨session',known',same,saved'⟩ := session_forth custody move allowed known
    refine ⟨session',known',same.trans strict,?_⟩
    rcases place with own | ⟨f,v,job,saved⟩
    · exact .inl own
    · exact .inr ⟨f,v,job,saved' _ saved⟩
  | acquired label eq sessions =>
    subst eq
    exact ⟨_,by rw [sessions,get_set_same],rfl,.inl rfl⟩
  | @transferred n m _ f v before found phase _ _ here key eq _ sessions =>
    subst eq
    obtain ⟨own,session,known,strict⟩ := session_owner tenure here key
    have file : m.phase.file = some (f,v) := by rw [phase]; rfl
    obtain ⟨session',known',saved⟩ := merge_saved custody found file
    cases known.symm.trans known'
    refine ⟨session,?_,strict,.inr ⟨f,v,rfl,saved⟩⟩
    rw [sessions]
    exact own ▸ known
  | @returned n m f v before found phase here key eq =>
    subst eq
    have file : m.phase.file = some (f,v) := by rw [phase]; rfl
    obtain ⟨session,known,saved⟩ := merge_saved custody found file
    have own : before.uploadId = m.uploadId := job_owner custody tenure here key known saved
    obtain ⟨session₀,known₀,strict,_⟩ := tenure.owner before here
    obtain ⟨session',known',same,_⟩ := session_forth custody move allowed known₀
    exact ⟨session',known',same.trans strict,.inl (by rw [own])⟩

theorem advances_resting {phase : MergePhase}
    {change : Session → Session} (advances : Advances s s' session m event phase change) (moved : resting phase = false) :
    resting m.phase = false ∨ ∃ f v, m.phase = .freeing f v ∧ phase = .adding f v := by
  cases advances with
  | same => exact .inl moved
  | freed here => exact .inr ⟨_,_,here,rfl⟩
  | queued here | unjobbed _ here | cleans _ here | swept _ here =>
    rw [here]
    exact .inl rfl
  | failed | merged | checked | created | createdLate | cleared | renamed | handedOff | unqueued | cleaned => cases moved

theorem freed_lease {f : String} {v : Nat}
    (found : s.merges[n]? = some m) (move : Merges s n m session event s') (phase : m.phase = .freeing f v)
    (after : s'.merges[n]? = some { m with phase := .adding f v }) (strict : session.strictDiskLease = true)
    (held : s'.store.activeLease = some lease) : lease.key = .job f v := by
  cases move with
  | transferred here =>
    cases phase.symm.trans here
    cases held
    rfl
  | passed _ lax => cases strict.symm.trans lax
  | stay =>
    have same : m.phase = .adding f v := congrArg Merge.phase (Option.mem_unique found after)
    cases phase.symm.trans same
  | failed | freedLate => cases (at_set found).symm.trans after
  | merged here | checked here | created here | createdLate here | cleared _ _ here | renamed here | handedOff here
  | unqueued here | queued here | jobKept _ here | jobRemoved here | cleans _ here | cleaned _ here | swept here
  | unswept here => cases phase.symm.trans here

theorem rests_step (course' : Course s') (custody' : Custody s') (tenure : Tenure s)
    (move : Moves s l s') (held : s'.store.activeLease = some lease) {m' : Merge}
    (key : lease.key = .session m'.uploadId) (found : s'.merges[n]? = some m') : resting m'.phase = true := by
  cases step_lease move held with
  | kept before =>
    rcases advance_or_aside move with ⟨k,m,session,event,phase,change,advance⟩ | aside
    · rw [advance.merges] at found
      rcases at_of_set found with ⟨rfl,rfl⟩ | ⟨_,old⟩
      · by_contra moved
        rw [Bool.not_eq_true] at moved
        have rested := tenure.rests lease n m before key advance.found
        rcases advances_resting advance.advances moved with away | ⟨f,v,freeing,rfl⟩
        · cases rested.symm.trans away
        have label := advance.label
        subst label
        obtain ⟨_,session',known,strict⟩ := session_owner tenure before key
        have after : s'.merges[n]? = some { m with phase := .adding f v } := by
          rw [advance.merges]
          exact at_set advance.found
        cases move with
        | stay =>
          have same := congrArg Merge.phase (Option.mem_unique advance.found after)
          cases freeing.symm.trans same
        | merge at_n known' move =>
          cases advance.found.symm.trans at_n
          cases known.symm.trans known'
          cases key.symm.trans (freed_lease advance.found move freeing after strict held)
      · exact tenure.rests lease n m' before key old
    · rcases aside.merges n m' found with ⟨m,old,signalled⟩ | ⟨_,_,_,rfl,_⟩
      · obtain ⟨upload,phase⟩ := signalled_same signalled
        rw [phase]
        exact tenure.rests lease n m before (upload ▸ key) old
      · rfl
  | acquired label eq sessions =>
    subst eq
    cases key
    obtain ⟨session,known,returned⟩ := course'.returned _ (.merge found rfl)
    rw [sessions,get_set_same] at known
    cases known
    cases returned
  | transferred _ _ _ _ _ _ eq =>
    subst eq
    cases key
  | @returned k m f v _ _ _ _ _ eq after =>
    subst eq
    have same : m.uploadId = m'.uploadId := LeaseKey.session.inj key
    cases custody'.alone _ _ _ _ after found same
    cases after.symm.trans found
    rfl

/-! ### The lease of a session -/

def Live (session : Session) : Prop := session.listed = true ∨ session.init = .acquired ∨ session.init = .opening

theorem live_changed {u' : String} {change : Session → Session} (changed : Changed s s' u' change)
    (known : s.sessions.get u = some session) (live : Live session) (keeps : u = u' → Live (change session)) :
    Owned s' (.session u) := by
  by_cases here : u = u'
  · subst here
    exact ⟨_,changed_here changed known,keeps rfl⟩
  · exact ⟨session,(changed_other changed here).trans known,live⟩

theorem live_cancels {a : Abort} {other : Session} (move : Cancels s n a other s')
    (found : s.aborts[n]? = some a) (known : s.sessions.get u = some session) (live : Live session) :
    Owned s' (.session u) ∨ Carried s' (.session u) := by
  -- a cancellation that takes the session out of the list goes on to remove its directory
  have delisted : ∀ {t : State}, t.aborts = s.aborts → t.sessions = s.sessions →
      Owned ((t.delist a.uploadId).setAbort n a .removing) (.session u) ∨
        Carried ((t.delist a.uploadId).setAbort n a .removing) (.session u) := by
    intro t aborts sessions
    by_cases here : u = a.uploadId
    · subst here
      have removing : ((t.delist a.uploadId).setAbort n a .removing).aborts[n]? = some { a with phase := .removing } := by
        show (t.aborts.set n _)[n]? = _
        rw [aborts]
        exact at_set found
      exact .inr (.removing removing rfl rfl)
    · refine .inl (live_changed (s := t) (changed_modify rfl) ?_ live (fun same => absurd same here))
      rw [sessions]
      exact known
  cases move with
  | stay | looks | removed => exact .inl ⟨session,known,live⟩
  | delists => exact delisted rfl rfl
  | cleaned _ move => exact delisted (cleans_aborts move) (cleans_sessions move)
  | cleans _ move | refused _ move =>
    have same := cleans_sessions move
    exact .inl ⟨session,same ▸ known,live⟩

section
variable (course : Course s) (tenure : Tenure s) (move : Moves s l s') (allowed : Allowed s l)
  (held : s.store.activeLease = some lease) (held' : s'.store.activeLease = some lease) (key : lease.key = .session u)
include course tenure move allowed held held' key

theorem live_step (known : s.sessions.get u = some session) (live : Live session) :
    Owned s' (.session u) ∨ Carried s' (.session u) := by
  have released : ∀ {u'}, releaseSession s.store.activeLease u' = some lease → u ≠ u' := by
    rintro u' kept rfl
    exact (release_some kept).2 key
  cases move with
  | init u' =>
    have other : u ≠ u' := by
      rintro rfl
      cases known.symm.trans allowed.1
    exact .inl ⟨session,(get_set_other _ _ other).trans known,live⟩
  | register => exact .inl (live_changed (changed_modify rfl) known live fun _ => .inl rfl)
  | refuse | unopened =>
    exact .inl (live_changed (changed_modify rfl) known live fun same => absurd same (released held'))
  | opened u' =>
    refine .inl (live_changed (changed_modify rfl) known live fun same => ?_)
    subst same
    obtain ⟨session',known',opening⟩ := allowed
    cases known.symm.trans known'
    exact .inl (show session.listed = true from course.opening _ session known opening)
  | trigger | reclaim | unreclaimed => exact .inl (live_changed (changed_modify rfl) known live fun _ => live)
  | merge found _ move =>
    obtain ⟨phase,change,advances,_,changed⟩ := merges_advance found move
    refine .inl (live_changed changed known live fun _ => ?_)
    obtain ⟨init,listed,_⟩ := advances_rest advances session
    unfold Live
    rwa [init,listed]
  | @deadline _ m =>
    refine .inl (live_changed (changed_settle rfl rfl) known live fun _ => ?_)
    obtain ⟨init,listed,_⟩ := settleSession_rest m false session
    unfold Live
    rwa [init,listed]
  | aborting found _ move => exact live_cancels move found known live
  | @reclaimed _ r session' _ _ known' =>
    refine .inl (live_changed (changed_modify rfl) known live fun same => ?_)
    subst same
    obtain ⟨_,session₁,known₁,strict⟩ := session_owner tenure held key
    cases known'.symm.trans known₁
    rw [strict] at held'
    exact absurd rfl (released held')
  | @timer u' session' known' =>
    have held' : (if session'.mergeStatus = MergeStatus.error then _ else _) = some lease := held'
    refine .inl (live_changed (changed_modify rfl) known live fun same => ?_)
    subst same
    obtain ⟨⟨session₁,known₁,status⟩,_⟩ := course.timed u allowed
    cases known'.symm.trans known₁
    rcases status with done | failed
    · -- the merge has ended well, and the lease is no longer that of the session
      obtain ⟨n,m,found,upload,ended⟩ := course.finished u session' known' done
      have rested := tenure.rests lease n m held (upload ▸ key) found
      rw [ended] at rested
      cases rested
    · rw [failed] at held'
      exact absurd rfl (released held')
  | stay | abort | timerIdle | removal | sweepOrphan | deliver | work | recover | overwriteSync | markFailed | markReady
  | deleteRow | discardPending => exact .inl ⟨session,known,live⟩

theorem session_borne_step : Owned s' (.session u) ∨ Carried s' (.session u) := by
  have borne := tenure.borne lease held
  rw [key] at borne
  rcases borne with ⟨session,known,live⟩ | carried
  · exact live_step course tenure move allowed held held' key known live
  cases carried with
  | @removing n a _ found upload phase =>
    rcases abort_forth move found with same | ⟨session,_,cancels⟩
    · exact .inr (.removing same upload phase)
    cases cancels with
    | stay => exact .inr (.removing found upload phase)
    | removed =>
      subst upload
      exact absurd key (release_some held').2
    | looks here | delists here | cleans here | cleaned here | refused here => cases phase.symm.trans here
  | returned found upload phase =>
    obtain ⟨m',found',same,phase'⟩ := ended_stays move found phase
    exact .inr (.returned found' (same.trans upload) phase')

end

/-! ### The lease of a job -/

theorem updateVersion_lease (store : Store) (fileId : String) (uploadVersion : Nat) (change : Row → Row) :
    (updateVersion store fileId uploadVersion change).1.activeLease = store.activeLease := by
  unfold updateVersion
  rw [update_eq]

theorem afterUnlinks_givesBack {source : Option Bool} {receipt : Bool}
    (ends : (afterUnlinks a store source receipt).2 = .ended exit) (gives : givesBack exit = true) :
    (afterUnlinks a store source receipt).1.activeLease = releaseJob store.activeLease a.fileId a.uploadVersion := by
  unfold afterUnlinks at ends ⊢
  split at ends
  · rfl
  · cases ends
    cases gives
  · cases ends

theorem afterReceipt_goesOn {remote : Bool} {receipt : Receipt} :
    afterReceipt a remote receipt ≠ .ended exit := by
  unfold afterReceipt
  split_ifs <;> simp

theorem onGo_givesBack (going : a.phase.isEnded = false)
    (ends : (onGo store a).2 = .ended exit) (gives : givesBack exit = true) :
    (onGo store a).1.activeLease = releaseJob store.activeLease a.fileId a.uploadVersion := by
  have other : exit ≠ .thrown ∧ exit ≠ .stale ∧ exit ≠ .unclaimed ∧ exit ≠ .moved ∧ exit ≠ .unready := by
    refine ⟨?_,?_,?_,?_,?_⟩ <;> (rintro rfl; cases gives)
  cases phase : a.phase with
  | abandoning =>
    simp only [onGo,phase]
    rw [updateVersion_lease]
  | start | rereading | failing | claiming | reloading | committing | readying =>
    simp only [onGo,phase] at ends
    grind
  | loading =>
    simp only [onGo,phase] at ends
    split at ends
    · exact absurd ends afterReceipt_goesOn
    · cases ends
  | persisting =>
    simp only [onGo,phase] at ends
    exact absurd ends afterReceipt_goesOn
  | ended =>
    rw [phase] at going
    cases going
  | recovering =>
    simp only [onGo,phase] at ends
    cases ends
    cases gives
  | releasing | givingUp | refusing | finishing | registering | checking | uploading | removing =>
    simp only [onGo,phase] at ends
    cases ends

theorem go_givesBack {i : Nat} {event : Event}
    (going : a.phase.isEnded = false) (ends : (go store i a event).2 = .ended exit) (gives : givesBack exit = true) :
    (go store i a event).1.activeLease = releaseJob store.activeLease a.fileId a.uploadVersion := by
  have still : a.phase ≠ .ended exit := by
    intro ended
    rw [ended] at going
    cases going
  have fails : onFail a.phase ≠ .ended exit := by
    intro ended
    cases phase : a.phase <;> rw [phase] at ended <;> cases ended
    all_goals first | cases gives | exact still phase
  cases event with
  | go => exact onGo_givesBack going ends gives
  | fail => exact absurd ends fails
  | lost =>
    simp only [go] at ends
    split_ifs at ends
    · exact absurd ends fails
    · exact absurd ends still
  | seen there =>
    simp only [go] at ends
    split at ends
    · split_ifs at ends
      cases ends
      cases gives
    · exact absurd ends still
  | uploaded =>
    simp only [go] at ends
    split at ends
    · cases ends
    · exact absurd ends still
  | wait =>
    simp only [go] at ends
    split at ends
    · split_ifs at ends <;> cases ends <;> cases gives
    · exact absurd ends still
  | unlinkSource ok =>
    simp only [go] at ends ⊢
    split at ends
    · split_ifs at ends ⊢ <;> exact afterUnlinks_givesBack ends gives
    · exact absurd ends still
  | unlinkReceipt ok =>
    simp only [go] at ends ⊢
    split at ends
    · rw [afterUnlinks_givesBack ends gives]
      split_ifs <;> rfl
    · exact absurd ends still
  | crash =>
    simp only [go] at ends
    split_ifs at ends
    · exact absurd ends still
    · cases ends
      cases gives

theorem adds_forth {jobs jobs' : OrderedMap (String × Nat) Job} {id id' : String × Nat} {new : Job}
    (adds : Adds jobs id new jobs') (found : jobs.get id' = some job) : jobs'.get id' = some job := by
  cases adds with
  | there => exact found
  | new absent =>
    have other : id' ≠ id := by
      rintro rfl
      cases found.symm.trans absent
    rw [get_set_other _ _ other,found]

theorem cleans_past {f : String} {v : Nat} {c' : Cleaning} (move : Cleans s f v c s' (.inl c')) : c' ≠ .looking := by
  cases move <;> simp

theorem cleans_job {f f' : String} {v v' : Nat} {answer : Cleaning ⊕ Bool}
    (move : Cleans s f v c s' answer) (found : s.jobs.get (f',v') = some job) :
    s'.jobs.get (f',v') = some job ∨ (f',v') = (f,v) ∧ answer = .inl .marking := by
  cases move with
  | unqueued =>
    by_cases here : (f',v') = (f,v)
    · exact .inr ⟨here,rfl⟩
    · exact .inl ((get_delete_other _ here).trans found)
  | kept | marked | unmarked | unlinked | stuck | released | unreceipted => exact .inl found

variable {f : String} {v : Nat}

theorem queued_merges
    (at_n : s.merges[n]? = some m) (move : Merges s n m session event s') (found : s.jobs.get (f,v) = some job)
    (going : job.state ≠ .finished) : Owned s' (.job f v) ∨ Carried s' (.job f v) := by
  cases move with
  | unqueued _ adds =>
    rcases adds with rfl | adds
    · exact .inl ⟨job,found,going⟩
    · exact .inl ⟨job,adds_forth adds found,going⟩
  | queued _ adds => exact .inl ⟨job,adds_forth adds found,going⟩
  | @jobRemoved f' v' =>
    by_cases here : (f,v) = (f',v')
    · cases here
      exact .inr (.withdrawing (at_set at_n) rfl)
    · exact .inl ⟨job,(get_delete_other _ here).trans found,going⟩
  | @cleans f' v' c c' t _ phase move =>
    rcases cleans_job move found with same | ⟨here,_⟩
    · exact .inl ⟨job,same,going⟩
    cases here
    have merges : (t.setMerge n m (.cleaning f v c')).merges[n]? = some { m with phase := .cleaning f v c' } := by
      show (t.merges.set n _)[n]? = _
      rw [cleans_merges move]
      exact at_set at_n
    exact .inr (.withdrawing merges rfl)
  | cleaned _ _ move =>
    rcases cleans_job move found with same | ⟨_,more⟩
    · exact .inl ⟨job,same,going⟩
    · cases more
  | _ => exact .inl ⟨job,found,going⟩

theorem queued_cancels {a : Abort} (at_n : s.aborts[n]? = some a)
    (move : Cancels s n a session s') (found : s.jobs.get (f,v) = some job) (going : job.state ≠ .finished) :
    Owned s' (.job f v) ∨ Carried s' (.job f v) := by
  cases move with
  | @cleans f' v' c c' t _ move =>
    rcases cleans_job move found with same | ⟨here,_⟩
    · exact .inl ⟨job,same,going⟩
    cases here
    have aborts : (t.setAbort n a (.cleaning f v c')).aborts[n]? = some { a with phase := .cleaning f v c' } := by
      show (t.aborts.set n _)[n]? = _
      rw [cleans_aborts move]
      exact at_set at_n
    exact .inr (.cancelling aborts rfl (cleans_past move))
  | cleaned _ move | refused _ move =>
    rcases cleans_job move found with same | ⟨_,more⟩
    · exact .inl ⟨job,same,going⟩
    · cases more
  | stay | looks | delists | removed => exact .inl ⟨job,found,going⟩

theorem queued_step (move : Moves s l s') (held' : s'.store.activeLease = some lease)
    (key : lease.key = .job f v) (found : s.jobs.get (f,v) = some job) (going : job.state ≠ .finished) :
    Owned s' (.job f v) ∨ Carried s' (.job f v) := by
  cases move with
  | merge at_n _ move => exact queued_merges at_n move found going
  | aborting at_n _ move => exact queued_cancels at_n move found going
  | @deliver f' v' job' =>
    by_cases here : (f,v) = (f',v')
    · cases here
      exact .inl ⟨_,get_set_same _ _ _,by simp⟩
    · exact .inl ⟨job,(get_set_other _ _ here).trans found,going⟩
  | @work i a event t t' phase at_i unended goes =>
    cases phase with
    | ended exit =>
      by_cases here : (f,v) = (a.fileId,a.uploadVersion)
      · cases gives : givesBack exit with
        | true =>
          have ends : (go s.store i a event).2 = .ended exit := by rw [goes]
          have back := go_givesBack unended ends gives
          rw [goes] at back
          cases here
          exact absurd key (release_some (back.symm.trans held')).2
        | false => exact .inr (.left (at_set at_i) here.symm rfl gives)
      · refine .inl ⟨job,?_,going⟩
        show (s.jobs.modify _ _).get (f,v) = some job
        rw [get_modify,if_neg here,found]
    | _ => exact .inl ⟨job,found,going⟩
  | recover f' v' =>
    by_cases here : (f,v) = (f',v')
    · cases here
      exact .inl ⟨_,get_set_same _ _ _,by simp⟩
    · exact .inl ⟨job,(get_set_other _ _ here).trans found,going⟩
  | _ => exact .inl ⟨job,found,going⟩

section
variable (custody : Custody s) (move : Moves s l s')
include custody move

theorem adding_step (held' : s'.store.activeLease = some lease) (key : lease.key = .job f v) (found : s.merges[n]? = some m)
    (phase : m.phase = .adding f v) : Owned s' (.job f v) ∨ Carried s' (.job f v) := by
  rcases merge_forth move found with ⟨m',found',_,same⟩ | ⟨session,event,_,merges⟩
  · exact .inr (.adding found' (same.trans phase))
  cases merges with
  | stay => exact .inr (.adding found phase)
  | unqueued here =>
    cases phase.symm.trans here
    obtain ⟨_,_,⟨_,rfl⟩ | ⟨other,rfl⟩⟩ := transferJobToSession_some held'
    · cases key
    · exact absurd key other
  | queued here adds =>
    cases phase.symm.trans here
    obtain ⟨absent,_⟩ := custody.early n m f v found (by rw [phase]; rfl)
    cases adds with
    | there known => cases known.symm.trans absent
    | new => exact .inl ⟨_,get_set_same _ _ _,by simp⟩
  | failed _ fails =>
    rw [phase] at fails
    cases fails
  | merged here | checked here | created here | createdLate here | cleared _ _ here | renamed here | handedOff here
  | freedLate here | transferred here | passed here | jobKept _ here | jobRemoved here | cleans _ here
  | cleaned _ here | swept here | unswept here => cases phase.symm.trans here

theorem withdrawing_step (allowed : Allowed s l) (found : s.merges[n]? = some m) (phase : m.phase = .cleaning f v c) :
    Carried s' (.job f v) := by
  rcases merge_forth move found with ⟨m',found',_,same⟩ | ⟨session,event,_,merges⟩
  · exact .withdrawing found' (same.trans phase)
  obtain ⟨next,change,advances,after,_⟩ := merges_advance found merges
  have found' : s'.merges[n]? = some { m with phase := next } := by
    rw [after]
    exact at_set found
  cases advances with
  | same => exact .withdrawing found' phase
  | cleans _ here =>
    cases phase.symm.trans here
    exact .withdrawing found' rfl
  | cleaned =>
    have file : m.phase.file = some (f,v) := by rw [phase]; rfl
    obtain ⟨session,known,saved⟩ := merge_saved custody found file
    obtain ⟨session',known',saved'⟩ := saved_forth custody move allowed known saved
    exact .withdrawn found' rfl known' saved'
  | failed _ fails =>
    rw [phase] at fails
    cases fails
  | merged here | checked here | created here | createdLate here | cleared _ here | renamed here | handedOff here
  | freed here | unqueued here | queued here | unjobbed _ here | swept _ here => cases phase.symm.trans here

theorem cancelling_carried {a : Abort} (allowed : Allowed s l) (held' : s'.store.activeLease = some lease) (key : lease.key = .job f v)
    (found : s.aborts[n]? = some a) (phase : a.phase = .cleaning f v c) (past : c ≠ .looking) :
    Carried s' (.job f v) := by
  obtain ⟨session,known,saved⟩ := custody.cancelling n a f v c found phase
  obtain ⟨session',known',saved'⟩ := saved_forth custody move allowed known saved
  rcases abort_forth move found with same | ⟨_,_,cancels⟩
  · exact .cancelling same phase past
  cases cancels with
  | stay => exact .cancelling found phase past
  | @cleans _ _ _ c' t here move =>
    cases phase.symm.trans here
    have aborts : (t.setAbort n a (.cleaning f v c')).aborts[n]? = some { a with phase := .cleaning f v c' } := by
      show (t.aborts.set n _)[n]? = _
      rw [cleans_aborts move]
      exact at_set found
    exact .cancelling aborts rfl (cleans_past move)
  | cleaned here move =>
    cases phase.symm.trans here
    cases move
    exact absurd key (release_some held').2
  | @refused _ _ _ t here move =>
    cases phase.symm.trans here
    have aborts : (t.setAbort n a (.ended (c ≠ .looking))).aborts[n]? = some { a with phase := .ended (c ≠ .looking) } := by
      show (t.aborts.set n _)[n]? = _
      rw [cleans_aborts move]
      exact at_set found
    exact .kept aborts (by simp [past]) known' saved'
  | looks here | delists here | removed _ here => cases phase.symm.trans here

end

theorem job_borne_step (custody : Custody s) (tenure : Tenure s) (move : Moves s l s') (allowed : Allowed s l)
    (held : s.store.activeLease = some lease) (held' : s'.store.activeLease = some lease) (key : lease.key = .job f v) :
    Owned s' (.job f v) ∨ Carried s' (.job f v) := by
  have borne := tenure.borne lease held
  rw [key] at borne
  rcases borne with ⟨job,found,going⟩ | carried
  · exact queued_step move held' key found going
  cases carried with
  | adding found phase => exact adding_step custody move held' key found phase
  | cancelling found phase past => exact .inr (cancelling_carried custody move allowed held' key found phase past)
  | kept found phase known saved =>
    obtain ⟨session',known',saved'⟩ := saved_forth custody move allowed known saved
    rcases abort_forth move found with same | ⟨_,_,cancels⟩
    · exact .inr (.kept same phase known' saved')
    · cases cancels with
      | stay => exact .inr (.kept found phase known saved)
      | looks here | delists here | cleans here | cleaned here | refused here | removed _ here =>
        cases phase.symm.trans here
  | left found file phase keeps => exact .inr (.left (ended_attempt_stays move found phase) file phase keeps)
  | withdrawing found phase => exact .inr (withdrawing_step custody move allowed found phase)
  | withdrawn found phase known saved =>
    obtain ⟨m',found',upload,phase'⟩ := ended_stays move found phase
    obtain ⟨session',known',saved'⟩ := saved_forth custody move allowed known saved
    exact .inr (.withdrawn found' phase' (upload ▸ known') saved')

theorem borne_step (custody : Custody s) (course : Course s) (tenure : Tenure s) (move : Moves s l s')
    (allowed : Allowed s l) (held' : s'.store.activeLease = some lease) : Owned s' lease.key ∨ Carried s' lease.key := by
  cases step_lease move held' with
  | kept held =>
    cases key : lease.key with
    | session u => exact session_borne_step course tenure move allowed held held' key
    | job f v => exact job_borne_step custody tenure move allowed held held' key
  | @acquired _ target _ eq sessions =>
    subst eq
    refine .inl ⟨newSession true target,?_,.inr (.inl rfl)⟩
    rw [sessions]
    exact get_set_same _ _ _
  | transferred _ _ _ _ _ _ eq after =>
    subst eq
    exact .inr (.adding after rfl)
  | returned _ _ _ _ eq after =>
    subst eq
    exact .inr (.returned after rfl rfl)

structure Held (s : State) : Prop where
  custody : Custody s
  course : Course s
  tenure : Tenure s

theorem held_step (inv : Held s) (allowed : Allowed s l) : Held (step s l) := by
  obtain ⟨custody,course,tenure⟩ := inv
  have move : Moves s l (step s l) := step_moves l
  have custody' := custody_step custody allowed
  have course' := course_step custody course allowed
  refine ⟨custody',course',?_,?_,?_⟩
  · exact fun _ held => owner_step custody tenure move allowed held
  · exact fun _ _ _ held key found => rests_step course' custody' tenure move held key found
  · exact fun _ held => borne_step custody course tenure move allowed held

theorem reached_held (reached : Reached s) : Held s :=
  reachable_invariant ⟨initial_custody,initial_course,initial_tenure⟩ (fun _ _ inv allowed => held_step inv allowed) reached

def queuedUpload : List Label := opening "a" true none 0 ++ handingOver 0 "f" ++ queuing 0

def cancelledUpload : List Label :=
  [.init "a" true none,.register "a",.opened "a" true,.abort "a",.aborting 0 true]

end
end Tgtc.LeaseTenure
