import Tgtc.UploadCustody

/-!
The course of a session: nothing happens to it before its `init` has returned, it stays registered while its directory
is being made, and its merge settles its outcome once.
-/
namespace Tgtc.SessionCourse
open Maps Runs UploadWorker UploadSystem UploadMoves UploadCustody
open UploadSessions (MergeStatus)

inductive Touched (s : State) (u : String) : Prop
  | merge {n : Nat} {m : Merge} (found : s.merges[n]? = some m) (upload : m.uploadId = u)
  | abort {n : Nat} {a : Abort} (found : s.aborts[n]? = some a) (upload : a.uploadId = u)
  | reclaim {n : Nat} {r : Reclaim} (found : s.reclaims[n]? = some r) (upload : r.uploadId = u)
  | timer (member : u ∈ s.timers)

section
variable {s s' : State} {l : Label} {u : String}

theorem cleans_reclaims {f : String} {v : Nat} {c : Cleaning} {answer : Cleaning ⊕ Bool}
    (move : Cleans s f v c s' answer) : s'.reclaims = s.reclaims ∧ s'.timers = s.timers := by
  cases move <;> exact ⟨rfl,rfl⟩

theorem step_reclaims {n : Nat} {r' : Reclaim} (move : Moves s l s') (found : s'.reclaims[n]? = some r') :
    (∃ r, s.reclaims[n]? = some r ∧ r'.uploadId = r.uploadId) ∨ l = .reclaim r'.uploadId := by
  cases move with
  | merge _ _ move =>
    cases move with
    | cleans _ _ move | cleaned _ _ move =>
      have same := (cleans_reclaims move).1
      exact .inl ⟨r',same ▸ found,rfl⟩
    | _ => exact .inl ⟨r',found,rfl⟩
  | aborting _ _ move =>
    cases move with
    | cleans _ move | cleaned _ move | refused _ move =>
      have same := (cleans_reclaims move).1
      exact .inl ⟨r',same ▸ found,rfl⟩
    | _ => exact .inl ⟨r',found,rfl⟩
  | reclaim =>
    rcases at_of_append found with old | ⟨_,rfl⟩
    · exact .inl ⟨r',old,rfl⟩
    · exact .inr rfl
  | reclaimed at_n | unreclaimed at_n =>
    rcases at_of_set found with ⟨rfl,rfl⟩ | ⟨_,old⟩
    · exact .inl ⟨_,at_n,rfl⟩
    · exact .inl ⟨r',old,rfl⟩
  | _ => exact .inl ⟨r',found,rfl⟩

def counts (m : Merge) (done : Bool) : Bool := !(m.settled || (done && m.aborted))

variable {m : Merge} {done : Bool}

theorem settle_timers (member : u ∈ (s.settle m done).timers) :
    u ∈ s.timers ∨ u = m.uploadId ∧ counts m done = true := by
  unfold State.settle at member
  dsimp only at member
  split_ifs at member with here
  · rcases List.mem_append.mp member with old | new
    · exact .inl old
    · exact .inr ⟨List.mem_singleton.mp new,here⟩
  · exact .inl member

theorem settleSession_counts (here : counts m done = true) (session : Session) :
    (settleSession m done session).mergeStatus = .done ∨ (settleSession m done session).mergeStatus = .error := by
  unfold counts at here
  unfold settleSession
  rw [if_pos here]
  cases done
  · exact .inr rfl
  · exact .inl rfl

def Over (m : Merge) : Prop := m.settled = true ∨ ∃ how, m.phase = .ended how

structure Settles (s s' : State) (u : String) : Prop where
  merge : ∃ (n : Nat) (m m' : Merge), s.merges[n]? = some m ∧ m.uploadId = u ∧ s'.merges[n]? = some m' ∧ m'.uploadId = u ∧
    Over m'
  status : ∃ change, Changed s s' u change ∧ ∀ x, (change x).mergeStatus = .done ∨ (change x).mergeStatus = .error

theorem settles_ended {t : State} {n : Nat} {how : MergeEnd} (first : Session → Session)
    (found : s.merges[n]? = some m) (timers : t.timers = s.timers)
    (changed : Changed s s' m.uploadId (settleSession m done ∘ first)) (merges : s'.merges = s.merges.set n { m with phase := .ended how })
    (member : u ∈ (t.settle m done).timers) : u ∈ s.timers ∨ Settles s s' u := by
  rcases settle_timers member with old | ⟨rfl,here⟩
  · exact .inl (timers ▸ old)
  · refine .inr ⟨⟨n,m,{ m with phase := .ended how },found,rfl,?_,rfl,.inr ⟨how,rfl⟩⟩,_,changed,fun x => settleSession_counts here _⟩
    rw [merges]
    exact at_set found

theorem step_timers (move : Moves s l s') (member : u ∈ s'.timers) : u ∈ s.timers ∨ Settles s s' u := by
  cases move with
  | @merge n m _ _ _ found _ move =>
    cases move with
    | failed | freedLate | unqueued | swept | unswept =>
      exact settles_ended id found rfl (changed_settle rfl rfl) rfl member
    | createdLate => exact settles_ended (saveFile _) found rfl (changed_settle_modify rfl rfl) rfl member
    | @cleaned _ _ _ t _ _ _ move =>
      have merges : (t.failMerge n m .failed).merges = s.merges.set n { m with phase := .ended .failed } :=
        congrArg (List.set · n _) (show t.merges = s.merges from cleans_merges move)
      exact settles_ended id found (cleans_reclaims move).2 (changed_settle (cleans_sessions move) rfl) merges member
    | cleans _ _ move =>
      have same := (cleans_reclaims move).2
      exact .inl (same ▸ member)
    | _ => exact .inl member
  | deadline found =>
    rcases settle_timers member with old | ⟨rfl,here⟩
    · exact .inl old
    · exact .inr ⟨⟨_,_,_,found,rfl,at_set found,rfl,.inl rfl⟩,_,changed_settle rfl rfl,settleSession_counts here⟩
  | aborting _ _ move =>
    cases move with
    | cleans _ move | cleaned _ move | refused _ move =>
      have same := (cleans_reclaims move).2
      exact .inl (same ▸ member)
    | _ => exact .inl member
  | timerIdle | timer => exact .inl (List.mem_of_mem_erase member)
  | _ => exact .inl member

end

structure Course (s : State) : Prop where
  returned : ∀ u, Touched s u → ∃ session, s.sessions.get u = some session ∧ session.init = .returned
  opening : ∀ u session, s.sessions.get u = some session → session.init = .opening → session.listed = true
  saved : ∀ u session file, s.sessions.get u = some session → session.saved = some file → session.init = .returned
  signalled : ∀ (n : Nat) m, s.merges[n]? = some m → m.settled = true → m.aborted = true
  timed : ∀ u ∈ s.timers, (∃ session, s.sessions.get u = some session ∧
    (session.mergeStatus = .done ∨ session.mergeStatus = .error)) ∧
    ∀ (n : Nat) m, s.merges[n]? = some m → m.uploadId = u → Over m
  finished : ∀ u session, s.sessions.get u = some session → session.mergeStatus = .done →
    ∃ (n : Nat) (m : Merge), s.merges[n]? = some m ∧ m.uploadId = u ∧ m.phase = .ended .done

section
variable {s s' : State} {l : Label} {u : String}

theorem initial_course : Course initial where
  returned u touched := by
    cases touched with
    | merge found | abort found | reclaim found => cases found
    | timer member => cases member
  opening _ _ found := nomatch found
  saved _ _ _ found := nomatch found
  signalled _ _ found := nomatch found
  timed _ member := nomatch member
  finished _ _ found := nomatch found

theorem settleSession_rest (m : Merge) (done : Bool) (session : Session) :
    (settleSession m done session).init = session.init ∧ (settleSession m done session).listed = session.listed ∧
      (settleSession m done session).strictDiskLease = session.strictDiskLease ∧
      (settleSession m done session).handedOff = session.handedOff := by
  unfold settleSession
  split_ifs <;> exact ⟨rfl,rfl,rfl,rfl⟩

variable {m : Merge} {change : Session → Session} {session : Session} {event : MergeEvent} {phase : MergePhase} {session' : Session} {n : Nat} {m' : Merge}

theorem advances_rest
    (advances : Advances s s' session m event phase change) (x : Session) :
    (change x).init = x.init ∧ (change x).listed = x.listed ∧ (change x).strictDiskLease = x.strictDiskLease := by
  cases advances with
  | failed | unqueued | cleaned | swept =>
    obtain ⟨init,listed,strict,_⟩ := settleSession_rest m _ x
    exact ⟨init,listed,strict⟩
  | createdLate =>
    obtain ⟨init,listed,strict,_⟩ := settleSession_rest m false (saveFile _ x)
    exact ⟨init,listed,strict⟩
  | same | created | merged | checked | cleared | renamed | handedOff | freed | queued | unjobbed | cleans =>
    exact ⟨rfl,rfl,rfl⟩

theorem change_strict (changes : Change s l u change) (x : Session) :
    (change x).strictDiskLease = x.strictDiskLease := by
  cases changes with
  | deadline => exact (settleSession_rest _ _ _).2.2.1
  | _ => rfl

theorem returned_stays (move : Moves s l s') (allowed : Allowed s l)
    (known : s.sessions.get u = some session) (returned : session.init = .returned) :
    ∃ session', s'.sessions.get u = some session' ∧ session'.init = .returned := by
  rcases advance_or_aside move with ⟨n,m,_,_,_,change,advance⟩ | aside
  · by_cases here : u = m.uploadId
    · subst here
      exact ⟨_,changed_here advance.changed known,(advances_rest advance.advances session).1.trans returned⟩
    · exact ⟨session,(changed_other advance.changed here).trans known,returned⟩
  · rcases aside.sessions with same | ⟨u',change,changes,changed⟩ | ⟨u',_,_,rfl,sessions⟩
    · exact ⟨session,same ▸ known,returned⟩
    · by_cases here : u = u'
      · subst here
        refine ⟨_,changed_here changed known,?_⟩
        have notAt : ∀ {phase : InitPhase}, s.initAt u phase → phase = .returned := by
          rintro phase ⟨session',known',rfl⟩
          cases known.symm.trans known'
          exact returned
        cases changes with
        | register | refuse | unopened => cases notAt allowed
        | opened => rfl
        | deadline => exact (settleSession_rest _ _ _).1.trans returned
        | _ => exact returned
      · exact ⟨session,(changed_other changed here).trans known,returned⟩
    · have other : u ≠ u' := by
        rintro rfl
        rw [allowed.1] at known
        cases known
      exact ⟨session,by rw [sessions,get_set_other _ _ other,known],returned⟩

theorem open_returned {p : Session → Bool} (found : s.open u p) (returned : ∀ session, p session = true → session.init = .returned) :
    ∃ session, s.sessions.get u = some session ∧ session.init = .returned := by
  obtain ⟨session,known,_,_,holds⟩ := found
  exact ⟨session,known,returned session holds⟩

section
variable (course : Course s) (move : Moves s l s') (allowed : Allowed s l)
include course move allowed

theorem touched_back (touched : Touched s' u) : ∃ session, s.sessions.get u = some session ∧ session.init = .returned := by
  cases touched with
  | merge found upload =>
    rcases advance_or_aside move with ⟨n,m,_,_,_,_,advance⟩ | aside
    · rw [advance.merges] at found
      rcases at_of_set found with ⟨rfl,rfl⟩ | ⟨_,old⟩
      · exact course.returned u (.merge advance.found upload)
      · exact course.returned u (.merge old upload)
    · rcases aside.merges _ _ found with ⟨m,old,signalled⟩ | ⟨u',rfl,_,rfl,_⟩
      · exact course.returned u (.merge old ((signalled_same signalled).1.symm.trans upload))
      · cases upload
        exact open_returned allowed (fun session holds => by simp at holds; exact holds.2)
  | abort found upload =>
    rcases step_aborts move found with old | ⟨a,_,_,old,same,_⟩ | ⟨u',rfl,rfl⟩
    · exact course.returned u (.abort old upload)
    · exact course.returned u (.abort old (same.symm.trans upload))
    · cases upload
      exact open_returned allowed (fun session holds => by simpa using holds)
  | reclaim found upload =>
    rcases step_reclaims move found with ⟨r,old,same⟩ | rfl
    · exact course.returned u (.reclaim old (same.symm.trans upload))
    · rw [upload] at allowed
      exact open_returned allowed (fun session holds => by simp at holds; exact holds.2)
  | timer member =>
    rcases step_timers move member with old | ⟨⟨n,m,_,found,upload,_⟩,_⟩
    · exact course.returned u (.timer old)
    · exact course.returned u (.merge found upload)

theorem returned_step (touched : Touched s' u) : ∃ session, s'.sessions.get u = some session ∧ session.init = .returned := by
  obtain ⟨session,known,returned⟩ := touched_back course move allowed touched
  exact returned_stays move allowed known returned

theorem opening_step (found : s'.sessions.get u = some session') (opening : session'.init = .opening) : session'.listed = true := by
  -- a session with a cancellation, a reclaim or a timer is no longer opening
  have away : ∀ {session : Session}, s.sessions.get u = some session → session.init = .opening → ¬Touched s u := by
    intro session known opening touched
    obtain ⟨session',known',returned⟩ := course.returned u touched
    cases known.symm.trans known'
    rw [opening] at returned
    cases returned
  rcases advance_or_aside move with ⟨n,m,_,_,_,change,advance⟩ | aside
  · rcases changed_back advance.changed found with ⟨_,old⟩ | ⟨rfl,session,old,rfl⟩
    · exact course.opening u session' old opening
    · obtain ⟨init,listed,_⟩ := advances_rest advance.advances session
      rw [listed]
      exact course.opening _ session old (init.symm.trans opening)
  · rcases aside.sessions with same | ⟨u',change,changes,changed⟩ | ⟨u',_,_,rfl,sessions⟩
    · exact course.opening u session' (same ▸ found) opening
    · rcases changed_back changed found with ⟨_,old⟩ | ⟨rfl,session,old,rfl⟩
      · exact course.opening u session' old opening
      cases changes with
      | register => rfl
      | refuse | opened | unopened => cases opening
      | trigger | reclaim | unreclaimed => exact course.opening _ session old opening
      | deadline =>
        obtain ⟨init,listed,_⟩ := settleSession_rest _ false session
        rw [listed]
        exact course.opening _ session old (init.symm.trans opening)
      | cancelled at_n => exact absurd (.abort at_n rfl) (away old opening)
      | reclaimed at_n => exact absurd (.reclaim at_n rfl) (away old opening)
      | timer => exact absurd (.timer allowed) (away old opening)
    · rw [sessions] at found
      rcases get_of_set found with ⟨rfl,rfl⟩ | ⟨_,old⟩
      · cases opening
      · exact course.opening u session' old opening

end

theorem savedReturned_step (custody : Custody s) (course : Course s) (move : Moves s l s') (allowed : Allowed s l)
    {file : String × Nat} (found : s'.sessions.get u = some session')
    (saved : session'.saved = some file) : session'.init = .returned := by
  have before : ∃ session, s.sessions.get u = some session ∧ session.init = .returned := by
    rcases saved_back custody move allowed found saved with ⟨session,known,had⟩ | ⟨⟨n,m,_,_,at_n,upload⟩,_⟩
    · exact ⟨session,known,course.saved u session file known had⟩
    · exact course.returned u (.merge at_n upload)
  obtain ⟨session,known,returned⟩ := before
  obtain ⟨session'',found'',returned'⟩ := returned_stays move allowed known returned
  cases found.symm.trans found''
  exact returned'

theorem signalled_step (course : Course s) (move : Moves s l s') (found : s'.merges[n]? = some m')
    (settled : m'.settled = true) : m'.aborted = true := by
  rcases advance_or_aside move with ⟨_,m,_,_,_,_,advance⟩ | aside
  · rw [advance.merges] at found
    rcases at_of_set found with ⟨rfl,rfl⟩ | ⟨_,old⟩
    · exact course.signalled n m advance.found settled
    · exact course.signalled n m' old settled
  · rcases aside.merges n m' found with ⟨m,old,signalled⟩ | ⟨_,_,_,rfl,_⟩
    · cases signalled with
      | same => exact course.signalled n _ old settled
      | aborted | settled => rfl
    · cases settled

theorem ended_advances {how : MergeEnd}
    (advances : Advances s s' session m event phase change) (ended : m.phase = .ended how) :
    phase = m.phase ∧ change = id := by
  cases advances with
  | same => exact ⟨rfl,rfl⟩
  | failed _ fails =>
    rw [ended] at fails
    cases fails
  | merged phase | checked phase | created phase | createdLate phase | cleared _ phase | renamed phase | handedOff phase
  | freed phase | unqueued phase | queued phase | unjobbed _ phase | cleans _ phase | cleaned _ phase | swept _ phase =>
    cases ended.symm.trans phase

theorem over_advances
    (advances : Advances s s' session m event phase change)
    (signalled : m.settled = true → m.aborted = true) (here : Over m) (x : Session) :
    (change x).mergeStatus = x.mergeStatus ∧ Over { m with phase } := by
  rcases here with settled | ⟨how,ended⟩
  · refine ⟨?_,.inl settled⟩
    have same : ∀ done y, settleSession m done y = y := by
      simp [settleSession,settled]
    cases advances with
    | failed | unqueued | cleaned | swept => rw [same]
    | createdLate =>
      show (settleSession m false (saveFile _ x)).mergeStatus = x.mergeStatus
      rw [same]
      rfl
    | merged _ live =>
      rw [signalled settled] at live
      cases live
    | same | created | checked | cleared | renamed | handedOff | freed | queued | unjobbed | cleans => rfl
  · obtain ⟨rfl,rfl⟩ := ended_advances advances ended
    exact ⟨rfl,.inr ⟨how,ended⟩⟩

theorem over_signalled (signalled : Signalled m m') (here : Over m) : Over m' := by
  cases signalled with
  | same | aborted => exact here
  | settled => exact .inl rfl

theorem over_step (course : Course s) (move : Moves s l s')
    (before : ∀ (n : Nat) m, s.merges[n]? = some m → m.uploadId = u → Over m)
    (untriggered : l ≠ .trigger u) (found : s'.merges[n]? = some m') (upload : m'.uploadId = u) :
    Over m' := by
  rcases advance_or_aside move with ⟨_,m,session,_,_,_,advance⟩ | aside
  · rw [advance.merges] at found
    rcases at_of_set found with ⟨rfl,rfl⟩ | ⟨_,old⟩
    · exact (over_advances advance.advances (course.signalled n m advance.found) (before n m advance.found upload) session).2
    · exact before n m' old upload
  · rcases aside.merges n m' found with ⟨m,old,signalled⟩ | ⟨u',rfl,_,rfl,_⟩
    · exact over_signalled signalled (before n m old ((signalled_same signalled).1.symm.trans upload))
    · cases upload
      exact absurd rfl untriggered

theorem timed_step (custody : Custody s) (custody' : Custody s') (course : Course s) (move : Moves s l s')
    (allowed : Allowed s l) (member : u ∈ s'.timers) :
    (∃ session, s'.sessions.get u = some session ∧ (session.mergeStatus = .done ∨ session.mergeStatus = .error)) ∧
      ∀ (n : Nat) m, s'.merges[n]? = some m → m.uploadId = u → Over m := by
  rcases step_timers move member with old | ⟨⟨n,m,m',found,rfl,found',upload,here⟩,change,changed,status⟩
  · obtain ⟨⟨session,known,status⟩,overs⟩ := course.timed u old
    have untriggered : l ≠ .trigger u := by
      rintro rfl
      obtain ⟨session',known',_,_,pending⟩ := allowed
      cases known.symm.trans known'
      simp only [Bool.and_eq_true,decide_eq_true_eq] at pending
      rw [pending.1] at status
      rcases status with status | status <;> cases status
    refine ⟨?_,fun n m found upload => over_step course move overs untriggered found upload⟩
    rcases advance_or_aside move with ⟨n,m,_,_,_,change,advance⟩ | aside
    · by_cases here : u = m.uploadId
      · subst here
        have same := (over_advances advance.advances (course.signalled n m advance.found) (overs n m advance.found rfl) session).1
        exact ⟨_,changed_here advance.changed known,by rw [same]; exact status⟩
      · exact ⟨session,(changed_other advance.changed here).trans known,status⟩
    · rcases aside.sessions with same | ⟨u',change,changes,changed⟩ | ⟨u',_,_,rfl,sessions⟩
      · exact ⟨session,same ▸ known,status⟩
      · by_cases here : u = u'
        · subst here
          refine ⟨_,changed_here changed known,?_⟩
          cases changes with
          | trigger => exact absurd rfl untriggered
          | deadline found going =>
            rcases overs _ _ found rfl with settled | ⟨how,ended⟩
            · simpa [settleSession,settled] using status
            · exact absurd ended (going how)
          | _ => exact status
        · exact ⟨session,(changed_other changed here).trans known,status⟩
      · have other : u ≠ u' := by
          rintro rfl
          rw [allowed.1] at known
          cases known
        exact ⟨session,by rw [sessions,get_set_other _ _ other,known],status⟩
  · obtain ⟨session,known,_⟩ := custody.merging n m found
    refine ⟨⟨change session,changed_here changed known,status session⟩,fun n₁ m₁ found₁ upload₁ => ?_⟩
    cases custody'.alone n n₁ m' m₁ found' found₁ (upload.trans upload₁.symm)
    cases found'.symm.trans found₁
    exact here

theorem ended_stays {how : MergeEnd} (move : Moves s l s') (found : s.merges[n]? = some m)
    (ended : m.phase = .ended how) :
    ∃ m', s'.merges[n]? = some m' ∧ m'.uploadId = m.uploadId ∧ m'.phase = .ended how := by
  rcases advance_or_aside move with ⟨k,x,session,_,phase,_,advance⟩ | aside
  · by_cases here : n = k
    · subst here
      cases found.symm.trans advance.found
      refine ⟨{ m with phase },by rw [advance.merges]; exact at_set found,rfl,?_⟩
      exact (ended_advances advance.advances ended).1.trans ended
    · exact ⟨m,by rw [advance.merges,List.getElem?_set_ne (Ne.symm here),found],rfl,ended⟩
  · obtain ⟨m',found',signalled⟩ := aside.stay n m found
    obtain ⟨upload,phase⟩ := signalled_same signalled
    exact ⟨m',found',upload,phase.trans ended⟩

theorem advances_done
    (advances : Advances s s' session m event phase change) {x : Session}
    (done : (change x).mergeStatus = .done) : x.mergeStatus = .done ∨ phase = .ended .done := by
  have failed : ∀ {y : Session}, (settleSession m false y).mergeStatus = .done → y.mergeStatus = .done := by
    intro y done
    unfold settleSession at done
    split at done
    · cases done
    · exact done
  cases advances with
  | failed | unqueued | cleaned => exact .inl (failed done)
  | createdLate => exact .inl (failed (y := saveFile _ x) done)
  | swept => exact .inr rfl
  | merged => cases done
  | same | created | checked | cleared | renamed | handedOff | freed | queued | unjobbed | cleans => exact .inl done

theorem change_done (changes : Change s l u change) {x : Session}
    (done : (change x).mergeStatus = .done) : x.mergeStatus = .done := by
  cases changes with
  | trigger => cases done
  | deadline =>
    unfold settleSession at done
    split at done
    · cases done
    · exact done
  | _ => exact done

theorem finished_step (course : Course s) (move : Moves s l s')
    (found : s'.sessions.get u = some session') (done : session'.mergeStatus = .done) :
    ∃ (n : Nat) (m : Merge), s'.merges[n]? = some m ∧ m.uploadId = u ∧ m.phase = .ended .done := by
  have stays : ∀ {session : Session}, s.sessions.get u = some session → session.mergeStatus = .done →
      ∃ (n : Nat) (m : Merge), s'.merges[n]? = some m ∧ m.uploadId = u ∧ m.phase = .ended .done := by
    intro session known done
    obtain ⟨n,m,at_n,upload,ended⟩ := course.finished u session known done
    obtain ⟨m',at_n',same,ended'⟩ := ended_stays move at_n ended
    exact ⟨n,m',at_n',same.trans upload,ended'⟩
  rcases advance_or_aside move with ⟨n,m,_,_,phase,change,advance⟩ | aside
  · rcases changed_back advance.changed found with ⟨_,old⟩ | ⟨rfl,session,old,rfl⟩
    · exact stays old done
    · rcases advances_done advance.advances done with before | rfl
      · exact stays old before
      · refine ⟨n,{ m with phase := .ended .done },?_,rfl,rfl⟩
        rw [advance.merges]
        exact at_set advance.found
  · rcases aside.sessions with same | ⟨u',change,changes,changed⟩ | ⟨u',_,_,rfl,sessions⟩
    · exact stays (same ▸ found) done
    · rcases changed_back changed found with ⟨_,old⟩ | ⟨rfl,session,old,rfl⟩
      · exact stays old done
      · exact stays old (change_done changes done)
    · rw [sessions] at found
      rcases get_of_set found with ⟨rfl,rfl⟩ | ⟨_,old⟩
      · cases done
      · exact stays old done

theorem course_step (custody : Custody s) (course : Course s) (allowed : Allowed s l) : Course (step s l) := by
  have move : Moves s l (step s l) := step_moves l
  exact
    { returned := fun _ touched => returned_step course move allowed touched
      opening := fun _ _ found opening => opening_step course move allowed found opening
      saved := fun _ _ _ found saved => savedReturned_step custody course move allowed found saved
      signalled := fun _ _ found settled => signalled_step course move found settled
      timed := fun _ member => timed_step custody (custody_step custody allowed) course move allowed member
      finished := fun _ _ found done => finished_step course move found done }

end
end Tgtc.SessionCourse
