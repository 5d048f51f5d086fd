import Mathlib
import Tgtc.MirrorExecutions

/-!
What becomes of a mirror task. A row that is running is left alone by everybody but the call that executes it, so it
runs for good when the last update of that call fails; only the start of a process looks for such rows.
-/
namespace Tgtc.MirrorRecovery
open Runs MirrorTasks MirrorExecutions Maps

/-- The call executes the row, or is the recovery that has yet to come to it. -/
def Tends (i : Nat) : Proc → Prop
  | .executing job _ | .writing job _ _ => job.task = i
  | .resume => True
  | .writeResume todo | .addResumed _ _ todo => i ∈ todo.map Prod.fst
  | _ => False

instance (i : Nat) (proc : Proc) : Decidable (Tends i proc) := by
  induction proc using Proc.casesOn <;> unfold Tends <;> infer_instance

def reconciled (limit k : Nat) (s : State) : State :=
  (List.replicate k (Label.go s.procs.length .ok)).foldl step (step s (.call (.reconcileQueued limit)))

def HasJob (s : State) (i : Nat) : Prop := ∃ job ∈ s.jobs, job.task = i

/-- The look comes to an end, and the row has a job then, unless as many others that come before it have one. -/
def Served (limit : Nat) (s : State) (i : Nat) : Prop :=
  ∃ k, (reconciled limit k s).procs[s.procs.length]? = some .ended ∧ (HasJob (reconciled limit k s) i ∨
    ∃ others : List Nat, others.length = limit ∧ others.Nodup ∧ i ∉ others ∧ ∀ j ∈ others, HasJob (reconciled limit k s) j)

structure Attended (s : State) : Prop where
  running : ∀ (i : Nat) (row : Row), s.rows[i]? = some row → row.status = .running → ∃ p ∈ s.procs, Tends i p
  waiting : ∀ (i : Nat) (row : Row), s.rows[i]? = some row → row.status.waiting = true →
    ∃ due : Int, ∀ ms : Nat, due ≤ s.now + ms → ∀ limit, Served limit (step s (.tick ms)) i
  bounded : ∀ (i : Nat) (row : Row), s.rows[i]? = some row → row.executions ≤ mirrorMaxAttempts + row.handedBack

def rescues : Write → Bool
  | .rescue _ => true
  | _ => false

/-- How an access has to end, and what it has to find. -/
def Keeps (s : State) (reply : Reply) : Proc → Prop
  | .claiming _ => reply.applied = true → reply = .ok
  | .writing job claimed w =>
    (rescues w = true → reply.applied = false → ∀ row ∈ s.rows[job.task]?, row.status ≠ .running) ∧
    -- only a first attempt is handed back
    (w = .returnToQueue → reply.applied = true → claimed.attempts = 1)
  | .resume => reply = .ok
  | .writeResume ((i,_) :: _) => reply = .ok ∧ ∀ row ∈ s.rows[i]?, row.attempts < mirrorMaxAttempts
  | _ => True

instance (s : State) (reply : Reply) (proc : Proc) : Decidable (Keeps s reply proc) := by
  induction proc using Proc.casesOn
  case writeResume todo =>
    induction todo using List.casesOn
    case nil => unfold Keeps; infer_instance
    case cons head _ => induction head using Prod.casesOn; unfold Keeps; infer_instance
  all_goals unfold Keeps; infer_instance

def Orderly (s : State) (l : Label) : Prop :=
  MirrorExecutions.Orderly s l ∧ match l with
    | .go n reply => ∀ p ∈ s.procs[n]?, Keeps s reply p
    | _ => True

instance (s : State) (l : Label) : Decidable (Orderly s l) := by
  refine @instDecidableAnd _ _ inferInstance ?_
  induction l using Label.casesOn <;> dsimp only <;> infer_instance

abbrev ReachedOrderly : State → Prop := Reachable step Orderly .start

def execution : Proc → Option (Nat × Row)
  | .executing job claimed | .writing job claimed _ => some (job.task,claimed)
  | _ => none

theorem executes_execution (p : Proc) : p.executes = (execution p).map Prod.fst := by
  cases p <;> rfl

structure Counts (row : Row) : Prop where
  total : row.executions = row.attempts + row.handedBack
  most : row.attempts ≤ mirrorMaxAttempts
  fewer : row.status.waiting = true → row.attempts < mirrorMaxAttempts
  due : row.status = .retrying → ∃ t, row.nextRetryAt = some t

structure Inv (s : State) : Prop where
  exclusive : MirrorExecutions.Inv s
  tended : ∀ (i : Nat) (row : Row), s.rows[i]? = some row → row.status = .running → ∃ p ∈ s.procs, Tends i p
  counted : ∀ (i : Nat) (row : Row), s.rows[i]? = some row → Counts row
  snapshot : ∀ (p : Proc) (i : Nat) (claimed : Row), p ∈ s.procs → execution p = some (i,claimed) →
    ∃ row, s.rows[i]? = some row ∧ row.attempts = claimed.attempts

section
variable {s t : State} {n i : Nat} {old proc : Proc}

theorem tended_goes (inv : Inv s) (there : s.procs[n]? = some old) (procs : t.procs = s.procs.set n proc)
    (goes : ∀ (i : Nat) (row : Row), t.rows[i]? = some row → row.status = .running →
      Tends i proc ∨ ¬ Tends i old ∧ ∃ row', s.rows[i]? = some row' ∧ row'.status = .running) :
    ∀ (i : Nat) (row : Row), t.rows[i]? = some row → row.status = .running → ∃ p ∈ t.procs, Tends i p := by
  intro i row found running
  rcases goes i row found running with itself | ⟨idle,row',known,before⟩
  · refine ⟨proc,?_,itself⟩
    rw [procs]
    exact List.mem_of_getElem? (Maps.at_set there)
  · obtain ⟨p,among,tends⟩ := inv.tended i row' known before
    obtain ⟨m,at_m⟩ := List.mem_iff_getElem?.mp among
    have other : n ≠ m := by
      rintro rfl
      cases there.symm.trans at_m
      exact idle tends
    refine ⟨p,?_,tends⟩
    rw [procs]
    exact List.mem_of_getElem? ((List.getElem?_set_ne other).trans at_m)

theorem snapshot_goes (inv : Inv s) (procs : t.procs = s.procs.set n proc) (calm : execution proc = none)
    (rows : ∀ (i : Nat) (row : Row), s.rows[i]? = some row → (∃ p ∈ s.procs, p.executes = some i) →
      ∃ row', t.rows[i]? = some row' ∧ row'.attempts = row.attempts) :
    ∀ (p : Proc) (i : Nat) (claimed : Row), p ∈ t.procs → execution p = some (i,claimed) →
      ∃ row, t.rows[i]? = some row ∧ row.attempts = claimed.attempts := by
  intro p i claimed among executes
  rw [procs] at among
  rcases List.mem_or_eq_of_mem_set among with before | rfl
  · obtain ⟨row,known,same⟩ := inv.snapshot p i claimed before executes
    obtain ⟨row',known',same'⟩ := rows i row known ⟨p,before,by rw [executes_execution,executes]; rfl⟩
    exact ⟨row',known',same'.trans same⟩
  · rw [calm] at executes
    cases executes

section
variable (inv : Inv s) (there : s.procs[n]? = some old) (exclusive : MirrorExecutions.Inv t)
  (procs : t.procs = s.procs.set n proc)
include inv there exclusive procs

theorem inv_goes (rows : t.rows = s.rows) (calm : execution proc = none)
    (tends : ∀ (i : Nat) (row : Row), s.rows[i]? = some row → row.status = .running → Tends i old → Tends i proc) : Inv t := by
  refine ⟨exclusive,tended_goes inv there procs fun i row found running => ?_,?_,
    snapshot_goes inv procs calm fun i row known _ => ⟨row,by rw [rows]; exact known,rfl⟩⟩
  · rw [rows] at found
    by_cases before : Tends i old
    · exact .inl (tends i row found running before)
    · exact .inr ⟨before,row,found,running⟩
  · rw [rows]
    exact inv.counted

theorem inv_put {change : Row → Row} (rows : t.rows = s.rows.modify i change) (calm : execution proc = none)
    (idle : Idle s i) (stops : ∀ row, (change row).status ≠ .running)
    (counts : ∀ row, s.rows[i]? = some row → Counts row → Counts (change row))
    (tends : ∀ j, j ≠ i → Tends j old → Tends j proc) : Inv t := by
  refine ⟨exclusive,tended_goes inv there procs fun j row found running => ?_,fun j row found => ?_,
    snapshot_goes inv procs calm fun j row known executed => ?_⟩
  · rw [rows] at found
    rcases Maps.at_of_modify found with ⟨_,_,_,rfl⟩ | ⟨other,known⟩
    · exact absurd running (stops _)
    · by_cases before : Tends j old
      · exact .inl (tends j other before)
      · exact .inr ⟨before,row,known,running⟩
  · rw [rows] at found
    rcases Maps.at_of_modify found with ⟨rfl,row',known,rfl⟩ | ⟨_,known⟩
    · exact counts row' known (inv.counted j row' known)
    · exact inv.counted j row known
  · obtain ⟨p,among,executes⟩ := executed
    have other : i ≠ j := by
      rintro rfl
      exact idle p among executes
    exact ⟨row,by rw [rows,List.getElem?_modify_ne _ _ other]; exact known,rfl⟩

end

variable {reply : Reply} {w : Write} {row : Row} {job : JobId}

theorem counts_claim (counts : Counts row) (waits : row.status.waiting = true) : Counts row.claim := by
  have below := counts.fewer waits
  have total := counts.total
  refine ⟨?_,below,fun waiting => ?_,fun retrying => ?_⟩
  · show row.executions + 1 = row.attempts + 1 + row.handedBack
    omega
  · cases waiting
  · cases retrying

theorem begun_execution (job : JobId) (claimed : Row) : execution (begun job claimed) = some (job.task,claimed) := by
  unfold begun
  split
  · rfl
  · split_ifs <;> rfl

theorem tends_of_executes {p : Proc} (executes : p.executes = some i) : Tends i p := by
  cases p with
  | executing job claimed | writing job claimed w => exact Option.some.inj executes
  | _ => cases executes

theorem inv_claim (inv : Inv s) (there : s.procs[n]? = some (.claiming job))
    (replied : reply.applied = true → reply = .ok) (exclusive : MirrorExecutions.Inv (s.claim n job reply)) :
    Inv (s.claim n job reply) := by
  have unchanged : MirrorExecutions.Inv (s.finish n job) → Inv (s.finish n job) :=
    fun exclusive => inv_goes inv there exclusive rfl rfl rfl fun _ _ _ _ idle => idle
  unfold State.claim at exclusive ⊢
  split
  · next row found =>
    obtain ⟨known,waits⟩ := Option.filter_eq_some_iff.mp found
    rw [found] at exclusive
    dsimp only at exclusive
    by_cases applied : reply.applied = true
    · rw [if_pos applied,if_pos (replied applied)] at exclusive ⊢
      refine ⟨exclusive,tended_goes inv there rfl fun i row' found running => ?_,fun i row' found => ?_,?_⟩
      · rcases Maps.at_of_modify found with ⟨rfl,_⟩ | ⟨_,before⟩
        · exact .inl (tends_of_executes (begun_executes _ _))
        · exact .inr ⟨id,row',before,running⟩
      · rcases Maps.at_of_modify found with ⟨rfl,old,before,rfl⟩ | ⟨_,before⟩
        · cases known.symm.trans before
          exact counts_claim (inv.counted _ row known) waits
        · exact inv.counted i row' before
      · intro p i claimed among executes
        rcases List.mem_or_eq_of_mem_set among with before | rfl
        · obtain ⟨row',known',same⟩ := inv.snapshot p i claimed before executes
          have other : job.task ≠ i := by
            rintro rfl
            refine idle_of_waiting inv.exclusive known waits p before ?_
            rw [executes_execution,executes]
            rfl
          exact ⟨row',(List.getElem?_modify_ne _ _ other).trans known',same⟩
        · rw [begun_execution] at executes
          cases executes
          exact ⟨row.claim,Maps.at_modify known Row.claim,rfl⟩
    · rw [if_neg applied] at exclusive ⊢
      exact unchanged exclusive
  · next found =>
    rw [found] at exclusive
    exact unchanged exclusive

theorem counts_apply {claimed : Row} (counts : Counts row) (same : row.attempts = claimed.attempts) {now : Int}
    (first : w = .returnToQueue → claimed.attempts = 1) : Counts (w.apply claimed now row) := by
  have retried : ∀ delayMs, Counts (row.markRetrying claimed.attempts delayMs now) := by
    intro delayMs
    unfold Row.markRetrying
    split_ifs with spent
    · exact ⟨counts.total,counts.most,fun waiting => (by cases waiting),nofun⟩
    · exact ⟨counts.total,counts.most,fun _ => same ▸ Nat.not_le.mp spent,fun _ => ⟨_,rfl⟩⟩
  cases w with
  | markRetrying delayMs | unsettled delayMs | rescue delayMs => exact retried delayMs
  | saveReceipt result => exact ⟨counts.total,counts.most,counts.fewer,counts.due⟩
  | returnToQueue =>
    have one := first rfl
    have total := counts.total
    refine ⟨?_,Nat.zero_le _,fun _ => Nat.zero_lt_succ 4,nofun⟩
    show row.executions = 0 + (row.handedBack + 1)
    omega
  | markSucceeded result copied | markBlocked | markCancelled | markFailed =>
    exact ⟨counts.total,counts.most,fun waiting => (by cases waiting),nofun⟩

theorem apply_stops (settles : ∀ result, w ≠ .saveReceipt result) (claimed row : Row) (now : Int) :
    (w.apply claimed now row).status ≠ .running := by
  have retried : ∀ delayMs, (row.markRetrying claimed.attempts delayMs now).status ≠ .running := by
    intro delayMs
    unfold Row.markRetrying
    split_ifs <;> exact Status.noConfusion
  cases w with
  | markRetrying delayMs | unsettled delayMs | rescue delayMs => exact retried delayMs
  | saveReceipt result => exact absurd rfl (settles result)
  | _ => exact Status.noConfusion

theorem apply_attempts (other : w ≠ .returnToQueue) (claimed row : Row) (now : Int) :
    (w.apply claimed now row).attempts = row.attempts := by
  have retried : ∀ delayMs, (row.markRetrying claimed.attempts delayMs now).attempts = row.attempts := by
    intro delayMs
    unfold Row.markRetrying
    split_ifs <;> rfl
  cases w with
  | markRetrying delayMs | unsettled delayMs | rescue delayMs => exact retried delayMs
  | returnToQueue => exact absurd rfl other
  | _ => rfl

theorem next_settles (job : JobId) (claimed : Row)
    (ends : ∀ proc ∈ w.next job claimed reply, proc.executes = none) :
    (reply = .ok ∨ rescues w = true) ∧ ∀ result, w ≠ .saveReceipt result := by
  cases reply with
  | ok =>
    refine ⟨.inl rfl,?_⟩
    rintro result rfl
    exact nomatch ends _ rfl
  | threw applied retryAfterMs =>
    cases w with
    | rescue delayMs => exact ⟨.inr rfl,fun _ => Write.noConfusion⟩
    | markSucceeded result copied => cases copied <;> exact nomatch ends _ rfl
    | _ => exact nomatch ends _ rfl

theorem next_execution {claimed : Row} {proc : Proc}
    (goes : w.next job claimed reply = some proc) (executes : proc.executes ≠ none) :
    execution proc = some (job.task,claimed) := by
  cases w with
  | saveReceipt result => cases goes; rfl
  | markSucceeded result copied => cases reply <;> cases copied <;> cases goes <;> rfl
  | markRetrying delayMs =>
    cases reply with
    | ok =>
      simp only [Write.next] at goes
      split_ifs at goes
      cases goes
      exact absurd rfl executes
    | threw applied retryAfterMs => cases goes; rfl
  | rescue delayMs =>
    cases reply with
    | ok =>
      simp only [Write.next] at goes
      split_ifs at goes
      cases goes
      exact absurd rfl executes
    | threw applied retryAfterMs => cases goes
  | unsettled delayMs =>
    cases reply with
    | ok => cases goes; exact absurd rfl executes
    | threw applied retryAfterMs => cases goes; rfl
  | markBlocked | markCancelled | markFailed | returnToQueue =>
    cases reply <;> cases goes
    rfl

theorem update_rows (reply : Reply) (change : Row → Row) :
    (s.update i reply change).rows = if reply.applied = true then s.rows.modify i change else s.rows := by
  unfold State.update
  split_ifs <;> rfl

theorem inv_write (inv : Inv s) {claimed : Row}
    (there : s.procs[n]? = some (.writing job claimed w)) (lands : reply.applied = true → Lands s reply (.writing job claimed w))
    (keeps : Keeps s reply (.writing job claimed w)) (exclusive : MirrorExecutions.Inv t)
    (proc : Proc) (procs : t.procs = s.procs.set n proc) (rows : t.rows = (s.update job.task reply (w.apply claimed s.now)).rows)
    (goes : proc.executes ≠ none → execution proc = some (job.task,claimed) ∧ (reply ≠ .ok ∨ ∃ result, w = .saveReceipt result))
    (ends : proc.executes = none → (reply = .ok ∨ rescues w = true) ∧ ∀ result, w ≠ .saveReceipt result) : Inv t := by
  rw [update_rows] at rows
  obtain ⟨row,known,same⟩ := inv.snapshot _ _ _ (List.mem_of_getElem? there) rfl
  have alone : ∀ m p, s.procs[m]? = some p → p.executes = some job.task → m = n :=
    fun m p found executes => inv.exclusive.single job.task m n p _ found there executes rfl
  -- what is under the number of the row afterwards
  have after : ∀ i row', t.rows[i]? = some row' →
      i = job.task ∧ reply.applied = true ∧ row' = w.apply claimed s.now row ∨
        (i = job.task → reply.applied = false) ∧ s.rows[i]? = some row' := by
    intro i row' found
    rw [rows] at found
    split_ifs at found with applied
    · rcases Maps.at_of_modify found with ⟨rfl,old,before,rfl⟩ | ⟨other,before⟩
      · cases known.symm.trans before
        exact .inl ⟨rfl,applied,rfl⟩
      · exact .inr ⟨fun here => absurd here other,before⟩
    · exact .inr ⟨fun _ => by simpa using applied,found⟩
  refine ⟨exclusive,tended_goes inv there procs fun i row' found running => ?_,fun i row' found => ?_,?_⟩
  · by_cases goesOn : proc.executes = none
    · obtain ⟨settles,unsaved⟩ := ends goesOn
      rcases after i row' found with ⟨_,_,rfl⟩ | ⟨unapplied,before⟩
      · exact absurd running (apply_stops unsaved claimed row s.now)
      · refine .inr ⟨fun here => ?_,row',before,running⟩
        cases here
        rcases settles with rfl | last
        · cases unapplied rfl
        · exact keeps.1 last (unapplied rfl) row' before running
    · by_cases here : i = job.task
      · refine .inl (tends_of_executes ?_)
        rw [executes_execution,(goes goesOn).1,here]
        rfl
      · rcases after i row' found with ⟨same,_⟩ | ⟨_,before⟩
        · exact absurd same here
        · exact .inr ⟨fun itself => here itself.symm,row',before,running⟩
  · rcases after i row' found with ⟨rfl,applied,rfl⟩ | ⟨_,before⟩
    · exact counts_apply (inv.counted _ row known) same fun back => keeps.2 back applied
    · exact inv.counted i row' before
  · intro p i snap among executes
    obtain ⟨m,at_m⟩ := List.mem_iff_getElem?.mp among
    rw [procs] at at_m
    rcases Maps.at_of_set at_m with ⟨rfl,rfl⟩ | ⟨other,old⟩
    · have goesOn : p.executes ≠ none := by
        rw [executes_execution,executes]
        exact Option.some_ne_none _
      obtain ⟨itself,unsettled⟩ := goes goesOn
      cases itself.symm.trans executes
      rw [rows]
      split_ifs with applied
      · -- a row that is handed back is not executed any more
        have unreturned : w ≠ .returnToQueue := by
          rintro rfl
          rcases unsettled with replied | ⟨_,saved⟩
          · cases lands applied replied row known
          · cases saved
        exact ⟨_,Maps.at_modify known _,(apply_attempts unreturned claimed row s.now).trans same⟩
      · exact ⟨row,known,same⟩
    · obtain ⟨row',before,same'⟩ := inv.snapshot p i snap (List.mem_of_getElem? old) executes
      have apart : job.task ≠ i := by
        rintro rfl
        exact other (alone m p old (by rw [executes_execution,executes]; rfl))
      refine ⟨row',?_,same'⟩
      rw [rows]
      split_ifs
      · exact (List.getElem?_modify_ne _ _ apart).trans before
      · exact before

theorem inv_writing (inv : Inv s) {claimed : Row}
    (there : s.procs[n]? = some (.writing job claimed w)) (lands : reply.applied = true → Lands s reply (.writing job claimed w))
    (keeps : Keeps s reply (.writing job claimed w)) (exclusive : MirrorExecutions.Inv (s.write n job claimed w reply)) :
    Inv (s.write n job claimed w reply) := by
  obtain ⟨procs,_⟩ := update_procs (s := s) (i := job.task) reply (w.apply claimed s.now)
  unfold State.write at exclusive ⊢
  cases found : w.next job claimed reply with
  | some proc =>
    rw [found] at exclusive
    refine inv_write inv there lands keeps exclusive proc (by rw [← procs]; rfl) rfl (fun executes => ?_) fun ends => ?_
    · rcases next_executes found with calm | ⟨_,unsettled⟩
      · exact absurd calm executes
      · exact ⟨next_execution found executes,unsettled⟩
    · refine next_settles job claimed fun proc' goes => ?_
      cases found.symm.trans goes
      exact ends
  | none =>
    rw [found] at exclusive
    refine inv_write inv there lands keeps exclusive .ended (by rw [← procs]; rfl) rfl (fun executes => absurd rfl executes) ?_
    intro _
    refine next_settles job claimed fun proc' goes => ?_
    cases found.symm.trans goes

theorem add_rows (reply : Reply) (job : JobId) : (s.add reply job).rows = s.rows ∧ (s.add reply job).procs = s.procs := by
  unfold State.add
  split_ifs <;> exact ⟨rfl,rfl⟩

theorem calm_execution {p : Proc} (calm : p.executes = none) : execution p = none := by
  rw [executes_execution] at calm
  exact Option.map_eq_none_iff.mp calm

theorem inv_calm (inv : Inv s) (there : s.procs[n]? = some old) (exclusive : MirrorExecutions.Inv t)
    (procs : t.procs = s.procs.set n proc) (rows : t.rows = s.rows) (calm : proc.executes = none) (idle : ∀ i, ¬ Tends i old) :
    Inv t :=
  inv_goes inv there exclusive procs rows (calm_execution calm) fun i _ _ _ tends => absurd tends (idle i)

theorem read_calm {next : Proc} (calm : next.executes = none) :
    (if reply = .ok then next else .ended).executes = none := by
  split_ifs
  · exact calm
  · rfl

theorem counts_fresh (row : Row) (waits : row.status = .queued) (attempts : row.attempts = 0)
    (total : row.executions = row.attempts + row.handedBack) : Counts row :=
  ⟨total,by rw [attempts]; exact Nat.zero_le _,fun _ => by rw [attempts]; exact Nat.zero_lt_succ 4,
    fun retrying => by rw [waits] at retrying; cases retrying⟩

theorem inv_admin (inv : Inv s) (there : s.procs[n]? = some old) {change : Row → Row}
    (idle : reply.applied = true → Idle s i) (exclusive : MirrorExecutions.Inv t)
    (procs : t.procs = s.procs.set n proc) (rows : t.rows = (s.update i reply change).rows) (calm : proc.executes = none)
    (stops : ∀ row, (change row).status ≠ .running) (counts : ∀ row, Counts row → Counts (change row))
    (quiet : ∀ i, ¬ Tends i old) : Inv t := by
  rw [update_rows] at rows
  split_ifs at rows with applied
  · exact inv_put inv there exclusive procs rows (calm_execution calm) (idle applied) stops (fun row _ => counts row)
      fun j _ tends => absurd tends (quiet j)
  · exact inv_calm inv there exclusive procs rows calm quiet

theorem mem_runningRows {rows : List Row} {i : Nat} (known : rows[i]? = some row) (running : row.status = .running) :
    i ∈ (runningRows rows).map Prod.fst := by
  unfold runningRows
  rw [List.map_map,List.mem_map]
  refine ⟨i,List.mem_filter.mpr ⟨List.mem_range.mpr (at_lt known),?_⟩,rfl⟩
  rw [known]
  simpa using running

theorem inv_insert (inv : Inv s) (there : s.procs[n]? = some old) {key : Key} (exclusive : MirrorExecutions.Inv t)
    (procs : t.procs = s.procs.set n proc) (rows : t.rows = s.rows ++ [key.row]) (calm : proc.executes = none)
    (quiet : ∀ i, ¬ Tends i old) : Inv t := by
  refine ⟨exclusive,tended_goes inv there procs fun i row found running => ?_,fun i row found => ?_,
    snapshot_goes inv procs (calm_execution calm) fun i row known _ => ⟨row,?_,rfl⟩⟩
  · rw [rows] at found
    rcases Maps.at_of_append found with before | ⟨_,rfl⟩
    · exact .inr ⟨quiet i,row,before,running⟩
    · cases running
  · rw [rows] at found
    rcases Maps.at_of_append found with before | ⟨_,rfl⟩
    · exact inv.counted i row before
    · exact counts_fresh _ rfl rfl rfl
  · rw [rows]
    exact (List.getElem?_append_left (at_lt known)).trans known

theorem inv_advance (inv : Inv s) (there : s.procs[n]? = some proc)
    (lands : reply.applied = true → Lands s reply proc) (keeps : Keeps s reply proc)
    (exclusive : MirrorExecutions.Inv (s.advance n reply proc)) : Inv (s.advance n reply proc) := by
  have reads : ∀ next : Proc, next.executes = none → (∀ i, ¬ Tends i proc) → MirrorExecutions.Inv (s.read n reply next) →
      Inv (s.read n reply next) :=
    fun next calm quiet exclusive => inv_calm inv there exclusive rfl rfl (read_calm calm) quiet
  have adds : ∀ (job : JobId) (next : Proc), next.executes = none → (∀ i, ¬ Tends i proc) →
      MirrorExecutions.Inv ((s.add reply job).goes n next) → Inv ((s.add reply job).goes n next) :=
    fun job next calm quiet exclusive => inv_calm inv there exclusive
      (by rw [← (add_rows (s := s) reply job).2]; rfl) (add_rows reply job).1 calm quiet
  cases proc with
  | claiming job => exact inv_claim inv there keeps exclusive
  | executing job claimed => exact inv
  | writing job claimed w => exact inv_writing inv there lands keeps exclusive
  | scheduling job claimed =>
    exact inv_calm inv there exclusive (by rw [← (add_rows (s := s) reply _).2]; rfl) (add_rows (s := s) reply _).1 rfl fun _ => id
  | enqueue key => exact reads _ (found_calm s.rows key) (fun _ => id) exclusive
  | insert key =>
    unfold State.advance at exclusive ⊢
    dsimp only at exclusive ⊢
    split_ifs at exclusive ⊢ with inserts
    · exact inv_insert inv there exclusive rfl rfl (read_calm rfl) fun _ => id
    · exact inv_calm inv there exclusive rfl rfl rfl fun _ => id
  | add job => exact adds _ _ rfl (fun _ => id) exclusive
  | retry i => exact reads _ (retryOf_calm i _) (fun _ => id) exclusive
  | writeRetry i receiptPending =>
    refine inv_admin inv there lands exclusive (by rw [← (update_procs (s := s) reply _).1]; rfl) rfl (read_calm rfl)
      (fun _ => Status.noConfusion) (fun row counts => ?_) fun _ => id
    exact counts_fresh _ rfl rfl rfl
  | refresh i => exact reads _ rfl (fun _ => id) exclusive
  | cancel i => exact reads _ (cancelOf_calm i _) (fun _ => id) exclusive
  | writeCancel i =>
    refine inv_admin inv there lands exclusive (by rw [← (update_procs (s := s) reply _).1]; rfl) rfl rfl
      (fun _ => Status.noConfusion) (fun row counts => ?_) fun _ => id
    exact ⟨counts.total,counts.most,fun waiting => (by cases waiting),nofun⟩
  | requeue i => exact reads _ (requeueOf_calm i _) (fun _ => id) exclusive
  | writeRequeue i =>
    refine inv_admin inv there lands exclusive (by rw [← (update_procs (s := s) reply _).1]; rfl) rfl (read_calm rfl)
      (fun _ => Status.noConfusion) (fun row counts => ?_) fun _ => id
    exact counts_fresh _ rfl rfl rfl
  | reconcile limit => exact reads _ rfl (fun _ => id) exclusive
  | addQueued limit todo =>
    cases todo with
    | nil => exact reads _ rfl (fun _ => id) exclusive
    | cons i todo => exact adds _ _ rfl (fun _ => id) exclusive
  | addRetrying todo =>
    cases todo with
    | nil => exact inv_calm inv there exclusive rfl rfl rfl fun _ => id
    | cons e todo => exact adds _ _ rfl (fun _ => id) exclusive
  | resume =>
    -- the recovery has a list of all that are running
    cases keeps
    exact inv_goes inv there exclusive rfl rfl rfl fun i row known running _ => mem_runningRows known running
  | writeResume todo =>
    cases todo with
    | nil => exact inv_goes inv there exclusive rfl rfl rfl fun i _ _ _ tends => by cases tends
    | cons e todo =>
      obtain ⟨rfl,below⟩ := keeps
      refine inv_put inv there exclusive rfl rfl rfl (lands rfl).1 (fun _ => Status.noConfusion) (fun row known counts => ?_)
        fun j other tends => ?_
      · exact ⟨counts.total,counts.most,fun _ => below row known,fun _ => ⟨_,rfl⟩⟩
      · rcases List.mem_cons.mp tends with here | later
        · exact absurd here other
        · exact later
  | addResumed i attempts todo =>
    have procs : (s.advance n reply (.addResumed i attempts todo)).procs = s.procs.set n (.writeResume todo) := by
      rw [← (add_rows (s := s) reply ⟨i,some attempts⟩).2]
      rfl
    exact inv_goes inv there exclusive procs (add_rows (s := s) reply _).1 rfl fun _ _ _ _ tends => tends
  | ended => exact inv

theorem inv_append (inv : Inv s) (exclusive : MirrorExecutions.Inv t) (calm : proc.executes = none)
    (procs : t.procs = s.procs ++ [proc]) (rows : t.rows = s.rows) : Inv t := by
  refine ⟨exclusive,fun i row found running => ?_,by rw [rows]; exact inv.counted,fun p i claimed among executes => ?_⟩
  · rw [rows] at found
    obtain ⟨p,among,tends⟩ := inv.tended i row found running
    exact ⟨p,by rw [procs]; exact List.mem_append_left _ among,tends⟩
  · rw [procs] at among
    rw [rows]
    rcases List.mem_append.mp among with before | new
    · exact inv.snapshot p i claimed before executes
    · rw [List.mem_singleton.mp new,calm_execution calm] at executes
      cases executes

theorem inv_step (inv : Inv s) {l : Label} (orderly : Orderly s l) : Inv (step s l) := by
  have exclusive := MirrorExecutions.inv_step inv.exclusive orderly.1
  cases l with
  | deliver job => exact inv_append inv exclusive (show (Proc.claiming job).executes = none from rfl) rfl rfl
  | call c => exact inv_append inv exclusive (call_calm c) rfl rfl
  | execute n answer =>
    unfold step at exclusive ⊢
    dsimp only at exclusive ⊢
    split
    · next job claimed there =>
      rw [there] at exclusive
      refine ⟨exclusive,tended_goes inv there rfl fun i row found running => ?_,inv.counted,fun p i snap among executes => ?_⟩
      · by_cases here : job.task = i
        · exact .inl here
        · exact .inr ⟨here,row,found,running⟩
      · rcases List.mem_or_eq_of_mem_set among with before | rfl
        · exact inv.snapshot p i snap before executes
        · exact inv.snapshot _ i snap (List.mem_of_getElem? there) executes
    · exact inv
  | go n reply =>
    unfold step at exclusive ⊢
    dsimp only at exclusive ⊢
    split
    · next proc there =>
      rw [there] at exclusive
      exact inv_advance inv there (fun applied => orderly.1 applied proc there) (orderly.2 proc there) exclusive
    · exact inv
  | tick ms => exact ⟨exclusive,inv.tended,inv.counted,inv.snapshot⟩
  | restart gone =>
    refine ⟨exclusive,fun i row found running => ⟨.resume,List.mem_append_right _ (List.mem_singleton.mpr rfl),trivial⟩,
      inv.counted,fun p i claimed among executes => ?_⟩
    rcases List.mem_append.mp among with before | new
    · obtain ⟨m,found⟩ := List.mem_iff_getElem?.mp before
      rw [List.getElem?_mapIdx] at found
      obtain ⟨q,known,same⟩ := Option.map_eq_some_iff.mp found
      split_ifs at same
      · subst same
        cases executes
      · subst same
        exact inv.snapshot q i claimed (List.mem_of_getElem? known) executes
    · rw [List.mem_singleton.mp new] at executes
      cases executes

def alone (n k : Nat) (s : State) : State := (List.replicate k (Label.go n .ok)).foldl step s

theorem alone_add (n k m : Nat) (s : State) : alone n (k + m) s = alone n m (alone n k s) := by
  unfold alone
  rw [List.replicate_add,List.foldl_append]

theorem alone_go (n k : Nat) (there : s.procs[n]? = some proc) : alone n (k + 1) s = alone n k (s.advance n .ok proc) := by
  show alone n k (step s (.go n .ok)) = _
  simp only [step,there]

theorem hasJob_add (job : JobId) : HasJob (s.add .ok job) job.task := by
  unfold State.add
  split_ifs with absent
  · exact ⟨job,List.mem_append_right _ (List.mem_singleton.mpr rfl),rfl⟩
  · exact ⟨job,by simpa [Reply.applied] using absent,rfl⟩

theorem hasJob_mono (job : JobId) (has : HasJob s i) : HasJob (s.add .ok job) i := by
  obtain ⟨job',among,same⟩ := has
  refine ⟨job',?_,same⟩
  unfold State.add
  split_ifs
  · exact List.mem_append_left _ among
  · exact among

/-- What a part of the look leads to: `tasks` have jobs, and none has lost its job. -/
structure Queues (s t : State) (n : Nat) (proc : Proc) (tasks : List Nat) : Prop where
  at_n : t.procs[n]? = some proc
  rows : t.rows = s.rows
  now : t.now = s.now
  kept : ∀ i, HasJob s i → HasJob t i
  given : ∀ i ∈ tasks, HasJob t i

theorem at_goes (there : s.procs[n]? = some old) (proc : Proc) : (s.goes n proc).procs[n]? = some proc := Maps.at_set there

theorem queues_next (job : JobId) (next : Proc) {tasks : List Nat}
    (rest : Queues ((s.add .ok job).goes n next) t n proc tasks) : Queues s t n proc (job.task :: tasks) := by
  have rows : ((s.add .ok job).goes n next).rows = s.rows := (add_rows .ok job).1
  have now : ((s.add .ok job).goes n next).now = s.now := by
    unfold State.add
    split_ifs <;> rfl
  refine ⟨rest.at_n,rest.rows.trans rows,rest.now.trans now,fun i has => rest.kept i (hasJob_mono job has),fun i among => ?_⟩
  rcases List.mem_cons.mp among with rfl | later
  · exact rest.kept _ (hasJob_add (s := s) job)
  · exact rest.given i later

theorem add_there (there : s.procs[n]? = some old) (job : JobId) (next : Proc) :
    ((s.add .ok job).goes n next).procs[n]? = some next := by
  have kept : (s.add .ok job).procs[n]? = some old := by
    rw [(add_rows .ok job).2]
    exact there
  exact at_goes kept next

theorem queues_queued (limit : Nat) : ∀ (todo : List Nat) (s : State), s.procs[n]? = some (.addQueued limit todo) →
    Queues s (alone n todo.length s) n (.addQueued limit []) todo := by
  intro todo
  induction todo with
  | nil => intro s there; exact ⟨there,rfl,rfl,fun _ => id,fun i among => by cases among⟩
  | cons i todo ih =>
    intro s there
    rw [List.length_cons,alone_go n _ there]
    exact queues_next ⟨i,none⟩ (.addQueued limit todo) (ih _ (add_there there _ _))

theorem queues_retrying : ∀ (todo : List (Nat × Nat)) (s : State), s.procs[n]? = some (.addRetrying todo) →
    Queues s (alone n todo.length s) n (.addRetrying []) (todo.map Prod.fst) := by
  intro todo
  induction todo with
  | nil => intro s there; exact ⟨there,rfl,rfl,fun _ => id,fun i among => by cases among⟩
  | cons e todo ih =>
    intro s there
    rw [List.length_cons,alone_go n _ there]
    exact queues_next ⟨e.1,some e.2⟩ (.addRetrying todo) (ih _ (add_there there _ _))

theorem reconciled_queues (limit : Nat) (s : State) : ∃ k, (reconciled limit k s).procs[s.procs.length]? = some .ended ∧
    (∀ i ∈ queuedRows s.rows limit, HasJob (reconciled limit k s) i) ∧
    ∀ i ∈ (dueRows s.rows s.now limit).map Prod.fst, HasJob (reconciled limit k s) i := by
  have begins : (step s (.call (.reconcileQueued limit))).procs[s.procs.length]? = some (.reconcile limit) :=
    List.getElem?_concat_length
  set n := s.procs.length
  set s₁ := (step s (.call (.reconcileQueued limit))).goes n (.addQueued limit (queuedRows s.rows limit)) with s₁_def
  have first := queues_queued (n := n) limit (queuedRows s.rows limit) s₁ (at_goes begins _)
  set s₂ := alone n (queuedRows s.rows limit).length s₁
  set s₃ := s₂.goes n (.addRetrying (dueRows s.rows s.now limit))
  have second := queues_retrying (n := n) (dueRows s.rows s.now limit) s₃ (at_goes first.at_n _)
  refine ⟨1 + ((queuedRows s.rows limit).length + (1 + ((dueRows s.rows s.now limit).length + 1))),?_⟩
  have reached : reconciled limit (1 + ((queuedRows s.rows limit).length + (1 + ((dueRows s.rows s.now limit).length + 1)))) s =
      (alone n (dueRows s.rows s.now limit).length s₃).goes n .ended := by
    show alone n _ _ = _
    rw [alone_add,alone_add,alone_add,alone_add]
    have one : alone n 1 (step s (.call (.reconcileQueued limit))) = s₁ := alone_go n 0 begins
    have two : alone n 1 s₂ = s₃ := by
      rw [show alone n 1 s₂ = _ from alone_go n 0 first.at_n]
      show s₂.goes n (.addRetrying (dueRows s₂.rows s₂.now limit)) = s₃
      rw [first.rows,first.now]
      rfl
    rw [one,two]
    exact alone_go n 0 second.at_n
  rw [reached]
  refine ⟨at_goes second.at_n _,fun i among => ?_,fun i among => second.given i among⟩
  exact second.kept i (first.given i among)

theorem taken_or_full {found : List Nat} (distinct : found.Nodup) (among : i ∈ found) (limit : Nat) :
    i ∈ found.take limit ∨ (found.take limit).length = limit ∧ (found.take limit).Nodup ∧ i ∉ found.take limit := by
  by_cases taken : i ∈ found.take limit
  · exact .inl taken
  · have long : limit ≤ found.length := by
      by_contra short
      exact taken (by rw [List.take_of_length_le (Nat.le_of_lt (Nat.lt_of_not_le short))]; exact among)
    exact .inr ⟨List.length_take_of_le long,distinct.sublist (List.take_sublist _ _),taken⟩

theorem served_of_taken {found : List Nat} (distinct : found.Nodup) (among : i ∈ found) (limit : Nat) {k : Nat}
    (ends : (reconciled limit k s).procs[s.procs.length]? = some .ended)
    (given : ∀ j ∈ found.take limit, HasJob (reconciled limit k s) j) : Served limit s i := by
  rcases taken_or_full distinct among limit with taken | ⟨full,others,left⟩
  · exact ⟨k,ends,.inl (given i taken)⟩
  · exact ⟨k,ends,.inr ⟨_,full,others,left,given⟩⟩

theorem served_queued (known : s.rows[i]? = some row) (queued : row.status = .queued) (limit : Nat) :
    Served limit s i := by
  obtain ⟨k,ends,given,_⟩ := reconciled_queues limit s
  refine served_of_taken (List.nodup_range.filter _) (List.mem_filter.mpr ⟨?_,?_⟩) limit ends given
  · exact List.mem_range.mpr (at_lt known)
  · rw [known]
    simpa using queued

theorem served_due {due : Int} (known : s.rows[i]? = some row) (retrying : row.status = .retrying)
    (nextRetryAt : row.nextRetryAt = some due) (passed : due ≤ s.now) (limit : Nat) : Served limit s i := by
  obtain ⟨k,ends,_,given⟩ := reconciled_queues limit s
  set dueAt := fun i : Nat => (s.rows[i]?.bind Row.nextRetryAt).getD 0 with dueAt_def
  set found := (List.range s.rows.length).filter fun i : Nat => s.rows[i]?.any fun row =>
    row.status = .retrying && row.nextRetryAt.any (· ≤ s.now) with found_def
  have order : (dueRows s.rows s.now limit).map Prod.fst = (found.insertionSort fun i j => dueAt i ≤ dueAt j).take limit := by
    unfold dueRows
    rw [List.map_map]
    exact List.map_id _
  rw [order] at given
  have sorted := List.perm_insertionSort (fun i j => dueAt i ≤ dueAt j) found
  refine served_of_taken (sorted.nodup_iff.mpr (List.nodup_range.filter _)) (sorted.mem_iff.mpr ?_) limit ends given
  refine List.mem_filter.mpr ⟨List.mem_range.mpr (at_lt known),?_⟩
  rw [known]
  simp [retrying,nextRetryAt,passed]

theorem attended_of_inv (inv : Inv s) : Attended s := by
  refine ⟨inv.tended,fun i row known waits => ?_,fun i row known => ?_⟩
  · by_cases queued : row.status = .queued
    · exact ⟨s.now,fun ms _ limit => served_queued (s := step s (.tick ms)) known queued limit⟩
    have retrying : row.status = .retrying := by
      cases same : row.status with
      | retrying => rfl
      | queued => exact absurd same queued
      | _ => rw [same] at waits; cases waits
    obtain ⟨due,nextRetryAt⟩ := (inv.counted i row known).due retrying
    exact ⟨due,fun ms passed limit => served_due (s := step s (.tick ms)) known retrying nextRetryAt passed limit⟩
  · rw [(inv.counted i row known).total]
    exact Nat.add_le_add_right (inv.counted i row known).most _

end

/-- Rows are looked after as long as no update gets lost that nobody makes again. -/
theorem tasks_attended {s : State} (reach : ReachedOrderly s) : Attended s := by
  have base : Inv .start := by
    refine ⟨⟨fun _ _ _ found => ?_,fun _ _ _ _ _ found => ?_,fun _ _ found => ?_,fun _ member => ?_⟩,
      fun _ _ found => ?_,fun _ _ found => ?_,fun _ _ _ member => ?_⟩
    all_goals first | simp [State.start] at found | simp [State.start] at member
  have inv : Inv s := reachable_invariant base (fun _ _ inv ok => inv_step inv ok) reach
  exact attended_of_inv inv

/-- A task that is handed back, interrupted by a restart, and fails for the fifth time. -/
theorem tasks_attended_course :
    let attempt := fun n attempts => [Label.deliver ⟨0,some attempts⟩,.go n .ok,.execute n (.threw none),.go n .ok,.go n .ok]
    let labels : List Label := [.call (.enqueue ⟨"r",.file,"f",1⟩),.go 0 .ok,.go 0 .ok,.go 0 .ok,.deliver ⟨0,none⟩,.go 1 .ok,
        .execute 1 (.found ⟨some true,false,none,.failed ⟨.retryable,none⟩⟩),.go 1 .ok,.deliver ⟨0,none⟩,.go 2 .ok,
        .restart [2],.go 3 .ok,.go 3 .ok,.go 3 .ok,.go 3 .ok] ++ attempt 4 1 ++ attempt 5 2 ++ attempt 6 3 ++ attempt 7 4
    Attended (labels.foldl step .start) ∧
      (labels.foldl step .start).rows.map (fun row => (row.status,row.executions,row.handedBack)) = [(.failed,6,1)] := by
  intro attempt labels
  exact ⟨tasks_attended (reachable_run .start labels (by decide +kernel)),by decide +kernel⟩

def lostUpdate : List Label :=
  [.call (.enqueue ⟨"r",.file,"f",1⟩),.go 0 .ok,.go 0 .ok,.go 0 .ok,.deliver ⟨0,none⟩,.go 1 .ok,.execute 1 (.threw none),
    .go 1 (.threw false none)]

def countedAnew : List Label :=
  let attempt := fun n retry => [Label.deliver ⟨0,retry⟩,.go n .ok,.execute n (.threw none),.go n .ok,.go n .ok]
  [Label.call (.enqueue ⟨"r",.file,"f",1⟩),.go 0 .ok,.go 0 .ok,.go 0 .ok] ++ attempt 1 none ++
    [Label.deliver ⟨0,some 1⟩,.go 2 .ok,.execute 2 (.found ⟨some true,false,none,.failed ⟨.retryable,none⟩⟩),.go 2 .ok] ++
    attempt 3 none ++ attempt 4 (some 1) ++ attempt 5 (some 2) ++ attempt 6 (some 3) ++ attempt 7 (some 4)

theorem task_left_running :
    (∃ s, Reached s ∧ s.procs = [.ended,.ended] ∧ s.rows.map Row.status = [.running]) ∧
    (∃ s, Reached s ∧ s.rows.map (fun row => (row.executions,row.handedBack)) = [(7,1)]) :=
  ⟨⟨_,reachable_run .start lostUpdate (by decide +kernel),by decide +kernel,by decide +kernel⟩,
    ⟨_,reachable_run .start countedAnew (by decide +kernel),by decide +kernel⟩⟩

end Tgtc.MirrorRecovery
