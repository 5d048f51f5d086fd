import Tgtc.Maps
import Tgtc.MirrorTasks

/-!
One execution of a mirror task at a time. The claim lets one call through, and the row stays out of reach of the
others while that call executes it, as long as nobody else writes its status.
-/
namespace Tgtc.MirrorExecutions
open Runs MirrorTasks Maps

def Idle (s : State) (i : Nat) : Prop := ∀ p ∈ s.procs, p.executes ≠ some i

instance (s : State) (i : Nat) : Decidable (Idle s i) := by unfold Idle; infer_instance

def Lands (s : State) (reply : Reply) : Proc → Prop
  | .writeRetry i _ | .writeCancel i | .writeRequeue i => Idle s i
  | .writeResume ((i,_) :: _) => Idle s i ∧ ∀ row ∈ s.rows[i]?, row.status ≠ .cancelled
  -- an update that puts the row back and throws afterwards is followed by another one
  | .writing job claimed w =>
    reply ≠ .ok → ∀ row ∈ s.rows[job.task]?, (w.apply claimed s.now row).status.waiting = false
  | _ => True

instance (s : State) (reply : Reply) (proc : Proc) : Decidable (Lands s reply proc) := by
  unfold Lands
  split <;> infer_instance

def Orderly (s : State) : Label → Prop
  | .go n reply => reply.applied = true → ∀ p ∈ s.procs[n]?, Lands s reply p
  | _ => True

instance (s : State) (l : Label) : Decidable (Orderly s l) := by
  cases l <;> unfold Orderly <;> infer_instance

abbrev Reached : State → Prop := Reachable step (fun _ _ => True) .start

abbrev ReachedOrderly : State → Prop := Reachable step Orderly .start

structure Inv (s : State) : Prop where
  busy : ∀ (n i : Nat) (p : Proc), s.procs[n]? = some p → p.executes = some i →
    ∃ row, s.rows[i]? = some row ∧ row.status.waiting = false ∧ row.withdrawn = false
  single : ∀ (i m n : Nat) (p q : Proc), s.procs[m]? = some p → s.procs[n]? = some q →
    p.executes = some i → q.executes = some i → m = n
  withdrawn : ∀ (i : Nat) (row : Row), s.rows[i]? = some row → row.withdrawn = true → row.status = .cancelled
  honored : ∀ c ∈ s.claims, c.2 = false

section
variable {s t : State} {n i : Nat}

def Fewer (s t : State) : Prop :=
  ∀ (n i : Nat) (p : Proc), t.procs[n]? = some p → p.executes = some i → ∃ q, s.procs[n]? = some q ∧ q.executes = some i

theorem fewer_of_procs (procs : t.procs = s.procs) : Fewer s t := by
  intro n i p found executes
  rw [procs] at found
  exact ⟨p,found,executes⟩

variable {proc : Proc} {reply : Reply} {job : JobId} {w : Write}

theorem fewer_goes (procs : t.procs = s.procs.set n proc)
    (same : ∀ i, proc.executes = some i → ∃ q, s.procs[n]? = some q ∧ q.executes = some i) : Fewer s t := by
  intro m i p found executes
  rw [procs] at found
  rcases Maps.at_of_set found with ⟨rfl,rfl⟩ | ⟨_,old⟩
  · exact same i executes
  · exact ⟨p,old,executes⟩

theorem fewer_calm (procs : t.procs = s.procs.set n proc) (calm : proc.executes = none) : Fewer s t := by
  refine fewer_goes procs fun i executes => ?_
  rw [calm] at executes
  cases executes

theorem inv_same (inv : Inv s) (fewer : Fewer s t) (rows : t.rows = s.rows) (claims : t.claims = s.claims) : Inv t := by
  constructor
  · intro n i p found executes
    obtain ⟨q,known,before⟩ := fewer n i p found executes
    rw [rows]
    exact inv.busy n i q known before
  · intro i m n p q first second executes executes'
    obtain ⟨p',known,before⟩ := fewer m i p first executes
    obtain ⟨q',known',before'⟩ := fewer n i q second executes'
    exact inv.single i m n p' q' known known' before before'
  · rw [rows]
    exact inv.withdrawn
  · rw [claims]
    exact inv.honored

theorem inv_calm (inv : Inv s) (calm : proc.executes = none) : Inv (s.goes n proc) :=
  inv_same inv (fewer_calm rfl calm) rfl rfl

theorem inv_finish (inv : Inv s) (job : JobId) : Inv (s.finish n job) :=
  inv_same inv (fewer_calm rfl rfl) rfl rfl

theorem inv_read (inv : Inv s) {next : Proc} (calm : next.executes = none) : Inv (s.read n reply next) := by
  apply inv_calm inv
  split_ifs
  · exact calm
  · rfl

theorem inv_add (inv : Inv s) (reply : Reply) (job : JobId) : Inv (s.add reply job) := by
  unfold State.add
  split_ifs
  · exact inv_same inv (fewer_of_procs rfl) rfl rfl
  · exact inv

theorem inv_update (inv : Inv s) {change : Row → Row} (idle : reply.applied = true → Idle s i)
    (settled : reply.applied = true → ∀ row, s.rows[i]? = some row → (change row).withdrawn = true →
      (change row).status = .cancelled) : Inv (s.update i reply change) := by
  unfold State.update
  split_ifs with applied
  · constructor
    · intro n j p found executes
      have other : i ≠ j := by
        rintro rfl
        exact idle applied p (List.mem_of_getElem? found) executes
      obtain ⟨row,known,busy⟩ := inv.busy n j p found executes
      exact ⟨row,(List.getElem?_modify_ne change s.rows other).trans known,busy⟩
    · exact inv.single
    · intro j row found withdrawn
      rcases Maps.at_of_modify found with ⟨rfl,old,known,rfl⟩ | ⟨_,known⟩
      · exact settled applied old known withdrawn
      · exact inv.withdrawn j row known withdrawn
    · exact inv.honored
  · exact inv

theorem begun_executes (job : JobId) (claimed : Row) : (begun job claimed).executes = some job.task := by
  unfold begun
  split
  · rfl
  · split_ifs <;> rfl

theorem idle_of_waiting (inv : Inv s) {row : Row} (known : s.rows[i]? = some row) (waits : row.status.waiting = true) :
    Idle s i := by
  intro p among executes
  obtain ⟨n,found⟩ := List.mem_iff_getElem?.mp among
  obtain ⟨row',known',calm,_⟩ := inv.busy n i p found executes
  cases known.symm.trans known'
  rw [waits] at calm
  cases calm

theorem inv_claimed (inv : Inv s) {row : Row} (known : s.rows[job.task]? = some row)
    (waits : row.status.waiting = true) (proc : Proc)
    (executes : ∀ i, proc.executes = some i → i = job.task) (procs : t.procs = s.procs.set n proc)
    (rows : t.rows = s.rows.modify job.task Row.claim) (claims : t.claims = s.claims ++ [(job.task,row.withdrawn)]) :
    Inv t := by
  have idle := idle_of_waiting inv known waits
  have kept : row.withdrawn = false := by
    by_contra taken
    have cancelled := inv.withdrawn _ row known (by simpa using taken)
    rw [cancelled] at waits
    cases waits
  have here : t.rows[job.task]? = some row.claim := by
    rw [rows]
    exact Maps.at_modify known Row.claim
  have there : ∀ j, j ≠ job.task → t.rows[j]? = s.rows[j]? := by
    intro j other
    rw [rows]
    exact List.getElem?_modify_ne Row.claim s.rows (Ne.symm other)
  -- whoever executes something has done so before, or is the one that has claimed the row
  have among : ∀ m i p, t.procs[m]? = some p → p.executes = some i →
      i = job.task ∧ m = n ∨ i ≠ job.task ∧ s.procs[m]? = some p := by
    intro m i p found begins
    rw [procs] at found
    rcases Maps.at_of_set found with ⟨rfl,rfl⟩ | ⟨_,old⟩
    · exact .inl ⟨executes i begins,rfl⟩
    · refine .inr ⟨?_,old⟩
      rintro rfl
      exact idle p (List.mem_of_getElem? old) begins
  constructor
  · intro m i p found begins
    rcases among m i p found begins with ⟨rfl,_⟩ | ⟨other,old⟩
    · exact ⟨row.claim,here,rfl,kept⟩
    · rw [there i other]
      exact inv.busy m i p old begins
  · intro i m m' p q first second begins begins'
    rcases among m i p first begins with ⟨rfl,rfl⟩ | ⟨other,old⟩
    · rcases among m' _ q second begins' with ⟨_,rfl⟩ | ⟨other,_⟩
      · rfl
      · exact absurd rfl other
    · rcases among m' i q second begins' with ⟨same,_⟩ | ⟨_,old'⟩
      · exact absurd same other
      · exact inv.single i m m' p q old old' begins begins'
  · intro j row' found withdrawn
    by_cases same : j = job.task
    · subst same
      rw [here] at found
      cases found
      exact absurd (kept.symm.trans withdrawn) Bool.false_ne_true
    · rw [there j same] at found
      exact inv.withdrawn j row' found withdrawn
  · rw [claims]
    intro c member
    rcases List.mem_append.mp member with old | new
    · exact inv.honored c old
    · rw [List.mem_singleton.mp new]
      exact kept

theorem inv_claim (inv : Inv s) (job : JobId) (reply : Reply) : Inv (s.claim n job reply) := by
  unfold State.claim
  split
  · next row found =>
    obtain ⟨known,waits⟩ := Option.filter_eq_some_iff.mp found
    split_ifs with applied ok
    · exact inv_claimed inv known waits _ (fun i begins => by rw [begun_executes] at begins; cases begins; rfl) rfl rfl rfl
    · exact inv_claimed inv known waits .ended (nofun) rfl rfl rfl
    · exact inv_finish inv job
  · exact inv_finish inv job

theorem apply_withdrawn (w : Write) (claimed : Row) (now : Int) (row : Row) :
    (w.apply claimed now row).withdrawn = row.withdrawn := by
  cases w with
  | markRetrying delayMs | unsettled delayMs | rescue delayMs =>
    show (row.markRetrying _ _ _).withdrawn = _
    unfold Row.markRetrying
    split_ifs <;> rfl
  | _ => rfl

theorem next_executes {claimed : Row}
    (goes : w.next job claimed reply = some proc) :
    proc.executes = none ∨ proc.executes = some job.task ∧ (reply ≠ .ok ∨ ∃ result, w = .saveReceipt result) := by
  cases w with
  | saveReceipt result =>
    cases goes
    exact .inr ⟨rfl,.inr ⟨result,rfl⟩⟩
  | markSucceeded result copied =>
    cases reply with
    | ok => cases goes
    | threw applied retryAfterMs =>
      cases copied with
      | true | false => cases goes; exact .inr ⟨rfl,.inl (by simp)⟩
  | markRetrying delayMs =>
    cases reply with
    | ok =>
      simp only [Write.next] at goes
      split_ifs at goes
      cases goes
      exact .inl rfl
    | threw applied retryAfterMs => cases goes; exact .inr ⟨rfl,.inl (by simp)⟩
  | rescue delayMs =>
    cases reply with
    | ok =>
      simp only [Write.next] at goes
      split_ifs at goes
      cases goes
      exact .inl rfl
    | threw applied retryAfterMs => cases goes
  | unsettled delayMs =>
    cases reply with
    | ok => cases goes; exact .inl rfl
    | threw applied retryAfterMs => cases goes; exact .inr ⟨rfl,.inl (by simp)⟩
  | markBlocked | markCancelled | markFailed | returnToQueue =>
    cases reply with
    | ok => cases goes
    | threw applied retryAfterMs => cases goes; exact .inr ⟨rfl,.inl (by simp)⟩

theorem inv_settles (inv : Inv s) {claimed : Row}
    (there : s.procs[n]? = some (.writing job claimed w)) (lands : reply.applied = true → Lands s reply (.writing job claimed w))
    (proc : Proc) (goes : proc.executes = none ∨ proc.executes = some job.task ∧ (reply ≠ .ok ∨ ∃ result, w = .saveReceipt result))
    (procs : t.procs = s.procs.set n proc) (rows : t.rows = (s.update job.task reply (w.apply claimed s.now)).rows)
    (claims : t.claims = s.claims) : Inv t := by
  obtain ⟨row,known,calm,kept⟩ := inv.busy n job.task _ there rfl
  by_cases applied : reply.applied = true
  · have changed : t.rows = s.rows.modify job.task (w.apply claimed s.now) := by
      rw [rows,State.update,if_pos applied]
    have fewer : Fewer s t := by
      refine fewer_goes procs fun i executes => ?_
      rcases goes with calm | ⟨same,_⟩
      · rw [calm] at executes
        cases executes
      · rw [same] at executes
        cases executes
        exact ⟨_,there,rfl⟩
    have alone : ∀ m p, s.procs[m]? = some p → p.executes = some job.task → m = n :=
      fun m p found executes => inv.single job.task m n p _ found there executes rfl
    constructor
    · intro m i p found executes
      obtain ⟨q,before,same⟩ := fewer m i p found executes
      by_cases here : i = job.task
      · subst here
        refine ⟨_,by rw [changed]; exact Maps.at_modify known _,?_,by rw [apply_withdrawn]; exact kept⟩
        -- it is the call itself, which goes on
        have itself := alone m q before same
        subst itself
        rw [procs,Maps.at_set there] at found
        cases found
        rcases goes with ends | ⟨_,threw | ⟨result,rfl⟩⟩
        · rw [ends] at executes
          cases executes
        · exact lands applied threw row known
        · exact calm
      · obtain ⟨row',known',busy⟩ := inv.busy m i q before same
        exact ⟨row',by rw [changed,List.getElem?_modify_ne _ _ (Ne.symm here)]; exact known',busy⟩
    · intro i m m' p q first second executes executes'
      obtain ⟨p',before,same⟩ := fewer m i p first executes
      obtain ⟨q',before',same'⟩ := fewer m' i q second executes'
      exact inv.single i m m' p' q' before before' same same'
    · intro i row' found withdrawn
      rw [changed] at found
      rcases Maps.at_of_modify found with ⟨rfl,old,known',rfl⟩ | ⟨_,known'⟩
      · cases known.symm.trans known'
        rw [apply_withdrawn,kept] at withdrawn
        cases withdrawn
      · exact inv.withdrawn i row' known' withdrawn
    · rw [claims]
      exact inv.honored
  · refine inv_same inv (fewer_goes procs fun i executes => ?_) (by rw [rows,State.update,if_neg applied]) claims
    rcases goes with calm | ⟨same,_⟩
    · rw [calm] at executes
      cases executes
    · rw [same] at executes
      cases executes
      exact ⟨_,there,rfl⟩

theorem update_procs (reply : Reply) (change : Row → Row) :
    (s.update i reply change).procs = s.procs ∧ (s.update i reply change).claims = s.claims := by
  unfold State.update
  split_ifs <;> exact ⟨rfl,rfl⟩

theorem inv_write (inv : Inv s) {claimed : Row}
    (there : s.procs[n]? = some (.writing job claimed w))
    (lands : reply.applied = true → Lands s reply (.writing job claimed w)) : Inv (s.write n job claimed w reply) := by
  obtain ⟨procs,claims⟩ := update_procs (s := s) (i := job.task) reply (w.apply claimed s.now)
  unfold State.write
  split
  · next proc goes =>
    exact inv_settles inv there lands proc (next_executes goes) (by rw [State.goes,procs]) rfl claims
  · exact inv_settles inv there lands .ended (.inl rfl) (by rw [State.finish,State.goes,procs]) rfl claims

theorem found_calm (rows : List Row) (key : Key) : (foundTask rows key).executes = none := by
  unfold foundTask
  split
  · rfl
  · split
    · split <;> rfl
    · rfl

theorem retryOf_calm (i : Nat) (row : Option Row) : (retryOf i row).executes = none := by
  unfold retryOf
  split
  · split_ifs <;> rfl
  · rfl

theorem cancelOf_calm (i : Nat) (row : Option Row) : (cancelOf i row).executes = none := by
  unfold cancelOf
  split
  · split_ifs <;> rfl
  · rfl

theorem requeueOf_calm (i : Nat) (row : Option Row) : (requeueOf i row).executes = none := by
  unfold requeueOf
  split
  · split_ifs <;> rfl
  · rfl

theorem inv_insert (inv : Inv s) (key : Key) : Inv { s with rows := s.rows ++ [key.row] } := by
  constructor
  · intro m i p found executes
    obtain ⟨row,known,busy⟩ := inv.busy m i p found executes
    exact ⟨row,(List.getElem?_append_left (at_lt known)).trans known,busy⟩
  · exact inv.single
  · intro i row found withdrawn
    rcases Maps.at_of_append found with known | ⟨_,rfl⟩
    · exact inv.withdrawn i row known withdrawn
    · cases withdrawn
  · exact inv.honored

theorem inv_advance (inv : Inv s) (there : s.procs[n]? = some proc)
    (lands : reply.applied = true → Lands s reply proc) : Inv (s.advance n reply proc) := by
  cases proc with
  | claiming job => exact inv_claim inv job reply
  | executing job claimed => exact inv
  | writing job claimed w => exact inv_write inv there lands
  | scheduling job claimed => exact inv_finish (inv_add inv reply _) job
  | enqueue key => exact inv_read inv (found_calm s.rows key)
  | insert key =>
    unfold State.advance
    dsimp only
    split_ifs
    · exact inv_read (inv_insert inv key) rfl
    · exact inv_calm inv rfl
  | add job => exact inv_calm (inv_add inv reply job) rfl
  | retry i => exact inv_read inv (retryOf_calm i _)
  | writeRetry i receiptPending =>
    exact inv_read (inv_update inv lands fun _ row _ withdrawn => by cases withdrawn) rfl
  | refresh i => exact inv_read inv rfl
  | cancel i => exact inv_read inv (cancelOf_calm i _)
  | writeCancel i => exact inv_calm (inv_update inv lands fun _ row _ _ => rfl) rfl
  | requeue i => exact inv_read inv (requeueOf_calm i _)
  | writeRequeue i => exact inv_read (inv_update inv lands fun _ row _ withdrawn => by cases withdrawn) rfl
  | reconcile limit => exact inv_read inv rfl
  | addQueued limit todo =>
    cases todo with
    | nil => exact inv_read inv rfl
    | cons i todo => exact inv_calm (inv_add inv reply _) rfl
  | addRetrying todo =>
    cases todo with
    | nil => exact inv_calm inv rfl
    | cons e todo => exact inv_calm (inv_add inv reply _) rfl
  | resume => exact inv_read inv rfl
  | writeResume todo =>
    cases todo with
    | nil => exact inv_calm inv rfl
    | cons e todo =>
      refine inv_read (inv_update inv (fun applied => (lands applied).1) fun applied row known withdrawn => ?_) rfl
      exact absurd (inv.withdrawn e.1 row known withdrawn) ((lands applied).2 row known)
  | addResumed i attempts todo => exact inv_calm (inv_add inv reply _) rfl
  | ended => exact inv

theorem fewer_append (calm : proc.executes = none) (procs : t.procs = s.procs ++ [proc]) : Fewer s t := by
  intro m i p found executes
  rw [procs] at found
  rcases Maps.at_of_append found with old | ⟨_,rfl⟩
  · exact ⟨p,old,executes⟩
  · rw [calm] at executes
    cases executes

theorem call_calm (c : Call) : c.proc.executes = none := by
  cases c <;> rfl

theorem inv_step (inv : Inv s) {l : Label} (orderly : Orderly s l) : Inv (step s l) := by
  cases l with
  | deliver job => exact inv_same inv (fewer_append (show (Proc.claiming job).executes = none from rfl) rfl) rfl rfl
  | call c => exact inv_same inv (fewer_append (call_calm c) rfl) rfl rfl
  | execute n answer =>
    unfold step
    dsimp only
    split
    · next job claimed there =>
      refine inv_same inv (fewer_goes rfl fun i executes => ?_) rfl rfl
      exact ⟨_,there,executes⟩
    · exact inv
  | go n reply =>
    unfold step
    dsimp only
    split
    · next proc there => exact inv_advance inv there fun applied => orderly applied proc there
    · exact inv
  | tick ms => exact inv_same inv (fewer_of_procs rfl) rfl rfl
  | restart gone =>
    refine inv_same inv (fun m i p found executes => ?_) rfl rfl
    rcases Maps.at_of_append found with old | ⟨_,rfl⟩
    · rw [List.getElem?_mapIdx] at old
      obtain ⟨q,before,same⟩ := Option.map_eq_some_iff.mp old
      split_ifs at same
      · subst same
        cases executes
      · subst same
        exact ⟨q,before,executes⟩
    · cases executes

end

/-- The updates of other calls come when the row is not executed. -/
theorem executions_exclusive {s : State} (reach : ReachedOrderly s) : Exclusive s := by
  have base : Inv .start :=
    ⟨fun _ _ _ found => by simp [State.start] at found,fun _ _ _ _ _ found => by simp [State.start] at found,
      fun _ _ found => by simp [State.start] at found,fun _ member => by simp [State.start] at member⟩
  have inv : Inv s := reachable_invariant base (fun _ _ inv ok => inv_step inv ok) reach
  exact ⟨inv.single,inv.honored⟩

/-- A task that fails once, is delivered twice and recovered, and is cancelled after its second failure. -/
theorem executions_exclusive_course :
    let labels : List Label := [.call (.enqueue ⟨"r",.file,"f",1⟩),.go 0 .ok,.go 0 .ok,.go 0 .ok,.deliver ⟨0,none⟩,
      .deliver ⟨0,none⟩,.go 2 .ok,.go 1 .ok,.execute 2 (.threw none),.restart [2],.go 3 .ok,.go 3 .ok,.go 3 .ok,
      .deliver ⟨0,some 1⟩,.go 4 .ok,.execute 4 (.threw none),.go 4 .ok,.go 4 .ok,.call (.cancel 0),.go 5 .ok,.go 5 .ok,
      .deliver ⟨0,some 2⟩,.go 6 .ok]
    Exclusive (labels.foldl step .start) ∧ (labels.foldl step .start).claims = [(0,false),(0,false)] := by
  intro labels
  exact ⟨executions_exclusive (reachable_run .start labels (by decide +kernel)),by decide +kernel⟩

def retriedWhileExecuted : List Label :=
  [.call (.enqueue ⟨"r",.file,"f",1⟩),.go 0 .ok,.go 0 .ok,.go 0 .ok,.call (.retry 0),.go 1 .ok,.deliver ⟨0,none⟩,.go 2 .ok,
    .go 1 .ok,.go 1 .ok,.go 1 .ok,.deliver ⟨0,none⟩,.go 3 .ok]

def cancelledWhileExecuted : List Label :=
  [.call (.enqueue ⟨"r",.file,"f",1⟩),.go 0 .ok,.go 0 .ok,.go 0 .ok,.call (.cancel 0),.go 1 .ok,.deliver ⟨0,none⟩,.go 2 .ok,
    .go 1 .ok,.execute 2 (.threw none),.go 2 .ok,.go 2 .ok,.deliver ⟨0,some 1⟩,.go 3 .ok]

theorem executed_twice_at_once :
    (∃ s, Reached s ∧ ∃ p q, s.procs[2]? = some p ∧ s.procs[3]? = some q ∧ p.executes = some 0 ∧ q.executes = some 0) ∧
    (∃ s, Reached s ∧ s.procs[1]? = some .ended ∧ (0,true) ∈ s.claims) := by
  refine ⟨⟨_,reachable_run .start retriedWhileExecuted (by decide +kernel),_,_,rfl,rfl,by decide +kernel,by decide +kernel⟩,
    ⟨_,reachable_run .start cancelledWhileExecuted (by decide +kernel),by decide +kernel,by decide +kernel⟩⟩

end Tgtc.MirrorExecutions
