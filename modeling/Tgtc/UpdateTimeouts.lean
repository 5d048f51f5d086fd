import Mathlib
import Tgtc.UpdateTasks

/-!
How a task ends whose executor says no more. The poller takes a task back that has given no sign for long, but it
gives such signs itself: when it moves the task, and as long as the heartbeat file is not old, or is not there.
-/
namespace Tgtc.UpdateTimeouts
open Maps Runs UpdateTasks
open List (isChain_cons_cons mem_of_getElem? range)

def POLL_INTERVAL_MS : Nat := 5000

structure Watched where
  system : State
  polled : Nat
  failures : Nat

def watch (cfg : Config) (w : Watched) (l : Label) : Watched where
  system := step cfg w.system l
  polled := if l = .call .sync then w.system.now else w.polled
  failures := match l with
    | .fail _ => w.failures + 1
    | _ => w.failures

/-- The calls of `dispatch`. -/
def ofDispatch : Stage → Bool
  | .preparing _ _ | .updating _ _ _ _ _ .spawn | .reloading _ _ _ .spawn | .spawning => true
  | _ => false

/-- The service polls in time, the executor writes nothing, and one call of a dispatch fails at most. -/
def Silent (w : Watched) : Label → Prop
  | .tick ms => Idle w.system ∧ w.system.now + ms ≤ w.polled + POLL_INTERVAL_MS
  | .call kind => kind = .sync ∧ Idle w.system
  | .go _ => True
  | .fail i => w.failures = 0 ∧ (w.system.jobs[i]?.any fun job => ofDispatch job.stage) = true
  | _ => False

instance (w : Watched) (l : Label) : Decidable (Silent w l) := by
  induction l using Label.casesOn <;> unfold Silent <;> infer_instance

/-- A poll that comes later than that leaves no task active. -/
def Freed (cfg : Config) (since : Nat) (w : Watched) : Prop := Idle w.system →
  since + cfg.taskTimeoutMs + HEARTBEAT_FILE_STALE_MS < w.polled → ∀ row ∈ w.system.tasks, row.isActive = false

def dispatchable (s : State) (id : Nat) (row : UpdateTask) : Bool := row.anchored && decide (id ∉ s.dispatchedTaskIds) && !s.activeChild

def regular (s : State) : Stage → Bool
  | .finding => (findActiveTask s.tasks).all fun e => decide (e.2.status ≠ .queued) || dispatchable s e.1 e.2
  | .checking id => (s.heartbeats.get id).isSome
  | _ => true

def Regular (w : Watched) : Label → Prop
  | .go i => ∀ job ∈ w.system.jobs[i]?, regular w.system job.stage = true
  | _ => True

instance (w : Watched) (l : Label) : Decidable (Regular w l) := by
  induction l using Label.casesOn <;> unfold Regular <;> infer_instance

def Fresh (since : Nat) (row : UpdateTask) : Prop := ∃ time, row.heartbeatAt.or row.startedAt = some time ∧ time ≤ since + HEARTBEAT_FILE_STALE_MS

def Soon (since time polls : Nat) : Prop := time + POLL_INTERVAL_MS * polls ≤ since + POLL_INTERVAL_MS * 3

def Settled (s : State) (id : Nat) (row : UpdateTask) : Prop := ∀ observed, s.reports.get id = some (some observed) →
  row.status = observed ∨ if sendsBack observed then isTerminalStatus observed = false ∧ rollbackSteps row.status observed = []
    else forwardSteps row.status observed = []

structure Waits (since failures : Nat) (s : State) (time id : Nat) (row : UpdateTask) : Prop where
  fresh : Fresh since row
  queued : row.status = .queued → Soon since time (2 - failures)
  going : row.status ≠ .queued → Settled s id row ∨ Soon since time 0

structure Here (s : State) (id : Nat) (row : UpdateTask) : Prop where
  there : s.tasks[id]? = some row
  active : row.isActive = true
  only : ∀ (i : Nat) (x : UpdateTask), s.tasks[i]? = some x → x.isActive = true → i = id

/-- The walk of a task over some statuses comes to its end, or to where the executor says that it is. -/
structure Walks (since : Nat) (s : State) (id : Nat) (now : Status) (steps : List Status) : Prop where
  started : now ≠ .queued
  chain : (now :: steps).IsChain fun x y => canTransition x y = true
  goal : ∃ last, steps.getLast? = some last ∧
    (isTerminalStatus last = true ∨ s.reports.get id = some (some last) ∧ Soon since s.now 0)

def Resting (cfg : Config) (since failures : Nat) (s : State) (polled : Nat) : Prop := ∀ (id : Nat) (row : UpdateTask),
  s.tasks[id]? = some row → row.isActive = true →
    Waits since failures s (polled + POLL_INTERVAL_MS) id row ∧ polled ≤ since + cfg.taskTimeoutMs + HEARTBEAT_FILE_STALE_MS

def Course (cfg : Config) (since failures : Nat) (s : State) : Stage → Prop
  | .finding => ∀ (id : Nat) (row : UpdateTask), s.tasks[id]? = some row → row.isActive = true → Waits since failures s s.now id row
  | .inserting => False
  | .preparing id task => Here s id task ∧ task.status = .queued ∧ task.anchored = true ∧ Fresh since task ∧ Soon since s.now (2 - failures)
  | .updating id task target rest patch after => Here s id task ∧ patch = UpdateTasks.beat ∧
      (task.status = .queued ∧ target = .downloading ∧ rest = [] ∧ Fresh since task ∧ Soon since s.now (2 - failures) ∨
        after ≠ .spawn ∧ Walks since s id task.status (target :: rest))
  | .reloading id (target :: rest) patch after => patch = UpdateTasks.beat ∧ after ≠ .spawn ∧
      ∃ row, Here s id row ∧ Walks since s id row.status (target :: rest)
  | .reading id task => Here s id task ∧ task.status ≠ .queued ∧ Fresh since task ∧ (Settled s id task ∨ Soon since s.now 0) ∧
      s.now ≤ since + cfg.taskTimeoutMs + HEARTBEAT_FILE_STALE_MS
  | .touching _ => Resting cfg since failures s s.now ∧ s.now ≤ since + HEARTBEAT_FILE_STALE_MS
  | .reloading _ [] _ _ | .checking _ | .spawning | .recording _ _ | .ended => Resting cfg since failures s s.now

section
variable {cfg : Config} {s s' : State} {w : Watched} {since failures time id i : Nat} {row task : UpdateTask} {stage : Stage} {now target observed : Status}
  {steps : List Status} {l : Label}

theorem forwardSteps_walk (now target : Status) : forwardSteps now target = [] ∨
    (now :: forwardSteps now target).IsChain (fun x y => canTransition x y = true) ∧ (forwardSteps now target).getLast? = some target := by
  cases now <;> cases target <;> decide

theorem rollbackSteps_walk (now target : Status) (live : isTerminalStatus now = false) (started : now ≠ .queued) (back : sendsBack target = true) :
    rollbackSteps now target = [] ∧ isTerminalStatus target = false ∨
      (now :: rollbackSteps now target).IsChain (fun x y => canTransition x y = true) ∧ (rollbackSteps now target).getLast? = some target := by
  cases target <;> first
    | exact absurd back (by decide)
    | (cases now <;> first | exact absurd live (by decide) | exact absurd rfl started | decide)

theorem canTransition_started (can : canTransition now target = true) : target ≠ .queued := by
  rintro rfl
  cases now <;> simp [canTransition,FORWARD_TRANSITIONS] at can

theorem soon_le (soon : Soon since time i) : time ≤ since + HEARTBEAT_FILE_STALE_MS := by
  simp only [Soon,POLL_INTERVAL_MS,HEARTBEAT_FILE_STALE_MS] at soon ⊢
  omega

theorem soon_earlier {later : Nat} (le : time ≤ later) (soon : Soon since later i) : Soon since time i :=
  Nat.le_trans (Nat.add_le_add_right le _) soon

theorem soon_next (soon : Soon since time (i + 1)) : Soon since (time + POLL_INTERVAL_MS) i := by
  simp only [Soon,POLL_INTERVAL_MS] at soon ⊢
  omega

theorem waits_earlier {later : Nat} (le : time ≤ later) (waits : Waits since failures s later id row) : Waits since failures s time id row :=
  ⟨waits.fresh,fun queued => soon_earlier le (waits.queued queued),fun going => (waits.going going).imp_right (soon_earlier le)⟩

theorem fresh_signal (fresh : Fresh since row) (time : Nat) : row.lastSignalMs time ≤ since + HEARTBEAT_FILE_STALE_MS := by
  obtain ⟨sign,found,le⟩ := fresh
  rw [UpdateTask.lastSignalMs,found]
  exact le

theorem here_of_found (sound : Sound s) (found : findActiveTask s.tasks = some (id,row)) : Here s id row := by
  have there := found_there found
  have active : row.isActive = true := by
    obtain ⟨e,seen,same⟩ := Option.map_eq_some_iff.mp found
    cases same
    exact List.find?_some (p := fun e : UpdateTask × Nat => e.1.isActive) seen
  exact ⟨there,active,fun i x found alive => sound.alone i id x row found there alive active⟩

theorem live_of_here (sound : Sound s) (here : Here s id row) : isTerminalStatus row.status = false := by
  have active := (sound.orderly row (mem_of_getElem? here.there)).active
  rw [here.active] at active
  simpa using active.symm

theorem resting_here {polled : Nat} (here : Here s id row) (waits : Waits since failures s (polled + POLL_INTERVAL_MS) id row)
    (timely : polled ≤ since + cfg.taskTimeoutMs + HEARTBEAT_FILE_STALE_MS) : Resting cfg since failures s polled := by
  intro other x found active
  obtain rfl := here.only other x found active
  cases found.symm.trans here.there
  exact ⟨waits,timely⟩

theorem resting_same {polled : Nat} (resting : Resting cfg since failures s polled) (tasks : s'.tasks = s.tasks) (reports : s'.reports = s.reports) :
    Resting cfg since failures s' polled := by
  intro other x found active
  obtain ⟨⟨fresh,queued,going⟩,timely⟩ := resting other x (tasks ▸ found) active
  refine ⟨⟨fresh,queued,fun started => (going started).imp_left fun settled observed told => settled observed (reports ▸ told)⟩,timely⟩

theorem here_same (here : Here s id row) (tasks : s'.tasks = s.tasks) : Here s' id row :=
  ⟨tasks ▸ here.there,here.active,tasks ▸ here.only⟩

theorem walks_same (walks : Walks since s id now steps) (reports : s'.reports = s.reports) (time : s'.now = s.now) : Walks since s' id now steps :=
  ⟨walks.started,walks.chain,by rw [reports,time]; exact walks.goal⟩

theorem course_same (course : Course cfg since failures s stage) (tasks : s'.tasks = s.tasks) (reports : s'.reports = s.reports)
    (time : s'.now = s.now) : Course cfg since failures s' stage := by
  have rests (resting : Resting cfg since failures s s.now) : Resting cfg since failures s' s'.now := time ▸ resting_same resting tasks reports
  cases stage with
  | finding =>
    intro other x found active
    obtain ⟨fresh,queued,going⟩ := course other x (tasks ▸ found) active
    rw [time]
    exact ⟨fresh,queued,fun started => (going started).imp_left fun settled observed told => settled observed (reports ▸ told)⟩
  | inserting => exact course
  | preparing id task => exact ⟨here_same course.1 tasks,by rw [time]; exact course.2⟩
  | updating id task target rest patch after =>
    refine ⟨here_same course.1 tasks,course.2.1,course.2.2.imp (fun waiting => ?_) fun walking => ⟨walking.1,walks_same walking.2 reports time⟩⟩
    rw [time]
    exact waiting
  | reloading id rest patch after =>
    cases rest with
    | nil => exact rests course
    | cons target rest =>
      obtain ⟨same,other,row,here,walks⟩ := course
      exact ⟨same,other,row,here_same here tasks,walks_same walks reports time⟩
  | reading id task =>
    obtain ⟨here,started,fresh,settled,timely⟩ := course
    rw [← time] at settled timely
    exact ⟨here_same here tasks,started,fresh,settled.imp_left fun known observed told => known observed (reports ▸ told),timely⟩
  | touching id => exact ⟨rests course.1,by rw [time]; exact course.2⟩
  | checking | spawning | recording | ended => exact rests course

def Goes (cfg : Config) (since failures : Nat) (s s' : State) (i : Nat) : Prop := ∃ stage : Stage, s'.jobs = s.jobs.set i ⟨.sync,stage⟩ ∧
  s'.now = s.now ∧ s'.heartbeats = s.heartbeats ∧ Course cfg since failures s' stage

theorem goes_on {next : Stage} (course : Course cfg since failures s next) : Goes cfg since failures s (s.goes i ⟨.sync,stage⟩ next) i :=
  ⟨next,rfl,rfl,rfl,course_same course rfl rfl rfl⟩

theorem walk_course {after : After} (here : Here s id task) (other : after ≠ .spawn) (empty : steps = [] → Resting cfg since failures s s.now)
    (walks : steps ≠ [] → Walks since s id task.status steps) :
    Course cfg since failures s (walk id task steps UpdateTasks.beat after) := by
  cases steps with
  | nil => cases after <;> exact empty rfl
  | cons target rest => exact ⟨here,rfl,.inr ⟨other,walks (List.cons_ne_nil _ _)⟩⟩

theorem find_course (sound : Sound s) (can : cfg.canExecute = true)
    (waits : ∀ (id : Nat) (row : UpdateTask), s.tasks[id]? = some row → row.isActive = true → Waits since failures s s.now id row)
    (regular : regular s .finding = true) : Course cfg since failures s (find cfg s .sync) := by
  show Course cfg since failures s (syncActiveTask cfg s)
  unfold syncActiveTask
  split
  · next none =>
    intro id row found active
    rw [findActiveTask_none none found] at active
    cases active
  · next id row found =>
    have here := here_of_found sound found
    have live := live_of_here sound here
    obtain ⟨fresh,queued,going⟩ := waits id row here.there here.active
    rw [if_neg (by simp [live])]
    split
    · next waiting =>
      simp only [UpdateTimeouts.regular,found,Option.all_some,waiting,dispatchable] at regular
      simp only [ne_eq,not_true,decide_false,Bool.false_or,Bool.and_eq_true,decide_eq_true_eq,Bool.not_eq_true'] at regular
      obtain ⟨⟨anchored,new⟩,free⟩ := regular
      simp only [dispatch,can,new,free]
      exact ⟨here,waiting,anchored,fresh,queued waiting⟩
    · next started =>
      split
      · obtain ⟨first,steps,_⟩ := rollbackSteps_end row.status .rollbackFailed live (.inr rfl)
        have chain := rollbackSteps_chain row.status .rollbackFailed live started (.inr rfl)
        refine walk_course here nofun (fun empty => ?_) fun _ => ⟨started,chain,.rollbackFailed,?_,.inl rfl⟩
        · rw [empty] at steps
          simp at steps
        · rw [steps,List.getLast?_concat]
      · next timely =>
        have signal := fresh_signal fresh s.now
        exact ⟨here,started,fresh,going started,by omega⟩

theorem applyObservedStatus_course {observed : Option Status} (sound : Sound s) (here : Here s id task) (started : task.status ≠ .queued)
    (fresh : Fresh since task) (settled : Settled s id task ∨ Soon since s.now 0)
    (timely : s.now ≤ since + cfg.taskTimeoutMs + HEARTBEAT_FILE_STALE_MS) (read : s.reports.get id = some observed) :
    Course cfg since failures s (applyObservedStatus id task observed) := by
  have rests (known : Settled s id task) : Resting cfg since failures s s.now :=
    resting_here here ⟨fresh,fun queued => absurd queued started,fun _ => .inl known⟩ timely
  have only {target : Status} (told : s.reports.get id = some (some target)) : observed = some target := Option.mem_unique read told
  unfold applyObservedStatus
  split
  · next equal => exact rests fun target told => .inl (Option.some.inj (equal.trans (only told)))
  next differs =>
  cases observed with
  | none => exact rests fun target told => nomatch only told
  | some target =>
    have apart : task.status ≠ target := fun same => differs (congrArg some same)
    have known (goal : if sendsBack target then isTerminalStatus target = false ∧ rollbackSteps task.status target = []
        else forwardSteps task.status target = []) : Settled s id task := by
      intro other told
      cases only told
      exact .inr goal
    have soon (further : ¬ if sendsBack target then isTerminalStatus target = false ∧ rollbackSteps task.status target = []
        else forwardSteps task.status target = []) : Soon since s.now 0 := by
      rcases settled with near | soon
      · exact absurd ((near target read).resolve_left apart) further
      · exact soon
    dsimp only
    split
    · next back =>
      simp only [back] at known soon
      refine walk_course here (by split <;> nofun) (fun empty => rests (known ⟨?_,empty⟩)) fun some => ?_
      · rcases rollbackSteps_walk task.status target (live_of_here sound here) started back with ⟨_,live⟩ | ⟨_,last⟩
        · exact live
        · rw [empty] at last
          cases last
      · rcases rollbackSteps_walk task.status target (live_of_here sound here) started back with ⟨empty,_⟩ | ⟨chain,last⟩
        · exact absurd empty some
        · exact ⟨started,chain,target,last,.inr ⟨read,soon fun near => some near.2⟩⟩
    · next forward =>
      simp only [forward] at known soon
      refine walk_course here nofun (fun empty => rests (known empty)) fun some => ?_
      rcases forwardSteps_walk task.status target with empty | ⟨chain,last⟩
      · exact absurd empty some
      · exact ⟨started,chain,target,last,.inr ⟨read,soon some⟩⟩

theorem here_moved (here : Here s id row) (row' : UpdateTask) {tasks : List UpdateTask} (moved : tasks = s.tasks.set id row') :
    tasks[id]? = some row' ∧ ∀ (k : Nat) (x : UpdateTask), tasks[k]? = some x → x.isActive = true → k = id := by
  rw [moved]
  refine ⟨at_set here.there,fun k x found active => ?_⟩
  rcases at_of_set found with ⟨same,_⟩ | ⟨_,old⟩
  · exact same
  · exact here.only k x old active

theorem moved_rests {last : Status} (here : Here s id row) (tasks : s'.tasks = s.tasks.set id (row.moved last UpdateTasks.beat s.now))
    (reports : s'.reports = s.reports) (time : s'.now = s.now) (started : last ≠ .queued)
    (goal : isTerminalStatus last = true ∨ Soon since (s.now + POLL_INTERVAL_MS) 0 ∨ s.reports.get id = some (some last) ∧ Soon since s.now 0) :
    Resting cfg since failures s' s'.now := by
  obtain ⟨there,only⟩ := here_moved here _ tasks
  intro k x found active
  obtain rfl := only k x found active
  cases found.symm.trans there
  rcases goal with ended | goal
  · rw [show (row.moved last UpdateTasks.beat s.now).isActive = if isTerminalStatus last then false else row.isActive from rfl,if_pos ended] at active
    cases active
  have early : s.now ≤ since + HEARTBEAT_FILE_STALE_MS := by
    rcases goal with soon | ⟨_,soon⟩
    · exact Nat.le_trans (Nat.le_add_right _ _) (soon_le soon)
    · exact soon_le soon
  refine ⟨⟨⟨s.now,rfl,early⟩,fun queued => absurd queued started,fun _ => ?_⟩,by omega⟩
  rcases goal with soon | ⟨told,_⟩
  · exact .inr (time ▸ soon)
  · refine .inl fun observed found => .inl ?_
    rw [reports,told] at found
    exact Option.some.inj (Option.some.inj found)

theorem transition_course {rest : List Status} {patch : Patch} {after : After} (few : failures ≤ 1)
    (course : Course cfg since failures s (.updating id task target rest patch after)) :
    Goes cfg since failures s (transitionTask s i ⟨.sync,stage⟩ id task target rest patch after) i := by
  obtain ⟨here,rfl,course⟩ := course
  have can : canTransition task.status target = true := by
    rcases course with ⟨queued,rfl,_⟩ | ⟨_,walks⟩
    · rw [queued]
      rfl
    · exact (isChain_cons_cons.mp walks.chain).1
  unfold transitionTask
  rw [if_neg (by simp [can])]
  simp only [here.there]
  refine ⟨.reloading id rest UpdateTasks.beat after,rfl,rfl,rfl,?_⟩
  rcases course with ⟨queued,rfl,rfl,fresh,soon⟩ | ⟨other,walks⟩
  · refine moved_rests here rfl rfl rfl nofun (.inr (.inl (soon_next ?_)))
    simp only [Soon,POLL_INTERVAL_MS] at soon ⊢
    omega
  · obtain ⟨_,chain,last,final,goal⟩ := walks
    cases rest with
    | nil =>
      obtain rfl : target = last := by simpa using final
      exact moved_rests here rfl rfl rfl (canTransition_started can) (goal.imp_right .inr)
    | cons next rest =>
      obtain ⟨there,only⟩ := here_moved here (task.moved target UpdateTasks.beat s.now) rfl
      have onward := (isChain_cons_cons.mp (isChain_cons_cons.mp chain).2).1
      have live : isTerminalStatus target = false := by
        by_contra ended
        rw [canTransition_terminal (by simpa using ended)] at onward
        cases onward
      have active : (task.moved target UpdateTasks.beat s.now).isActive = true := by
        rw [show (task.moved target UpdateTasks.beat s.now).isActive = if isTerminalStatus target then false else task.isActive from rfl,live]
        exact here.active
      refine ⟨rfl,other,task.moved target UpdateTasks.beat s.now,⟨there,active,only⟩,canTransition_started can,
        (isChain_cons_cons.mp chain).2,last,?_,goal⟩
      rwa [List.getLast?_cons_cons] at final

theorem touched_rests (resting : Resting cfg since failures s s.now) (early : s.now ≤ since + HEARTBEAT_FILE_STALE_MS)
    (tasks : s'.tasks = s.tasks.modify id fun row => { row with heartbeatAt := some s.now }) (reports : s'.reports = s.reports)
    (time : s'.now = s.now) : Resting cfg since failures s' s'.now := by
  intro k x found active
  rw [tasks] at found
  rw [time]
  have still {row : UpdateTask} (settled : Settled s k row) : Settled s' k row := fun observed told => settled observed (reports ▸ told)
  rcases at_of_modify found with ⟨rfl,row,old,rfl⟩ | ⟨_,old⟩
  · obtain ⟨⟨fresh,queued,going⟩,timely⟩ := resting k row old active
    exact ⟨⟨⟨s.now,rfl,early⟩,queued,fun started => (going started).imp_left still⟩,timely⟩
  · obtain ⟨⟨fresh,queued,going⟩,timely⟩ := resting k x old active
    exact ⟨⟨fresh,queued,fun started => (going started).imp_left still⟩,timely⟩

theorem proceed_course (sound : Sound s) (can : cfg.canExecute = true) (files : ∀ (id time : Nat), s.heartbeats.get id = some time → time ≤ since)
    (few : failures ≤ 1) (course : Course cfg since failures s stage) (regular : regular s stage = true) (running : stage ≠ .ended) :
    Goes cfg since failures s (proceed cfg s i ⟨.sync,stage⟩) i := by
  cases stage with
  | finding => exact goes_on (find_course sound can course regular)
  | inserting => exact course.elim
  | preparing id task =>
    obtain ⟨here,queued,anchored,fresh,soon⟩ := course
    show Goes cfg since failures s (prepared s i _ id task) i
    unfold prepared
    rw [if_neg (by simp [anchored]),if_pos queued]
    refine ⟨_,rfl,rfl,rfl,?_⟩
    exact ⟨here_same here rfl,rfl,.inl ⟨queued,rfl,rfl,fresh,soon⟩⟩
  | updating id task target rest patch after => exact transition_course few course
  | reloading id rest patch after =>
    unfold proceed
    dsimp only
    cases rest with
    | nil =>
      split
      · cases after <;> exact goes_on course
      · exact goes_on course
    | cons target rest =>
      obtain ⟨rfl,other,row,here,walks⟩ := course
      simp only [here.there]
      exact goes_on (walk_course here other (by simp) fun _ => walks)
  | spawning => exact ⟨.ended,rfl,rfl,rfl,resting_same course rfl rfl⟩
  | reading id task =>
    obtain ⟨here,started,fresh,settled,timely⟩ := course
    unfold proceed
    dsimp only
    split
    · next observed read => exact goes_on (applyObservedStatus_course sound here started fresh settled timely read)
    · next unread =>
      refine goes_on (resting_here here ⟨fresh,fun queued => absurd queued started,fun _ => .inl fun observed told => ?_⟩ timely)
      cases unread.symm.trans told
  | checking id =>
    obtain ⟨time,there⟩ := Option.isSome_iff_exists.mp regular
    have early := files id time there
    unfold proceed
    dsimp only
    rw [there]
    dsimp only
    split
    · exact goes_on course
    · refine goes_on ?_
      exact ⟨course,by omega⟩
  | touching id => exact ⟨.ended,rfl,rfl,rfl,touched_rests course.1 course.2 rfl rfl rfl⟩
  | recording id outcome => exact ⟨.ended,rfl,rfl,rfl,resting_same course rfl rfl⟩
  | ended => exact absurd rfl running

theorem failed_course (course : Course cfg since 0 s stage) (dispatching : ofDispatch stage = true) :
    Goes cfg since 1 s (failed s i ⟨.sync,stage⟩) i := by
  have waiting {id : Nat} {task : UpdateTask} (here : Here s id task) (queued : task.status = .queued) (fresh : Fresh since task) (soon : Soon since s.now 2) :
      Resting cfg since 1 s s.now := by
    refine resting_here here ⟨fresh,fun _ => soon_next soon,fun started => absurd queued started⟩ ?_
    have early := soon_le soon
    omega
  have rests (resting : Resting cfg since 0 s s.now) : Resting cfg since 1 s s.now := by
    intro k x found active
    obtain ⟨⟨fresh,queued,going⟩,timely⟩ := resting k x found active
    refine ⟨⟨fresh,fun waits => ?_,going⟩,timely⟩
    have soon := queued waits
    simp only [Soon] at soon ⊢
    omega
  have ends (resting : Resting cfg since 1 s s.now) : Goes cfg since 1 s (s.goes i ⟨.sync,stage⟩ .ended) i := by
    refine goes_on ?_
    exact resting
  cases stage with
  | preparing id task =>
    obtain ⟨here,queued,_,fresh,soon⟩ := course
    exact ends (waiting here queued fresh soon)
  | updating id task target rest patch after =>
    obtain ⟨here,_,⟨queued,_,_,fresh,soon⟩ | ⟨other,_⟩⟩ := course
    · exact ends (waiting here queued fresh soon)
    · cases after with
      | spawn => exact absurd rfl other
      | nothing | record | touch => cases dispatching
  | reloading id rest patch after =>
    cases rest with
    | nil => exact ends (rests course)
    | cons target rest =>
      cases after with
      | spawn => exact absurd rfl course.2.1
      | nothing | record | touch => cases dispatching
  | spawning => exact ends (rests course)
  | finding | inserting | reading | checking | touching | recording | ended => cases dispatching

structure Inv (cfg : Config) (since : Nat) (w : Watched) : Prop where
  sound : Sound w.system
  files : ∀ (id time : Nat), w.system.heartbeats.get id = some time → time ≤ since
  few : w.failures ≤ 1
  soon : w.system.now ≤ w.polled + POLL_INTERVAL_MS
  course : Idle w.system ∧ Resting cfg since w.failures w.system w.polled ∨
    ∃ i stage, w.system.jobs[i]? = some ⟨.sync,stage⟩ ∧ stage ≠ .ended ∧
      (∀ (k : Nat) (job : Job), w.system.jobs[k]? = some job → k ≠ i → job.stage = .ended) ∧ w.system.now = w.polled ∧
      Course cfg since w.failures w.system stage

theorem inv_goes {w' : Watched} (inv : Inv cfg since w) (sound : Sound w'.system) (few : w'.failures ≤ 1) (polled : w'.polled = w.polled)
    (now : w.system.now = w.polled) (others : ∀ (k : Nat) (job : Job), w.system.jobs[k]? = some job → k ≠ i → job.stage = .ended)
    (there : w.system.jobs[i]? = some ⟨.sync,stage⟩) (goes : Goes cfg since w'.failures w.system w'.system i) : Inv cfg since w' := by
  obtain ⟨next,jobs,time,beats,course⟩ := goes
  have quiet (k : Nat) (job : Job) (found : w'.system.jobs[k]? = some job) (apart : k ≠ i) : job.stage = .ended := by
    rw [jobs] at found
    rcases at_of_set found with ⟨same,_⟩ | ⟨_,old⟩
    · exact absurd same apart
    · exact others k job old apart
  refine ⟨sound,fun id at_ found => inv.files id at_ (beats ▸ found),few,by rw [time,polled]; exact inv.soon,?_⟩
  by_cases ended : next = .ended
  · subst ended
    refine .inl ⟨fun job member => ?_,?_⟩
    · obtain ⟨k,found⟩ := List.mem_iff_getElem?.mp member
      by_cases same : k = i
      · rw [jobs] at found
        rcases at_of_set found with ⟨_,rfl⟩ | ⟨apart,_⟩
        · rfl
        · exact absurd same apart
      · exact quiet k job found same
    · rw [polled,← now,← time]
      exact course
  · exact .inr ⟨i,next,by rw [jobs]; exact at_set there,ended,quiet,by rw [time,polled]; exact now,course⟩

theorem watch_ended (ended : ∀ job ∈ w.system.jobs[i]?, job.stage = .ended) : watch cfg w (.go i) = w := by
  simp only [watch,go_ended ended]
  rfl

theorem inv_step (inv : Inv cfg since w) (can : cfg.canExecute = true) (silent : Silent w l) (regular : Regular w l) :
    Inv cfg since (watch cfg w l) := by
  have sound : Sound (watch cfg w l).system := sound_step inv.sound
  cases l with
  | tick ms =>
    obtain ⟨idle,soon⟩ := silent
    refine ⟨sound,inv.files,inv.few,soon,.inl ⟨idle,?_⟩⟩
    rcases inv.course with ⟨_,resting⟩ | ⟨i,stage,there,running,_⟩
    · exact resting_same resting rfl rfl
    · exact absurd (idle _ (mem_of_getElem? there)) running
  | call kind =>
    obtain ⟨rfl,idle⟩ := silent
    have begun : (watch cfg w (.call .sync)).system = { w.system with jobs := w.system.jobs ++ [⟨.sync,.finding⟩] } := begin_idle idle .sync
    refine ⟨sound,?_,inv.few,?_,.inr ⟨w.system.jobs.length,.finding,?_,nofun,fun k job found apart => ?_,?_,?_⟩⟩
    · rw [begun]
      exact inv.files
    · rw [begun]
      exact Nat.le_add_right _ _
    · rw [begun]
      exact List.getElem?_concat_length
    · rw [begun] at found
      rcases at_of_append found with old | ⟨same,_⟩
      · exact idle job (mem_of_getElem? old)
      · exact absurd same apart
    · rw [begun]
      rfl
    · rw [begun]
      intro id row found active
      rcases inv.course with ⟨_,resting⟩ | ⟨i,stage,there,running,_⟩
      · obtain ⟨⟨fresh,queued,going⟩,_⟩ := resting id row found active
        exact waits_earlier inv.soon ⟨fresh,queued,going⟩
      · exact absurd (idle _ (mem_of_getElem? there)) running
  | go i =>
    rcases inv.course with ⟨idle,resting⟩ | ⟨k,stage,there,running,others,now,course⟩
    · rw [watch_ended fun job found => idle job (mem_of_getElem? found)]
      exact inv
    by_cases same : i = k
    · subst same
      refine inv_goes inv sound inv.few rfl now others there ?_
      show Goes cfg since w.failures w.system (step cfg w.system (.go i)) i
      rw [show step cfg w.system (.go i) = proceed cfg w.system i ⟨.sync,stage⟩ by simp [step,there]]
      exact proceed_course inv.sound can inv.files inv.few course (regular _ there) running
    · rw [watch_ended fun job found => others i job found same]
      exact inv
  | fail i =>
    obtain ⟨first,dispatching⟩ := silent
    obtain ⟨job,found,dispatching⟩ := Option.any_eq_true _ _ |>.mp dispatching
    have awake : job.stage ≠ .ended := by
      intro ended
      rw [ended] at dispatching
      cases dispatching
    rcases inv.course with ⟨idle,_⟩ | ⟨k,stage,there,running,others,now,course⟩
    · exact absurd (idle job (mem_of_getElem? found)) awake
    have same : i = k := by
      by_contra apart
      exact awake (others i job found apart)
    subst same
    cases found.symm.trans there
    rw [first] at course
    refine inv_goes inv sound ?_ rfl now others there ?_
    · show w.failures + 1 ≤ 1
      omega
    · show Goes cfg since (w.failures + 1) w.system (step cfg w.system (.fail i)) i
      rw [first,show step cfg w.system (.fail i) = failed w.system i ⟨.sync,stage⟩ by simp [step,there]]
      exact failed_course course dispatching
  | report | beat | silence | childExit | restart => exact silent.elim

structure Dated (s : State) : Prop where
  signs : ∀ row ∈ s.tasks, ∃ time, row.heartbeatAt.or row.startedAt = some time ∧ time ≤ s.now
  files : ∀ (id time : Nat), s.heartbeats.get id = some time → time ≤ s.now

theorem step_clock (cfg : Config) (s : State) (l : Label) : s.now ≤ (step cfg s l).now ∧ ∀ (id time : Nat),
    (step cfg s l).heartbeats.get id = some time → s.heartbeats.get id = some time ∨ time = s.now := by
  cases l with
  | tick ms => exact ⟨Nat.le_add_right _ _,fun _ _ => .inl⟩
  | report | childExit | restart => exact ⟨Nat.le_refl _,fun _ _ => .inl⟩
  | call kind =>
    unfold step begin
    dsimp only
    split <;> exact ⟨Nat.le_refl _,fun _ _ => .inl⟩
  | beat id =>
    refine ⟨Nat.le_refl _,fun other time found => ?_⟩
    rcases get_of_set found with ⟨_,same⟩ | ⟨_,old⟩
    · exact .inr same
    · exact .inl old
  | silence id => exact ⟨Nat.le_refl _,fun _ _ found => .inl (get_of_delete found).2⟩
  | fail i =>
    unfold step
    dsimp only
    split
    · unfold failed
      split <;> exact ⟨Nat.le_refl _,fun _ _ => .inl⟩
    · exact ⟨Nat.le_refl _,fun _ _ => .inl⟩
  | go i =>
    unfold step
    dsimp only
    split
    · next job there =>
      obtain ⟨time,files⟩ : (proceed cfg s i job).now = s.now ∧ (proceed cfg s i job).heartbeats = s.heartbeats := proceed_outside
      rw [time,files]
      exact ⟨Nat.le_refl _,fun _ _ => .inl⟩
    · exact ⟨Nat.le_refl _,fun _ _ => .inl⟩

theorem dated_step (dated : Dated s) : Dated (step cfg s l) := by
  obtain ⟨later,files⟩ := step_clock cfg s l
  refine ⟨fun row member => ?_,fun id time found => ?_⟩
  · obtain ⟨k,found⟩ := List.mem_iff_getElem?.mp member
    have kept {x : UpdateTask} (old : x ∈ s.tasks) : ∃ time, x.heartbeatAt.or x.startedAt = some time ∧ time ≤ (step cfg s l).now := by
      obtain ⟨time,sign,le⟩ := dated.signs x old
      exact ⟨time,sign,Nat.le_trans le later⟩
    have rows := step_rows cfg s l
    generalize (step cfg s l).tasks = tasks at rows found
    cases rows with
    | same => exact kept (mem_of_getElem? found)
    | @moved id before target patch there can =>
      rcases at_of_set found with ⟨_,rfl⟩ | ⟨_,old⟩
      · cases beats : patch.heartbeat with
        | true => exact ⟨s.now,by simp [UpdateTask.moved,beats],later⟩
        | false =>
          obtain ⟨time,sign,le⟩ := kept (mem_of_getElem? there)
          exact ⟨time,by simpa [UpdateTask.moved,beats] using sign,le⟩
      · exact kept (mem_of_getElem? old)
    | added free =>
      rcases at_of_append found with old | ⟨_,rfl⟩
      · exact kept (mem_of_getElem? old)
      · exact ⟨s.now,rfl,later⟩
    | touched =>
      rcases at_of_modify found with ⟨_,before,_,rfl⟩ | ⟨_,old⟩
      · exact ⟨s.now,rfl,later⟩
      · exact kept (mem_of_getElem? old)
  · rcases files id time found with old | rfl
    · exact Nat.le_trans (dated.files id time old) later
    · exact later

/-- If polls can dispatch what waits and find the heartbeat file they look at, no task of a silent executor stays active for too long. -/
theorem slot_freed (history : Reachable (step cfg) (fun _ _ => True) initial s) (idle : Idle s) (can : cfg.canExecute = true)
    (polls : Reachable (watch cfg) (fun w l => Silent w l ∧ Regular w l) ⟨s,s.now,0⟩ w) : Freed cfg s.now w := by
  have sound : Sound s := reachable_invariant sound_initial (fun _ _ sound _ => sound_step sound) history
  have dated : Dated s := reachable_invariant ⟨nofun,nofun⟩
    (fun _ _ dated _ => dated_step dated) history
  have start : Inv cfg s.now ⟨s,s.now,0⟩ := by
    refine ⟨sound,dated.files,Nat.zero_le _,Nat.le_add_right _ _,.inl ⟨idle,fun id row found active => ?_⟩⟩
    obtain ⟨time,sign,le⟩ := dated.signs row (mem_of_getElem? found)
    refine ⟨⟨⟨time,sign,Nat.le_add_right_of_le le⟩,fun _ => ?_,fun _ => .inr ?_⟩,Nat.le_add_right_of_le (Nat.le_add_right _ _)⟩
    · simp only [Soon]
      omega
    · simp only [Soon]
      omega
  have inv := reachable_invariant start (fun _ _ inv allowed => inv_step inv can allowed.1 allowed.2) polls
  intro rests late row member
  obtain ⟨id,found⟩ := List.mem_iff_getElem?.mp member
  rcases inv.course with ⟨_,resting⟩ | ⟨i,stage,there,running,_⟩
  · by_contra active
    have timely := (resting id row found (by simpa using active)).2
    omega
  · exact absurd (rests _ (mem_of_getElem? there)) running

end

def waiting : List Label := [.call (.create true),.go 0,.go 0]

def givenUp : List Label := [Label.call .sync,.go 1,.go 1,.go 1,.go 1,.go 1] ++
  (range 13).flatMap fun k => [Label.tick 5000,.call .sync] ++ List.replicate 10 (Label.go (k + 2))

theorem slot_freed_givenUp : Freed ⟨true,1000⟩ 0 (givenUp.foldl (watch ⟨true,1000⟩) ⟨waiting.foldl (step ⟨true,1000⟩) initial,0,0⟩) :=
  slot_freed (s := waiting.foldl (step ⟨true,1000⟩) initial) (reachable_run .start waiting (by decide +kernel)) (by decide +kernel) rfl
    (reachable_run .start givenUp (by decide +kernel))

def neverDispatched : List Label := [Label.call .sync,.go 1,.go 1,.fail 1] ++
  (range 13).flatMap fun k => [Label.tick 5000,.call .sync,.go (k + 2),.go (k + 2)]

/-- It counts as dispatched from then on, and waits for good. -/
theorem slot_kept : ¬ ∀ w, Reachable (watch ⟨true,1000⟩) Silent ⟨waiting.foldl (step ⟨true,1000⟩) initial,0,0⟩ w → Freed ⟨true,1000⟩ 0 w := by
  intro always
  have legal : Legal (watch ⟨true,1000⟩) Silent ⟨waiting.foldl (step ⟨true,1000⟩) initial,0,0⟩ neverDispatched := by decide +kernel
  have freed := always _ (reachable_run .start _ legal) (by decide +kernel) (by decide +kernel)
  exact absurd freed (by decide +kernel)

end Tgtc.UpdateTimeouts
