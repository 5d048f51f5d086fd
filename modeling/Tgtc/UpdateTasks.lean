import Mathlib.Data.List.Chain
import Tgtc.Maps
import Tgtc.Runs

/-!
Tasks that update the system. A task goes through its statuses one by one; an executor of its own does the work and
writes down where it is, and the service reads that and moves the task along.
-/
namespace Tgtc.UpdateTasks
open Maps Runs

/-- `UpdateTaskStatus` -/
inductive Status where
  | queued | downloading | verifying | prechecking | backingUp
  | extracting | migrating | activating | restarting | healthChecking
  | succeeded
  | rollbackPending | rollingBack | rolledBack | rollbackFailed
  | cancelled
deriving DecidableEq

def isTerminalStatus : Status → Bool
  | .succeeded | .rolledBack | .rollbackFailed | .cancelled => true
  | _ => false

def isCancellableStatus : Status → Bool
  | .queued | .downloading => true
  | _ => false

def FORWARD_TRANSITIONS : Status → List Status
  | .queued => [.downloading,.cancelled]
  | .downloading => [.verifying,.cancelled,.rollbackPending]
  | .verifying => [.prechecking,.rollbackPending]
  | .prechecking => [.backingUp,.rollbackPending]
  | .backingUp => [.extracting,.rollbackPending]
  | .extracting => [.migrating,.rollbackPending]
  | .migrating => [.activating,.rollbackPending]
  | .activating => [.restarting,.rollbackPending]
  | .restarting => [.healthChecking,.rollbackPending]
  | .healthChecking => [.succeeded,.rollbackPending]
  | .rollbackPending => [.rollingBack]
  | .rollingBack => [.rolledBack,.rollbackFailed]
  | .succeeded | .rolledBack | .rollbackFailed | .cancelled => []

/-- What `assertTransition` lets pass. -/
def canTransition (now target : Status) : Bool :=
  if isTerminalStatus now then false
  else if now = target then false
  else decide (target ∈ FORWARD_TRANSITIONS now)

def FORWARD_PATH : List Status :=
  [.queued,.downloading,.verifying,.prechecking,.backingUp,.extracting,.migrating,.activating,.restarting,.healthChecking,.succeeded]

/-- The statuses that `walkForwardTo` goes through. -/
def forwardSteps (now target : Status) : List Status := match FORWARD_PATH.idxOf? now, FORWARD_PATH.idxOf? target with
  | some fromIndex, some toIndex => if toIndex ≤ fromIndex then [] else (FORWARD_PATH.take (toIndex + 1)).drop (fromIndex + 1)
  | _, _ => []

/-- The statuses that `walkRollback` goes through. -/
def rollbackSteps (now target : Status) : List Status :=
  let chain : List Status := [.rollbackPending,.rollingBack,target]
  let reached := match chain.idxOf? now with
    | some index => index + 1
    | none => 0
  (chain.take (chain.idxOf target + 1)).drop reached

def sendsBack : Status → Bool
  | .rollbackPending | .rollingBack | .rolledBack | .rollbackFailed => true
  | _ => false

structure UpdateTask where
  status : Status
  isActive : Bool
  errorCode : Option String
  startedAt : Option Nat
  heartbeatAt : Option Nat
  finishedAt : Option Nat
  anchored : Bool
  stored : List Status
deriving DecidableEq

structure Patch where
  errorCode : Option String
  heartbeat : Bool
deriving DecidableEq

def beat : Patch := ⟨none,true⟩

def newTask (anchored : Bool) (now : Nat) : UpdateTask := ⟨.queued,true,none,some now,none,none,anchored,[.queued]⟩

/-- The row that `transitionTask` writes. -/
def UpdateTask.moved (row : UpdateTask) (target : Status) (patch : Patch) (now : Nat) : UpdateTask :=
  { row with
    status := target
    isActive := if isTerminalStatus target then false else row.isActive
    errorCode := patch.errorCode.or row.errorCode
    heartbeatAt := if patch.heartbeat then some now else row.heartbeatAt
    finishedAt := if isTerminalStatus target then some now else row.finishedAt
    stored := target :: row.stored }

def HEARTBEAT_STALE_MS : Nat := 5 * 60 * 1000

def HEARTBEAT_FILE_STALE_MS : Nat := 60000

def UpdateTask.lastSignalMs (task : UpdateTask) (now : Nat) : Nat := (task.heartbeatAt.or task.startedAt).getD now

/-- The tasks of `recoverInterruptedTasks` that are moved. -/
def interrupted (task : UpdateTask) (now : Nat) : Bool :=
  let stale := match task.heartbeatAt with
    | some heartbeatAt => HEARTBEAT_STALE_MS < now - heartbeatAt
    | none => true
  stale && match task.status with
    | .verifying | .prechecking | .backingUp | .extracting | .migrating => true
    | _ => false

inductive Kind where
  | create (anchored : Bool)
  | cancel (id : Nat)
  /-- `syncActiveTask` -/
  | sync
  /-- `recoverInterruptedTasks` -/
  | recoverTasks
  /-- `recoverAfterRestart` -/
  | recoverRunner
deriving DecidableEq

inductive After where
  | nothing
  /-- `recordTaskOutcome` -/
  | record (outcome : Status)
  /-- `touchHeartbeatIfFresh` -/
  | touch
  | spawn
deriving DecidableEq

inductive Stage where
  | finding
  | inserting
  | preparing (id : Nat) (task : UpdateTask)
  /-- the conditional update of `transitionTask` -/
  | updating (id : Nat) (task : UpdateTask) (target : Status) (rest : List Status) (patch : Patch) (after : After)
  | reloading (id : Nat) (rest : List Status) (patch : Patch) (after : After)
  | spawning
  | reading (id : Nat) (task : UpdateTask)
  | checking (id : Nat)
  | touching (id : Nat)
  | recording (id : Nat) (outcome : Status)
  | ended
deriving DecidableEq

structure Job where
  kind : Kind
  stage : Stage
deriving DecidableEq

structure Config where
  canExecute : Bool
  taskTimeoutMs : Nat

structure State where
  tasks : List UpdateTask
  jobs : List Job
  dispatchedTaskIds : List Nat
  activeChild : Bool
  reports : OrderedMap Nat (Option Status)
  heartbeats : OrderedMap Nat Nat
  /-- `recordTaskOutcome`, one after the other -/
  outcomes : List (Nat × Status)
  now : Nat

def initial : State := ⟨[],[],[],false,.empty,.empty,[],0⟩

inductive Label where
  | tick (ms : Nat)
  | call (kind : Kind)
  | go (i : Nat)
  | fail (i : Nat)
  | report (id : Nat) (status : Option Status)
  | beat (id : Nat)
  | silence (id : Nat)
  /-- `systemctl` has come to its end -/
  | childExit
  | restart
deriving DecidableEq

def findActiveTask (tasks : List UpdateTask) : Option (Nat × UpdateTask) :=
  (tasks.zipIdx.find? fun e => e.1.isActive).map fun e => (e.2,e.1)

def walk (id : Nat) (task : UpdateTask) (steps : List Status) (patch : Patch) (after : After) : Stage := match steps, after with
  | target :: rest, _ => .updating id task target rest patch after
  | [], .nothing => .ended
  | [], .record outcome => .recording id outcome
  | [], .touch => .checking id
  | [], .spawn => .spawning

def dispatch (cfg : Config) (s : State) (id : Nat) (task : UpdateTask) : Stage :=
  if !cfg.canExecute then .ended
  else if id ∈ s.dispatchedTaskIds || s.activeChild then .ended
  else .preparing id task

def applyObservedStatus (id : Nat) (task : UpdateTask) (observed : Option Status) : Stage :=
  if some task.status = observed then .checking id
  else match observed with
    | some target =>
      if sendsBack target then
        walk id task (rollbackSteps task.status target) beat (if isTerminalStatus target then .record target else .nothing)
      else walk id task (forwardSteps task.status target) beat .touch
    | none => .checking id

def syncActiveTask (cfg : Config) (s : State) : Stage := match findActiveTask s.tasks with
  | none => .ended
  | some (id,task) =>
    if isTerminalStatus task.status then .ended
    else if task.status = .queued then dispatch cfg s id task
    else if cfg.taskTimeoutMs < s.now - task.lastSignalMs s.now then
      walk id task (rollbackSteps task.status .rollbackFailed) beat (.record .rollbackFailed)
    else .reading id task

/-- The first query of a job. -/
def find (cfg : Config) (s : State) : Kind → Stage
  | .create _ => if (findActiveTask s.tasks).isSome then .ended else .inserting
  | .cancel id => match s.tasks[id]? with
    | some task =>
      if task.isActive && isCancellableStatus task.status then .updating id task .cancelled [] ⟨some "cancelled_by_operator",false⟩ .nothing
      else .ended
    | none => .ended
  | .sync => syncActiveTask cfg s
  | .recoverTasks => match findActiveTask s.tasks with
    | some (id,task) =>
      if interrupted task s.now then .updating id task .rollbackPending [] ⟨some "runner_interrupted",false⟩ .nothing else .ended
    | none => .ended
  | .recoverRunner => match findActiveTask s.tasks with
    | some (id,task) => if task.status = .queued then dispatch cfg s id task else .ended
    | none => .ended

def State.goes (s : State) (i : Nat) (job : Job) (stage : Stage) : State := { s with jobs := s.jobs.set i { job with stage } }

def insertTask (s : State) (i : Nat) (job : Job) : State :=
  if (findActiveTask s.tasks).isSome then s.goes i job .ended
  else match job.kind with
    | .create anchored => { s.goes i job .ended with tasks := s.tasks ++ [newTask anchored s.now] }
    | _ => s.goes i job .ended

def transitionTask (s : State) (i : Nat) (job : Job) (id : Nat) (task : UpdateTask) (target : Status) (rest : List Status) (patch : Patch)
    (after : After) : State :=
  if !canTransition task.status target then s.goes i job .ended
  else match s.tasks[id]? with
    | some row =>
      if row.status = task.status then
        { s.goes i job (.reloading id rest patch after) with tasks := s.tasks.set id (row.moved target patch s.now) }
      else s.goes i job .ended
    | none => s.goes i job .ended

def prepared (s : State) (i : Nat) (job : Job) (id : Nat) (task : UpdateTask) : State :=
  if !task.anchored then s.goes i job .ended
  else { s.goes i job (walk id task (if task.status = .queued then [.downloading] else []) UpdateTasks.beat .spawn) with
    dispatchedTaskIds := id :: s.dispatchedTaskIds }

def proceed (cfg : Config) (s : State) (i : Nat) (job : Job) : State := match job.stage with
  | .finding => s.goes i job (find cfg s job.kind)
  | .inserting => insertTask s i job
  | .preparing id task => prepared s i job id task
  | .updating id task target rest patch after => transitionTask s i job id task target rest patch after
  | .reloading id rest patch after => match s.tasks[id]? with
    | some row => s.goes i job (walk id row rest patch after)
    | none => s.goes i job .ended
  | .spawning => { s.goes i job .ended with activeChild := true }
  | .reading id task => match s.reports.get id with
    | some observed => s.goes i job (applyObservedStatus id task observed)
    | none => s.goes i job .ended
  | .checking id => s.goes i job (match s.heartbeats.get id with
    | some time => if HEARTBEAT_FILE_STALE_MS < s.now - time then .ended else .touching id
    | none => .touching id)
  | .touching id => { s.goes i job .ended with tasks := s.tasks.modify id fun row => { row with heartbeatAt := some s.now } }
  | .recording id outcome => { s.goes i job .ended with outcomes := s.outcomes ++ [(id,outcome)] }
  | .ended => s

def failed (s : State) (i : Nat) (job : Job) : State := match job.stage with
  | .checking id => s.goes i job (.touching id)
  | _ => s.goes i job .ended

def begin (s : State) (kind : Kind) : State :=
  if kind = .sync && s.jobs.any fun job => job.kind = .sync && decide (job.stage ≠ .ended) then s
  else { s with jobs := s.jobs ++ [⟨kind,.finding⟩] }

def step (cfg : Config) (s : State) : Label → State
  | .tick ms => { s with now := s.now + ms }
  | .call kind => begin s kind
  | .go i => match s.jobs[i]? with
    | some job => proceed cfg s i job
    | none => s
  | .fail i => match s.jobs[i]? with
    | some job => failed s i job
    | none => s
  | .report id status => { s with reports := s.reports.set id status }
  | .beat id => { s with heartbeats := s.heartbeats.set id s.now }
  | .silence id => { s with heartbeats := s.heartbeats.delete id }
  | .childExit => { s with activeChild := false }
  | .restart => { s with jobs := [], dispatchedTaskIds := [], activeChild := false }

def Idle (s : State) : Prop := ∀ job ∈ s.jobs, job.stage = .ended

instance (s : State) : Decidable (Idle s) := inferInstanceAs (Decidable (∀ job ∈ s.jobs, job.stage = .ended))

/-- The statuses of every task follow the machine, and one task is active at most. -/
structure Obeys (s : State) : Prop where
  follows : ∀ row ∈ s.tasks, row.stored.IsChain fun later earlier => canTransition earlier later = true
  current : ∀ row ∈ s.tasks, row.stored.head? = some row.status ∧ row.stored.getLast? = some .queued
  final : ∀ row ∈ s.tasks, ∀ later x earlier, row.stored = later ++ x :: earlier → isTerminalStatus x = true → later = []
  active : ∀ row ∈ s.tasks, row.isActive = !isTerminalStatus row.status
  alone : ∀ (i j : Nat) (row row' : UpdateTask), s.tasks[i]? = some row → s.tasks[j]? = some row' → row.isActive = true → row'.isActive = true → i = j
  cancelled : ∀ row ∈ s.tasks, ∀ later x earlier, row.stored = later ++ .cancelled :: x :: earlier → isCancellableStatus x = true

inductive Rows (s : State) : List UpdateTask → Prop
  | same : Rows s s.tasks
  | moved {id row target patch} (there : s.tasks[id]? = some row) (can : canTransition row.status target = true) :
      Rows s (s.tasks.set id (row.moved target patch s.now))
  | added {anchored} (free : findActiveTask s.tasks = none) : Rows s (s.tasks ++ [newTask anchored s.now])
  | touched {id} : Rows s (s.tasks.modify id fun row => { row with heartbeatAt := some s.now })

section
variable {cfg : Config} {s : State} {i : Nat} {job : Job} {l : Label} {row : UpdateTask} {tasks : List UpdateTask} {now target : Status}

theorem insertTask_rows : Rows s (insertTask s i job).tasks := by
  unfold insertTask
  split
  · exact .same
  · next free =>
    split
    · exact .added (by simpa using free)
    · exact .same

theorem transitionTask_rows {id : Nat} {task : UpdateTask} {rest : List Status} {patch : Patch} {after : After} :
    Rows s (transitionTask s i job id task target rest patch after).tasks := by
  unfold transitionTask
  split
  · exact .same
  next can =>
  split
  · next row there =>
    split
    · next same =>
      refine .moved there ?_
      rw [same]
      simpa using can
    · exact .same
  · exact .same

theorem step_rows (cfg : Config) (s : State) (l : Label) : Rows s (step cfg s l).tasks := by
  cases l with
  | tick | report | beat | silence | childExit | restart => exact .same
  | call kind =>
    unfold step begin
    dsimp only
    split <;> exact .same
  | fail i =>
    unfold step
    dsimp only
    split
    · unfold failed
      split <;> exact .same
    · exact .same
  | go i =>
    unfold step
    dsimp only
    split
    · next job there =>
      unfold proceed
      split
      · exact .same
      · exact insertTask_rows
      · unfold prepared
        split <;> exact .same
      · exact transitionTask_rows
      · split <;> exact .same
      · exact .same
      · split <;> exact .same
      · exact .same
      · exact .touched
      · exact .same
      · exact .same
    · exact .same

theorem proceed_outside : (proceed cfg s i job).now = s.now ∧ (proceed cfg s i job).heartbeats = s.heartbeats := by
  unfold proceed
  split
  · exact ⟨rfl,rfl⟩
  · unfold insertTask
    split
    · exact ⟨rfl,rfl⟩
    · split <;> exact ⟨rfl,rfl⟩
  · unfold prepared
    split <;> exact ⟨rfl,rfl⟩
  · unfold transitionTask
    split
    · exact ⟨rfl,rfl⟩
    · split
      · split <;> exact ⟨rfl,rfl⟩
      · exact ⟨rfl,rfl⟩
  · split <;> exact ⟨rfl,rfl⟩
  · exact ⟨rfl,rfl⟩
  · split <;> exact ⟨rfl,rfl⟩
  · exact ⟨rfl,rfl⟩
  · exact ⟨rfl,rfl⟩
  · exact ⟨rfl,rfl⟩
  · exact ⟨rfl,rfl⟩

theorem canTransition_terminal (ended : isTerminalStatus now = true) : canTransition now target = false := by
  simp [canTransition,ended]

theorem rollbackSteps_end (now target : Status) (live : isTerminalStatus now = false) (ended : target = .rolledBack ∨ target = .rollbackFailed) :
    ∃ first, rollbackSteps now target = first ++ [target] ∧ ∀ x ∈ first, isTerminalStatus x = false := by
  rcases ended with rfl | rfl
  all_goals
    cases now <;> first
      | exact absurd live (by decide)
      | exact ⟨[.rollbackPending,.rollingBack],by decide,by decide⟩
      | exact ⟨[.rollingBack],by decide,by decide⟩
      | exact ⟨[],by decide,by decide⟩

theorem rollbackSteps_chain (now target : Status) (live : isTerminalStatus now = false) (started : now ≠ .queued)
    (ended : target = .rolledBack ∨ target = .rollbackFailed) : (now :: rollbackSteps now target).IsChain fun x y => canTransition x y = true := by
  rcases ended with rfl | rfl
  all_goals cases now <;> first | exact absurd live (by decide) | exact absurd rfl started | decide

theorem canTransition_cancelled (can : canTransition now .cancelled = true) : isCancellableStatus now = true := by
  cases now with
  | queued | downloading => rfl
  | _ => simp [canTransition,FORWARD_TRANSITIONS] at can

structure Orderly (row : UpdateTask) : Prop where
  follows : row.stored.IsChain fun later earlier => canTransition earlier later = true
  head : row.stored.head? = some row.status
  first : row.stored.getLast? = some .queued
  active : row.isActive = !isTerminalStatus row.status

theorem orderly_new (anchored : Bool) (time : Nat) : Orderly (newTask anchored time) := ⟨List.isChain_singleton _,rfl,rfl,rfl⟩

theorem orderly_moved (orderly : Orderly row) (can : canTransition row.status target = true) (patch : Patch) (time : Nat) :
    Orderly (row.moved target patch time) := by
  constructor
  · refine List.isChain_cons.mpr ⟨fun status first => ?_,orderly.follows⟩
    rw [orderly.head] at first
    cases first
    exact can
  · rfl
  · rw [show (row.moved target patch time).stored = target :: row.stored from rfl,List.getLast?_cons,orderly.first]
    rfl
  · show (if isTerminalStatus target then false else row.isActive) = !isTerminalStatus target
    have live : isTerminalStatus row.status = false := by
      by_contra ended
      rw [canTransition_terminal (by simpa using ended)] at can
      cases can
    rw [orderly.active,live]
    cases isTerminalStatus target <;> rfl

theorem findActiveTask_none (none : findActiveTask tasks = none) (there : tasks[i]? = some row) : row.isActive = false := by
  have absent := List.find?_eq_none.mp (Option.map_eq_none_iff.mp none) (row,i) (List.mem_zipIdx_iff_getElem?.mpr there)
  simpa using absent

theorem found_there {id : Nat} (found : findActiveTask tasks = some (id,row)) : tasks[id]? = some row := by
  obtain ⟨e,seen,same⟩ := Option.map_eq_some_iff.mp found
  cases same
  exact List.mem_zipIdx_iff_getElem?.mp (List.mem_of_find?_eq_some seen)

theorem begin_idle (idle : Idle s) (kind : Kind) : begin s kind = { s with jobs := s.jobs ++ [⟨kind,.finding⟩] } := by
  have quiet : (s.jobs.any fun job => job.kind = .sync && decide (job.stage ≠ .ended)) = false := by
    rw [List.any_eq_false]
    intro job member
    simp [idle job member]
  simp only [begin,quiet,Bool.and_false,Bool.false_eq_true,if_false]

theorem go_ended (ended : ∀ job ∈ s.jobs[i]?, job.stage = .ended) : step cfg s (.go i) = s := by
  unfold step
  dsimp only
  split
  · next job there =>
    unfold proceed
    rw [ended job there]
  · rfl

structure Sound (s : State) : Prop where
  orderly : ∀ row ∈ s.tasks, Orderly row
  alone : ∀ (i j : Nat) (row row' : UpdateTask), s.tasks[i]? = some row → s.tasks[j]? = some row' → row.isActive = true → row'.isActive = true → i = j

theorem sound_rows (sound : Sound s) (rows : Rows s tasks) : (∀ row ∈ tasks, Orderly row) ∧
    ∀ (i j : Nat) (row row' : UpdateTask), tasks[i]? = some row → tasks[j]? = some row' → row.isActive = true → row'.isActive = true → i = j := by
  cases rows with
  | same => exact ⟨sound.orderly,sound.alone⟩
  | @moved id row target patch there can =>
    have before : ∀ (k : Nat) (x : UpdateTask), (s.tasks.set id (row.moved target patch s.now))[k]? = some x → x.isActive = true →
        ∃ y, s.tasks[k]? = some y ∧ y.isActive = true := by
      intro k x found active
      rcases at_of_set found with ⟨rfl,rfl⟩ | ⟨_,old⟩
      · refine ⟨row,there,?_⟩
        replace active : (if isTerminalStatus target then false else row.isActive) = true := active
        split at active
        · cases active
        · exact active
      · exact ⟨x,old,active⟩
    refine ⟨fun x member => ?_,fun i j x x' found found' active active' => ?_⟩
    · rcases List.mem_or_eq_of_mem_set member with old | rfl
      · exact sound.orderly x old
      · exact orderly_moved (sound.orderly row (List.mem_of_getElem? there)) can patch s.now
    · obtain ⟨y,old,alive⟩ := before i x found active
      obtain ⟨y',old',alive'⟩ := before j x' found' active'
      exact sound.alone i j y y' old old' alive alive'
  | added free =>
    refine ⟨fun x member => ?_,fun i j x x' found found' active active' => ?_⟩
    · rcases List.mem_append.mp member with old | new
      · exact sound.orderly x old
      · rw [List.mem_singleton.mp new]
        exact orderly_new _ _
    · rcases at_of_append found with old | ⟨rfl,_⟩
      · rw [findActiveTask_none free old] at active
        cases active
      · rcases at_of_append found' with old' | ⟨rfl,_⟩
        · rw [findActiveTask_none free old'] at active'
          cases active'
        · rfl
  | @touched id =>
    have before : ∀ (k : Nat) (x : UpdateTask), (s.tasks.modify id fun row => { row with heartbeatAt := some s.now })[k]? = some x →
        ∃ y, s.tasks[k]? = some y ∧ (y = x ∨ x = { y with heartbeatAt := some s.now }) := by
      intro k x found
      rcases at_of_modify found with ⟨rfl,y,old,rfl⟩ | ⟨_,old⟩
      · exact ⟨y,old,.inr rfl⟩
      · exact ⟨x,old,.inl rfl⟩
    refine ⟨fun x member => ?_,fun i j x x' found found' active active' => ?_⟩
    · obtain ⟨k,found⟩ := List.mem_iff_getElem?.mp member
      obtain ⟨y,old,rfl | rfl⟩ := before k x found
      · exact sound.orderly y (List.mem_of_getElem? old)
      · obtain ⟨follows,head,first,alive⟩ := sound.orderly y (List.mem_of_getElem? old)
        exact ⟨follows,head,first,alive⟩
    · obtain ⟨y,old,same⟩ := before i x found
      obtain ⟨y',old',same'⟩ := before j x' found'
      refine sound.alone i j y y' old old' ?_ ?_
      · rcases same with rfl | rfl <;> exact active
      · rcases same' with rfl | rfl <;> exact active'

theorem sound_initial : Sound initial :=
  ⟨fun _ member => absurd member List.not_mem_nil,fun _ _ _ _ found => nomatch found⟩

theorem sound_step (sound : Sound s) : Sound (step cfg s l) := by
  obtain ⟨orderly,alone⟩ := sound_rows sound (step_rows cfg s l)
  exact ⟨orderly,alone⟩

/-- Whatever the order of the steps, the statuses of a task follow the machine one by one. -/
theorem statuses_obey (reach : Reachable (step cfg) (fun _ _ => True) initial s) : Obeys s := by
  have sound := reachable_invariant sound_initial (fun _ _ sound _ => sound_step sound) reach
  have pairs (row : UpdateTask) (member : row ∈ s.tasks) {x y : Status} {later earlier : List Status}
      (split : row.stored = later ++ x :: y :: earlier) : canTransition y x = true := by
    have follows := (sound.orderly row member).follows
    rw [split] at follows
    exact (List.isChain_append_cons_cons.mp follows).2.1
  refine ⟨fun row member => (sound.orderly row member).follows,fun row member => ⟨(sound.orderly row member).head,(sound.orderly row member).first⟩,
    fun row member later x earlier split ended => ?_,fun row member => (sound.orderly row member).active,sound.alone,
    fun row member later x earlier split => canTransition_cancelled (pairs row member split)⟩
  rcases List.eq_nil_or_concat later with rfl | ⟨others,y,rfl⟩
  · rfl
  · have can := pairs row member (show row.stored = others ++ y :: x :: earlier by simpa using split)
    rw [canTransition_terminal ended] at can
    cases can

end

def cancelledOnTheWay : List Label :=
  [.call (.create true),.go 0,.go 0,.call .sync,.go 1,.go 1,.go 1,.call (.cancel 0),.go 2,.go 2,.go 1,.go 1]

theorem statuses_obey_cancelled : Obeys (cancelledOnTheWay.foldl (step ⟨true,1000⟩) initial) :=
  statuses_obey (reachable_run .start cancelledOnTheWay (by decide +kernel))

end Tgtc.UpdateTasks
