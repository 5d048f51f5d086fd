import Mathlib.Data.List.Dedup
import Mathlib.Data.List.Sort
import Mathlib.Data.Rat.Floor
import Tgtc.Maps
import Tgtc.Runs

/-!
The metrics of each minute and the alerts of them. Every minute one job computes the row of a minute that is over from
the access log, and another one judges that row by the rules of the alerts.
-/
namespace Tgtc.MinuteMetrics
open Maps Runs

structure AccessLog where
  createdAt : Int
  ip : String
  statusCode : Int
  responseSize : Nat
  duration : Int

/-- A row of `access_log_metrics_1min`, without its `windowTime`. -/
structure AggregatedMetrics where
  totalRequests : Nat
  qpsAvg : ℚ
  error5xxCount : Nat
  error4xxCount : Nat
  totalBandwidth : Nat
  p95Duration : ℚ
  uniqueIps : Nat
deriving DecidableEq

/-- The minute before, where `data` is the time a job may be given. -/
def windowTime (data : Option Int) (now : Int) : Int := (data.getD now - 60 * 1000) / 60000 * 60000

/-- The rows from `windowTime - 60s` on, before `windowTime`. -/
def rowsOf (log : List AccessLog) (windowTime : Int) : List AccessLog :=
  log.filter fun a => windowTime - 60 * 1000 ≤ a.createdAt && a.createdAt < windowTime

/-- `PERCENTILE_CONT(0.95)` -/
def p95 (durations : List Int) : ℚ :=
  let sorted := durations.insertionSort (· ≤ ·)
  let position : ℚ := (sorted.length - 1) * (95 / 100)
  let lower := sorted.getD ⌊position⌋.toNat 0
  let upper := sorted.getD ⌈position⌉.toNat 0
  lower + (upper - lower) * (position - ⌊position⌋)

def aggregated (rows : List AccessLog) : AggregatedMetrics where
  totalRequests := rows.length
  qpsAvg := ⌊(rows.length / 60 : ℚ) * 100 + 1 / 2⌋ / 100
  error5xxCount := rows.countP fun a => 500 ≤ a.statusCode
  error4xxCount := rows.countP fun a => 400 ≤ a.statusCode && a.statusCode < 500
  totalBandwidth := (rows.map AccessLog.responseSize).sum
  p95Duration := p95 (rows.map AccessLog.duration)
  uniqueIps := (rows.map AccessLog.ip).dedup.length

inductive Queue where
  | aggregate | evaluate
deriving DecidableEq

def Queue.attempts : Queue → Nat
  | .aggregate => 2
  | .evaluate => 3

def Queue.timeout : Queue → Int
  | .aggregate => 50 * 1000
  | .evaluate => 55 * 1000

def AGGREGATION_CATCHUP_MS : Int := 5 * 60 * 1000

inductive Stage where
  /-- `aggregate1Min` -/
  | aggregating
  | saving (row : AggregatedMetrics)
  /-- `evaluateAlerts` -/
  | reading
  | counting
  | judging (row : AggregatedMetrics)
  | ended

def Stage.queue : Stage → Option Queue
  | .aggregating | .saving _ => some .aggregate
  | .reading | .counting | .judging _ => some .evaluate
  | .ended => none

def Queue.first : Queue → Stage
  | .aggregate => .aggregating
  | .evaluate => .reading

structure Attempt where
  minute : Int
  started : Int
  stage : Stage

def Attempt.windowTime (a : Attempt) : Int := MinuteMetrics.windowTime none a.started

/-- `made` attempts have thrown. -/
structure Job where
  made : Nat
  current : Option Nat
  completed : Bool

structure State where
  log : List AccessLog
  metrics : OrderedMap Int AggregatedMetrics
  /-- what the rules have been asked about, with the `windowTime` -/
  judged : List (Int × AggregatedMetrics)
  attempts : List Attempt
  jobs : Queue → Int → Job
  now : Int

def State.job (s : State) (queue : Queue) (minute : Int) (job : Job) : State :=
  { s with jobs := fun q m => if q = queue ∧ m = minute then job else s.jobs q m }

def State.goes (s : State) (i : Nat) (a : Attempt) (stage : Stage) : State :=
  { s with attempts := s.attempts.set i { a with stage } }

def State.current (s : State) (queue : Queue) (i : Nat) (a : Attempt) : Prop := (s.jobs queue a.minute).current = some i

instance (s : State) (queue : Queue) (i : Nat) (a : Attempt) : Decidable (s.current queue i a) := by
  unfold State.current
  infer_instance

def State.ends (s : State) (queue : Queue) (i : Nat) (a : Attempt) (change : Job → Job) : State :=
  let s' := s.goes i a .ended
  if s.current queue i a then s'.job queue a.minute { change (s.jobs queue a.minute) with current := none } else s'

def State.returns (s : State) (queue : Queue) (i : Nat) (a : Attempt) : State :=
  s.ends queue i a fun job => { job with completed := true }

def State.throws (s : State) (queue : Queue) (i : Nat) (a : Attempt) : State :=
  s.ends queue i a fun job => { job with made := job.made + 1 }

inductive Label where
  | tick (ms : Nat)
  | log (ip : String) (statusCode : Int) (responseSize : Nat) (duration : Int)
  | start (queue : Queue) (minute : Int)
  | go (i : Nat)
  | fail (i : Nat)
  | timeout (queue : Queue) (minute : Int)

def go (s : State) (i : Nat) (a : Attempt) : State := match a.stage with
  | .aggregating =>
    let rows := rowsOf s.log a.windowTime
    if rows = [] then s.returns .aggregate i a else s.goes i a (.saving (aggregated rows))
  | .saving row => { s with metrics := s.metrics.set a.windowTime row }.returns .aggregate i a
  | .reading => match s.metrics.get a.windowTime with
    | some row => s.goes i a (.judging row)
    | none => if s.now - a.windowTime ≤ AGGREGATION_CATCHUP_MS then s.throws .evaluate i a else s.goes i a .counting
  | .counting => if rowsOf s.log a.windowTime = [] then s.returns .evaluate i a else s.throws .evaluate i a
  | .judging row => { s with judged := s.judged ++ [(a.windowTime,row)] }.returns .evaluate i a
  | .ended => s

def step (s : State) : Label → State
  | .tick ms => { s with now := s.now + ms }
  | .log ip statusCode responseSize duration => { s with log := s.log ++ [⟨s.now,ip,statusCode,responseSize,duration⟩] }
  | .start queue minute =>
    let s' := s.job queue minute { s.jobs queue minute with current := some s.attempts.length }
    { s' with attempts := s.attempts ++ [⟨minute,s.now,queue.first⟩] }
  | .go i => match s.attempts[i]? with
    | some a => go s i a
    | none => s
  | .fail i => match s.attempts[i]? with
    | some a => match a.stage.queue with
      | some queue => s.throws queue i a
      | none => s
    | none => s
  | .timeout queue minute =>
    s.job queue minute { s.jobs queue minute with made := (s.jobs queue minute).made + 1, current := none }

def State.settled (s : State) (queue : Queue) (minute : Int) : Prop :=
  (s.jobs queue minute).completed ∨ (s.jobs queue minute).made = queue.attempts

instance (s : State) (queue : Queue) (minute : Int) : Decidable (s.settled queue minute) :=
  inferInstanceAs (Decidable (_ ∨ _))

/-- What a queue waits for comes before the timeout, or is not taken any more. -/
def Allowed (s : State) : Label → Prop
  | .start queue minute => minute * 60000 ≤ s.now ∧ ¬s.settled queue minute ∧ (s.jobs queue minute).current = none
  | .go i | .fail i => ∃ a ∈ s.attempts[i]?,∃ queue ∈ a.stage.queue,s.current queue i a → s.now ≤ a.started + queue.timeout
  | .timeout queue minute => ∃ i ∈ (s.jobs queue minute).current,∃ a ∈ s.attempts[i]?,a.started + queue.timeout ≤ s.now
  | _ => True

instance (s : State) (l : Label) : Decidable (Allowed s l) := by
  cases l <;> unfold Allowed <;> infer_instance

def start (now : Int) : State := ⟨[],.empty,[],[],fun _ _ => ⟨0,none,false⟩,now⟩

def jobWindow (minute : Int) : Int := minute * 60000 - 60000

def State.idle (s : State) (minute : Int) : Prop := rowsOf s.log (jobWindow minute) = []

instance (s : State) (minute : Int) : Decidable (s.idle minute) := inferInstanceAs (Decidable (_ = _))

/-- Once the jobs of a minute have ended well, there is the row of exactly the requests, and it has been
judged. -/
def Measured (s : State) : Prop := ∀ minute,(s.jobs .aggregate minute).completed = true → s.settled .evaluate minute →
  if s.idle minute then (s.jobs .evaluate minute).made ≠ Queue.evaluate.attempts
  else s.metrics.get (jobWindow minute) = some (aggregated (rowsOf s.log (jobWindow minute))) ∧
    (jobWindow minute,aggregated (rowsOf s.log (jobWindow minute))) ∈ s.judged

/-- The attempt is in the minute of its job, or it is of no use there. -/
def Timely (s : State) (a : Attempt) : Prop := a.started / 60000 = a.minute ∨ s.idle a.minute

instance (s : State) (a : Attempt) : Decidable (Timely s a) := inferInstanceAs (Decidable (_ ∨ _))

def another (s : State) (minute : Int) : Prop := (s.jobs .evaluate minute).made + 1 < Queue.evaluate.attempts

instance (s : State) (minute : Int) : Decidable (another s minute) := inferInstanceAs (Decidable (_ < _))

/-- What the condition asks of the next statement of an attempt. -/
def FitStage (s : State) (a : Attempt) : Stage → Prop
  | .aggregating => rowsOf s.log a.windowTime = [] → Timely s a
  | .saving _ | .judging _ => Timely s a
  | .reading => s.metrics.get a.windowTime = none → another s a.minute
  | .counting | .ended => True

instance (s : State) (a : Attempt) (stage : Stage) : Decidable (FitStage s a stage) := by
  cases stage <;> unfold FitStage <;> infer_instance

/-- The attempt by which a job goes through is timely, and the last one of an evaluation finds a row when it looks for one and meets
no failure. -/
def Fit (s : State) : Label → Prop
  | .go i => ∀ a ∈ s.attempts[i]?,∀ queue ∈ a.stage.queue,s.current queue i a → FitStage s a a.stage
  | .fail i => ∀ a ∈ s.attempts[i]?,a.stage.queue = some .evaluate → s.current .evaluate i a → another s a.minute
  | .timeout .evaluate minute => another s minute
  | _ => True

instance (s : State) (l : Label) : Decidable (Fit s l) := by
  cases l with
  | timeout queue minute => cases queue <;> (unfold Fit; infer_instance)
  | _ => unfold Fit; infer_instance

structure Exact (log : List AccessLog) (now window : Int) (row : AggregatedMetrics) : Prop where
  past : window ≤ now
  some : rowsOf log window ≠ []
  same : row = aggregated (rowsOf log window)

def Holds (log : List AccessLog) (now : Int) (a : Attempt) : Stage → Prop
  | .saving row | .judging row => Exact log now a.windowTime row
  | _ => True

structure Started (log : List AccessLog) (now : Int) (a : Attempt) : Prop where
  began : a.minute * 60000 ≤ a.started
  started : a.started ≤ now
  holds : Holds log now a a.stage

def Left (s : State) (minute : Int) : Queue → Prop
  | .aggregate => ∃ row,s.metrics.get (jobWindow minute) = some row
  | .evaluate => ∃ row,(jobWindow minute,row) ∈ s.judged

def Through (s : State) (queue : Queue) (minute : Int) (job : Job) : Prop :=
  job.completed = true → minute * 60000 ≤ s.now ∧ (s.idle minute ∨ Left s minute queue)

structure Sound (s : State) : Prop where
  attempts : ∀ (i : Nat) (a : Attempt),s.attempts[i]? = some a → Started s.log s.now a
  counting : ∀ (i : Nat) (a : Attempt),s.attempts[i]? = some a → a.stage = .counting → ¬s.current .evaluate i a
  metrics : ∀ window row,s.metrics.get window = some row → Exact s.log s.now window row
  judged : ∀ window row,(window,row) ∈ s.judged → Exact s.log s.now window row
  through : ∀ queue minute,Through s queue minute (s.jobs queue minute)
  another : ∀ minute,(s.jobs .evaluate minute).made < Queue.evaluate.attempts

section
variable {s s' : State} {l : Label} {a : Attempt} {i : Nat} {queue : Queue} {minute window : Int} {row : AggregatedMetrics} {stage : Stage}
  {job : Job}

theorem rowsOf_append {new : AccessLog} (created : new.createdAt = s.now) (past : window ≤ s.now) :
    rowsOf (s.log ++ [new]) window = rowsOf s.log window := by
  have late : ¬new.createdAt < window := by omega
  simp [rowsOf,late]

section
variable (sound : Sound s)
include sound

theorem sound_goes (found : s.attempts[i]? = some a) (holds : Holds s.log s.now a stage)
    (counting : stage = .counting → ¬s.current .evaluate i a) : Sound (s.goes i a stage) := by
  obtain ⟨began,started,_⟩ := sound.attempts i a found
  refine ⟨fun j x there => ?_,fun j x there counts => ?_,sound.metrics,sound.judged,sound.through,sound.another⟩
  · rcases at_of_set there with ⟨rfl,rfl⟩ | ⟨_,old⟩
    · exact ⟨began,started,holds⟩
    · exact sound.attempts j x old
  · rcases at_of_set there with ⟨rfl,rfl⟩ | ⟨_,old⟩
    · exact counting counts
    · exact sound.counting j x old counts

theorem sound_job (through : Through s queue minute job)
    (waits : ∀ (i : Nat) (a : Attempt),s.attempts[i]? = some a → job.current = some i → a.stage ≠ .counting)
    (another : queue = .evaluate → job.made < Queue.evaluate.attempts) : Sound (s.job queue minute job) := by
  refine ⟨sound.attempts,fun j x there counts waited => ?_,sound.metrics,sound.judged,fun q m => ?_,fun m => ?_⟩
  · simp only [State.current,State.job] at waited
    split at waited
    · exact waits j x there waited counts
    · exact sound.counting j x there counts waited
  · simp only [State.job]
    split
    · rename_i same
      obtain ⟨rfl,rfl⟩ := same
      exact through
    · exact sound.through q m
  · simp only [State.job]
    split
    · rename_i same
      exact another same.1.symm
    · exact sound.another m

theorem sound_returns (found : s.attempts[i]? = some a)
    (left : s.current queue i a → s.idle a.minute ∨ Left s a.minute queue) : Sound (s.returns queue i a) := by
  have ended : Sound (s.goes i a .ended) := sound_goes sound found trivial nofun
  unfold State.returns State.ends
  split
  · rename_i current
    have begun : a.minute * 60000 ≤ s.now := (sound.attempts i a found).began.trans (sound.attempts i a found).started
    refine sound_job ended (fun _ => ⟨begun,left current⟩) nofun fun evaluates => ?_
    subst evaluates
    exact sound.another a.minute
  · exact ended

theorem sound_throws (found : s.attempts[i]? = some a)
    (more : queue = .evaluate → s.current queue i a → another s a.minute) : Sound (s.throws queue i a) := by
  have ended : Sound (s.goes i a .ended) := sound_goes sound found trivial nofun
  unfold State.throws State.ends
  split
  · rename_i current
    refine sound_job ended (sound.through queue a.minute) nofun fun evaluates => ?_
    subst evaluates
    exact more rfl current
  · exact ended

theorem sound_later {log : List AccessLog} {now : Int} (later : s.now ≤ now)
    (rows : ∀ window ≤ s.now,rowsOf log window = rowsOf s.log window) : Sound { s with log, now } := by
  have exact_ {window : Int} {row : AggregatedMetrics} (held : Exact s.log s.now window row) : Exact log now window row := by
    have same := rows window held.past
    exact ⟨held.past.trans later,same ▸ held.some,same ▸ held.same⟩
  have holds {a : Attempt} (stage : Stage) (held : Holds s.log s.now a stage) : Holds log now a stage := by
    cases stage with
    | saving row | judging row => exact exact_ held
    | _ => trivial
  refine ⟨fun i a there => ?_,sound.counting,fun window row found => exact_ (sound.metrics window row found),
    fun window row found => exact_ (sound.judged window row found),fun queue minute completed => ?_,sound.another⟩
  · obtain ⟨began,started,held⟩ := sound.attempts i a there
    exact ⟨began,started.trans later,holds _ held⟩
  · obtain ⟨begun,left⟩ := sound.through queue minute completed
    have same := rows (jobWindow minute) (by unfold jobWindow; omega)
    refine ⟨begun.trans later,left.imp (fun idle => same.trans idle) fun left => ?_⟩
    cases queue <;> exact left

theorem sound_saved (held : Exact s.log s.now window row) : Sound { s with metrics := s.metrics.set window row } := by
  refine ⟨sound.attempts,sound.counting,fun w x found => ?_,sound.judged,fun queue minute completed => ?_,sound.another⟩
  · rcases get_of_set found with ⟨rfl,rfl⟩ | ⟨_,old⟩
    · exact held
    · exact sound.metrics w x old
  · refine (sound.through queue minute completed).imp_right (Or.imp_right fun left => ?_)
    cases queue with
    | aggregate =>
      obtain ⟨old,found⟩ := left
      by_cases same : jobWindow minute = window
      · exact ⟨row,same ▸ get_set_same _ _ _⟩
      · exact ⟨old,(get_set_other _ _ same).trans found⟩
    | evaluate => exact left

theorem sound_judged (held : Exact s.log s.now window row) : Sound { s with judged := s.judged ++ [(window,row)] } := by
  refine ⟨sound.attempts,sound.counting,sound.metrics,fun w x found => ?_,fun queue minute completed => ?_,sound.another⟩
  · rcases List.mem_append.mp found with old | new
    · exact sound.judged w x old
    · obtain ⟨rfl,rfl⟩ := Prod.mk.inj (List.mem_singleton.mp new)
      exact held
  · refine (sound.through queue minute completed).imp_right (Or.imp_right fun left => ?_)
    cases queue with
    | aggregate => exact left
    | evaluate => exact left.imp fun old found => List.mem_append_left _ found

end

theorem windowTime_own (own : a.started / 60000 = a.minute) : a.windowTime = jobWindow a.minute := by
  simp only [Attempt.windowTime,windowTime,Option.getD_none,jobWindow]
  omega

theorem windowTime_near (a : Attempt) : a.windowTime ≤ a.started ∧ a.started - 2 * 60000 < a.windowTime := by
  simp only [Attempt.windowTime,windowTime,Option.getD_none]
  omega

theorem catches_up (timely : s.now ≤ a.started + Queue.evaluate.timeout) : s.now - a.windowTime ≤ AGGREGATION_CATCHUP_MS := by
  have near := (windowTime_near a).2
  simp only [Queue.timeout,AGGREGATION_CATCHUP_MS] at timely ⊢
  omega

theorem sound_go (sound : Sound s) (found : s.attempts[i]? = some a)
    (timely : ∀ queue ∈ a.stage.queue,s.current queue i a → s.now ≤ a.started + queue.timeout)
    (fit : ∀ queue ∈ a.stage.queue,s.current queue i a → FitStage s a a.stage) : Sound (go s i a) := by
  obtain ⟨began,started,holds⟩ := sound.attempts i a found
  unfold go
  split
  · rename_i here
    rw [here] at fit
    dsimp only
    split
    · rename_i none
      refine sound_returns sound found fun current => ?_
      rcases fit .aggregate rfl current none with own | idle
      · exact .inl ((congrArg (rowsOf s.log) (windowTime_own own).symm).trans none)
      · exact .inl idle
    · rename_i some
      exact sound_goes sound found ⟨(windowTime_near a).1.trans started,some,rfl⟩ nofun
  · rename_i row here
    rw [here] at fit holds
    refine sound_returns (sound_saved sound holds) found fun current => ?_
    rcases fit .aggregate rfl current with own | idle
    · exact .inr ⟨row,windowTime_own own ▸ get_set_same _ _ _⟩
    · exact .inl idle
  · rename_i here
    rw [here] at fit timely
    split
    · rename_i row known
      exact sound_goes sound found (sound.metrics _ row known) nofun
    · rename_i unknown
      split
      · refine sound_throws sound found fun _ current => fit .evaluate rfl current unknown
      · rename_i old
        exact sound_goes sound found trivial fun _ current => old (catches_up (timely .evaluate rfl current))
  · rename_i here
    have other := sound.counting i a found here
    split
    · exact sound_returns sound found fun current => absurd current other
    · exact sound_throws sound found fun _ current => absurd current other
  · rename_i row here
    rw [here] at fit holds
    refine sound_returns (sound_judged sound holds) found fun current => ?_
    rcases fit .evaluate rfl current with own | idle
    · exact .inr ⟨row,windowTime_own own ▸ List.mem_append_right _ (List.mem_singleton_self _)⟩
    · exact .inl idle
  · exact sound

theorem sound_step (sound : Sound s) (allowed : Allowed s l) (fit : Fit s l) : Sound (step s l) := by
  cases l with
  | tick ms => exact sound_later sound (by omega) fun _ _ => rfl
  | log ip statusCode responseSize duration => exact sound_later sound le_rfl fun _ past => rowsOf_append rfl past
  | start queue minute =>
    have held : Sound (s.job queue minute { s.jobs queue minute with current := some s.attempts.length }) := by
      refine sound_job sound (sound.through queue minute) (fun i a there same => ?_) fun evaluates => ?_
      · cases same
        have := at_lt there
        omega
      · rw [evaluates]
        exact sound.another minute
    refine ⟨fun i a there => ?_,fun i a there counts => ?_,held.metrics,held.judged,held.through,held.another⟩
    · rcases at_of_append there with old | ⟨_,rfl⟩
      · exact held.attempts i a old
      · exact ⟨allowed.1,le_rfl,by cases queue <;> trivial⟩
    · rcases at_of_append there with old | ⟨_,rfl⟩
      · exact held.counting i a old counts
      · cases queue <;> cases counts
  | go i =>
    obtain ⟨a,found,queue,about,timely⟩ := allowed
    simp only [step,Option.mem_def.mp found]
    have only (q : Queue) (known : q ∈ a.stage.queue) : q = queue := Option.mem_unique known about
    exact sound_go sound found (fun q known => by rw [only q known]; exact timely) (fit a found)
  | fail i =>
    obtain ⟨a,found,queue,about,_⟩ := allowed
    simp only [step,Option.mem_def.mp found,Option.mem_def.mp about]
    refine sound_throws sound found fun evaluates current => ?_
    subst evaluates
    exact fit a found about current
  | timeout queue minute =>
    refine sound_job sound (sound.through queue minute) nofun fun evaluates => ?_
    subst evaluates
    exact fit

theorem sound_start (now : Int) : Sound (start now) :=
  ⟨nofun,nofun,nofun,nofun,fun _ _ => nofun,fun _ => Nat.zero_lt_succ 2⟩

theorem sound_measured (sound : Sound s) : Measured s := by
  intro minute computed settled
  have judged : (s.jobs .evaluate minute).completed = true :=
    settled.resolve_right (Nat.ne_of_lt (sound.another minute))
  split
  · exact Nat.ne_of_lt (sound.another minute)
  rename_i busy
  obtain ⟨row,saved⟩ := ((sound.through .aggregate minute computed).2).resolve_left busy
  obtain ⟨row',told⟩ := ((sound.through .evaluate minute judged).2).resolve_left busy
  have same := (sound.metrics _ row saved).same
  have same' := (sound.judged _ row' told).same
  exact ⟨same ▸ saved,same' ▸ told⟩

end

/-- In every run whose steps are fit, every minute is measured. -/
theorem minutes_measured (now : Int) (s : State) (reach : Reachable step (fun s l => Allowed s l ∧ Fit s l) (start now) s) : Measured s :=
  sound_measured (reachable_invariant (sound_start now) (fun _ _ sound ok => sound_step sound ok.1 ok.2) reach)

def busyRun : List Label :=
  [Label.log "203.0.113.9" 200 512 12,.tick 120000,.start .aggregate 10,.go 0,.go 0,.start .evaluate 10,.go 1,.go 1]

theorem minutes_measured_busy : ∃ s,Reachable step (fun s l => Allowed s l ∧ Fit s l) (start 480000) s ∧
    s.judged = [(540000,aggregated [⟨480000,"203.0.113.9",200,512,12⟩])] ∧ Measured s := by
  have legal : Legal step (fun s l => Allowed s l ∧ Fit s l) (start 480000) busyRun := by decide +kernel
  have reach := reachable_run .start busyRun legal
  exact ⟨_,reach,by decide +kernel,minutes_measured 480000 _ reach⟩

/-- Nobody asks for anything, and the evaluation is tried at once, after ten seconds and after thirty more. -/
def idleRun : List Label :=
  [Label.start .aggregate 10,.go 0,.start .evaluate 10,.go 1,.tick 10000,.start .evaluate 10,.go 2,.tick 30000,.start .evaluate 10,.go 3]

theorem minutes_not_measured_idle : ¬∀ now s,Reachable step Allowed (start now) s → Measured s := by
  intro always
  have legal : Legal step Allowed (start 600000) idleRun := by decide +kernel
  have measured := always 600000 _ (reachable_run .start idleRun legal) 10 (by decide +kernel) (by decide +kernel)
  exact measured (by decide +kernel)

end Tgtc.MinuteMetrics
