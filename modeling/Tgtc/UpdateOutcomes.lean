import Mathlib.Order.Nat
import Tgtc.UpdateTasks

/-!
What is recorded of an upgrade. The executor reports how it has ended, and the poller takes the task there and writes
one record about it.
-/
namespace Tgtc.UpdateOutcomes
open Maps Runs UpdateTasks
open List (foldl_cons mem_append mem_of_getElem? mem_singleton not_mem_nil)

def reported (s : State) (id : Nat) : Option Status := (s.reports.get id).bind fun status => status.filter fun status =>
  decide (status = .succeeded) || decide (status = .rolledBack) || decide (status = .rollbackFailed)

/-- A task that has come to its end has the status that its executor has reported, and one record says so. -/
def Recorded (s : State) : Prop := ∀ id row, s.tasks[id]? = some row → isTerminalStatus row.status = true → Idle s →
  reported s id = some row.status ∧ s.outcomes.filter (fun e => e.1 = id) = [(id,row.status)]

/-- The poller may go on with the task, and does not find it timed out. -/
def Pollable (cfg : Config) (s : State) (id : Nat) (row : UpdateTask) : Prop :=
  findActiveTask s.tasks = some (id,row) ∧ row.status ≠ .queued ∧ isTerminalStatus row.status = false ∧
    s.now - row.lastSignalMs s.now ≤ cfg.taskTimeoutMs

/-- The poll that finds a report of the end takes the task there. -/
def Ends (cfg : Config) (s : State) : Prop := ∀ id row outcome, Idle s → Pollable cfg s id row → reported s id = some outcome →
  ∃ labels : List Label, (∀ l ∈ labels, l = .call .sync ∨ l = .go s.jobs.length) ∧ Idle (labels.foldl (step cfg) s) ∧
    ∃ row' : UpdateTask, (labels.foldl (step cfg) s).tasks[id]? = some row' ∧ row'.status = outcome

/-- The report of an end is the last one, nothing is cancelled, and no poll finds a task timed out. -/
def InScope (cfg : Config) (s : State) : Label → Prop
  | .report id _ => reported s id = none
  | .call (.cancel _) => False
  | .go i => ∀ job ∈ s.jobs[i]?, job = ⟨.sync,.finding⟩ → ∀ e ∈ findActiveTask s.tasks, e.2.status ≠ .queued →
      s.now - e.2.lastSignalMs s.now ≤ cfg.taskTimeoutMs
  | _ => True

def owes (stage : Stage) : Option (Nat × Status) := match stage with
  | .reloading id [] _ (.record outcome) | .recording id outcome => some (id,outcome)
  | _ => none

/-- The upgrade does not succeed, and neither is the service started anew nor does a call fail between the last status of a task and
its record. -/
def Kept (cfg : Config) (s : State) : Label → Prop
  | .report id status => reported s id = none ∧ status ≠ some .succeeded
  | .restart => ∀ job ∈ s.jobs, owes job.stage = none
  | .fail i => ∀ job ∈ s.jobs[i]?, owes job.stage = none
  | l => InScope cfg s l

instance (cfg : Config) (s : State) (l : Label) : Decidable (InScope cfg s l) := by
  cases l with
  | report id status => exact inferInstanceAs (Decidable (reported s id = none))
  | call kind =>
    cases kind with
    | cancel id => exact isFalse fun absurd => absurd
    | _ => exact isTrue trivial
  | go i =>
    exact inferInstanceAs (Decidable (∀ job ∈ s.jobs[i]?, job = ⟨.sync,.finding⟩ → ∀ e ∈ findActiveTask s.tasks, e.2.status ≠ .queued →
      s.now - e.2.lastSignalMs s.now ≤ cfg.taskTimeoutMs))
  | _ => exact isTrue trivial

instance (cfg : Config) (s : State) (l : Label) : Decidable (Kept cfg s l) := by
  cases l <;> unfold Kept <;> infer_instance

theorem path_live {target : Status} (other : target ≠ .succeeded) :
    ∀ i ∈ FORWARD_PATH.idxOf? target, ∀ x ∈ FORWARD_PATH.take (i + 1), isTerminalStatus x = false := by
  cases target <;> first | exact absurd rfl other | decide

theorem forwardSteps_live (now target : Status) (other : target ≠ .succeeded) : ∀ x ∈ forwardSteps now target, isTerminalStatus x = false := by
  intro x member
  simp only [forwardSteps] at member
  split at member
  · next toIndex _ there =>
    split_ifs at member
    · cases member
    · exact path_live other toIndex there x (List.mem_of_mem_drop member)
  · cases member

theorem rollbackSteps_live (now target : Status) (live : isTerminalStatus target = false) :
    ∀ x ∈ rollbackSteps now target, isTerminalStatus x = false := by
  intro x member
  have chained := List.mem_of_mem_take (List.mem_of_mem_drop member)
  simp only [List.mem_cons,not_mem_nil,or_false] at chained
  rcases chained with rfl | rfl | rfl
  · rfl
  · rfl
  · exact live

def Leads (reports : OrderedMap Nat (Option Status)) (id : Nat) (steps : List Status) : After → Prop
  | .record outcome => reports.get id = some (some outcome) ∧ (outcome = .rolledBack ∨ outcome = .rollbackFailed) ∧
      ∃ first, steps = first ++ [outcome] ∧ ∀ x ∈ first, isTerminalStatus x = false
  | _ => ∀ x ∈ steps, isTerminalStatus x = false

def Fits (reports : OrderedMap Nat (Option Status)) : Stage → Prop
  | .updating id _ target rest _ after => Leads reports id (target :: rest) after
  | .reloading id rest _ after => rest = [] ∨ Leads reports id rest after
  | .reading _ task => isTerminalStatus task.status = false
  | _ => True

section
variable {cfg : Config} {s : State} {i id : Nat} {job : Job} {stage : Stage} {row task : UpdateTask} {rest steps : List Status} {patch : Patch}
  {after : After} {target outcome : Status} {l : Label} {reports : OrderedMap Nat (Option Status)}

theorem owes_walk (task : UpdateTask) (patch : Patch) (leads : Leads reports id steps after) :
    owes (walk id task steps patch after) = none ∧ Fits reports (walk id task steps patch after) := by
  cases steps with
  | cons target rest => exact ⟨rfl,leads⟩
  | nil =>
    cases after with
    | record outcome =>
      obtain ⟨_,_,first,none,_⟩ := leads
      simp at none
    | nothing | touch | spawn => exact ⟨rfl,trivial⟩

theorem leads_next (leads : Leads reports id (target :: rest) after) : rest = [] ∨ Leads reports id rest after := by
  cases after with
  | record outcome =>
    obtain ⟨told,ended,first,split,live⟩ := leads
    cases first with
    | nil => exact .inl (List.cons.inj split).2
    | cons x first =>
      obtain ⟨_,rfl⟩ := List.cons.inj split
      exact .inr ⟨told,ended,first,rfl,fun y member => live y (.tail _ member)⟩
  | nothing | touch | spawn => exact .inr fun x member => leads x (.tail _ member)

structure Told (s : State) (id : Nat) (outcome : Status) : Prop where
  ended : outcome = .rolledBack ∨ outcome = .rollbackFailed
  there : ∃ row, s.tasks[id]? = some row ∧ row.status = outcome
  report : s.reports.get id = some (some outcome)

def terminalAt (tasks : List UpdateTask) (id : Nat) : Bool := tasks[id]?.any fun row => isTerminalStatus row.status

def owesFor (id : Nat) (job : Job) : Bool := (owes job.stage).any fun e => e.1 = id

def records (s : State) (id : Nat) : Nat := s.outcomes.countP (fun e => e.1 = id) + s.jobs.countP (owesFor id)

structure Sound (s : State) : Prop where
  unsucceeded : ∀ id, s.reports.get id ≠ some (some .succeeded)
  uncancelled : ∀ job ∈ s.jobs, ∀ id, job.kind ≠ .cancel id
  fits : ∀ job ∈ s.jobs, Fits s.reports job.stage
  owing : ∀ job ∈ s.jobs, ∀ e ∈ owes job.stage, Told s e.1 e.2
  written : ∀ e ∈ s.outcomes, Told s e.1 e.2
  counted : ∀ id, records s id = if terminalAt s.tasks id then 1 else 0

theorem sound_initial : Sound initial where
  unsucceeded := fun _ found => nomatch found
  uncancelled := fun _ member => absurd member not_mem_nil
  fits := fun _ member => absurd member not_mem_nil
  owing := fun _ member => absurd member not_mem_nil
  written := nofun
  counted := fun _ => rfl

variable {s' : State} {old : List Job}

theorem told_mono (rows : ∀ (id : Nat) (row : UpdateTask), s.tasks[id]? = some row → isTerminalStatus row.status = true →
      ∃ row' : UpdateTask, s'.tasks[id]? = some row' ∧ row'.status = row.status)
    (reports : ∀ (id : Nat) (outcome : Status), outcome = .rolledBack ∨ outcome = .rollbackFailed → s.reports.get id = some (some outcome) →
      s'.reports.get id = some (some outcome)) (told : Told s id outcome) : Told s' id outcome := by
  obtain ⟨ended,⟨row,there,rfl⟩,report⟩ := told
  have terminal : isTerminalStatus row.status = true := by rcases ended with same | same <;> rw [same] <;> rfl
  exact ⟨ended,rows id row there terminal,reports id _ ended report⟩

def KeepsEnds (s s' : State) : Prop := ∀ (id : Nat) (row : UpdateTask), s.tasks[id]? = some row → isTerminalStatus row.status = true →
  ∃ row' : UpdateTask, s'.tasks[id]? = some row' ∧ row'.status = row.status

section
variable (sound : Sound s) (there : s.jobs[i]? = some job)
include sound there

theorem sound_after (jobs : s'.jobs = s.jobs.set i { job with stage })
    (reports : s'.reports = s.reports) (keeps : KeepsEnds s s') (fits : Fits s.reports stage) (owing : ∀ e ∈ owes stage, Told s' e.1 e.2)
    (written : ∀ e ∈ s'.outcomes, e ∈ s.outcomes ∨ Told s' e.1 e.2)
    (counted : ∀ id, s'.outcomes.countP (fun e => e.1 = id) + s.jobs.countP (owesFor id) + (if owesFor id { job with stage } then 1 else 0) =
      (if terminalAt s'.tasks id then 1 else 0) + (if owesFor id job then 1 else 0)) : Sound s' := by
  have member := mem_of_getElem? there
  have keep {id : Nat} {outcome : Status} (told : Told s id outcome) : Told s' id outcome :=
    told_mono keeps (fun _ _ _ found => reports ▸ found) told
  constructor
  · rw [reports]
    exact sound.unsucceeded
  · rw [jobs]
    intro other listed
    rcases List.mem_or_eq_of_mem_set listed with old | rfl
    · exact sound.uncancelled other old
    · exact sound.uncancelled job member
  · rw [jobs,reports]
    intro other listed
    rcases List.mem_or_eq_of_mem_set listed with old | rfl
    · exact sound.fits other old
    · exact fits
  · rw [jobs]
    intro other listed e owed
    rcases List.mem_or_eq_of_mem_set listed with old | rfl
    · exact keep (sound.owing other old e owed)
    · exact owing e owed
  · intro e member
    rcases written e member with old | told
    · exact keep (sound.written e old)
    · exact told
  · intro id
    have replaced := countP_replace (y := { job with stage }) (owesFor id) there
    have balance := counted id
    rw [records,jobs]
    omega

theorem sound_quiet (jobs : s'.jobs = s.jobs.set i { job with stage })
    (reports : s'.reports = s.reports) (outcomes : s'.outcomes = s.outcomes) (keeps : KeepsEnds s s')
    (ends : ∀ id, terminalAt s'.tasks id = terminalAt s.tasks id) (owed : owes stage = owes job.stage) (fits : Fits s.reports stage) : Sound s' := by
  refine sound_after sound there jobs reports keeps fits (fun e owing => ?_) (by rw [outcomes]; exact fun e => .inl) fun id => ?_
  · exact told_mono keeps (fun _ _ _ found => reports ▸ found) (sound.owing job (mem_of_getElem? there) e (owed ▸ owing))
  · have counted := sound.counted id
    rw [ends,outcomes,show owesFor id { job with stage } = owesFor id job by simp only [owesFor,owed]]
    rw [records] at counted
    rw [counted]

theorem sound_goes (owed : owes stage = owes job.stage) (fits : Fits s.reports stage) : Sound (s.goes i job stage) :=
  sound_quiet sound there rfl rfl rfl (fun _ row there _ => ⟨row,there,rfl⟩) (fun _ => rfl) owed fits

theorem sound_ended (before : owes job.stage = none) : Sound (s.goes i job .ended) :=
  sound_goes sound there before.symm trivial

end

theorem applyObservedStatus_fits (sound : Sound s) (live : isTerminalStatus task.status = false) {observed : Option Status}
    (read : s.reports.get id = some observed) : owes (applyObservedStatus id task observed) = none ∧ Fits s.reports (applyObservedStatus id task observed) := by
  unfold applyObservedStatus
  split
  · exact ⟨rfl,trivial⟩
  cases observed with
  | none => exact ⟨rfl,trivial⟩
  | some target =>
    dsimp only
    have other : target ≠ .succeeded := by
      rintro rfl
      exact sound.unsucceeded id read
    split
    · next back =>
      refine owes_walk _ _ ?_
      by_cases ended : isTerminalStatus target = true
      · have goal : target = .rolledBack ∨ target = .rollbackFailed := by
          revert back ended other
          cases target <;> simp [sendsBack,isTerminalStatus]
        rw [if_pos ended]
        exact ⟨read,goal,rollbackSteps_end _ _ live goal⟩
      · rw [if_neg ended]
        exact rollbackSteps_live _ _ (by simpa using ended)
    · exact owes_walk _ _ (forwardSteps_live _ _ other)

theorem find_fits {kind : Kind} (uncancelled : ∀ id, kind ≠ .cancel id)
    (fresh : kind = .sync → ∀ e ∈ findActiveTask s.tasks, e.2.status ≠ .queued → s.now - e.2.lastSignalMs s.now ≤ cfg.taskTimeoutMs) :
    owes (find cfg s kind) = none ∧ Fits s.reports (find cfg s kind) := by
  have dispatched (id : Nat) (task : UpdateTask) : owes (dispatch cfg s id task) = none ∧ Fits s.reports (dispatch cfg s id task) := by
    unfold dispatch
    split
    · exact ⟨rfl,trivial⟩
    · split <;> exact ⟨rfl,trivial⟩
  unfold find
  cases kind with
  | create anchored =>
    dsimp only
    split <;> exact ⟨rfl,trivial⟩
  | cancel id => exact absurd rfl (uncancelled id)
  | recoverTasks =>
    dsimp only
    split
    · split
      · exact ⟨rfl,by simp [Fits,Leads,isTerminalStatus]⟩
      · exact ⟨rfl,trivial⟩
    · exact ⟨rfl,trivial⟩
  | recoverRunner =>
    dsimp only
    split
    · split
      · exact dispatched _ _
      · exact ⟨rfl,trivial⟩
    · exact ⟨rfl,trivial⟩
  | sync =>
    dsimp only
    unfold syncActiveTask
    split
    · exact ⟨rfl,trivial⟩
    next id task found =>
    split
    · exact ⟨rfl,trivial⟩
    next live =>
    split
    · exact dispatched _ _
    · next started =>
      split
      · next late => exact absurd late (Nat.not_lt.mpr (fresh rfl _ found started))
      · exact ⟨rfl,by simpa [Fits] using live⟩

theorem terminalAt_set {tasks : List UpdateTask} {row' : UpdateTask} (there : tasks[id]? = some row) (k : Nat) :
    terminalAt (tasks.set id row') k = if k = id then isTerminalStatus row'.status else terminalAt tasks k := by
  unfold terminalAt
  split
  · next here => rw [here,at_set there,Option.any_some]
  · next other => rw [List.getElem?_set_ne (Ne.symm other)]

theorem leads_end (leads : Leads reports id (target :: rest) after) (ended : isTerminalStatus target = true) :
    rest = [] ∧ after = .record target ∧ (target = .rolledBack ∨ target = .rollbackFailed) ∧ reports.get id = some (some target) := by
  cases after with
  | record outcome =>
    obtain ⟨told,goal,first,split,live⟩ := leads
    cases first with
    | nil =>
      obtain ⟨rfl,rfl⟩ := List.cons.inj split
      exact ⟨rfl,rfl,goal,told⟩
    | cons x first =>
      obtain ⟨rfl,_⟩ := List.cons.inj split
      rw [live _ (.head _)] at ended
      cases ended
  | nothing | touch | spawn =>
    rw [leads _ (.head _)] at ended
    cases ended

theorem leads_live (leads : Leads reports id (target :: rest) after) (live : isTerminalStatus target = false) (patch : Patch) :
    owes (.reloading id rest patch after) = none := by
  cases after with
  | nothing | touch | spawn => cases rest <;> rfl
  | record outcome =>
    cases rest with
    | cons x rest => rfl
    | nil =>
      obtain ⟨_,goal,first,split,_⟩ := leads
      have same : target = outcome := by simpa using congrArg List.getLast? split
      rcases goal with rfl | rfl <;> rw [same] at live <;> cases live

theorem keeps_moved (found : s.tasks[id]? = some row) (live : isTerminalStatus row.status = false) (row' : UpdateTask) :
    KeepsEnds s { s.goes i job stage with tasks := s.tasks.set id row' } := by
  intro k x at_k ended
  have other : id ≠ k := by
    rintro rfl
    cases found.symm.trans at_k
    rw [live] at ended
    cases ended
  exact ⟨x,(List.getElem?_set_ne other).trans at_k,rfl⟩

section
variable (sound : Sound s) (there : s.jobs[i]? = some job) (before : owes job.stage = none)
include sound there before

section
variable (found : s.tasks[id]? = some row) (live : isTerminalStatus row.status = false)
include found live

theorem sound_comes (goal : target = .rolledBack ∨ target = .rollbackFailed)
    (told : s.reports.get id = some (some target)) (patch : Patch) : Sound { s.goes i job (.reloading id [] patch (.record target)) with
      tasks := s.tasks.set id (row.moved target patch s.now) } := by
  have ended : isTerminalStatus target = true := by rcases goal with rfl | rfl <;> rfl
  refine sound_after sound there rfl rfl (keeps_moved found live _) (.inl rfl) ?_ (fun e => .inl) fun k => ?_
  · rintro e ⟨⟩
    exact ⟨goal,⟨_,at_set found,rfl⟩,told⟩
  · have counted := sound.counted k
    have nothing : owesFor k job = false := by simp [owesFor,before]
    have owing : owesFor k { job with stage := .reloading id [] patch (.record target) } = decide (id = k) := by simp [owesFor,owes]
    rw [owing,nothing,terminalAt_set found k]
    rw [records] at counted
    by_cases here : k = id
    · subst here
      rw [show terminalAt s.tasks k = false by rw [terminalAt,found]; exact live] at counted
      simpa [State.goes,UpdateTask.moved,ended] using counted
    · simpa [State.goes,here,Ne.symm here] using counted

theorem sound_passes (alive : isTerminalStatus target = false) (leads : Leads s.reports id (target :: rest) after) (patch : Patch) :
    Sound { s.goes i job (.reloading id rest patch after) with tasks := s.tasks.set id (row.moved target patch s.now) } := by
  refine sound_quiet sound there rfl rfl rfl (keeps_moved found live _) (fun k => ?_) ((leads_live leads alive patch).trans before.symm) (leads_next leads)
  rw [terminalAt_set found k]
  split
  · next here =>
    rw [here,terminalAt,found]
    exact alive.trans live.symm
  · rfl

end

theorem sound_transition (leads : Leads s.reports id (target :: rest) after) : Sound (transitionTask s i job id task target rest patch after) := by
  unfold transitionTask
  split
  · exact sound_ended sound there before
  next can =>
  split
  · next row found =>
    split
    · next same =>
      have live : isTerminalStatus row.status = false := by
        by_contra ended
        rw [same] at ended
        rw [canTransition_terminal (by simpa using ended)] at can
        exact can rfl
      by_cases ended : isTerminalStatus target = true
      · obtain ⟨rfl,rfl,goal,told⟩ := leads_end leads ended
        exact sound_comes sound there before found live goal told patch
      · exact sound_passes sound there before found live (by simpa using ended) leads patch
    · exact sound_ended sound there before
  · exact sound_ended sound there before

end

theorem terminalAt_append (tasks : List UpdateTask) {row : UpdateTask} (live : isTerminalStatus row.status = false) (k : Nat) :
    terminalAt (tasks ++ [row]) k = terminalAt tasks k := by
  unfold terminalAt
  rcases Nat.lt_trichotomy k tasks.length with before | rfl | after
  · rw [List.getElem?_append_left before]
  · simp [live]
  · rw [List.getElem?_eq_none (by simp; omega),List.getElem?_eq_none (by omega)]

theorem terminalAt_modify (tasks : List UpdateTask) (id k : Nat) {change : UpdateTask → UpdateTask} (same : ∀ row, (change row).status = row.status) :
    terminalAt (tasks.modify id change) k = terminalAt tasks k := by
  unfold terminalAt
  rw [List.getElem?_modify]
  cases tasks[k]? with
  | none => rfl
  | some row => by_cases here : id = k <;> simp [here,same]

section
variable (sound : Sound s) (there : s.jobs[i]? = some job)
include sound there

theorem sound_touched (before : owes job.stage = none) :
    Sound { s.goes i job .ended with tasks := s.tasks.modify id fun row => { row with heartbeatAt := some s.now } } := by
  refine sound_quiet sound there rfl rfl rfl (fun k x at_k _ => ?_) (fun k => terminalAt_modify _ _ _ fun _ => rfl) before.symm trivial
  by_cases here : k = id
  · subst here
    exact ⟨_,at_modify at_k _,rfl⟩
  · exact ⟨x,by simpa [Ne.symm here] using at_k,rfl⟩

theorem sound_recorded (owing : owes job.stage = some (id,outcome)) :
    Sound { s.goes i job .ended with outcomes := s.outcomes ++ [(id,outcome)] } := by
  have told := sound.owing job (mem_of_getElem? there) (id,outcome) owing
  refine sound_after sound there rfl rfl (fun _ row there _ => ⟨row,there,rfl⟩) trivial (nofun) (fun e written => ?_) fun k => ?_
  · rcases mem_append.mp written with old | new
    · exact .inl old
    · rw [mem_singleton.mp new]
      exact .inr { told with }
  · have counted := sound.counted k
    rw [records] at counted
    have owed : owesFor k job = decide (id = k) := by simp [owesFor,owing]
    have nothing : owesFor k { job with stage := .ended } = false := rfl
    show (s.outcomes ++ [(id,outcome)]).countP (fun e => e.1 = k) + _ + _ = (if terminalAt s.tasks k then 1 else 0) + _
    rw [owed,nothing,List.countP_append,List.countP_singleton]
    simp only [reduceCtorEq,if_false]
    omega

theorem sound_proceed (fresh : job = ⟨.sync,.finding⟩ → ∀ e ∈ findActiveTask s.tasks, e.2.status ≠ .queued → s.now - e.2.lastSignalMs s.now ≤ cfg.taskTimeoutMs) :
    Sound (proceed cfg s i job) := by
  have member := mem_of_getElem? there
  have fits := sound.fits job member
  obtain ⟨kind,stage⟩ := job
  unfold proceed
  cases stage with
  | finding =>
    obtain ⟨nothing,fitting⟩ := find_fits (s := s) (sound.uncancelled _ member) fun same => fresh (congrArg (Job.mk · .finding) same)
    exact sound_goes sound there nothing fitting
  | inserting =>
    show Sound (insertTask s i _)
    unfold insertTask
    split
    · exact sound_ended sound there rfl
    · split
      · refine sound_quiet sound there rfl rfl rfl (fun k x at_k _ => ⟨x,?_,rfl⟩) (fun k => terminalAt_append _ rfl k) rfl trivial
        exact List.getElem?_append_left (at_lt at_k) ▸ at_k
      · exact sound_ended sound there rfl
  | preparing id task =>
    show Sound (prepared s i _ id task)
    unfold prepared
    split
    · exact sound_ended sound there rfl
    have leads : Leads s.reports id (if task.status = .queued then [.downloading] else []) .spawn := by
      intro x member
      split at member
      · rw [mem_singleton.mp member]
        rfl
      · exact absurd member not_mem_nil
    obtain ⟨nothing,fitting⟩ := owes_walk task UpdateTasks.beat leads
    exact sound_quiet sound there rfl rfl rfl (fun k x at_k _ => ⟨x,at_k,rfl⟩) (fun k => rfl) nothing fitting
  | updating id task target rest patch after => exact sound_transition sound there rfl fits
  | reloading id rest patch after =>
    dsimp only
    split
    · next row found =>
      cases rest with
      | nil => cases after <;> exact sound_goes sound there rfl trivial
      | cons target rest =>
        obtain ⟨nothing,fitting⟩ := owes_walk row patch (fits.resolve_left (List.cons_ne_nil _ _))
        exact sound_goes sound there nothing fitting
    · next missing =>
      refine sound_ended sound there ?_
      cases after with
      | nothing | touch | spawn => cases rest <;> rfl
      | record outcome =>
        cases rest with
        | cons target rest => rfl
        | nil =>
          obtain ⟨row,found,_⟩ := (sound.owing _ member (id,outcome) rfl).there
          cases missing.symm.trans found
  | spawning => exact sound_quiet sound there rfl rfl rfl (fun k x at_k _ => ⟨x,at_k,rfl⟩) (fun k => rfl) rfl trivial
  | reading id task =>
    dsimp only
    split
    · next observed read =>
      obtain ⟨nothing,fitting⟩ := applyObservedStatus_fits sound fits read
      exact sound_goes sound there nothing fitting
    · exact sound_ended sound there rfl
  | checking id =>
    refine sound_goes sound there ?_ ?_
    all_goals split
    all_goals first | trivial | rfl | (split <;> trivial)
  | touching id => exact sound_touched sound there rfl
  | recording id outcome => exact sound_recorded sound there rfl
  | ended => exact sound

end

theorem sound_same (sound : Sound s) (tasks : s'.tasks = s.tasks) (jobs : s'.jobs = s.jobs) (reports : s'.reports = s.reports)
    (outcomes : s'.outcomes = s.outcomes) : Sound s' := by
  have keep {id : Nat} {outcome : Status} (told : Told s id outcome) : Told s' id outcome :=
    ⟨told.ended,tasks ▸ told.there,reports ▸ told.report⟩
  refine ⟨reports ▸ sound.unsucceeded,jobs ▸ sound.uncancelled,?_,?_,?_,fun id => ?_⟩
  · rw [jobs,reports]
    exact sound.fits
  · rw [jobs]
    exact fun job member e owing => keep (sound.owing job member e owing)
  · rw [outcomes]
    exact fun e written => keep (sound.written e written)
  · rw [records,tasks,jobs,outcomes]
    exact sound.counted id

theorem reported_end (told : s.reports.get id = some (some outcome)) (ended : outcome = .rolledBack ∨ outcome = .rollbackFailed) :
    reported s id = some outcome := by
  rcases ended with rfl | rfl <;> simp [reported,told]

theorem sound_reported {status : Option Status} (sound : Sound s) (first : reported s id = none) (other : status ≠ some .succeeded) :
    Sound { s with reports := s.reports.set id status } := by
  have kept (k : Nat) (outcome : Status) (ended : outcome = .rolledBack ∨ outcome = .rollbackFailed) (found : s.reports.get k = some (some outcome)) :
      (s.reports.set id status).get k = some (some outcome) := by
    rw [get_set_other _ _ fun same => ?_]
    · exact found
    · rw [← same,reported_end found ended] at first
      cases first
  have keep {k : Nat} {outcome : Status} (told : Told s k outcome) : Told { s with reports := s.reports.set id status } k outcome :=
    ⟨told.ended,told.there,kept k outcome told.ended told.report⟩
  have leads (k : Nat) (steps : List Status) (after : After) (found : Leads s.reports k steps after) : Leads (s.reports.set id status) k steps after := by
    cases after with
    | record outcome => exact ⟨kept k outcome found.2.1 found.1,found.2⟩
    | nothing | touch | spawn => exact found
  refine ⟨fun k => ?_,sound.uncancelled,fun job member => ?_,fun job member e owing => keep (sound.owing job member e owing),
    fun e written => keep (sound.written e written),sound.counted⟩
  · intro found
    rcases get_of_set found with ⟨_,same⟩ | ⟨_,old⟩
    · exact other same.symm
    · exact sound.unsucceeded k old
  · have fits := sound.fits job member
    revert fits
    cases job.stage with
    | updating k task target rest patch after => exact leads k _ after
    | reloading k rest patch after => exact Or.imp_right (leads k rest after)
    | _ => exact fun fits => fits

theorem sound_step (sound : Sound s) (kept : Kept cfg s l) : Sound (step cfg s l) := by
  cases l with
  | tick | beat | silence | childExit => exact sound_same sound rfl rfl rfl rfl
  | report id status => exact sound_reported sound kept.1 kept.2
  | call kind =>
    show Sound (begin s kind)
    unfold begin
    split
    · exact sound
    refine ⟨sound.unsucceeded,fun job member => ?_,fun job member => ?_,fun job member e owing => ?_,fun e written => ?_,fun id => ?_⟩
    · rcases mem_append.mp member with old | new
      · exact sound.uncancelled job old
      · rw [mem_singleton.mp new]
        rintro id rfl
        exact kept
    · rcases mem_append.mp member with old | new
      · exact sound.fits job old
      · rw [mem_singleton.mp new]
        trivial
    · rcases mem_append.mp member with old | new
      · obtain ⟨ended,row,report⟩ := sound.owing job old e owing
        exact ⟨ended,row,report⟩
      · rw [mem_singleton.mp new] at owing
        cases owing
    · obtain ⟨ended,row,report⟩ := sound.written e written
      exact ⟨ended,row,report⟩
    · have counted := sound.counted id
      rw [records] at counted ⊢
      rw [List.countP_append]
      exact counted
  | go i =>
    unfold step
    dsimp only
    split
    · next job there => exact sound_proceed sound there (kept job there)
    · exact sound
  | fail i =>
    unfold step
    dsimp only
    split
    · next job there =>
      have before := kept job there
      unfold failed
      split
      · exact sound_goes sound there before.symm trivial
      · exact sound_ended sound there before
    · exact sound
  | restart =>
    refine ⟨sound.unsucceeded,fun _ member => absurd member not_mem_nil,fun _ member => absurd member not_mem_nil,
      fun _ member => absurd member not_mem_nil,fun e written => ?_,fun id => ?_⟩
    · obtain ⟨ended,row,report⟩ := sound.written e written
      exact ⟨ended,row,report⟩
    · have counted := sound.counted id
      have nothing : s.jobs.countP (owesFor id) = 0 := by
        rw [List.countP_eq_zero]
        intro job member
        simp [owesFor,kept job member]
      rw [records,nothing] at counted
      exact counted

theorem recorded_of_sound (sound : Sound s) : Recorded s := by
  intro id row there terminal idle
  have nothing : s.jobs.countP (owesFor id) = 0 := by
    rw [List.countP_eq_zero]
    intro job member
    simp [owesFor,idle job member,owes]
  have counted := sound.counted id
  rw [records,nothing,show terminalAt s.tasks id = true by rw [terminalAt,there]; exact terminal,List.countP_eq_length_filter] at counted
  obtain ⟨e,only⟩ := List.length_eq_one_iff.mp counted
  obtain ⟨written,same⟩ := List.mem_filter.mp (only ▸ List.mem_singleton_self e)
  obtain ⟨ended,⟨row',there',status⟩,report⟩ := sound.written e written
  obtain ⟨id',outcome⟩ := e
  obtain rfl : id' = id := by simpa using same
  cases there.symm.trans there'
  rw [status]
  exact ⟨reported_end report ended,only⟩

theorem go_last (last : s.jobs = old ++ [job]) : step cfg s (.go old.length) = proceed cfg s old.length job := by
  simp [step,last]

theorem goes_last (last : s.jobs = old ++ [job]) (stage : Stage) : (s.goes old.length job stage).jobs = old ++ [{ job with stage }] := by
  simp [State.goes,last]

theorem walk_ends (cfg : Config) {kind : Kind} (steps : List Status) (s : State) (row : UpdateTask)
    (last : s.jobs = old ++ [⟨kind,walk id row steps patch (.record outcome)⟩]) (there : s.tasks[id]? = some row)
    (chain : (row.status :: steps).IsChain fun x y => canTransition x y = true) (goal : steps.getLast?.getD row.status = outcome) :
    ∃ labels : List Label, (∀ l ∈ labels, l = .go old.length) ∧ (labels.foldl (step cfg) s).jobs = old ++ [⟨kind,.ended⟩] ∧
      ∃ row' : UpdateTask, (labels.foldl (step cfg) s).tasks[id]? = some row' ∧ row'.status = outcome := by
  induction steps generalizing s row with
  | nil =>
    refine ⟨[.go old.length],by simp,?_⟩
    rw [foldl_cons,go_last last]
    exact ⟨goes_last last .ended,row,there,goal⟩
  | cons target rest ih =>
    obtain ⟨can,later⟩ := List.isChain_cons_cons.mp chain
    obtain ⟨s₁,updated,last₁,there₁⟩ : ∃ s₁, step cfg s (.go old.length) = s₁ ∧
        s₁.jobs = old ++ [⟨kind,.reloading id rest patch (.record outcome)⟩] ∧ s₁.tasks[id]? = some (row.moved target patch s.now) := by
      refine ⟨_,go_last last,?_⟩
      simp only [proceed,walk,transitionTask,can,there]
      exact ⟨goes_last last _,at_set there⟩
    obtain ⟨s₂,reloaded,last₂,there₂⟩ : ∃ s₂, step cfg s₁ (.go old.length) = s₂ ∧
        s₂.jobs = old ++ [⟨kind,walk id (row.moved target patch s.now) rest patch (.record outcome)⟩] ∧
        s₂.tasks[id]? = some (row.moved target patch s.now) := by
      refine ⟨_,go_last last₁,?_⟩
      simp only [proceed,there₁]
      exact ⟨goes_last last₁ _,there₁⟩
    have goal' : rest.getLast?.getD target = outcome := by
      rw [← goal,List.getLast?_cons]
      rfl
    obtain ⟨labels,goes,ended⟩ := ih s₂ (row.moved target patch s.now) last₂ there₂ later goal'
    refine ⟨.go old.length :: .go old.length :: labels,?_,?_⟩
    · simpa using goes
    · rw [foldl_cons,foldl_cons,updated,reloaded]
      exact ended

theorem reported_some (told : reported s id = some outcome) : s.reports.get id = some (some outcome) ∧
    (outcome = .succeeded ∨ outcome = .rolledBack ∨ outcome = .rollbackFailed) := by
  obtain ⟨status,report,kept⟩ := Option.bind_eq_some_iff.mp told
  obtain ⟨rfl,final⟩ := Option.filter_eq_some_iff.mp kept
  exact ⟨report,by simpa [or_assoc] using final⟩

theorem ends_of_sound (sound : Sound s) : Ends cfg s := by
  intro id row outcome idle pollable told
  obtain ⟨found,started,live,timely⟩ := pollable
  obtain ⟨report,goal⟩ : s.reports.get id = some (some outcome) ∧ (outcome = .rolledBack ∨ outcome = .rollbackFailed) := by
    obtain ⟨report,rfl | goal⟩ := reported_some told
    · exact absurd report (sound.unsucceeded id)
    · exact ⟨report,goal⟩
  obtain ⟨first,steps,_⟩ := rollbackSteps_end row.status outcome live goal
  have there := found_there found
  have other : row.status ≠ outcome := by
    intro same
    rw [same] at live
    rcases goal with rfl | rfl <;> cases live
  have back : sendsBack outcome = true ∧ isTerminalStatus outcome = true := by rcases goal with rfl | rfl <;> exact ⟨rfl,rfl⟩
  obtain ⟨s₁,called,last₁,there₁,report₁,now₁,found₁⟩ : ∃ s₁, step cfg s (.call .sync) = s₁ ∧ s₁.jobs = s.jobs ++ [⟨.sync,.finding⟩] ∧
      s₁.tasks[id]? = some row ∧ s₁.reports = s.reports ∧ s₁.now = s.now ∧ findActiveTask s₁.tasks = some (id,row) := by
    exact ⟨_,begin_idle idle .sync,rfl,there,rfl,rfl,found⟩
  obtain ⟨s₂,searched,last₂,there₂,report₂⟩ : ∃ s₂, step cfg s₁ (.go s.jobs.length) = s₂ ∧ s₂.jobs = s.jobs ++ [⟨.sync,.reading id row⟩] ∧
      s₂.tasks[id]? = some row ∧ s₂.reports = s.reports := by
    have search : syncActiveTask cfg s₁ = .reading id row := by
      simp only [syncActiveTask,found₁,live,started,Bool.false_eq_true,if_false]
      rw [if_neg]
      rw [now₁]
      omega
    refine ⟨_,go_last last₁,?_⟩
    simp only [proceed,UpdateTasks.find,search]
    exact ⟨goes_last last₁ _,there₁,report₁⟩
  obtain ⟨s₃,read,last₃,there₃⟩ : ∃ s₃, step cfg s₂ (.go s.jobs.length) = s₃ ∧
      s₃.jobs = s.jobs ++ [⟨.sync,walk id row (rollbackSteps row.status outcome) UpdateTasks.beat (.record outcome)⟩] ∧ s₃.tasks[id]? = some row := by
    refine ⟨_,go_last last₂,?_⟩
    simp only [proceed,report₂,report,applyObservedStatus,Option.some.injEq,other,back]
    exact ⟨goes_last last₂ _,there₂⟩
  obtain ⟨labels,goes,last,row',ended⟩ := walk_ends cfg _ s₃ row last₃ there₃ (rollbackSteps_chain _ _ live started goal) (by simp [steps])
  refine ⟨.call .sync :: .go s.jobs.length :: .go s.jobs.length :: labels,?_,?_⟩
  · simpa using fun l member => .inr (goes l member)
  · rw [foldl_cons,foldl_cons,foldl_cons,called,searched,read]
    refine ⟨?_,row',ended⟩
    intro job member
    rw [last] at member
    rcases mem_append.mp member with old | new
    · exact idle job old
    · rw [mem_singleton.mp new]

/-- Unless the upgrade succeeds, what is recorded of it is what its executor has reported. -/
theorem outcomes_recorded (reach : Reachable (step cfg) (Kept cfg) initial s) : Recorded s ∧ Ends cfg s := by
  have sound := reachable_invariant sound_initial (fun _ _ sound kept => sound_step sound kept) reach
  exact ⟨recorded_of_sound sound,ends_of_sound sound⟩

end

def polled (i : Nat) (statuses : Nat) : List Label := .call .sync :: List.replicate (2 * statuses + 4) (.go i)

/-- The service is started anew, and the task of which the executor then says that it has been taken back is on its way back already. -/
def takenBack : List Label := [Label.call (.create true),.go 0,.go 0] ++ polled 1 1 ++ [Label.childExit,.report 0 (some .migrating),.beat 0] ++ polled 2 5 ++
  [Label.restart,.tick 400000,.call .recoverTasks,.go 0,.go 0,.go 0,.report 0 (some .rolledBack)] ++ polled 1 2

theorem outcomes_recorded_takenBack : Recorded (takenBack.foldl (step ⟨true,1000000⟩) initial) ∧
    Ends ⟨true,1000000⟩ (takenBack.foldl (step ⟨true,1000000⟩) initial) :=
  outcomes_recorded (reachable_run .start takenBack (by decide +kernel))

def wellDone : List Label := [Label.call (.create true),.go 0,.go 0] ++ polled 1 1 ++ [Label.childExit,.report 0 (some .succeeded)] ++ polled 2 9

/-- No record says that an upgrade has succeeded. -/
theorem succeeded_unrecorded : ¬ ∀ s, Reachable (step ⟨true,1000000⟩) (InScope ⟨true,1000000⟩) initial s → Recorded s ∧ Ends ⟨true,1000000⟩ s := by
  intro always
  have legal : Legal (step ⟨true,1000000⟩) (InScope ⟨true,1000000⟩) initial wellDone := by decide +kernel
  have unrecorded : ¬ ∀ row ∈ (wellDone.foldl (step ⟨true,1000000⟩) initial).tasks[0]?, isTerminalStatus row.status = true →
      (∀ job ∈ (wellDone.foldl (step ⟨true,1000000⟩) initial).jobs, job.stage = .ended) →
      (wellDone.foldl (step ⟨true,1000000⟩) initial).outcomes.filter (fun e => e.1 = 0) = [(0,row.status)] := by decide +kernel
  exact unrecorded fun row there terminal idle => ((always _ (reachable_run .start _ legal)).1 0 row there terminal idle).2

end Tgtc.UpdateOutcomes
