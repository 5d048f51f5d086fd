import Tgtc.TaskOwnership

/-!
Abandoned preparations. A task whose ticket ran out or was spent in vain keeps a reservation that nobody can collect
any more.
-/
namespace Tgtc.Abandoned
open Resources Maps Runs DiskMoves Deliveries TaskMoves TaskOwnership
open DiskQueue (Disk isActive)
open DownloadTask

/-- The record holds an active reservation that no ticket can hand off. -/
def Stranded (s : TaskService) (r : DownloadTaskRecord) : Prop :=
  ∃ id, r.reservation = some id ∧ isActive s.disk id = true ∧ (r.ticket = none ∨ r.ticketExpiresAt.any (· < s.now))

def Collected (s : TaskService) : Prop := ∀ task record, recordOf s task = some record → ¬ Stranded s record

variable {s : TaskService} {task : Nat} {record : DownloadTaskRecord}

theorem recordOf_some :
    recordOf s task = some record ↔ task ∈ s.tasks ∧ s.records[task]? = some record := by
  unfold recordOf
  split
  · next member => simp [member]
  · next absent => simp [absent]

def swept (now : Nat) (r : DownloadTaskRecord) : DownloadTaskRecord :=
  if r.expiresAt < now ∧ (r.reservation.isSome ∨ r.ticket.isSome) then stripped r else r

theorem sweepTurn_records (retention : Retention) (s : TaskService) (task : Nat) :
    (sweepTurn retention s task).records = (amend s task (swept s.now)).records := by
  unfold sweepTurn
  cases found : s.records[task]? with
  | none => exact (modify_absent found _).symm
  | some record =>
    have agree : ∀ f : DownloadTaskRecord → DownloadTaskRecord, f record = swept s.now record →
        (amend s task f).records = (amend s task (swept s.now)).records := by
      intro f same
      apply List.ext_getElem?
      intro t
      by_cases here : t = task
      · subst here
        rw [records_amend found,records_amend found,same]
      · rw [records_amend_other s here,records_amend_other s here]
    have released : (if record.expiresAt < s.now ∧ (record.reservation.isSome ∨ record.ticket.isSome) then
        releaseResources s task else s).records = (amend s task (swept s.now)).records := by
      by_cases due : record.expiresAt < s.now ∧ (record.reservation.isSome ∨ record.ticket.isSome)
      · rw [if_pos due,releaseResources_records]
        exact agree stripped (by rw [swept,if_pos due])
      · rw [if_neg due,← agree id (by rw [swept,if_neg due]; rfl)]
        exact (modify_fixed fun _ _ => rfl).symm
    simp only
    split
    · exact released
    · exact released

theorem sweepTurn_now (retention : Retention) (s : TaskService) (task : Nat) :
    (sweepTurn retention s task).now = s.now := by
  unfold sweepTurn
  split
  · rfl
  simp only
  split
  · split
    · exact (releaseResources_frame s task).2
    · rfl
  · split
    · exact (releaseResources_frame s task).2
    · rfl

theorem sweepTurn_tasks (retention : Retention) (s : TaskService) (task : Nat) :
    (sweepTurn retention s task).tasks = s.tasks ∨ (sweepTurn retention s task).tasks = s.tasks.filter (· ≠ task) := by
  unfold sweepTurn
  split
  · exact .inl rfl
  next record _ =>
  have released : (if record.expiresAt < s.now ∧ (record.reservation.isSome ∨ record.ticket.isSome) then
      releaseResources s task else s).tasks = s.tasks := by
    split
    · exact releaseResources_tasks s task
    · rfl
  simp only
  split
  · exact .inr (by rw [released])
  · exact .inl released

theorem sweepTurn_fewer (retention : Retention) (s : TaskService) (task other : Nat)
    (member : other ∈ (sweepTurn retention s task).tasks) : other ∈ s.tasks := by
  rcases sweepTurn_tasks retention s task with same | left
  · rwa [same] at member
  · rw [left] at member
    exact List.mem_of_mem_filter member

theorem swept_holds {now : Nat} {r : DownloadTaskRecord} (holds : (swept now r).reservation.isSome) :
    swept now r = r ∧ ¬ r.expiresAt < now := by
  unfold swept at holds ⊢
  split at holds
  · cases holds
  · next kept =>
    refine ⟨if_neg kept,fun expired => kept ⟨expired,.inl holds⟩⟩

theorem sweepTurns_holds (retention : Retention) : ∀ (tasks : List Nat) (s : TaskService) (t : Nat) (record : DownloadTaskRecord),
    (tasks.foldl (sweepTurn retention) s).records[t]? = some record → record.reservation.isSome →
    s.records[t]? = some record ∧ (t ∈ tasks → ¬ record.expiresAt < s.now) := by
  intro tasks
  induction tasks with
  | nil => intro s t record found _; exact ⟨found,nofun⟩
  | cons task rest ih =>
    intro s t record found holds
    obtain ⟨before,later⟩ := ih (sweepTurn retention s task) t record found holds
    rw [sweepTurn_now] at later
    rw [sweepTurn_records] at before
    rcases amend_cases before with ⟨rfl,old,here,rfl⟩ | ⟨other,here⟩
    · obtain ⟨same,inTime⟩ := swept_holds holds
      rw [same]
      exact ⟨here,fun _ => inTime⟩
    · exact ⟨here,fun member => later ((List.mem_cons.mp member).resolve_left other)⟩

theorem taskMove_inactive {s' : TaskService} (move : TaskMove s s') {id : Nat} (known : id < s.disk.records.length)
    (off : isActive s.disk id = false) : id < s'.disk.records.length ∧ isActive s'.disk id = false := by
  have along : ∀ {d' : Disk}, Onward s.disk d' → id < d'.records.length ∧ isActive d' id = false :=
    fun onward => ⟨Nat.lt_of_lt_of_le known onward.longer,onward.dead id known off⟩
  cases move with
  | coordinate resources path forward | start task record found idle resources path forward => exact along (path_onward path)
  | hold task record found idle reservation d d' steps out => exact along (path_onward (steps_move_path steps out))
  | issue task =>
    have disk : (issueTicket s task).disk = s.disk := congrArg Coordinator.Service.disk (issueTicket_resources s task)
    rw [disk]
    exact ⟨known,off⟩
  | _ => exact ⟨known,off⟩

theorem taskSteps_inactive {s' : TaskService} (steps : TaskSteps s s') {id : Nat} (known : id < s.disk.records.length)
    (off : isActive s.disk id = false) : id < s'.disk.records.length ∧ isActive s'.disk id = false := by
  induction steps with
  | refl => exact ⟨known,off⟩
  | tail _ move ih => exact taskMove_inactive move ih.1 ih.2

structure Spared (task id : Nat) (record : DownloadTaskRecord) (pool : OrderedMap String DiskQueue.HandOff) (now : Nat)
    (s : TaskService) : Prop where
  found : s.records[task]? = some record
  member : task ∈ s.tasks
  apart : Elsewhere (· ≠ task) id pool now s

theorem spared_sweepTurn (retention : Retention) {id now : Nat}
    {pool : OrderedMap String DiskQueue.HandOff} (inTime : ¬ record.expiresAt < now) (s : TaskService) (t : Nat)
    (spared : Spared task id record pool now s) : Spared task id record pool now (sweepTurn retention s t) := by
  by_cases here : t = task
  · subst here
    -- Its own turn finds nothing to do.
    have idle : sweepTurn retention s t = s := by
      have early : ¬ record.expiresAt < s.now := by rwa [spared.apart.now]
      have kept : ¬ record.expiresAt + retention.ms < s.now := by
        intro long
        have least := retention.least
        exact early (by linarith)
      simp [sweepTurn,spared.found,early,kept]
    rw [idle]
    exact spared
  · refine ⟨?_,?_,elsewhere_sweepTurn retention spared.apart here⟩
    · rw [sweepTurn_records,records_amend_other s (Ne.symm here)]
      exact spared.found
    · rcases sweepTurn_tasks retention s t with same | left
      · rw [same]
        exact spared.member
      · rw [left]
        exact List.mem_filter.mpr ⟨spared.member,by simpa using Ne.symm here⟩

theorem sweep_spares (owned : Owned s) {id : Nat}
    (present : recordOf s task = some record) (inTime : ¬ record.expiresAt < s.now)
    (holds : record.reservation = some id) (live : isActive s.disk id = true) :
    recordOf (sweep s) task = some record ∧ isActive (sweep s).disk id = true ∧ (sweep s).now = s.now := by
  obtain ⟨member,found⟩ := recordOf_some.mp present
  obtain ⟨owner,_,only⟩ := one_owner owned live
  have mine : Owner.record task = owner := only _ (by simp [ownedBy,held,found,holds])
  have apart : Elsewhere (· ≠ task) id s.disk.handedOffReservations s.now s := by
    refine ⟨live,?_,rfl,rfl⟩
    intro t other has
    have same : Owner.record t = owner := only _ has
    rw [← mine] at same
    cases same
    exact other rfl
  have unpooled : ∀ key entry, s.disk.handedOffReservations.get key = some entry → entry.reservation ≠ id := by
    intro key entry pooled same
    have pool : Owner.pool key = owner := only _ (by simp [ownedBy,pooled,same])
    rw [← mine] at pool
    cases pool
  have spared : Spared task id record s.disk.handedOffReservations s.now
      (s.tasks.foldl (sweepTurn s.retention) s) := by
    have start : Spared task id record s.disk.handedOffReservations s.now s := ⟨found,member,apart⟩
    exact List.foldlRecOn s.tasks (sweepTurn s.retention) start
      (fun s' spared t _ => spared_sweepTurn s.retention inTime s' t spared)
  exact ⟨recordOf_some.mpr ⟨spared.member,spared.found⟩,
    elsewhere_purge spared.apart (fun key entry pooled same => absurd same (unpooled key entry pooled)),spared.apart.now⟩

theorem sweep_now (s : TaskService) : (sweep s).now = s.now :=
  List.foldlRecOn (motive := fun s' => s'.now = s.now) s.tasks (sweepTurn s.retention) rfl
    (fun s' same t _ => (sweepTurn_now s.retention s' t).trans same)

theorem sweep_holds (owned : Owned s)
    (present : recordOf (sweep s) task = some record) (stranded : Stranded (sweep s) record) :
    recordOf s task = some record ∧ Stranded s record ∧ ¬ record.expiresAt < s.now := by
  obtain ⟨member,found⟩ := recordOf_some.mp present
  obtain ⟨id,holds,live,uncollectable⟩ := stranded
  have before : task ∈ s.tasks :=
    List.foldlRecOn (motive := fun s' => ∀ t ∈ s'.tasks, t ∈ s.tasks) s.tasks (sweepTurn s.retention)
      (fun _ member => member) (fun s' fewer t _ other member => fewer other (sweepTurn_fewer s.retention s' t other member))
      task member
  obtain ⟨same,inTime⟩ := sweepTurns_holds s.retention s.tasks s task record found (by rw [holds]; rfl)
  have known := owned.kept.known (.record task) id (by simp [owns,held,same,holds])
  have active : isActive s.disk id = true := by
    by_contra off
    have dead := (taskSteps_inactive (sweep_steps s) known (by simpa using off)).2
    rw [live] at dead
    cases dead
  rw [sweep_now] at uncollectable
  exact ⟨recordOf_some.mpr ⟨before,same⟩,⟨id,holds,active,uncollectable⟩,inTime before⟩

/-- In every run, a sweep leaves no reservation that nobody can collect exactly when
    every task that keeps one is past its retention. -/
theorem sweep_collects_iff_expired {config : Config} {world : World} {evictionHook : Bool} {cached : String → Bool}
    {retention : Retention} {s : TaskService}
    (reach : Reachable step Allowed (fresh config world evictionHook cached retention) s) :
    Collected (sweep s) ↔ ∀ task record, recordOf s task = some record → Stranded s record → record.expiresAt < s.now := by
  obtain ⟨_,owned⟩ := reachable_owned reach
  constructor
  · intro collected task record present stranded
    by_contra inTime
    obtain ⟨id,holds,live,uncollectable⟩ := stranded
    obtain ⟨still,active,now⟩ := sweep_spares owned present inTime holds live
    rw [← now] at uncollectable
    exact collected task record still ⟨id,holds,active,uncollectable⟩
  · intro expired task record present stranded
    obtain ⟨before,wasStranded,inTime⟩ := sweep_holds owned present stranded
    exact inTime (expired task record before wasStranded)

def unattended (now : Nat) : List TaskOp := [.create (hundredBytes "user:1"),.outside (.observe (volume now 100))]

def unattendedAt (now : Nat) : TaskService := (unattended now).foldl step (started 100)

theorem unattended_legal (now : Nat) : Legal step Allowed (started 100) (unattended now) := by
  refine ⟨trivial,⟨?_,trivial⟩,trivial⟩
  show (step (started 100) (.create (hundredBytes "user:1"))).resources.world.now ≤ now
  have start : (step (started 100) (.create (hundredBytes "user:1"))).resources.world.now = 0 := by decide +kernel
  rw [start]
  exact Nat.zero_le now

/-- Past its retention the task is collected. -/
theorem unattended_collected : Collected (sweep (unattendedAt 900001)) := by
  have reach : Reachable step Allowed (started 100) (unattendedAt 900001) :=
    reachable_run .start _ (unattended_legal 900001)
  refine (sweep_collects_iff_expired reach).mpr ?_
  intro task record present _
  obtain ⟨member,found⟩ := recordOf_some.mp present
  have only : (unattendedAt 900001).tasks = [0] := by decide +kernel
  have clock : (unattendedAt 900001).now = 900001 := rfl
  have expires : ((unattendedAt 900001).records[0]?).all (fun r => r.expiresAt < 900001) = true := by decide +kernel
  rw [only,List.mem_singleton] at member
  subst member
  rw [found] at expires
  rw [clock]
  simpa using expires

/-- Its ticket has run out, and the sweep leaves the reservation with it. -/
theorem unattended_uncollected :
    Legal step Allowed (started 100) (unattended 120001) ∧ ¬ Collected (sweep (unattendedAt 120001)) := by
  refine ⟨unattended_legal 120001,fun collected => ?_⟩
  have kept : (recordOf (sweep (unattendedAt 120001)) 0).any
      (fun r => r.reservation = some 0 ∧ r.ticketExpiresAt = some 120000) = true := by decide +kernel
  have live : isActive (sweep (unattendedAt 120001)).disk 0 = true := by decide +kernel
  have clock : (sweep (unattendedAt 120001)).now = 120001 := sweep_now _
  obtain ⟨record,present,shape⟩ := (Option.any_eq_true _ _).mp kept
  obtain ⟨holds,runs⟩ := of_decide_eq_true shape
  exact collected 0 record present ⟨0,holds,live,.inr (by rw [runs,clock]; rfl)⟩

end Tgtc.Abandoned
