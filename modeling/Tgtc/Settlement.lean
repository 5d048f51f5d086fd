import Tgtc.DiskMoves
import Tgtc.UpstreamMoves

/-!
Every waiter is settled exactly once. Grants, timeouts, aborts and shutdown race to settle the same waiter; the log
accounts for every request, for every reservation and lease, and for the wait statistics.
-/
namespace Tgtc.Settlement
open Numbers Resources Arrivals Coordinator Runs
open DiskQueue (Disk DiskEvent DiskWaitOutcome)
open UpstreamQueue (detachWaiter dropWaiter emit enqueueUpstream fresh retireLease waitingIds)
open List (countP_append map_append map_singleton mem_append mem_map mem_map_of_mem)
open UpstreamMoves (served without)

def diskNote : DiskEvent → Note
  | .answered request _ => .answered request
  | .queued request _ => .joined request
  | .left request _ => .left request
  | .heldNow _ => .other

def createsReservation (id : Nat) (event : DiskEvent) : Bool := event.grant.any (fun grant => grant.reservation = id)

def diskOutcome : DiskEvent → Option DiskWaitOutcome
  | .answered _ (.granted _) => some .granted
  | .answered _ (.adopted _) => none
  | .answered _ (.rejected failure) => DiskMoves.refusalOutcome failure
  | .left _ (.granted _) => some .granted
  | .left _ (.timeout _) => some .timeout
  | .left _ (.cancelled _) => some .cancelled
  | .left _ (.shutdown _) => some .shutdown
  | .queued _ _ | .heldNow _ => none

def waitedOut : DiskEvent → Bool
  | .left _ (.granted _) | .left _ (.timeout _) | .left _ (.cancelled _) => true
  | _ => false

structure DiskSettled (d : Disk) : Prop where
  accounted : Accounted (DiskQueue.waitingIds d) d.nextRequest (d.log.map diskNote)
  created : ∀ id, d.log.countP (createsReservation id) = if id < d.records.length then 1 else 0
  timers : ∀ id, id ∈ d.timers ↔ id ∈ DiskQueue.waitingIds d
  listeners : ∀ id ∈ d.listeners, id ∈ DiskQueue.waitingIds d
  outcomes : ∀ outcome, d.diskWaitOutcomes outcome = d.log.countP (fun event => diskOutcome event = some outcome)
  sampled : d.diskWaitSampled = d.log.countP waitedOut
  buckets : d.diskWaitHistogram.length = DiskQueue.diskWaitHistogramBucketsMs.length + 1
  histogram : d.diskWaitHistogram.sum = d.diskWaitSampled

theorem diskSettled_fresh (evictionHook : Bool) : DiskSettled (DiskQueue.fresh evictionHook) where
  accounted := accounted_nil
  created := fun _ => rfl
  timers := fun _ => Iff.rfl
  listeners := fun _ member => member
  outcomes := fun _ => rfl
  sampled := rfl
  buckets := rfl
  histogram := rfl

theorem sum_modify_succ : ∀ (counts : List Nat) (i : Nat), i < counts.length →
    (counts.modify i (· + 1)).sum = counts.sum + 1 := by
  intro counts
  induction counts with
  | nil => intro i inside; cases inside
  | cons first rest ih =>
    intro i inside
    cases i with
    | zero => simp; omega
    | succ i =>
      have later := ih i (by simpa using inside)
      simp [later]
      omega

theorem waitingIds_without (d : Disk) (id : Nat) :
    DiskQueue.waitingIds (DiskMoves.without d id) = (DiskQueue.waitingIds d).erase id :=
  map_eraseP _ id d.waitingDisk

theorem diskSettled_without {d : Disk} (settled : DiskSettled d) {id : Nat} (waits : id ∈ DiskQueue.waitingIds d)
    (event : DiskEvent) (note : diskNote event = .left id) :
    Accounted (DiskQueue.waitingIds (DiskMoves.without d id)) d.nextRequest ((d.log ++ [event]).map diskNote) ∧
    (∀ other, other ∈ (DiskMoves.without d id).timers ↔ other ∈ DiskQueue.waitingIds (DiskMoves.without d id)) ∧
      ∀ other ∈ (DiskMoves.without d id).listeners, other ∈ DiskQueue.waitingIds (DiskMoves.without d id) := by
  have distinct := inOrder_nodup settled.accounted.ordered
  rw [waitingIds_without,map_append,map_singleton,note]
  refine ⟨accounted_leave settled.accounted waits,?_,?_⟩
  · intro other
    rw [distinct.mem_erase_iff]
    simp [DiskMoves.without,DiskQueue.detachWaiter,settled.timers,and_comm]
  · intro other member
    rw [distinct.mem_erase_iff]
    simp only [DiskMoves.without,DiskQueue.detachWaiter,List.mem_filter,decide_not,Bool.not_eq_true',
      decide_eq_false_iff_not] at member
    exact ⟨member.2,settled.listeners other member.1⟩

theorem histogram_sample {d : Disk} (settled : DiskSettled d) (duration : Nat) :
    ((d.diskWaitHistogram.modify
      (DiskQueue.diskWaitHistogramBucketsMs.findIdx (fun bound => duration < bound)) (· + 1)).sum =
        d.diskWaitSampled + 1) := by
  rw [sum_modify_succ,settled.histogram]
  rw [settled.buckets]
  exact Nat.lt_succ_of_le List.findIdx_le_length

section
variable {d : Disk} (settled : DiskSettled d) (event : DiskEvent)
include settled

theorem created_silent (silent : event.grant = none) (id : Nat) :
    (d.log ++ [event]).countP (createsReservation id) = if id < d.records.length then 1 else 0 := by
  rw [countP_append,settled.created id]
  simp [createsReservation,silent]

theorem created_next {grant : DiskQueue.DiskGrant} (reports : event.grant = some grant)
    (next : grant.reservation = d.records.length) (record : DiskQueue.ReservationRecord) (id : Nat) :
    (d.log ++ [event]).countP (createsReservation id) = if id < (d.records ++ [record]).length then 1 else 0 := by
  have before := settled.created id
  rw [countP_append,before]
  rcases Nat.lt_trichotomy id d.records.length with old | rfl | beyond
  · simp [createsReservation,reports,next,old,Nat.ne_of_gt old,Nat.lt_succ_of_lt old]
  · simp [createsReservation,reports,next]
  · simp [createsReservation,reports,next,Nat.not_lt.mpr (Nat.le_of_lt beyond),Nat.ne_of_lt beyond,
      Nat.not_lt.mpr (Nat.succ_le_of_lt beyond)]

theorem outcomes_none (uncounted : diskOutcome event = none) (outcome : DiskWaitOutcome) :
    d.diskWaitOutcomes outcome = (d.log ++ [event]).countP (fun e => diskOutcome e = some outcome) := by
  rw [settled.outcomes outcome]
  simp [uncounted]

theorem outcomes_some {counted : DiskWaitOutcome} (is : diskOutcome event = some counted) (outcome : DiskWaitOutcome) :
    (if outcome = counted then d.diskWaitOutcomes outcome + 1 else d.diskWaitOutcomes outcome) =
      (d.log ++ [event]).countP (fun e => diskOutcome e = some outcome) := by
  rw [settled.outcomes outcome]
  by_cases same : outcome = counted
  · simp [is,same]
  · simp [is,same,Ne.symm same]

theorem sampled_not (unsampled : waitedOut event = false) : d.diskWaitSampled = (d.log ++ [event]).countP waitedOut := by
  rw [settled.sampled]
  simp [unsampled]

theorem sampled_once (sample : waitedOut event = true) :
    d.diskWaitSampled + 1 = (d.log ++ [event]).countP waitedOut := by
  rw [settled.sampled]
  simp [sample]

end

theorem move_diskSettled (ctx : Context) (kind : DiskMoves.Kind) (d d' : Disk) (move : DiskMoves.Move ctx kind d d')
    (settled : DiskSettled d) : DiskSettled d' := by
  have answered : ∀ event next, diskNote event = .answered next → next = d.nextRequest →
      Accounted (DiskQueue.waitingIds d) (d.nextRequest + 1) ((d.log ++ [event]).map diskNote) := by
    rintro event next note rfl
    rw [map_append,map_singleton,note]
    exact accounted_answer settled.accounted
  cases move with
  | reject _ failure uncounted =>
    exact ⟨answered _ _ rfl rfl,created_silent settled _ rfl,settled.timers,settled.listeners,
      outcomes_none settled (.answered d.nextRequest (.rejected failure)) uncounted,sampled_not settled _ rfl,
      settled.buckets,settled.histogram⟩
  | refuse _ outcome failure counted =>
    exact ⟨answered _ _ rfl rfl,created_silent settled _ rfl,settled.timers,settled.listeners,
      outcomes_some settled (.answered d.nextRequest (.rejected failure)) counted,sampled_not settled _ rfl,
      settled.buckets,settled.histogram⟩
  | adopt _ key entry found live inTime =>
    exact ⟨answered _ _ rfl rfl,created_silent settled _ rfl,settled.timers,settled.listeners,
      outcomes_none settled _ rfl,sampled_not settled _ rfl,settled.buckets,settled.histogram⟩
  | grant _ key bytes counts positive admitted =>
    exact ⟨answered _ _ rfl rfl,created_next settled _ rfl rfl _,settled.timers,settled.listeners,
      outcomes_some settled _ rfl,sampled_not settled _ rfl,settled.buckets,settled.histogram⟩
  | hold _ key bytes counts positive admitted =>
    refine ⟨?_,created_next settled _ rfl rfl _,settled.timers,settled.listeners,
      outcomes_none settled _ rfl,sampled_not settled _ rfl,settled.buckets,settled.histogram⟩
    simp only [DiskQueue.emit,map_append]
    exact accounted_other settled.accounted
  | serve _ head rest queue admitted =>
    have waits : head.id ∈ DiskQueue.waitingIds d := by simp [DiskQueue.waitingIds,queue]
    obtain ⟨accounted,timers,listeners⟩ := diskSettled_without settled waits
      (.left head.id (.granted (DiskQueue.diskGrant ctx d head.sessionKey head.bytes head.countsTowardCache))) rfl
    exact ⟨accounted,created_next settled _ rfl rfl _,timers,listeners,outcomes_some settled _ rfl,
      sampled_once settled _ rfl,(List.length_modify ..).trans settled.buckets,histogram_sample settled _⟩
  | enqueue _ o bytes positive =>
    refine ⟨?_,created_silent settled _ rfl,?_,?_,outcomes_none settled _ rfl,sampled_not settled _ rfl,
      settled.buckets,settled.histogram⟩
    · have joined := accounted_join settled.accounted
      simpa [DiskQueue.enqueueDisk,DiskQueue.ensurePollTimer,DiskQueue.emit,DiskQueue.waitingIds,diskNote] using joined
    · intro id
      have before := settled.timers id
      simp only [DiskQueue.enqueueDisk,DiskQueue.ensurePollTimer,DiskQueue.emit,DiskQueue.waitingIds,
        mem_append] at before ⊢
      rw [before]
      simp
    · intro id member
      have before := settled.listeners id
      simp only [DiskQueue.enqueueDisk,DiskQueue.ensurePollTimer,DiskQueue.emit,DiskQueue.waitingIds,
        map_append,mem_append] at before member ⊢
      split at member
      · exact .inl (before member)
      · rcases mem_append.mp member with old | new
        · exact .inl (before old)
        · exact .inr (by simpa using new)
  | leave _ waiter member outcome waited ending leaves =>
    have waits : waiter.id ∈ DiskQueue.waitingIds d := mem_map_of_mem member
    obtain ⟨accounted,timers,listeners⟩ := diskSettled_without settled waits (.left waiter.id ending) rfl
    cases leaves with
    | timeout duration e | cancelled duration e =>
      exact ⟨accounted,created_silent settled _ rfl,timers,listeners,outcomes_some settled _ rfl,
        sampled_once settled _ rfl,(List.length_modify ..).trans settled.buckets,histogram_sample settled _⟩
    | shutdown e =>
      exact ⟨accounted,created_silent settled _ rfl,timers,listeners,outcomes_some settled _ rfl,
        sampled_not settled _ rfl,settled.buckets,settled.histogram⟩
  | retire => exact ⟨settled.accounted,by simpa [DiskQueue.retire] using settled.created,settled.timers,settled.listeners,
      settled.outcomes,settled.sampled,settled.buckets,settled.histogram⟩
  | consume => exact ⟨settled.accounted,by simpa using settled.created,settled.timers,settled.listeners,
      settled.outcomes,settled.sampled,settled.buckets,settled.histogram⟩
  | _ => exact { settled with }

open UpstreamQueue (Upstream UpstreamEvent)

def upstreamNote : UpstreamEvent → Note
  | .answered request _ => .answered request
  | .queued request _ _ => .joined request
  | .left request _ => .left request

def createsLease (id : Nat) (event : UpstreamEvent) : Bool := event.grant.any (fun grant => grant.lease = id)

structure UpstreamSettled (u : Upstream) : Prop where
  accounted : Accounted (waitingIds u) u.nextRequest (u.log.map upstreamNote)
  created : ∀ id, u.log.countP (createsLease id) = if id < u.leases.length then 1 else 0
  timers : ∀ id, id ∈ u.timers ↔ id ∈ waitingIds u
  listeners : ∀ id ∈ u.listeners, id ∈ waitingIds u

theorem upstreamSettled_fresh : UpstreamSettled fresh where
  accounted := accounted_nil
  created := fun _ => rfl
  timers := fun _ => Iff.rfl
  listeners := fun _ member => member

section
variable {u : Upstream} (settled : UpstreamSettled u) (event : UpstreamEvent)
include settled

theorem lease_silent (silent : event.grant = none) (id : Nat) :
    (u.log ++ [event]).countP (createsLease id) = if id < u.leases.length then 1 else 0 := by
  rw [countP_append,settled.created id]
  simp [createsLease,silent]

theorem lease_next {grant : UpstreamQueue.LeaseGrant} (reports : event.grant = some grant)
    (next : grant.lease = u.leases.length) (record : UpstreamQueue.LeaseRecord) (id : Nat) :
    (u.log ++ [event]).countP (createsLease id) = if id < (u.leases ++ [record]).length then 1 else 0 := by
  have before := settled.created id
  rw [countP_append,before]
  rcases Nat.lt_trichotomy id u.leases.length with old | rfl | beyond
  · simp [createsLease,reports,next,old,Nat.ne_of_gt old,Nat.lt_succ_of_lt old]
  · simp [createsLease,reports,next]
  · simp [createsLease,reports,next,Nat.not_lt.mpr (Nat.le_of_lt beyond),Nat.ne_of_lt beyond,
      Nat.not_lt.mpr (Nat.succ_le_of_lt beyond)]

theorem upstreamSettled_without {id : Nat} (waits : id ∈ waitingIds u)
    (note : upstreamNote event = .left id) :
    Accounted (waitingIds (without u id)) u.nextRequest
      ((u.log ++ [event]).map upstreamNote) ∧
    (∀ other, other ∈ (without u id).timers ↔
      other ∈ waitingIds (without u id)) ∧
    ∀ other ∈ (without u id).listeners,
      other ∈ waitingIds (without u id) := by
  have distinct := inOrder_nodup settled.accounted.ordered
  have erased : waitingIds (without u id) = (waitingIds u).erase id :=
    map_eraseP _ id u.waitingUpstream
  rw [erased,map_append,map_singleton,note]
  refine ⟨accounted_leave settled.accounted waits,?_,?_⟩
  · intro other
    rw [distinct.mem_erase_iff]
    simp [without,detachWaiter,settled.timers,and_comm]
  · intro other member
    rw [distinct.mem_erase_iff]
    simp only [without,detachWaiter,List.mem_filter,decide_not,Bool.not_eq_true',
      decide_eq_false_iff_not] at member
    exact ⟨member.2,settled.listeners other member.1⟩

end

theorem move_upstreamSettled (ctx : Context) (kind : UpstreamMoves.Kind) (u u' : Upstream)
    (move : UpstreamMoves.Move ctx kind u u') (settled : UpstreamSettled u) : UpstreamSettled u' := by
  have answered : ∀ event, upstreamNote event = .answered u.nextRequest →
      Accounted (waitingIds u) (u.nextRequest + 1) ((u.log ++ [event]).map upstreamNote) := by
    intro event note
    rw [map_append,map_singleton,note]
    exact accounted_answer settled.accounted
  cases move with
  | reject _ e => exact ⟨answered _ rfl,lease_silent settled _ rfl,settled.timers,settled.listeners⟩
  | grant _ o fits => exact ⟨answered _ rfl,lease_next settled _ rfl rfl _,settled.timers,settled.listeners⟩
  | enqueue _ o =>
    refine ⟨?_,lease_silent settled _ rfl,?_,?_⟩
    · have joined := accounted_join settled.accounted
      simpa [enqueueUpstream,emit,waitingIds,upstreamNote] using joined
    · intro id
      have before := settled.timers id
      simp only [enqueueUpstream,emit,waitingIds,mem_append] at before ⊢
      rw [before]
      simp
    · intro id member
      have before := settled.listeners id
      simp only [enqueueUpstream,emit,waitingIds,map_append,
        mem_append] at before member ⊢
      split at member
      · exact .inl (before member)
      · rcases mem_append.mp member with old | new
        · exact .inl (before old)
        · exact .inr (by simpa using new)
  | weigh _ weight =>
    have same := UpstreamMoves.waitingIds_weighed u weight
    refine ⟨?_,settled.created,?_,?_⟩
    · rw [same]
      exact settled.accounted
    · rw [same]
      exact settled.timers
    · rw [same]
      exact settled.listeners
  | serve _ head rest queue reason fits =>
    have waits : head.id ∈ waitingIds u := by simp [waitingIds,queue]
    obtain ⟨accounted,timers,listeners⟩ := upstreamSettled_without settled (.left head.id (.granted _ reason)) waits rfl
    exact ⟨accounted,lease_next settled _ rfl rfl _,timers,listeners⟩
  | pass _ head rest queue policy unreserved candidate behind fits =>
    have waits : candidate.id ∈ waitingIds u := mem_map_of_mem (by simp [queue,behind])
    obtain ⟨accounted,timers,listeners⟩ :=
      upstreamSettled_without settled (.left candidate.id (.granted _ .fitSkip)) waits rfl
    have same := UpstreamMoves.waitingIds_countBypass (served ctx u candidate.id
      (UpstreamQueue.effectiveWaiterWeight ctx.config candidate.weight) .fitSkip)
    refine ⟨?_,lease_next settled _ rfl rfl _,?_,?_⟩
    · rw [same]
      exact accounted
    · rw [same]
      exact timers
    · rw [same]
      exact listeners
  | leave _ waiter member ending refusal =>
    have waits : waiter.id ∈ waitingIds u := mem_map_of_mem member
    obtain ⟨accounted,timers,listeners⟩ := upstreamSettled_without settled (.left waiter.id ending) waits rfl
    refine ⟨accounted,lease_silent settled _ ?_,timers,listeners⟩
    cases refusal <;> rfl
  | retire => exact ⟨settled.accounted,by simpa [retireLease] using settled.created,settled.timers,
      settled.listeners⟩
  | count => exact { settled with }

/-- The waiter is off the queue with its timer and listener gone, and was only queued so far. -/
structure DiskFinal (d : Disk) (w : Nat) (ending : DiskQueue.WaitEnd) : Prop where
  off : w ∉ DiskQueue.waitingIds d
  timer : w ∉ d.timers
  listener : w ∉ d.listeners
  idle : ∀ ctx, DiskQueue.timeoutCallback ctx d w = d ∧ DiskQueue.abortCallback ctx d w = d
  once : ∀ event ∈ d.log, event.request = some w → event = .left w ending ∨ ∃ info, event = .queued w info

theorem diskFinal_of_left {d : Disk} (settled : DiskSettled d) {w : Nat} {ending : DiskQueue.WaitEnd}
    (left : DiskEvent.left w ending ∈ d.log) : DiskFinal d w ending := by
  have note : Note.left w ∈ d.log.map diskNote := mem_map_of_mem left
  obtain ⟨off,leftOnce,_,unanswered⟩ := accounted_left settled.accounted note
  have nobody : DiskQueue.waiterOf d w = none := by
    apply List.find?_eq_none.mpr
    intro waiter member same
    exact off (mem_map.mpr ⟨waiter,member,by simpa using same⟩)
  refine ⟨off,fun armed => off ((settled.timers w).mp armed),fun attached => off (settled.listeners w attached),?_,?_⟩
  · intro ctx
    simp only [DiskQueue.timeoutCallback,DiskQueue.abortCallback,nobody,and_self]
  · intro event member about
    cases event with
    | answered request answer =>
      cases about
      have present : Note.answered w ∈ d.log.map diskNote := mem_map_of_mem member
      exact absurd (List.count_pos_iff.mpr present) (by omega)
    | queued request info =>
      cases about
      exact .inr ⟨info,rfl⟩
    | left request other =>
      cases about
      exact .inl (eq_of_count_one diskNote leftOnce member left rfl rfl)
    | heldNow => cases about

structure UpstreamFinal (u : Upstream) (w : Nat) (ending : UpstreamQueue.WaitEnd) : Prop where
  off : w ∉ waitingIds u
  timer : w ∉ u.timers
  listener : w ∉ u.listeners
  idle : ∀ ctx ending', dropWaiter ctx u w ending' = u
  once : ∀ event ∈ u.log, event.request = w → event = .left w ending ∨ ∃ since info, event = .queued w since info

theorem upstreamFinal_of_left {u : Upstream} (settled : UpstreamSettled u) {w : Nat} {ending : UpstreamQueue.WaitEnd}
    (left : UpstreamEvent.left w ending ∈ u.log) : UpstreamFinal u w ending := by
  have note : Note.left w ∈ u.log.map upstreamNote := mem_map_of_mem left
  obtain ⟨off,leftOnce,_,unanswered⟩ := accounted_left settled.accounted note
  have nobody : ¬ u.waitingUpstream.any (fun waiter => waiter.id = w) = true := by
    intro waits
    obtain ⟨waiter,member,same⟩ := List.any_eq_true.mp waits
    exact off (mem_map.mpr ⟨waiter,member,by simpa using same⟩)
  refine ⟨off,fun armed => off ((settled.timers w).mp armed),fun attached => off (settled.listeners w attached),?_,?_⟩
  · intro ctx ending'
    rw [dropWaiter,UpstreamQueue.removeUpstreamWaiter,if_neg nobody]
  · intro event member about
    cases event with
    | answered request answer =>
      obtain rfl : request = w := about
      have present : Note.answered request ∈ u.log.map upstreamNote := mem_map_of_mem member
      exact absurd (List.count_pos_iff.mpr present) (by omega)
    | queued request since info =>
      obtain rfl : request = w := about
      exact .inr ⟨since,info,rfl⟩
    | left request other =>
      obtain rfl : request = w := about
      exact .inl (eq_of_count_one upstreamNote leftOnce member left rfl rfl)

/-- Both halves account for their requests, for what they created and for the wait statistics, and
whoever left a queue is settled. -/
theorem waiters_settled_once (config : Config) (world : World) (evictionHook : Bool) (s : Service)
    (reach : Reachable step (fun _ _ => True) (Coordinator.fresh config world evictionHook) s) :
    DiskSettled s.disk ∧ UpstreamSettled s.upstream ∧
    (∀ w ending, DiskEvent.left w ending ∈ s.disk.log → DiskFinal s.disk w ending) ∧
    ∀ w ending, UpstreamEvent.left w ending ∈ s.upstream.log → UpstreamFinal s.upstream w ending := by
  have disk := (DiskMoves.reachable_disk (diskSettled_fresh evictionHook) move_diskSettled reach).2
  have anyKind : ∀ (t : Service) (op : Op), True → ∀ kind, UpstreamMoves.Does op kind → True :=
    fun _ _ _ _ _ => trivial
  have upstream : UpstreamSettled s.upstream :=
    UpstreamMoves.reachable_upstream upstreamSettled_fresh anyKind
      (fun ctx kind u u' _ move => move_upstreamSettled ctx kind u u' move) reach
  exact ⟨disk,upstream,fun w ending left => diskFinal_of_left disk left,
    fun w ending left => upstreamFinal_of_left upstream left⟩

def oneTimesOut : List Op :=
  [.reserve ⟨"file:1",.whole 8,false,.absent⟩,.reserve ⟨"file:2",.whole 8,false,.absent⟩,
    .observe (volume 1500 10),.diskTimeout 1,.reserve ⟨"file:3",.whole 1,false,.aborted⟩]

theorem one_wait_sampled :
    (after defaultConfig 10 oneTimesOut).disk.diskWaitSampled = 1 ∧
      (after defaultConfig 10 oneTimesOut).disk.diskWaitHistogram.sum =
        (after defaultConfig 10 oneTimesOut).disk.diskWaitSampled :=
  ⟨by decide +kernel,(waiters_settled_once defaultConfig (volume 0 10) false _
    (reachable_run .start oneTimesOut (by simp [oneTimesOut,Legal]))).1.histogram⟩

def terminated (d : Disk) : Nat :=
  d.log.countP (fun event => match event with
    | .answered _ _ | .left _ _ => true
    | _ => false)

def outcomesCounted (d : Disk) : Nat :=
  d.diskWaitOutcomes .granted + d.diskWaitOutcomes .timeout + d.diskWaitOutcomes .cancelled +
    d.diskWaitOutcomes .queueFull + d.diskWaitOutcomes .directDegrade + d.diskWaitOutcomes .shutdown

/-- A request that arrives aborted is terminated and not counted. -/
theorem aborted_request_uncounted :
    terminated (after defaultConfig 10 oneTimesOut).disk = 3 ∧
      outcomesCounted (after defaultConfig 10 oneTimesOut).disk = 2 := by
  decide +kernel

end Tgtc.Settlement
