import Tgtc.DiskMoves
import Tgtc.UpstreamLedger

/-!
No wake-up is lost. The upstream queue has no polling fallback, so each path that frees budget or changes the head has
to end in a pump: after every operation nobody who may be served fits, and once the leases go back every waiter is
served.
-/
namespace Tgtc.Wakeups
open Numbers Resources UpstreamQueue UpstreamMoves UpstreamLedger Coordinator Runs

/-- The head does not fit and, while it may be passed over, neither does any waiter in the window behind it. -/
def Quiet (ctx : Context) (u : Upstream) : Prop :=
  ∀ (head : UpstreamWaiter) (rest : List UpstreamWaiter), u.waitingUpstream = head :: rest →
    canGrantUpstream ctx.config u (effectiveWaiterWeight ctx.config head.weight) = false ∧
    (ctx.config.upstreamQueuePolicy = .boundedFit → isHeadReserved ctx head = false →
      ∀ w ∈ rest.take scanWindow, canGrantUpstream ctx.config u (effectiveWaiterWeight ctx.config w.weight) = false)

variable {u : Upstream} {ctx : Context}

theorem stuck_quiet {head : UpstreamWaiter} {rest : List UpstreamWaiter}
    (queue : u.waitingUpstream = head :: rest) (stuck : Stuck ctx u head) (unsettled : Unsettled u) : Quiet ctx u := by
  intro first others same
  rw [queue] at same
  cases same
  refine ⟨stuck.1,?_⟩
  intro policy unreserved w member
  have none_found := List.find?_eq_none.mp (stuck.2 policy unreserved) w (by simpa [queue] using member)
  have pending : w.settled = false := unsettled w (by simp [queue,List.mem_of_mem_take member])
  simpa [fitsNow,pending] using none_found

theorem length_served (ctx : Context) {id : Nat} (waits : id ∈ waitingIds u) (weight : Int)
    (reason : UpstreamGrantReason) :
    (served ctx u id weight reason).waitingUpstream.length + 1 = u.waitingUpstream.length := by
  obtain ⟨waiter,member,rfl⟩ := List.mem_map.mp waits
  have shorter := List.length_eraseP_of_mem member (p := fun w => w.id = waiter.id) (by simp)
  have positive := List.length_pos_of_mem member
  simp only [served,emit,grantUpstreamLease,without,detachWaiter]
  omega

theorem length_countBypass (u : Upstream) :
    (countBypass u).waitingUpstream.length = u.waitingUpstream.length := by
  simp [countBypass,updateHead]

theorem pumpUpstreamLoop_quiet (ctx : Context) : ∀ (rounds : Nat) (u : Upstream),
    u.waitingUpstream.length ≤ rounds → Unsettled u → Quiet ctx (pumpUpstreamLoop ctx rounds u) := by
  intro rounds
  induction rounds with
  | zero =>
    intro u short _ head rest queue
    have empty := List.length_eq_zero_iff.mp (Nat.le_zero.mp short)
    rw [pumpUpstreamLoop,empty] at queue
    cases queue
  | succ rounds ih =>
    intro u short unsettled
    rcases pumpUpstreamLoop_cases ctx rounds u with ⟨empty,same⟩ | ⟨head,rest,v,queue,rfl,turn⟩
    · intro head rest queue
      rw [same,empty] at queue
      cases queue
    · have queue' := weighed_queue queue (effectiveWaiterWeight ctx.config head.weight)
      have unsettled' := move_unsettled (@Move.weigh ctx u (effectiveWaiterWeight ctx.config head.weight)) unsettled
      have size : (weighed u (effectiveWaiterWeight ctx.config head.weight)).waitingUpstream.length ≤ rounds + 1 := by
        rw [queue']
        rw [queue] at short
        simpa using short
      rcases turn with ⟨stuck,stopped⟩ | ⟨reason,fits,next⟩ | ⟨candidate,policy,unreserved,behind,fits,next⟩
      · rw [stopped]
        exact stuck_quiet queue' stuck unsettled'
      · rw [next]
        have first : head.id ∈ waitingIds (weighed u (effectiveWaiterWeight ctx.config head.weight)) := by
          simp [waitingIds,queue']
        have shorter := length_served ctx first (effectiveWaiterWeight ctx.config head.weight) reason
        exact ih _ (by omega) (move_unsettled (@Move.serve ctx _ _ rest queue' reason fits) unsettled')
      · rw [next]
        have inside : candidate.id ∈ waitingIds (weighed u (effectiveWaiterWeight ctx.config head.weight)) :=
          List.mem_map_of_mem (by simp [queue',behind])
        have shorter := length_served ctx inside (effectiveWaiterWeight ctx.config candidate.weight) .fitSkip
        refine ih _ (by rw [length_countBypass]; omega) ?_
        exact move_unsettled (@Move.pass ctx _ _ rest queue' policy unreserved candidate behind fits) unsettled'

theorem pumpUpstream_quiet (ctx : Context) (u : Upstream) (unsettled : Unsettled u) : Quiet ctx (pumpUpstream ctx u) :=
  pumpUpstreamLoop_quiet ctx _ u (le_refl _) unsettled

theorem canGrantUpstream_antitone {c : Config} {u' : Upstream} {weight : Int}
    (more : u.activeUpstreamWeight ≤ u'.activeUpstreamWeight) (full : canGrantUpstream c u weight = false) :
    canGrantUpstream c u' weight = false := by
  unfold canGrantUpstream at *
  cases budget : currentUpstreamBudget c with
  | none => simp [budget,within] at full
  | some n =>
    simp only [budget,within,decide_eq_false_iff_not] at full ⊢
    omega

theorem quiet_more {u' : Upstream} (quiet : Quiet ctx u)
    (queue : u'.waitingUpstream = u.waitingUpstream) (more : u.activeUpstreamWeight ≤ u'.activeUpstreamWeight) :
    Quiet ctx u' := by
  intro head rest shape
  obtain ⟨headFull,othersFull⟩ := quiet head rest (queue ▸ shape)
  refine ⟨canGrantUpstream_antitone more headFull,?_⟩
  intro policy unreserved w member
  exact canGrantUpstream_antitone more (othersFull policy unreserved w member)

theorem effectiveWaiterWeight_resolved (c : Config) (o : AcquireUpstreamOptions) :
    effectiveWaiterWeight c (resolveUpstreamWeight c o) = resolveUpstreamWeight c o := by
  obtain ⟨positive,budgeted⟩ := resolveUpstreamWeight_budget c o
  unfold effectiveWaiterWeight
  rw [if_neg (by omega),max_eq_right positive]
  cases budget : currentUpstreamBudget c with
  | none => rfl
  | some n =>
    rw [budget] at budgeted
    exact min_eq_left (of_decide_eq_true budgeted)

theorem quiet_enqueue (quiet : Quiet ctx u) (o : AcquireUpstreamOptions)
    (full : canGrantUpstream ctx.config u (resolveUpstreamWeight ctx.config o) = false) :
    Quiet ctx (enqueueUpstream ctx u o (resolveUpstreamWeight ctx.config o)) := by
  intro head rest shape
  have queue : (enqueueUpstream ctx u o (resolveUpstreamWeight ctx.config o)).waitingUpstream =
      u.waitingUpstream ++ [⟨u.nextRequest,ctx.world.now,resolveUpstreamWeight ctx.config o,
        effectiveWaiterWeight ctx.config (resolveUpstreamWeight ctx.config o),0,false⟩] := rfl
  have joins : canGrantUpstream ctx.config u
      (effectiveWaiterWeight ctx.config (resolveUpstreamWeight ctx.config o)) = false := by
    rw [effectiveWaiterWeight_resolved]
    exact full
  rw [queue] at shape
  cases before : u.waitingUpstream with
  | nil =>
    rw [before] at shape
    cases shape
    exact ⟨joins,fun _ _ w member => by simp at member⟩
  | cons first others =>
    rw [before,List.cons_append] at shape
    cases shape
    obtain ⟨headFull,othersFull⟩ := quiet head others before
    refine ⟨headFull,?_⟩
    intro policy unreserved w member
    rw [List.take_append] at member
    rcases List.mem_append.mp member with old | new
    · exact othersFull policy unreserved w old
    · rw [List.mem_singleton.mp (List.mem_of_mem_take new)]
      exact joins

theorem quiet_later {config : Config} {world later : World} (quiet : Quiet ⟨config,world⟩ u)
    (forward : world.now ≤ later.now) : Quiet ⟨config,later⟩ u := by
  intro head rest shape
  obtain ⟨headFull,othersFull⟩ := quiet head rest shape
  refine ⟨headFull,?_⟩
  intro policy unreserved
  apply othersFull policy
  simp only [isHeadReserved,Bool.or_eq_false_iff,decide_eq_false_iff_not] at unreserved ⊢
  omega

theorem quiet_empty (ctx : Context) (empty : u.waitingUpstream = []) : Quiet ctx u := by
  intro head rest shape
  rw [empty] at shape
  cases shape

theorem releaseLease_quiet (id : Nat) (unsettled : Unsettled u) (quiet : Quiet ctx u) :
    Quiet ctx (releaseLease ctx u id) := by
  unfold releaseLease
  split
  · exact quiet
  · split
    · exact quiet
    · exact pumpUpstream_quiet ctx _ unsettled

theorem dropWaiter_quiet (request : Nat) (ending : WaitEnd) (unsettled : Unsettled u)
    (quiet : Quiet ctx u) : Quiet ctx (dropWaiter ctx u request ending) := by
  unfold dropWaiter removeUpstreamWaiter
  split
  · exact quiet
  · next removed eq =>
    split at eq
    · cases eq
      exact pumpUpstream_quiet ctx _ (fun w member => unsettled w (List.mem_of_mem_eraseP member))
    · cases eq

theorem step_quiet (s : Service) (op : Op) (forward : Forward s op) (unsettled : Unsettled s.upstream)
    (quiet : Quiet s.ctx s.upstream) : Quiet (step s op).ctx (step s op).upstream := by
  cases op with
  | observe world => exact quiet_later quiet forward
  | acquireUpstreamSlot o =>
    show Quiet s.ctx (acquireUpstreamSlot s.ctx s.shuttingDown s.upstream o)
    rcases acquireUpstreamSlot_cases s.ctx s.shuttingDown s.upstream o with
      ⟨e,rejected⟩ | ⟨_,_,_,granted⟩ | ⟨_,full,queued⟩
    · rw [rejected]
      exact quiet_more quiet rfl (le_refl _)
    · rw [granted]
      refine quiet_more quiet rfl ?_
      have positive := (resolveUpstreamWeight_budget s.ctx.config o).1
      show _ ≤ s.upstream.activeUpstreamWeight + resolveUpstreamWeight s.ctx.config o
      omega
    · rw [queued]
      exact quiet_enqueue quiet o full
  | releaseLease id => exact releaseLease_quiet id unsettled quiet
  | upstreamTimeout request =>
    show Quiet s.ctx (fireTimer s.ctx s.upstream request)
    unfold fireTimer
    split
    · exact dropWaiter_quiet request _ unsettled quiet
    · exact quiet
  | upstreamAbort request =>
    show Quiet s.ctx (fireAbort s.ctx s.upstream request)
    unfold fireAbort
    split
    · exact dropWaiter_quiet request _ unsettled quiet
    · exact quiet
  | configure update => exact pumpUpstream_quiet _ s.upstream unsettled
  | shutdown =>
    rw [step,Coordinator.shutdown]
    split
    · exact quiet
    · exact quiet_empty _ (shutdown_queue s.upstream)
  | setActiveUpstreamCount value => exact pumpUpstream_quiet _ _ unsettled
  | handOffToSession key id =>
    rw [step]
    split
    · exact quiet
    · exact quiet
  | _ => exact quiet

def Granted (u : Upstream) (id : Nat) : Prop :=
  ∃ grant reason, UpstreamEvent.left id (.granted grant reason) ∈ u.log

def WaitsOrGranted (waiting : List Nat) (u : Upstream) : Prop := ∀ id ∈ waiting, id ∈ waitingIds u ∨ Granted u id

theorem mem_waitingIds_without {id other : Nat} (waits : id ∈ waitingIds u) (different : id ≠ other) :
    id ∈ waitingIds (without u other) := by
  obtain ⟨waiter,member,rfl⟩ := List.mem_map.mp waits
  exact List.mem_map_of_mem ((List.mem_eraseP_of_neg (by simpa using different)).mpr member)

theorem waitsOrGranted_served {waiting : List Nat} (before : WaitsOrGranted waiting u)
    (id : Nat) (weight : Int) (reason : UpstreamGrantReason) :
    WaitsOrGranted waiting (served ctx u id weight reason) := by
  intro other member
  by_cases here : other = id
  · subst here
    exact .inr ⟨_,reason,List.mem_append_right _ (List.mem_singleton.mpr rfl)⟩
  · rcases before other member with waits | ⟨grant,why,logged⟩
    · exact .inl (mem_waitingIds_without waits here)
    · exact .inr ⟨grant,why,List.mem_append_left _ logged⟩

theorem pumpUpstreamLoop_serves (waiting : List Nat) (ctx : Context) : ∀ (rounds : Nat) (u : Upstream),
    WaitsOrGranted waiting u →
    WaitsOrGranted waiting (pumpUpstreamLoop ctx rounds u) ∧
      (pumpUpstreamLoop ctx rounds u).upstreamLeases.length +
        (pumpUpstreamLoop ctx rounds u).waitingUpstream.length =
          u.upstreamLeases.length + u.waitingUpstream.length := by
  intro rounds
  induction rounds with
  | zero => intro u before; exact ⟨before,rfl⟩
  | succ rounds ih =>
    intro u before
    rcases pumpUpstreamLoop_cases ctx rounds u with ⟨empty,same⟩ | ⟨head,rest,v,queue,weighing,turn⟩
    · rw [same]
      exact ⟨before,rfl⟩
    have ids : waitingIds v = waitingIds u := by rw [weighing,waitingIds_weighed]
    have leases : v.upstreamLeases = u.upstreamLeases := by rw [weighing]; rfl
    have log : v.log = u.log := by rw [weighing]; rfl
    have size : v.waitingUpstream.length = u.waitingUpstream.length := by
      rw [weighing,weighed_queue queue,queue]
      rfl
    have before' : WaitsOrGranted waiting v := by
      intro id member
      have old := before id member
      rw [ids]
      unfold Granted at old ⊢
      rw [log]
      exact old
    rcases turn with ⟨_,stopped⟩ | ⟨reason,fits,next⟩ | ⟨candidate,policy,unreserved,behind,fits,next⟩
    · rw [stopped,leases,size]
      exact ⟨before',rfl⟩
    · rw [next]
      have first : head.id ∈ waitingIds v := by rw [ids]; simp [waitingIds,queue]
      have shorter := length_served ctx first (effectiveWaiterWeight ctx.config head.weight) reason
      obtain ⟨after,balance⟩ := ih _ (waitsOrGranted_served before' head.id _ reason)
      refine ⟨after,balance.trans ?_⟩
      simp only [served,emit,grantUpstreamLease,without,detachWaiter,List.length_append,List.length_singleton,leases]
        at shorter ⊢
      omega
    · rw [next]
      have inside : candidate.id ∈ waitingIds v := by
        rw [ids]
        exact List.mem_map_of_mem (by simp [queue,behind])
      have shorter := length_served ctx inside (effectiveWaiterWeight ctx.config candidate.weight) .fitSkip
      have passed : WaitsOrGranted waiting (countBypass (served ctx v candidate.id
          (effectiveWaiterWeight ctx.config candidate.weight) .fitSkip)) := by
        intro id member
        rw [waitingIds_countBypass]
        exact waitsOrGranted_served before' candidate.id _ .fitSkip id member
      obtain ⟨after,balance⟩ := ih _ passed
      refine ⟨after,balance.trans ?_⟩
      rw [length_countBypass]
      simp only [countBypass,updateHead,served,emit,grantUpstreamLease,without,detachWaiter,List.length_append,
        List.length_singleton,leases] at shorter ⊢
      omega

theorem releaseLease_serves {waiting : List Nat} (ctx : Context) (ledger : Ledger u) (id : Nat)
    (before : WaitsOrGranted waiting u) :
    WaitsOrGranted waiting (releaseLease ctx u id) ∧
      (id ∈ u.upstreamLeases →
        (releaseLease ctx u id).upstreamLeases.length + (releaseLease ctx u id).waitingUpstream.length + 1 =
          u.upstreamLeases.length + u.waitingUpstream.length) := by
  unfold releaseLease
  cases found : u.leases[id]? with
  | none =>
    refine ⟨before,fun member => ?_⟩
    have known := ledger.known id member
    rw [List.getElem?_eq_getElem known] at found
    cases found
  | some record =>
    cases active : record.active with
    | false =>
      simp only [active]
      refine ⟨before,fun member => ?_⟩
      rw [(ledger.live id record found).mp member] at active
      cases active
    | true =>
      simp only [active,Bool.not_true,Bool.false_eq_true,↓reduceIte]
      obtain ⟨after,balance⟩ := pumpUpstreamLoop_serves waiting ctx (retireLease u id record).waitingUpstream.length
        (retireLease u id record) before
      refine ⟨after,fun member => ?_⟩
      have shorter := length_filter_ne ledger.distinct member
      simp only [pumpUpstream]
      rw [balance]
      simp only [retireLease]
      omega

structure Rested (s : Service) : Prop where
  unsettled : Unsettled s.upstream
  ledger : Ledger s.upstream
  quiet : Quiet s.ctx s.upstream

theorem step_rested (s : Service) (op : Op) (rested : Rested s) (forward : Forward s op) (noHook : NoHook s op) :
    Rested (step s op) := by
  have path := UpstreamMoves.step_path s op rested.unsettled
  refine ⟨?_,?_,step_quiet s op forward rested.unsettled rested.quiet⟩
  · exact chain_invariant path (fun _ _ _ _ move => move_unsettled move) rested.unsettled
  · exact chain_invariant path (fun kind u u' does move => move_ledger _ kind u u' (noHook_does noHook does) move)
      rested.ledger

theorem empty_of_no_leases {s : Service} (rested : Rested s) (returned : s.upstream.upstreamLeases = []) :
    s.upstream.waitingUpstream = [] := by
  cases queue : s.upstream.waitingUpstream with
  | nil => rfl
  | cons head rest =>
    have full := (rested.quiet head rest queue).1
    have free : s.upstream.activeUpstreamWeight = 0 := by
      rw [rested.ledger.weighed,returned]
      rfl
    have fits := (effectiveWaiterWeight_budget s.ctx.config head.weight).2
    rw [canGrantUpstream,free,zero_add,fits] at full
    cases full

def returnLeases (s : Service) (ids : List Nat) : Service := (ids.map Op.releaseLease).foldl step s

theorem returnLeases_serves {waiting : List Nat} : ∀ (ids : List Nat) (s : Service), Rested s →
    WaitsOrGranted waiting s.upstream →
    Rested (returnLeases s ids) ∧ WaitsOrGranted waiting (returnLeases s ids).upstream := by
  intro ids
  induction ids with
  | nil => intro s rested before; exact ⟨rested,before⟩
  | cons id later ih =>
    intro s rested before
    exact ih _ (step_rested s (.releaseLease id) rested trivial trivial)
      (releaseLease_serves s.ctx rested.ledger id before).1

theorem returnLeases_all : ∀ (n : Nat) (s : Service), Rested s →
    s.upstream.upstreamLeases.length + s.upstream.waitingUpstream.length ≤ n →
    ∃ ids, (returnLeases s ids).upstream.upstreamLeases = [] := by
  intro n
  induction n with
  | zero =>
    intro s _ few
    have none_held : s.upstream.upstreamLeases = [] := List.length_eq_zero_iff.mp (by omega)
    exact ⟨[],none_held⟩
  | succ n ih =>
    intro s rested few
    cases held : s.upstream.upstreamLeases with
    | nil => exact ⟨[],held⟩
    | cons id others =>
      have fewer := (releaseLease_serves s.ctx rested.ledger id (fun _ member => .inl member)).2 (by simp [held])
      obtain ⟨ids,returned⟩ := ih (step s (.releaseLease id)) (step_rested s _ rested trivial trivial)
        (by
          show (releaseLease s.ctx s.upstream id).upstreamLeases.length +
            (releaseLease s.ctx s.upstream id).waitingUpstream.length ≤ n
          omega)
      exact ⟨id :: ids,returned⟩

def Armed (d : DiskQueue.Disk) : Prop := d.waitingDisk ≠ [] → d.pollTimer = true

theorem path_armed {kinds : DiskMoves.Kind → Prop} (running : ¬ kinds .halted) {d d' : DiskQueue.Disk}
    (path : DiskMoves.Path ctx kinds d d') (armed : Armed d) : Armed d' := by
  refine chain_invariant path (fun kind t t' among move before => ?_) armed
  cases move with
  | enqueue => intro _; rfl
  | serve _ head rest queue => intro _; exact before (by simp [queue])
  | leave _ waiter member => intro _; exact before (List.ne_nil_of_mem member)
  | rest _ queue => intro waits; exact absurd queue waits
  | halt => exact absurd among running
  | _ => exact before

theorem path_empty {kinds : DiskMoves.Kind → Prop} (unjoined : ¬ kinds .joined) {d d' : DiskQueue.Disk}
    (path : DiskMoves.Path ctx kinds d d') (empty : d.waitingDisk = []) : d'.waitingDisk = [] := by
  induction path with
  | refl => exact empty
  | tail _ change before =>
    obtain ⟨kind,among,move⟩ := change
    cases move with
    | enqueue => exact absurd among unjoined
    | serve _ head rest queue => rw [before] at queue; cases queue
    | leave _ waiter member => rw [before] at member; cases member
    | _ => exact before

structure Polled (s : Service) : Prop where
  unsettled : DiskMoves.Unsettled s.disk
  armed : Armed s.disk
  closed : s.shuttingDown = true → s.disk.waitingDisk = []

/-- `reset` comes after a shutdown. -/
def ResetWhenDown (s : Service) : Op → Prop
  | .reset => s.shuttingDown = true
  | _ => True

theorem step_polled (s : Service) (op : Op) (polled : Polled s) (orderly : ResetWhenDown s op) :
    Polled (step s op) := by
  have path := DiskMoves.step_path s op polled.unsettled
  have unsettled := DiskMoves.path_unsettled path polled.unsettled
  cases op with
  | shutdown =>
    refine ⟨unsettled,?_,?_⟩
    · rw [step,Coordinator.shutdown]
      split
      · exact polled.armed
      · intro waits
        exact absurd (DiskMoves.shutdown_queue s.ctx s.disk) waits
    · rw [step,Coordinator.shutdown]
      split
      · exact polled.closed
      · intro _
        exact DiskMoves.shutdown_queue s.ctx s.disk
  | reset =>
    refine ⟨unsettled,?_,(by intros; contradiction)⟩
    intro waits
    exact absurd (polled.closed orderly) waits
  | reserve o =>
    refine ⟨unsettled,path_armed id path polled.armed,?_⟩
    intro down
    have down' : s.shuttingDown = true := down
    show (DiskQueue.reserve s.ctx s.shuttingDown s.disk o).waitingDisk = []
    rw [DiskQueue.reserve,if_pos down']
    exact polled.closed down'
  | handOffToSession key id =>
    refine ⟨unsettled,path_armed (fun does => does) path polled.armed,?_⟩
    intro down
    have down' : s.shuttingDown = true := by
      rw [step] at down
      split at down
      · exact down
      · exact down
    exact path_empty (fun does => does) path (polled.closed down')
  | _ =>
    exact ⟨unsettled,path_armed (fun does => does) path polled.armed,
      fun down => path_empty (fun does => does) path (polled.closed down)⟩

/-- The clock runs forward, the counters are not set by hand and `reset` comes after a shutdown. -/
def Orderly (s : Service) (op : Op) : Prop := Forward s op ∧ NoHook s op ∧ ResetWhenDown s op

/-- Nobody who may be served fits, returning the leases serves everyone, and the disk queue is polled
while anyone waits. -/
theorem no_lost_wakeup (config : Config) (world : World) (evictionHook : Bool) (s : Service)
    (reach : Reachable step Orderly (Coordinator.fresh config world evictionHook) s) :
    Quiet s.ctx s.upstream ∧
    (∃ ids, (returnLeases s ids).upstream.upstreamLeases = []) ∧
    (∀ ids, (returnLeases s ids).upstream.upstreamLeases = [] →
      (returnLeases s ids).upstream.waitingUpstream = [] ∧
        ∀ id ∈ waitingIds s.upstream, Granted (returnLeases s ids).upstream id) ∧
    (s.disk.waitingDisk ≠ [] → s.shuttingDown = false → s.disk.pollTimer = true) := by
  have rested : Rested s := by
    refine reachable_invariant ?_ (fun t op held allowed => step_rested t op held allowed.1 allowed.2.1) reach
    refine ⟨?_,ledger_fresh,quiet_empty _ rfl⟩
    intro w member
    cases member
  have polled : Polled s := by
    refine reachable_invariant ?_ (fun t op held allowed => step_polled t op held allowed.2.2) reach
    refine ⟨?_,fun waits => absurd rfl waits,fun _ => rfl⟩
    intro w member
    cases member
  refine ⟨rested.quiet,returnLeases_all _ s rested (le_refl _),?_,fun waits _ => polled.armed waits⟩
  intro ids returned
  obtain ⟨after,served⟩ := returnLeases_serves ids s rested (fun id member => .inl member)
  have empty := empty_of_no_leases after returned
  refine ⟨empty,?_⟩
  intro id waits
  rcases served id waits with still | granted
  · simp [waitingIds,empty] at still
  · exact granted

def oneWaitsForSpace : List Op :=
  [.reserve ⟨"file:1",.whole 8,false,.absent⟩,.reserve ⟨"file:2",.whole 8,false,.absent⟩]

theorem one_waiter_is_polled : (after defaultConfig 10 oneWaitsForSpace).disk.pollTimer = true :=
  (no_lost_wakeup defaultConfig (volume 0 10) false (after defaultConfig 10 oneWaitsForSpace)
    (reachable_run .start oneWaitsForSpace
      (by simp [oneWaitsForSpace,Legal,Orderly,Forward,NoHook,ResetWhenDown]))).2.2.2
    (by decide +kernel) (by decide +kernel)

def resetOverWaiter : List Op := oneWaitsForSpace ++ [Op.reset]

def countedByHand : List Op := [.setActiveUpstreamCount (.whole 8),.acquireUpstreamSlot ⟨none,none,.absent⟩]

def clockSetBack : List Op :=
  [.acquireUpstreamSlot ⟨some (.whole 2),none,.absent⟩,.acquireUpstreamSlot ⟨some (.whole 2),none,.absent⟩,
    .acquireUpstreamSlot ⟨some (.whole 4),none,.absent⟩,.acquireUpstreamSlot ⟨some (.whole 2),none,.absent⟩,
    .observe (volume 10000 10),.releaseLease 0,.observe (volume 0 10),
    .acquireUpstreamSlot ⟨some (.whole 4),none,.absent⟩]

def fourFit : Config := { defaultConfig with maxConcurrentUpstreams := .whole 4, upstreamQueuePolicy := .boundedFit }

/-- Wake-ups are lost when `reset` stops the poll timer over a waiter, a count set by hand is never
released, or the clock is set back. -/
theorem wakeups_lost_outside_orderly :
    ((after defaultConfig 10 resetOverWaiter).disk.waitingDisk ≠ [] ∧
      (after defaultConfig 10 resetOverWaiter).shuttingDown = false ∧
      (after defaultConfig 10 resetOverWaiter).disk.pollTimer = false) ∧
    ((after defaultConfig 10 countedByHand).upstream.upstreamLeases = [] ∧
      (after defaultConfig 10 countedByHand).upstream.waitingUpstream ≠ []) ∧
    ¬ Quiet (after fourFit 10 clockSetBack).ctx (after fourFit 10 clockSetBack).upstream := by
  refine ⟨⟨by decide +kernel,by decide +kernel,by decide +kernel⟩,⟨by decide +kernel,by decide +kernel⟩,?_⟩
  intro quiet
  have full := (quiet ⟨2,0,4,4,0,false⟩ [⟨3,0,2,2,0,false⟩,⟨4,0,4,4,0,false⟩] (by decide +kernel)).2
    (by decide +kernel) (by decide +kernel) ⟨3,0,2,2,0,false⟩ (by decide)
  exact absurd full (by decide +kernel)

end Tgtc.Wakeups
