import Tgtc.Fairness

/-!
How often the head of the upstream queue is passed over: the count on the waiter against the leases that the log shows
going to others while a request was at the head.
-/
namespace Tgtc.Bypass
open Numbers Resources Arrivals Coordinator Runs
open UpstreamQueue UpstreamMoves Fairness

/-- The event gives another request a lease while `w` is at the head. -/
def passes (w : Nat) (event : UpstreamEvent) : Bool :=
  event.request ≠ w && event.grant.any (fun grant => grant.waiting.head? = some w)

/-- The leases that went to others while `w` was at the head. -/
def passedOver (w : Nat) (log : List UpstreamEvent) : List UpstreamEvent := log.filter (passes w)

theorem passedOver_append (w : Nat) (log : List UpstreamEvent) (event : UpstreamEvent) :
    passedOver w (log ++ [event]) = passedOver w log ++ if passes w event = true then [event] else [] := by
  rw [passedOver,List.filter_append,← passedOver]
  cases passing : passes w event with
  | true | false => simp [passing]

structure Bypassed (u : Upstream) : Prop where
  ordered : Ordered u
  queuedBefore : ∀ w since info, UpstreamEvent.queued w since info ∈ u.log → w < u.nextRequest
  passedBefore : ∀ w, passedOver w u.log ≠ [] → w < u.nextRequest
  since : ∀ w ∈ u.waitingUpstream, ∀ since info, UpstreamEvent.queued w.id since info ∈ u.log → since = w.enqueuedAt
  counted : ∀ w ∈ u.waitingUpstream, (passedOver w.id u.log).length ≤ w.bypassCount
  bounded : ∀ w, (passedOver w u.log).length ≤ maxHeadBypass
  early : ∀ w, ∀ event ∈ passedOver w u.log, ∀ grant, event.grant = some grant →
    ∀ since info, UpstreamEvent.queued w since info ∈ u.log → grant.grantedAt - since < headFairWaitMs

theorem bypassed_fresh : Bypassed UpstreamQueue.fresh where
  ordered := inOrder_nil _
  queuedBefore := fun _ _ _ member => absurd member (by simp [UpstreamQueue.fresh])
  passedBefore := fun _ passed => absurd rfl passed
  since := fun _ member => absurd member (by simp [UpstreamQueue.fresh])
  counted := fun _ member => absurd member (by simp [UpstreamQueue.fresh])
  bounded := fun _ => Nat.zero_le _
  early := fun _ _ member => absurd member (by simp [UpstreamQueue.fresh,passedOver])

/-- The waiters of `u'` are waiters of `u` with the same times and at least the same counts. -/
def Remain (u u' : Upstream) : Prop :=
  ∀ w ∈ u'.waitingUpstream, ∃ old ∈ u.waitingUpstream,
    w.id = old.id ∧ w.enqueuedAt = old.enqueuedAt ∧ old.bypassCount ≤ w.bypassCount

theorem bypassed_same {u u' : Upstream} (before : Bypassed u) (ordered : Ordered u') (log : u'.log = u.log)
    (numbers : u.nextRequest ≤ u'.nextRequest) (remain : Remain u u') : Bypassed u' := by
  refine ⟨ordered,?_,?_,?_,?_,?_,?_⟩
  · intro w since info member
    exact Nat.lt_of_lt_of_le (before.queuedBefore w since info (log ▸ member)) numbers
  · intro w passed
    exact Nat.lt_of_lt_of_le (before.passedBefore w (log ▸ passed)) numbers
  · intro w member since info queued
    obtain ⟨old,inside,id,time,_⟩ := remain w member
    rw [time]
    exact before.since old inside since info (id ▸ log ▸ queued)
  · intro w member
    obtain ⟨old,inside,id,_,more⟩ := remain w member
    rw [log,id]
    exact (before.counted old inside).trans more
  · intro w
    rw [log]
    exact before.bounded w
  · rw [log]
    exact before.early

theorem bypassed_emit {u : Upstream} (before : Bypassed u) (event : UpstreamEvent) (harmless : ∀ w, passes w event = false)
    (unqueued : ∀ w since info, event ≠ .queued w since info) : Bypassed (emit u event) := by
  have same : ∀ w, passedOver w (u.log ++ [event]) = passedOver w u.log := by
    intro w
    simp [passedOver_append,harmless w]
  have queued : ∀ w since info, UpstreamEvent.queued w since info ∈ u.log ++ [event] →
      UpstreamEvent.queued w since info ∈ u.log := by
    intro w since info member
    rcases List.mem_append.mp member with old | new
    · exact old
    · exact absurd (List.mem_singleton.mp new).symm (unqueued w since info)
  refine ⟨before.ordered,?_,?_,?_,?_,?_,?_⟩
  · intro w since info member
    exact before.queuedBefore w since info (queued w since info member)
  · intro w passed
    exact before.passedBefore w (same w ▸ passed)
  · intro w member since info later
    exact before.since w member since info (queued _ _ _ later)
  · intro w member
    show (passedOver w.id (u.log ++ [event])).length ≤ _
    rw [same]
    exact before.counted w member
  · intro w
    show (passedOver w (u.log ++ [event])).length ≤ _
    rw [same]
    exact before.bounded w
  · intro w other member grant reported since info later
    have member' : other ∈ passedOver w (u.log ++ [event]) := member
    rw [same] at member'
    exact before.early w other member' grant reported since info (queued _ _ _ later)

theorem passes_of_no_grant {event : UpstreamEvent} (silent : event.grant = none) (w : Nat) : passes w event = false := by
  simp [passes,silent]

theorem bypassed_enqueue (ctx : Context) {u : Upstream} (before : Bypassed u) (o : AcquireUpstreamOptions) :
    Bypassed (enqueueUpstream ctx u o (resolveUpstreamWeight ctx.config o)) := by
  have log : (enqueueUpstream ctx u o (resolveUpstreamWeight ctx.config o)).log = u.log ++
      [UpstreamEvent.queued u.nextRequest ctx.world.now ⟨.upstream,(u.waitingUpstream ++ [_]).length,retryAfterMs⟩] := rfl
  have same : ∀ w, passedOver w (enqueueUpstream ctx u o (resolveUpstreamWeight ctx.config o)).log =
      passedOver w u.log := by
    intro w
    rw [log,passedOver_append,if_neg (by simp [passes,UpstreamEvent.grant]),List.append_nil]
  have queued : ∀ w since info,
      UpstreamEvent.queued w since info ∈ (enqueueUpstream ctx u o (resolveUpstreamWeight ctx.config o)).log →
      UpstreamEvent.queued w since info ∈ u.log ∨ (w = u.nextRequest ∧ since = ctx.world.now) := by
    intro w since info member
    rcases List.mem_append.mp member with old | new
    · exact .inl old
    · cases List.mem_singleton.mp new
      exact .inr ⟨rfl,rfl⟩
  refine ⟨move_ordered (@Move.enqueue ctx u o) before.ordered,?_,?_,?_,?_,?_,?_⟩
  · intro w since info member
    rcases queued w since info member with old | ⟨rfl,_⟩
    · exact Nat.lt_succ_of_lt (before.queuedBefore w since info old)
    · exact Nat.lt_succ_self _
  · intro w passed
    rw [same] at passed
    exact Nat.lt_succ_of_lt (before.passedBefore w passed)
  · intro w member since info later
    rcases List.mem_append.mp member with old | new
    · rcases queued _ _ _ later with earlier | ⟨number,_⟩
      · exact before.since w old since info earlier
      · have := before.ordered.numbered w.id (List.mem_map_of_mem old)
        omega
    · cases List.mem_singleton.mp new
      rcases queued _ _ _ later with earlier | ⟨_,now⟩
      · exact absurd (before.queuedBefore _ since info earlier) (Nat.lt_irrefl _)
      · exact now
  · intro w member
    rw [same]
    rcases List.mem_append.mp member with old | new
    · exact before.counted w old
    cases List.mem_singleton.mp new
    by_contra passed
    have some_passed : passedOver u.nextRequest u.log ≠ [] := by
      intro empty
      exact passed (by rw [empty]; exact Nat.zero_le _)
    exact Nat.lt_irrefl _ (before.passedBefore u.nextRequest some_passed)
  · intro w
    rw [same]
    exact before.bounded w
  · intro w event member grant reported since info later
    rw [same] at member
    rcases queued _ _ _ later with earlier | ⟨rfl,_⟩
    · exact before.early w event member grant reported since info earlier
    · exact absurd (before.passedBefore _ (List.ne_nil_of_mem member)) (Nat.lt_irrefl _)

theorem bypassed_pass (ctx : Context) {u : Upstream} (before : Bypassed u) {head candidate : UpstreamWaiter}
    {rest : List UpstreamWaiter} (queue : u.waitingUpstream = head :: rest)
    (unreserved : isHeadReserved ctx head = false) (behind : candidate ∈ rest) (weight : Int) :
    Bypassed (countBypass (served ctx u candidate.id weight .fitSkip)) := by
  have ids : waitingIds u = head.id :: rest.map (·.id) := by simp [waitingIds,queue]
  have distinct : head.id ∉ rest.map (·.id) := by
    have nodup := inOrder_nodup before.ordered
    rw [ids] at nodup
    exact (List.nodup_cons.mp nodup).1
  have other : candidate.id ≠ head.id := fun same => distinct (same ▸ List.mem_map_of_mem behind)
  have known : head.id < u.nextRequest := before.ordered.numbered head.id (by simp [ids])
  have free : head.bypassCount < maxHeadBypass ∧ ctx.world.now - head.enqueuedAt < headFairWaitMs := by
    simpa [isHeadReserved] using unreserved
  have first := before.counted head (by simp [queue])
  have shape : (countBypass (served ctx u candidate.id weight .fitSkip)).waitingUpstream =
      { head with bypassCount := head.bypassCount + 1 } :: rest.eraseP (fun w => w.id = candidate.id) := by
    simp [countBypass,updateHead,served,emit,grantUpstreamLease,without,detachWaiter,queue,Ne.symm other]
  have log : (countBypass (served ctx u candidate.id weight .fitSkip)).log = u.log ++
      [UpstreamEvent.left candidate.id (.granted (leaseGrant ctx (without u candidate.id) weight (waitingIds u)) .fitSkip)] := rfl
  have passing : ∀ w, passes w
      (UpstreamEvent.left candidate.id (.granted (leaseGrant ctx (without u candidate.id) weight (waitingIds u)) .fitSkip)) =
        decide (head.id = w) := by
    intro w
    by_cases here : head.id = w
    · subst here
      simp [passes,UpstreamEvent.request,UpstreamEvent.grant,leaseGrant,ids,other]
    · simp [passes,UpstreamEvent.grant,leaseGrant,ids,here]
  have atHead : passedOver head.id (countBypass (served ctx u candidate.id weight .fitSkip)).log =
      passedOver head.id u.log ++
        [UpstreamEvent.left candidate.id (.granted (leaseGrant ctx (without u candidate.id) weight (waitingIds u)) .fitSkip)] := by
    rw [log,passedOver_append,passing,if_pos (by simp)]
  have elsewhere : ∀ w, w ≠ head.id →
      passedOver w (countBypass (served ctx u candidate.id weight .fitSkip)).log = passedOver w u.log := by
    intro w different
    rw [log,passedOver_append,passing,if_neg (by simpa using Ne.symm different),List.append_nil]
  have queued : ∀ w since info,
      UpstreamEvent.queued w since info ∈ (countBypass (served ctx u candidate.id weight .fitSkip)).log →
      UpstreamEvent.queued w since info ∈ u.log := by
    intro w since info member
    rcases List.mem_append.mp member with old | new
    · exact old
    · cases List.mem_singleton.mp new
  refine ⟨?_,?_,?_,?_,?_,?_,?_⟩
  · refine inOrder_thin before.ordered ?_ (le_refl _)
    rw [waitingIds_countBypass]
    exact waitingIds_without u candidate.id
  · intro w since info member
    exact before.queuedBefore w since info (queued w since info member)
  · intro w passed
    by_cases here : w = head.id
    · rw [here]
      exact known
    · rw [elsewhere w here] at passed
      exact before.passedBefore w passed
  · intro w member since info later
    rw [shape] at member
    rcases List.mem_cons.mp member with rfl | inside
    · exact before.since head (by simp [queue]) since info (queued _ _ _ later)
    · exact before.since w (by simp [queue,List.mem_of_mem_eraseP inside]) since info (queued _ _ _ later)
  · intro w member
    rw [shape] at member
    rcases List.mem_cons.mp member with rfl | inside
    · rw [atHead,List.length_append]
      exact Nat.succ_le_succ first
    · have inRest := List.mem_of_mem_eraseP inside
      rw [elsewhere w.id (fun same => distinct (same ▸ List.mem_map_of_mem inRest))]
      exact before.counted w (by simp [queue,inRest])
  · intro w
    by_cases here : w = head.id
    · rw [here,atHead,List.length_append,List.length_singleton]
      omega
    · rw [elsewhere w here]
      exact before.bounded w
  · intro w event member grant reported since info later
    by_cases here : w = head.id
    · subst here
      rw [atHead] at member
      rcases List.mem_append.mp member with old | new
      · exact before.early _ event old grant reported since info (queued _ _ _ later)
      · rw [List.mem_singleton.mp new] at reported
        cases reported
        rw [before.since head (by simp [queue]) since info (queued _ _ _ later)]
        exact free.2
    · rw [elsewhere w here] at member
      exact before.early w event member grant reported since info (queued _ _ _ later)

theorem move_bypassed {ctx : Context} {kind : Kind} {u u' : Upstream} (move : Move ctx kind u u')
    (alone : kind = .immediate → u.waitingUpstream = []) (before : Bypassed u) : Bypassed u' := by
  have ordered := move_ordered move before.ordered
  cases move with
  | reject =>
    have numbered : Bypassed { u with nextRequest := u.nextRequest + 1 } :=
      bypassed_same before ordered rfl (Nat.le_succ _) (fun w member => ⟨w,member,rfl,rfl,le_refl _⟩)
    exact bypassed_emit numbered (.answered _ (.rejected _)) (passes_of_no_grant rfl) (by intro _ _ _ same; cases same)
  | grant _ o fits =>
    have numbered : Bypassed { grantUpstreamLease u (resolveUpstreamWeight ctx.config o) with
        nextRequest := u.nextRequest + 1 } :=
      bypassed_same before ordered rfl (Nat.le_succ _) (fun w member => ⟨w,member,rfl,rfl,le_refl _⟩)
    refine bypassed_emit numbered (.answered _ (.granted _)) ?_ (by intro _ _ _ same; cases same)
    simp [passes,UpstreamEvent.grant,leaseGrant,waitingIds,alone rfl]
  | enqueue _ o => exact bypassed_enqueue ctx before o
  | weigh _ weight =>
    refine bypassed_same before ordered rfl (le_refl _) ?_
    intro w member
    obtain ⟨old,inside,rfl | rfl⟩ := mem_updateHead member
    · exact ⟨w,inside,rfl,rfl,le_refl _⟩
    · exact ⟨old,inside,rfl,rfl,le_refl _⟩
  | serve _ head rest queue reason fits =>
    have thinned : Bypassed (grantUpstreamLease (without u head.id) (effectiveWaiterWeight ctx.config head.weight)) :=
      bypassed_same before ordered rfl (le_refl _)
        (fun w member => ⟨w,List.mem_of_mem_eraseP member,rfl,rfl,le_refl _⟩)
    refine bypassed_emit thinned (.left head.id (.granted _ reason)) ?_ (by intro _ _ _ same; cases same)
    intro w
    by_cases first : head.id = w
    · simp [passes,UpstreamEvent.request,first]
    · simp [passes,UpstreamEvent.grant,leaseGrant,waitingIds,queue,first]
  | pass _ head rest queue policy unreserved candidate behind fits =>
    exact bypassed_pass ctx before queue unreserved behind _
  | retire => exact bypassed_same before ordered rfl (le_refl _) (fun w member => ⟨w,member,rfl,rfl,le_refl _⟩)
  | leave _ waiter member ending refusal =>
    have thinned : Bypassed (without u waiter.id) :=
      bypassed_same before ordered rfl (le_refl _)
        (fun w inside => ⟨w,List.mem_of_mem_eraseP inside,rfl,rfl,le_refl _⟩)
    refine bypassed_emit thinned (.left waiter.id ending) (passes_of_no_grant ?_) (by intro _ _ _ same; cases same)
    cases refusal <;> rfl
  | count => exact bypassed_same before ordered rfl (le_refl _) (fun w member => ⟨w,member,rfl,rfl,le_refl _⟩)

/-- While no arriving request fits when others wait, the leases that pass a head stay within the bound
and come before its fair waiting time is over. -/
theorem head_passed_over_boundedly (config : Config) (world : World) (evictionHook : Bool) (s : Service)
    (reach : Reachable step (fun t op => ¬ OvertakesUpstream t op) (Coordinator.fresh config world evictionHook) s)
    (w : Nat) :
    (passedOver w s.upstream.log).length ≤ maxHeadBypass ∧
    ∀ event ∈ passedOver w s.upstream.log, ∀ grant, event.grant = some grant →
      ∀ since info, UpstreamEvent.queued w since info ∈ s.upstream.log → grant.grantedAt - since < headFairWaitMs := by
  have held : UpstreamFair s ∧ Bypassed s.upstream := by
    induction reach with
    | start => exact ⟨(fresh_fair config world evictionHook).1,bypassed_fresh⟩
    | next op _ noOvertaking ih =>
      obtain ⟨fair,before⟩ := ih
      refine ⟨step_upstreamFair _ op fair,step_upstream_invariant _ op fair noOvertaking ?_ before⟩
      intro kind u u' move alone _ holds
      exact move_bypassed move alone holds
  exact ⟨held.2.bounded w,held.2.early w⟩

def onePassesHead : List Op :=
  [.acquireUpstreamSlot ⟨some (.whole 2),none,.absent⟩,.acquireUpstreamSlot ⟨some (.whole 2),none,.absent⟩,
    .acquireUpstreamSlot ⟨some (.whole 4),none,.absent⟩,.acquireUpstreamSlot ⟨some (.whole 2),none,.absent⟩,
    .releaseLease 0]

def fourUnits : Config := { defaultConfig with maxConcurrentUpstreams := .whole 4, upstreamQueuePolicy := .boundedFit }

theorem onePassesHead_waits : Legal step (fun t op => ¬ OvertakesUpstream t op)
    (Coordinator.fresh fourUnits (volume 0 10) false) onePassesHead := by
  refine ⟨?_,?_,?_,?_,id,trivial⟩
  · intro overtakes
    exact overtakes.2.2.1 rfl
  · intro overtakes
    exact overtakes.2.2.1 (by decide +kernel)
  · intro overtakes
    exact overtakes.2.2.1 (by decide +kernel)
  · intro overtakes
    exact absurd overtakes.2.2.2 (by decide +kernel)

theorem head_passed_over_once :
    (passedOver 2 (after fourUnits 10 onePassesHead).upstream.log).length = 1 ∧
      (passedOver 2 (after fourUnits 10 onePassesHead).upstream.log).length ≤ maxHeadBypass :=
  ⟨by decide +kernel,(head_passed_over_boundedly fourUnits (volume 0 10) false _
    (reachable_run .start _ onePassesHead_waits) 2).1⟩

def visit (lease : Nat) : List Op := [.acquireUpstreamSlot ⟨some (.whole 1),none,.absent⟩,.releaseLease lease]

/-- Two of four units are held, the head wants all four and waits its fair time, and then nine others come and go. -/
def ninePassHead : List Op :=
  [Op.acquireUpstreamSlot ⟨some (.whole 2),none,.absent⟩,.acquireUpstreamSlot ⟨some (.whole 4),none,.absent⟩,
    .observe (volume 10000 10)] ++ (List.range' 1 9).flatMap visit

/-- The head is passed over more often than the bound, and after its fair waiting time. -/
theorem arrivals_pass_head :
    ¬ (passedOver 1 (after fourUnits 10 ninePassHead).upstream.log).length ≤ maxHeadBypass ∧
    ∀ event ∈ passedOver 1 (after fourUnits 10 ninePassHead).upstream.log,
      (event.grant.map (·.grantedAt)) = some headFairWaitMs := by
  refine ⟨by decide +kernel,by decide +kernel⟩

end Tgtc.Bypass
