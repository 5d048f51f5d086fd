import Tgtc.DiskMoves
import Tgtc.UpstreamMoves

/-!
Who is served before whom. Waiters are served from the head of their queue, and the bounded fit policy passes the head
over a bounded number of times; but a request that arrives is tried before anyone looks at the queue.
-/
namespace Tgtc.Fairness
open Numbers Resources Arrivals Coordinator Runs
open DiskQueue (Disk legalBytes)
open UpstreamQueue
open Coordinator (fresh)

/-- A call of `acquireUpstreamSlot` whose weight fits while others wait. -/
def OvertakesUpstream (s : Service) : Op → Prop
  | .acquireUpstreamSlot o =>
    s.shuttingDown = false ∧ o.signal ≠ .aborted ∧ s.upstream.waitingUpstream ≠ [] ∧
      canGrantUpstream s.config s.upstream (resolveUpstreamWeight s.config o) = true
  | _ => False

/-- A call of `reserve` that passes the admission test while others wait. -/
def OvertakesDisk (s : Service) : Op → Prop
  | .reserve o =>
    s.shuttingDown = false ∧ o.signal ≠ .aborted ∧ ∃ bytes d, legalBytes o.bytes = some bytes ∧
      DiskMoves.evaluatedAt s.ctx s.disk o bytes = some d ∧ d.waitingDisk ≠ [] ∧
      DiskMoves.Admitted s.ctx d bytes o.countsTowardCache
  | _ => False

/-- No lease went to a request while one that arrived earlier waited. -/
def UpstreamInTurn (u : Upstream) : Prop :=
  ∀ event ∈ u.log, ∀ grant, event.grant = some grant → ∀ q ∈ grant.waiting, event.request ≤ q

/-- No reservation went to a call of `reserve` while one that arrived earlier waited. -/
def DiskInTurn (d : Disk) : Prop :=
  ∀ event ∈ d.log, ∀ request grant, event.request = some request → event.grant = some grant →
    ∀ q ∈ grant.waiting, request ≤ q

theorem upstreamInTurn_append {u u' : Upstream} (inTurn : UpstreamInTurn u) (event : UpstreamEvent)
    (extended : u'.log = u.log ++ [event])
    (fair : ∀ grant, event.grant = some grant → ∀ q ∈ grant.waiting, event.request ≤ q) : UpstreamInTurn u' := by
  intro other member
  rw [extended] at member
  rcases List.mem_append.mp member with old | new
  · exact inTurn other old
  · rw [List.mem_singleton.mp new]
    exact fair

theorem move_upstreamInTurn {ctx : Context} {kind : UpstreamMoves.Kind} {u u' : Upstream}
    (move : UpstreamMoves.Move ctx kind u u') (strict : ctx.config.upstreamQueuePolicy ≠ .boundedFit)
    (alone : kind = .immediate → u.waitingUpstream = []) (ordered : UpstreamMoves.Ordered u)
    (inTurn : UpstreamInTurn u) : UpstreamInTurn u' := by
  cases move with
  | reject => exact upstreamInTurn_append inTurn _ rfl (by rintro grant ⟨⟩)
  | grant =>
    refine upstreamInTurn_append inTurn _ rfl ?_
    rintro grant ⟨⟩ q waits
    simp [leaseGrant,waitingIds,alone rfl] at waits
  | enqueue => exact upstreamInTurn_append inTurn _ rfl (by rintro grant ⟨⟩)
  | serve _ head rest queue reason fits =>
    refine upstreamInTurn_append inTurn _ rfl ?_
    rintro grant ⟨⟩ q waits
    have shape : waitingIds u = head.id :: rest.map (·.id) := by simp [waitingIds,queue]
    have first : InOrder (head.id :: rest.map (·.id)) u.nextRequest := shape ▸ (ordered : InOrder (waitingIds u) _)
    exact inOrder_head first q (shape ▸ waits)
  | pass _ _ _ _ policy => exact absurd policy strict
  | leave _ waiter member ending refusal =>
    refine upstreamInTurn_append inTurn _ rfl ?_
    intro grant reported
    cases refusal <;> cases reported
  | weigh | retire | count => exact inTurn

def KeepsStrict : Op → Prop
  | .configure update => update.upstreamQueuePolicy ≠ some .boundedFit
  | _ => True

theorem step_strict (s : Service) (op : Op) (keeps : KeepsStrict op)
    (strict : s.config.upstreamQueuePolicy ≠ .boundedFit) : (step s op).config.upstreamQueuePolicy ≠ .boundedFit := by
  cases op with
  | configure update =>
    simp only [step,Coordinator.configure,Config.merge]
    cases given : update.upstreamQueuePolicy with
    | none => exact strict
    | some policy =>
      intro bounded
      exact keeps (by rw [given]; exact congrArg some bounded)
  | handOffToSession key id => rw [step]; split <;> exact strict
  | shutdown => rw [step,Coordinator.shutdown]; split <;> exact strict
  | _ => exact strict

structure UpstreamFair (s : Service) : Prop where
  unsettled : UpstreamMoves.Unsettled s.upstream
  ordered : UpstreamMoves.Ordered s.upstream

theorem step_upstreamFair (s : Service) (op : Op) (fair : UpstreamFair s) : UpstreamFair (step s op) := by
  have path := UpstreamMoves.step_path s op fair.unsettled
  exact ⟨chain_invariant path (fun _ _ _ _ move => UpstreamMoves.move_unsettled move) fair.unsettled,
    chain_invariant path (fun _ _ _ _ move => UpstreamMoves.move_ordered move) fair.ordered⟩

theorem step_upstream_invariant {inv : Upstream → Prop} (s : Service) (op : Op) (fair : UpstreamFair s)
    (noOvertaking : ¬ OvertakesUpstream s op)
    (keep : ∀ kind u u', UpstreamMoves.Move (step s op).ctx kind u u' →
      (kind = .immediate → u.waitingUpstream = []) → UpstreamMoves.Ordered u → inv u → inv u')
    (holds : inv s.upstream) : inv (step s op).upstream := by
  have along : ∀ u', UpstreamMoves.Path (step s op).ctx (· ≠ .immediate) s.upstream u' →
      UpstreamMoves.Ordered u' ∧ inv u' := by
    intro u' path
    induction path with
    | refl => exact ⟨fair.ordered,holds⟩
    | tail _ change before =>
      obtain ⟨kind,later,move⟩ := change
      exact ⟨UpstreamMoves.move_ordered move before.1,
        keep kind _ _ move (fun same => absurd same later) before.1 before.2⟩
  have path := UpstreamMoves.step_path s op fair.unsettled
  cases op with
  | acquireUpstreamSlot o =>
    rcases UpstreamMoves.acquireUpstreamSlot_cases s.ctx s.shuttingDown s.upstream o with
      ⟨e,rejected⟩ | ⟨up,signal,fits,granted⟩ | ⟨_,_,queued⟩
    · have after : (step s (.acquireUpstreamSlot o)).upstream = _ := rejected
      rw [after]
      exact keep .inner _ _ (.reject _ e) (nofun) fair.ordered holds
    · have after : (step s (.acquireUpstreamSlot o)).upstream = _ := granted
      have alone : s.upstream.waitingUpstream = [] := by
        by_contra waits
        exact noOvertaking ⟨up,signal,waits,fits⟩
      rw [after]
      exact keep .immediate _ _ (.grant _ o fits) (fun _ => alone) fair.ordered holds
    · have after : (step s (.acquireUpstreamSlot o)).upstream = _ := queued
      rw [after]
      exact keep .joined _ _ (.enqueue _ o) (nofun) fair.ordered holds
  | _ =>
    refine (along _ (chain_mono ?_ path)).2
    rintro kind does rfl
    exact does

theorem diskInTurn_append {d d' : Disk} (inTurn : DiskInTurn d) (event : DiskQueue.DiskEvent)
    (extended : d'.log = d.log ++ [event])
    (fair : ∀ request grant, event.request = some request → event.grant = some grant →
      ∀ q ∈ grant.waiting, request ≤ q) : DiskInTurn d' := by
  intro other member
  rw [extended] at member
  rcases List.mem_append.mp member with old | new
  · exact inTurn other old
  · rw [List.mem_singleton.mp new]
    exact fair

theorem move_diskInTurn {ctx : Context} {kind : DiskMoves.Kind} {d d' : Disk} (move : DiskMoves.Move ctx kind d d')
    (alone : kind = .immediate → d.waitingDisk = []) (ordered : DiskMoves.Ordered d) (inTurn : DiskInTurn d) :
    DiskInTurn d' := by
  cases move with
  | grant =>
    refine diskInTurn_append inTurn _ rfl ?_
    rintro request grant ⟨⟩ ⟨⟩ q waits
    simp [DiskQueue.diskGrant,DiskQueue.waitingIds,alone rfl] at waits
  | hold =>
    refine diskInTurn_append inTurn _ rfl ?_
    rintro request grant ⟨⟩
  | serve _ head rest queue admitted =>
    refine diskInTurn_append inTurn _ rfl ?_
    rintro request grant ⟨⟩ ⟨⟩ q waits
    have shape : DiskQueue.waitingIds d = head.id :: rest.map (·.id) := by simp [DiskQueue.waitingIds,queue]
    have first : InOrder (head.id :: rest.map (·.id)) d.nextRequest :=
      shape ▸ (ordered : InOrder (DiskQueue.waitingIds d) _)
    exact inOrder_head first q (shape ▸ waits)
  | leave _ waiter member outcome waited ending leaves =>
    refine diskInTurn_append inTurn _ rfl ?_
    rintro request grant ⟨⟩ reported
    cases leaves <;> cases reported
  | reject | refuse | adopt | enqueue =>
    refine diskInTurn_append inTurn _ rfl ?_
    rintro request grant ⟨⟩ ⟨⟩
  | _ => exact inTurn

structure DiskFair (s : Service) : Prop where
  unsettled : DiskMoves.Unsettled s.disk
  ordered : DiskMoves.Ordered s.disk

theorem step_diskFair (s : Service) (op : Op) (fair : DiskFair s) : DiskFair (step s op) := by
  have path := DiskMoves.step_path s op fair.unsettled
  exact ⟨DiskMoves.path_unsettled path fair.unsettled,
    chain_invariant path (fun _ _ _ _ move => DiskMoves.move_ordered move) fair.ordered⟩

theorem step_diskInTurn (s : Service) (op : Op) (fair : DiskFair s) (noOvertaking : ¬ OvertakesDisk s op)
    (inTurn : DiskInTurn s.disk) : DiskInTurn (step s op).disk := by
  have along : ∀ (ctx : Context) (d : Disk), DiskMoves.Path ctx (· ≠ .immediate) s.disk d →
      DiskMoves.Ordered d ∧ DiskInTurn d := by
    intro ctx d path
    induction path with
    | refl => exact ⟨fair.ordered,inTurn⟩
    | tail _ change before =>
      obtain ⟨kind,later,move⟩ := change
      exact ⟨DiskMoves.move_ordered move before.1,
        move_diskInTurn move (fun same => absurd same later) before.1 before.2⟩
  have path := DiskMoves.step_path s op fair.unsettled
  cases op with
  | reserve o =>
    show DiskInTurn (DiskQueue.reserve s.ctx s.shuttingDown s.disk o)
    rcases DiskMoves.reserve_cases s.ctx s.shuttingDown s.disk o with
      steps | ⟨bytes,d,up,legal,signal,evaluated,decided⟩
    · exact (along s.ctx _ (chain_of_kind (by simp) steps)).2
    have before := along s.ctx d (chain_of_kind (by simp) (DiskMoves.evaluatedAt_steps evaluated))
    rcases decided with ⟨admitted,granted⟩ | queued
    · have alone : d.waitingDisk = [] := by
        by_contra waits
        exact noOvertaking ⟨up,signal,bytes,d,legal,evaluated,waits,admitted⟩
      rw [granted]
      exact move_diskInTurn (.grant d o.sessionKey bytes o.countsTowardCache (DiskMoves.legalBytes_positive legal)
        admitted) (fun _ => alone) before.1 before.2
    · rw [queued]
      exact move_diskInTurn (@DiskMoves.Move.enqueue s.ctx d o bytes (DiskMoves.legalBytes_positive legal))
        (nofun) before.1 before.2
  | _ =>
    refine (along _ _ (chain_mono ?_ path)).2
    rintro kind does rfl
    exact does

/-- Under strict order in every history, no arriving request fits while others wait. -/
def Queues (s : Service) (op : Op) : Prop := KeepsStrict op ∧ ¬ OvertakesUpstream s op ∧ ¬ OvertakesDisk s op

theorem overtaking_upstream (s : Service) (op : Op) (ordered : UpstreamMoves.Ordered s.upstream)
    (overtakes : OvertakesUpstream s op) : ¬ UpstreamInTurn (step s op).upstream := by
  cases op with
  | acquireUpstreamSlot o =>
    obtain ⟨up,signal,waits,fits⟩ := overtakes
    obtain ⟨waiter,member⟩ := List.exists_mem_of_ne_nil _ waits
    have early := ordered.numbered waiter.id (List.mem_map_of_mem member)
    intro inTurn
    have granted : (step s (.acquireUpstreamSlot o)).upstream =
        answer (grantUpstreamLease s.upstream (resolveUpstreamWeight s.config o))
          (.granted (leaseGrant s.ctx s.upstream (resolveUpstreamWeight s.config o) (waitingIds s.upstream))) := by
      show acquireUpstreamSlot s.ctx s.shuttingDown s.upstream o = _
      unfold acquireUpstreamSlot
      rw [up,if_neg signal]
      exact if_pos fits
    rw [granted] at inTurn
    have turn := inTurn _ (List.mem_append_right _ (List.mem_singleton.mpr rfl)) _ rfl waiter.id
      (List.mem_map_of_mem member)
    exact absurd turn (Nat.not_le.mpr early)
  | _ => exact overtakes.elim

theorem overtaking_disk (s : Service) (op : Op) (fair : DiskFair s) (overtakes : OvertakesDisk s op) :
    ¬ DiskInTurn (step s op).disk := by
  cases op with
  | reserve o =>
    obtain ⟨up,signal,bytes,d,legal,evaluated,waits,admitted⟩ := overtakes
    have ordered : DiskMoves.Ordered d := by
      have path : DiskMoves.Path s.ctx (fun _ => True) s.disk d :=
        chain_of_kind trivial (DiskMoves.evaluatedAt_steps evaluated)
      exact chain_invariant path (fun _ _ _ _ move => DiskMoves.move_ordered move) fair.ordered
    obtain ⟨waiter,member⟩ := List.exists_mem_of_ne_nil _ waits
    have early := ordered.numbered waiter.id (List.mem_map_of_mem member)
    intro inTurn
    have granted : (step s (.reserve o)).disk =
        DiskMoves.grantedNow s.ctx d o.sessionKey bytes o.countsTowardCache := by
      show DiskQueue.reserve s.ctx s.shuttingDown s.disk o = _
      rw [up]
      exact DiskMoves.reserve_of_admitted legal signal evaluated admitted
    rw [granted] at inTurn
    have turn := inTurn _ (List.mem_append_right _ (List.mem_singleton.mpr rfl)) _ _ rfl rfl waiter.id
      (List.mem_map_of_mem member)
    exact absurd turn (Nat.not_le.mpr early)
  | _ => exact overtakes.elim

theorem fresh_fair (config : Config) (world : World) (evictionHook : Bool) :
    UpstreamFair (fresh config world evictionHook) ∧
      DiskFair (fresh config world evictionHook) := by
  refine ⟨⟨?_,inOrder_nil _⟩,⟨?_,inOrder_nil _⟩⟩
  · intro w member; cases member
  · intro w member; cases member

/-- Requests are served in the order of their arrival where none passes its own test while others wait;
one that passes breaks the order. -/
theorem served_in_order_of_arrival (config : Config) (world : World) (evictionHook : Bool) (s : Service)
    (strict : config.upstreamQueuePolicy = .strictFifo)
    (reach : Reachable step Queues (fresh config world evictionHook) s) :
    (UpstreamInTurn s.upstream ∧ DiskInTurn s.disk) ∧
    ∀ op, OvertakesUpstream s op ∨ OvertakesDisk s op →
      ¬ (UpstreamInTurn (step s op).upstream ∧ DiskInTurn (step s op).disk) := by
  have fair : (UpstreamFair s ∧ DiskFair s) ∧ s.config.upstreamQueuePolicy ≠ .boundedFit ∧
      UpstreamInTurn s.upstream ∧ DiskInTurn s.disk := by
    induction reach with
    | start =>
      refine ⟨fresh_fair config world evictionHook,?_,?_,?_⟩
      · show config.upstreamQueuePolicy ≠ _
        rw [strict]
        simp
      · intro event member; cases member
      · intro event member; cases member
    | next op _ allowed before =>
      obtain ⟨⟨upstreamFair,diskFair⟩,policy,upstream,disk⟩ := before
      have policy' := step_strict _ op allowed.1 policy
      refine ⟨⟨step_upstreamFair _ op upstreamFair,step_diskFair _ op diskFair⟩,policy',?_,?_⟩
      · exact step_upstream_invariant _ op upstreamFair allowed.2.1
          (fun _ _ _ move alone ordered holds => move_upstreamInTurn move policy' alone ordered holds) upstream
      · exact step_diskInTurn _ op diskFair allowed.2.2 disk
  obtain ⟨⟨upstreamFair,diskFair⟩,_,inTurn⟩ := fair
  refine ⟨inTurn,?_⟩
  rintro op (overtakes | overtakes) ⟨upstream,disk⟩
  · exact overtaking_upstream s op upstreamFair.ordered overtakes upstream
  · exact overtaking_disk s op diskFair overtakes disk

theorem after_fair (config : Config) (free : Int) (history : List Op) :
    UpstreamFair (after config free history) ∧ DiskFair (after config free history) := by
  have reach : Reachable step (fun _ _ => True) (fresh config (volume 0 free) false)
      (after config free history) := by
    refine reachable_run .start history ?_
    generalize fresh config (volume 0 free) false = s
    induction history generalizing s with
    | nil => trivial
    | cons op rest ih => exact ⟨trivial,ih _⟩
  exact ⟨reachable_invariant (fresh_fair config _ false).1 (fun s op fair _ => step_upstreamFair s op fair) reach,
    reachable_invariant (fresh_fair config _ false).2 (fun s op fair _ => step_diskFair s op fair) reach⟩

def twoForAll : List Op :=
  [.acquireUpstreamSlot ⟨some (.whole 8),none,.absent⟩,.acquireUpstreamSlot ⟨some (.whole 8),none,.absent⟩,
    .releaseLease 0]

theorem twoForAll_queues : Legal step Queues (fresh defaultConfig (volume 0 10) false) twoForAll := by
  refine ⟨⟨trivial,?_,id⟩,⟨trivial,?_,id⟩,⟨trivial,id,id⟩,trivial⟩
  · intro overtakes
    exact overtakes.2.2.1 rfl
  · intro overtakes
    exact overtakes.2.2.1 (by decide +kernel)

theorem second_waits_its_turn : UpstreamInTurn (after defaultConfig 10 twoForAll).upstream :=
  (served_in_order_of_arrival defaultConfig (volume 0 10) false _ rfl (reachable_run .start _ twoForAll_queues)).1.1

def allEightWait : List Op :=
  [.acquireUpstreamSlot ⟨some (.whole 6),none,.absent⟩,.acquireUpstreamSlot ⟨some (.whole 8),none,.absent⟩]

def eightBytesWait : List Op :=
  [.reserve ⟨"file:1",.whole 4,false,.absent⟩,.reserve ⟨"file:2",.whole 8,false,.absent⟩]

/-- A small request that arrives later is served first, in either queue. -/
theorem small_requests_overtake :
    ¬ UpstreamInTurn (step (after defaultConfig 10 allEightWait)
      (.acquireUpstreamSlot ⟨some (.whole 1),none,.absent⟩)).upstream ∧
    ¬ DiskInTurn (step (after defaultConfig 10 eightBytesWait) (.reserve ⟨"file:3",.whole 2,false,.absent⟩)).disk := by
  refine ⟨overtaking_upstream _ _ (after_fair defaultConfig 10 allEightWait).1.ordered ?_,
    overtaking_disk _ _ (after_fair defaultConfig 10 eightBytesWait).2 ?_⟩
  · exact ⟨by decide +kernel,by decide,by decide +kernel,by decide +kernel⟩
  · refine ⟨by decide +kernel,by decide,2,_,by decide +kernel,
      DiskMoves.evaluatedAt_of_unpooled _ _ (by decide +kernel),by decide +kernel,by decide +kernel,by decide +kernel⟩

end Tgtc.Fairness
