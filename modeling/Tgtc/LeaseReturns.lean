import Tgtc.DiskLedger
import Tgtc.SessionLeases

/-!
What becomes of the resources of cold sessions. Every lease is given back once, an acquisition that fails holds
nothing, and when all requests and runners have come to their end nothing is held but what others hold.
-/
namespace Tgtc.LeaseReturns
open Numbers Resources Runs Coordinator SessionLeases Maps
open DiskHandles (Claim)
open UpstreamLedger (NoHook)
open Deliveries (delivered)
open UpstreamHandles (claimed given_up held_update isActive isActive_known settlement step_held unsettled_next)
open Function (update update_eq_self update_of_ne)

def Returned (s : Service) (reservation : Nat) : Prop :=
  reservation < s.disk.records.length ∧ DiskQueue.isActive s.disk reservation = false

def Freed (s : Service) (upstream : Nat) : Prop :=
  upstream < s.upstream.leases.length ∧ isActive s.upstream upstream = false

/-- The two calls of a request yielded what its lease holds. -/
structure Yielded (s : Service) (ticket slot : Option Nat) (lease : Lease) : Prop where
  reservation : ∃ request, ticket = some request ∧ delivered s.disk request = some lease.reservation
  upstream : ∃ request, slot = some request ∧ UpstreamHandles.delivered s.upstream request = some lease.upstream

structure Carried (s : Service) (ticket slot : Option Nat) (lease : Lease) : Prop where
  unreleased : lease.released = false
  releases : lease.releases = 0
  yielded : Yielded s ticket slot lease

structure GivenBack (s : Service) (ticket slot : Option Nat) (lease : Lease) : Prop where
  released : lease.released = true
  releases : lease.releases = 1
  yielded : Yielded s ticket slot lease
  reservation : Returned s lease.reservation
  upstream : Freed s lease.upstream

structure Failed (s : Service) (ticket slot : Option Nat) : Prop where
  reservation : ∀ request, ticket = some request → ∃ outcome, DiskQueue.settlement s.disk request = some outcome ∧
    ∀ reservation, outcome = .ok reservation → Returned s reservation
  upstream : ∀ request, slot = some request → ∃ exception,
    settlement s.upstream request = some (.error exception)

def Proper (s : Service) (r : Request) : Prop :=
  match r.phase with
  | .queued | .checking _ | .preparing | .joined _ none => r.ticket = none ∧ r.slot = none
  | .reserving request => r.ticket = some request ∧ r.slot = none
  | .connecting reservation request =>
    (∃ asked, r.ticket = some asked ∧ delivered s.disk asked = some reservation) ∧ r.slot = some request
  | .leased lease | .replacing lease | .leading _ lease | .unwinding _ lease => Carried s r.ticket r.slot lease
  | .joined _ (some lease) | .closed (some lease) => GivenBack s r.ticket r.slot lease
  | .closed none => Failed s r.ticket r.slot

structure Onward (s s' : Service) : Prop where
  disk : Deliveries.Onward s.disk s'.disk
  upstream : UpstreamHandles.Onward s.upstream s'.upstream

section
variable {s s' : Service} {ticket slot : Option Nat}

section
variable (onward : Onward s s')
include onward

theorem returned_onward {id : Nat} (returned : Returned s id) : Returned s' id :=
  ⟨Nat.lt_of_lt_of_le returned.1 onward.disk.longer,onward.disk.dead id returned.1 returned.2⟩

theorem freed_onward {id : Nat} (freed : Freed s id) : Freed s' id :=
  ⟨Nat.lt_of_lt_of_le freed.1 onward.upstream.longer,onward.upstream.dead id freed.1 freed.2⟩

theorem delivered_onward {request id : Nat} (got : delivered s.disk request = some id) : delivered s'.disk request = some id := by
  unfold delivered at got ⊢
  cases done : DiskQueue.settlement s.disk request with
  | none => simp [done] at got
  | some outcome =>
    rw [onward.disk.settled request outcome done]
    rwa [done] at got

theorem delivered_slot_onward {request id : Nat} (got : UpstreamHandles.delivered s.upstream request = some id) :
    UpstreamHandles.delivered s'.upstream request = some id := by
  unfold UpstreamHandles.delivered at got ⊢
  cases done : settlement s.upstream request with
  | none => simp [done] at got
  | some outcome =>
    rw [onward.upstream.settled request outcome done]
    rwa [done] at got

theorem yielded_onward {lease : Lease} (yielded : Yielded s ticket slot lease) : Yielded s' ticket slot lease := by
  obtain ⟨⟨request,asked,got⟩,⟨request',asked',got'⟩⟩ := yielded
  exact ⟨⟨request,asked,delivered_onward onward got⟩,⟨request',asked',delivered_slot_onward onward got'⟩⟩

theorem carried_onward {lease : Lease} (carried : Carried s ticket slot lease) : Carried s' ticket slot lease :=
  ⟨carried.unreleased,carried.releases,yielded_onward onward carried.yielded⟩

theorem givenBack_onward {lease : Lease} (back : GivenBack s ticket slot lease) : GivenBack s' ticket slot lease :=
  ⟨back.released,back.releases,yielded_onward onward back.yielded,returned_onward onward back.reservation,
    freed_onward onward back.upstream⟩

theorem failed_onward (failed : Failed s ticket slot) : Failed s' ticket slot := by
  refine ⟨?_,?_⟩
  · intro request asked
    obtain ⟨outcome,done,back⟩ := failed.reservation request asked
    exact ⟨outcome,onward.disk.settled request outcome done,fun id is => returned_onward onward (back id is)⟩
  · intro request asked
    obtain ⟨exception,done⟩ := failed.upstream request asked
    exact ⟨exception,onward.upstream.settled request _ done⟩

theorem proper_onward {r : Request} (proper : Proper s r) : Proper s' r := by
  unfold Proper at proper ⊢
  generalize r.phase = phase at proper ⊢
  cases phase with
  | queued | checking | preparing | reserving => exact proper
  | connecting =>
    obtain ⟨⟨asked,is,got⟩,slot⟩ := proper
    exact ⟨⟨asked,is,delivered_onward onward got⟩,slot⟩
  | leased lease | replacing lease | leading n lease | unwinding n lease => exact carried_onward onward proper
  | joined n lease =>
    cases lease with
    | none => exact proper
    | some lease => exact givenBack_onward onward proper
  | closed lease =>
    cases lease with
    | none => exact failed_onward onward proper
    | some lease => exact givenBack_onward onward proper

end

end

theorem step_onward (s : Service) (op : Op) (disk : DiskMoves.Unsettled s.disk)
    (upstream : UpstreamMoves.Unsettled s.upstream) : Onward s (Coordinator.step s op) :=
  ⟨DiskHandles.step_onward s op disk,UpstreamHandles.step_onward s op upstream⟩

theorem onward_refl (s : Service) : Onward s s := ⟨Deliveries.onward_refl _,UpstreamHandles.onward_refl _⟩

variable {r : Request} {s : Service} {i : Nat} {s' : Service} {requests : List Request} {lease : Lease} {phase : Phase}
  {r' : Request} {n : Nat}

theorem onward_trans {s'' : Service} (first : Onward s s') (second : Onward s' s'') : Onward s s'' :=
  ⟨Deliveries.onward_trans first.disk second.disk,UpstreamHandles.onward_trans first.upstream second.upstream⟩

section
variable (config : Config) (world : World) (evictionHook : Bool)

structure Guarded (disk upstream : Nat → Claim) (s : Service) : Prop where
  runs : Reachable Coordinator.step NoHook (Coordinator.fresh config world evictionHook) s
  disk : DiskHandles.Held disk s.disk
  upstream : UpstreamHandles.Held upstream s.upstream

structure Inv (s : State) : Prop where
  guarded : Guarded config world evictionHook (diskClaims s.requests) (upstreamClaims s.requests) s.resources
  proper : ∀ (i : Nat) (r : Request), s.requests[i]? = some r → Proper s.resources r
  tickets : ∀ (i : Nat) (r : Request) (request : Nat), s.requests[i]? = some r → r.ticket = some request →
    request < s.resources.disk.nextRequest
  slots : ∀ (i : Nat) (r : Request) (request : Nat), s.requests[i]? = some r → r.slot = some request →
    request < s.resources.upstream.nextRequest

structure After (s : State) (i : Nat) (s' : Service) (r' : Request) : Prop where
  guarded : Guarded config world evictionHook (update (diskClaims s.requests) i r'.phase.diskClaim)
    (update (upstreamClaims s.requests) i r'.phase.upstreamClaim) s'
  onward : Onward s.resources s'
  proper : Proper s' r'
  ticket : ∀ request, r'.ticket = some request → request < s'.disk.nextRequest
  slot : ∀ request, r'.slot = some request → request < s'.upstream.nextRequest

end

section
variable {config : Config} {world : World} {evictionHook : Bool} {disk upstream : Nat → Claim} {s : Service}

section
variable (guarded : Guarded config world evictionHook disk upstream s)
include guarded

theorem guarded_unsettled : DiskMoves.Unsettled s.disk ∧ UpstreamMoves.Unsettled s.upstream :=
  ⟨(@DiskMoves.reachable_disk (fun _ => True) _ _ _ _ trivial (fun _ _ _ _ _ _ => trivial) _ guarded.runs).1,
    UpstreamMoves.reachable_unsettled guarded.runs⟩

theorem guarded_onward (op : Op) : Onward s (Coordinator.step s op) :=
  step_onward s op (guarded_unsettled guarded).1 (guarded_unsettled guarded).2

theorem guarded_step {op : Op} (noHook : NoHook s op)
    (foreignDisk : DiskHandles.Foreign disk s.disk op) (foreignUpstream : UpstreamHandles.Foreign upstream s.upstream op) :
    Guarded config world evictionHook disk upstream (Coordinator.step s op) := by
  obtain ⟨unsettledDisk,unsettledUpstream⟩ := guarded_unsettled guarded
  exact ⟨guarded.runs.next op noHook,DiskHandles.step_held s op unsettledDisk foreignDisk guarded.disk,
    step_held s op unsettledUpstream foreignUpstream guarded.upstream⟩

theorem guarded_update (i : Nat) {c c' : Claim}
    (fewer : ∀ id, DiskHandles.claimed s.disk c = some id → DiskHandles.claimed s.disk (disk i) = some id)
    (single : ∀ j request, c = .awaited request → disk j = .awaited request → j = i)
    (fewer' : ∀ id, claimed s.upstream c' = some id →
      claimed s.upstream (upstream i) = some id)
    (single' : ∀ j request, c' = .awaited request → upstream j = .awaited request → j = i) :
    Guarded config world evictionHook (update disk i c) (update upstream i c') s :=
  ⟨guarded.runs,DiskHandles.held_update guarded.disk i c fewer single,
    held_update guarded.upstream i c' fewer' single'⟩

end

end

/-! ### One turn -/

theorem diskClaims_at (at_i : requests[i]? = some r) :
    diskClaims requests i = r.phase.diskClaim := by simp [diskClaims,at_i]

theorem upstreamClaims_at (at_i : requests[i]? = some r) :
    upstreamClaims requests i = r.phase.upstreamClaim := by simp [upstreamClaims,at_i]

theorem carries_claims (carries : phase.Carries lease) :
    phase.diskClaim = lease.claim lease.reservation ∧ phase.upstreamClaim = lease.claim lease.upstream := by
  cases carries <;> exact ⟨rfl,rfl⟩

theorem finished_claims (finished : phase.Finished) (got : phase.lease = some lease) :
    phase.diskClaim = lease.claim lease.reservation ∧ phase.upstreamClaim = lease.claim lease.upstream := by
  cases phase with
  | joined n l | closed l =>
    cases got
    exact ⟨rfl,rfl⟩
  | _ => exact absurd finished id

theorem lease_claim_settled (lease : Lease) (id request : Nat) : lease.claim id ≠ .awaited request := by
  unfold Lease.claim
  split <;> simp

theorem diskClaim_awaited {request : Nat} (awaits : phase.diskClaim = .awaited request) :
    phase = .reserving request := by
  cases phase with
  | reserving asked =>
    cases awaits
    rfl
  | leased lease | replacing lease | leading n lease | unwinding n lease =>
    exact absurd awaits (lease_claim_settled lease _ _)
  | joined n lease | closed lease =>
    cases lease with
    | none => cases awaits
    | some lease => exact absurd awaits (lease_claim_settled lease _ _)
  | queued | checking | preparing | connecting => cases awaits

theorem upstreamClaim_awaited {request : Nat} (awaits : phase.upstreamClaim = .awaited request) :
    ∃ reservation, phase = .connecting reservation request := by
  cases phase with
  | connecting reservation asked =>
    cases awaits
    exact ⟨reservation,rfl⟩
  | leased lease | replacing lease | leading n lease | unwinding n lease =>
    exact absurd awaits (lease_claim_settled lease _ _)
  | joined n lease | closed lease =>
    cases lease with
    | none => cases awaits
    | some lease => exact absurd awaits (lease_claim_settled lease _ _)
  | queued | checking | preparing | reserving => cases awaits

theorem proper_carried (proper : Proper s r)
    (carries : r.phase.Carries lease) : Carried s r.ticket r.slot lease := by
  unfold Proper at proper
  generalize r.phase = phase at carries proper
  cases carries <;> exact proper

theorem carried_proper {s : Service} {r : Request} {lease : Lease} (carries : r.phase.Carries lease)
    (carried : Carried s r.ticket r.slot lease) : Proper s r := by
  unfold Proper
  generalize r.phase = phase at carries
  cases carries <;> exact carried

theorem givenBack_proper (finished : r.phase.Finished)
    (got : r.phase.lease = some lease) (back : GivenBack s r.ticket r.slot lease) : Proper s r := by
  unfold Proper
  generalize r.phase = phase at finished got
  cases phase with
  | joined n l | closed l => cases got; exact back
  | _ => exact absurd finished id

section
variable {config : Config} {world : World} {evictionHook : Bool} {s : State} {i : Nat} {r r' : Request}

section
variable (inv : Inv config world evictionHook s)
include inv

theorem asked_onward (at_i : s.requests[i]? = some r) {s' : Service}
    (onward : Onward s.resources s') : (∀ request, r.ticket = some request → request < s'.disk.nextRequest) ∧
      ∀ request, r.slot = some request → request < s'.upstream.nextRequest :=
  ⟨fun request asked => Nat.lt_of_lt_of_le (inv.tickets i r request at_i asked) onward.disk.numbered,
    fun request asked => Nat.lt_of_lt_of_le (inv.slots i r request at_i asked) onward.upstream.numbered⟩

theorem after_still (at_i : s.requests[i]? = some r) (disk : ∀ id, DiskHandles.claimed s.resources.disk r'.phase.diskClaim = some id →
      DiskHandles.claimed s.resources.disk r.phase.diskClaim = some id)
    (diskDone : ∀ request, r'.phase.diskClaim ≠ .awaited request)
    (upstream : ∀ id, claimed s.resources.upstream r'.phase.upstreamClaim = some id →
      claimed s.resources.upstream r.phase.upstreamClaim = some id)
    (upstreamDone : ∀ request, r'.phase.upstreamClaim ≠ .awaited request) (proper : Proper s.resources r')
    (ticket : r'.ticket = r.ticket) (slot : r'.slot = r.slot) :
    After config world evictionHook s i s.resources r' := by
  refine ⟨guarded_update inv.guarded i ?_ ?_ ?_ ?_,onward_refl _,proper,?_,?_⟩
  · rwa [diskClaims_at at_i]
  · exact fun j request awaits => absurd awaits (diskDone request)
  · rwa [upstreamClaims_at at_i]
  · exact fun j request awaits => absurd awaits (upstreamDone request)
  · exact fun request asked => inv.tickets i r request at_i (ticket ▸ asked)
  · exact fun request asked => inv.slots i r request at_i (slot ▸ asked)

theorem after_early (at_i : s.requests[i]? = some r)
    (nothing : r'.phase.diskClaim = .nothing) (nothing' : r'.phase.upstreamClaim = .nothing)
    (proper : Proper s.resources r') (ticket : r'.ticket = r.ticket) (slot : r'.slot = r.slot) :
    After config world evictionHook s i s.resources r' := by
  refine after_still inv at_i ?_ ?_ ?_ ?_ proper ticket slot
  · rw [nothing]
    exact fun id has => by cases has
  · simp [nothing]
  · rw [nothing']
    exact fun id has => by cases has
  · simp [nothing']

theorem nobody_awaits (j : Nat) : diskClaims s.requests j ≠ .awaited s.resources.disk.nextRequest := by
  intro awaits
  unfold diskClaims at awaits
  cases at_j : s.requests[j]? with
  | none => simp [at_j] at awaits
  | some r =>
    simp only [at_j] at awaits
    have proper := inv.proper j r at_j
    rw [Proper,diskClaim_awaited awaits] at proper
    exact Nat.lt_irrefl _ (inv.tickets j r _ at_j proper.1)

theorem nobody_awaits_slot (j : Nat) : upstreamClaims s.requests j ≠ .awaited s.resources.upstream.nextRequest := by
  intro awaits
  unfold upstreamClaims at awaits
  cases at_j : s.requests[j]? with
  | none => simp [at_j] at awaits
  | some r =>
    simp only [at_j] at awaits
    obtain ⟨reservation,phase⟩ := upstreamClaim_awaited awaits
    have proper := inv.proper j r at_j
    rw [Proper,phase] at proper
    exact Nat.lt_irrefl _ (inv.slots j r _ at_j proper.2)

theorem after_ask (at_i : s.requests[i]? = some r) (prepared : r.phase = .preparing) (o : DiskQueue.ReserveOptions) :
    After config world evictionHook s i (Coordinator.step s.resources (.reserve o))
      { r with phase := .reserving s.resources.disk.nextRequest, ticket := some s.resources.disk.nextRequest } := by
  have proper := inv.proper i r at_i
  rw [Proper,prepared] at proper
  have awaiting : Guarded config world evictionHook
      (update (diskClaims s.requests) i (.awaited s.resources.disk.nextRequest))
      (update (upstreamClaims s.requests) i .nothing) s.resources := by
    refine guarded_update inv.guarded i ?_ ?_ ?_ ?_
    · intro id has
      simp [DiskHandles.claimed,delivered,Deliveries.unsettled_next inv.guarded.disk.settled] at has
    · rintro j request ⟨⟩ awaits
      exact absurd awaits (nobody_awaits inv j)
    · exact fun id has => by cases has
    · exact fun j request awaits => by cases awaits
  have onward := guarded_onward inv.guarded (.reserve o)
  have next : (Coordinator.step s.resources (.reserve o)).disk.nextRequest = s.resources.disk.nextRequest + 1 :=
    DiskMoves.reserve_numbered _ _ _ _
  refine ⟨guarded_step awaiting trivial trivial trivial,onward,⟨rfl,proper.2⟩,?_,?_⟩
  · rintro request ⟨⟩
    rw [next]
    exact Nat.lt_succ_self _
  · intro request asked
    simp [proper.2] at asked

theorem after_connect (at_i : s.requests[i]? = some r) {request reservation : Nat} (asked : r.phase = .reserving request)
    (settled : DiskQueue.settlement s.resources.disk request = some (.ok reservation))
    (o : UpstreamQueue.AcquireUpstreamOptions) :
    After config world evictionHook s i (Coordinator.step s.resources (.acquireUpstreamSlot o))
      { r with phase := .connecting reservation s.resources.upstream.nextRequest
               slot := some s.resources.upstream.nextRequest } := by
  have proper := inv.proper i r at_i
  rw [Proper,asked] at proper
  have got : delivered s.resources.disk request = some reservation := by simp [delivered,settled]
  have awaiting : Guarded config world evictionHook (update (diskClaims s.requests) i (.inHand reservation))
      (update (upstreamClaims s.requests) i (.awaited s.resources.upstream.nextRequest)) s.resources := by
    refine guarded_update inv.guarded i ?_ ?_ ?_ ?_
    · rintro id ⟨⟩
      rw [diskClaims_at at_i,asked]
      exact got
    · exact fun j request awaits => by cases awaits
    · intro id has
      simp [claimed,UpstreamHandles.delivered,
        unsettled_next inv.guarded.upstream.settled] at has
    · rintro j request ⟨⟩ awaits
      exact absurd awaits (nobody_awaits_slot inv j)
  have onward := guarded_onward inv.guarded (.acquireUpstreamSlot o)
  have next : (Coordinator.step s.resources (.acquireUpstreamSlot o)).upstream.nextRequest =
      s.resources.upstream.nextRequest + 1 := UpstreamMoves.acquireUpstreamSlot_numbered _ _ _ _
  refine ⟨guarded_step awaiting trivial trivial trivial,onward,⟨⟨request,proper.1,delivered_onward onward got⟩,rfl⟩,
    (asked_onward inv at_i onward).1,?_⟩
  rintro other ⟨⟩
  rw [next]
  exact Nat.lt_succ_self _

theorem after_signal (at_i : s.requests[i]? = some r) {op : Op} (harmless : Harmless op) (aborted : Bool) :
    After config world evictionHook s i (Coordinator.step s.resources op) { r with aborted := aborted } := by
  have onward := guarded_onward inv.guarded op
  have same : update (diskClaims s.requests) i r.phase.diskClaim = diskClaims s.requests := by
    rw [← diskClaims_at at_i,update_eq_self]
  have same' : update (upstreamClaims s.requests) i r.phase.upstreamClaim = upstreamClaims s.requests := by
    rw [← upstreamClaims_at at_i,update_eq_self]
  obtain ⟨ticket,slot⟩ := asked_onward inv at_i onward
  refine ⟨?_,onward,proper_onward onward (inv.proper i r at_i),ticket,slot⟩
  rw [same,same']
  cases op with
  | diskAbort | upstreamAbort | consume => exact guarded_step inv.guarded trivial trivial trivial
  | _ => exact absurd harmless id

theorem guarded_give (i : Nat) : Guarded config world evictionHook (update (diskClaims s.requests) i .nothing)
      (update (upstreamClaims s.requests) i .nothing) s.resources := by
  refine guarded_update inv.guarded i ?_ ?_ ?_ ?_
  · exact fun id has => by cases has
  · exact fun j request awaits => by cases awaits
  · exact fun id has => by cases has
  · exact fun j request awaits => by cases awaits

section
variable (at_i : s.requests[i]? = some r)
include at_i

theorem release_own {id : Nat} (had : r.phase.diskClaim = .inHand id) :
    Guarded config world evictionHook (update (diskClaims s.requests) i .nothing)
      (update (upstreamClaims s.requests) i .nothing) (Coordinator.step s.resources (.release id)) ∧
    Returned (Coordinator.step s.resources (.release id)) id := by
  have has : DiskHandles.claimed s.resources.disk (diskClaims s.requests i) = some id := by
    rw [diskClaims_at at_i,had]
    rfl
  refine ⟨guarded_step (guarded_give inv i) trivial (DiskHandles.given_up inv.guarded.disk has) trivial,?_,
    DiskMoves.releaseReservation_inactive s.resources.ctx s.resources.disk id⟩
  obtain ⟨record,found,_⟩ := DiskMoves.isActive_known (inv.guarded.disk.live i id has)
  exact Nat.lt_of_lt_of_le (at_lt found) (guarded_onward inv.guarded (.release id)).disk.longer

theorem after_cutOff {reservation request : Nat}
    (asked : r.phase = .connecting reservation request) {exception : DownloadResourceException}
    (settled : settlement s.resources.upstream request = some (.error exception)) :
    After config world evictionHook s i (Coordinator.step s.resources (.release reservation))
      { r with phase := .closed none } := by
  obtain ⟨guarded,returned⟩ := release_own inv at_i (show r.phase.diskClaim = .inHand reservation by rw [asked]; rfl)
  have onward := guarded_onward inv.guarded (.release reservation)
  have proper := inv.proper i r at_i
  rw [Proper,asked] at proper
  obtain ⟨⟨ticket,is,got⟩,slot⟩ := proper
  refine ⟨guarded,onward,⟨?_,?_⟩,(asked_onward inv at_i onward).1,(asked_onward inv at_i onward).2⟩
  · intro other same
    obtain rfl : ticket = other := Option.mem_unique is same
    have done : DiskQueue.settlement s.resources.disk ticket = some (.ok reservation) := by
      unfold delivered at got
      split at got
      · next settled => rw [settled,Option.some.inj got]
      · cases got
    refine ⟨.ok reservation,onward.disk.settled ticket _ done,?_⟩
    rintro _ ⟨⟩
    exact returned
  · intro other same
    obtain rfl : request = other := Option.mem_unique slot same
    exact ⟨exception,onward.upstream.settled request _ settled⟩

theorem after_letGo {lease : Lease} (carries : r.phase.Carries lease) {phase : Phase} (finished : phase.Finished)
    (released : phase.lease = some lease.release) :
    After config world evictionHook s i (lease.giveBack s.resources) { r with phase := phase } := by
  obtain ⟨unreleased,releases,yielded⟩ := proper_carried (inv.proper i r at_i) carries
  obtain ⟨diskClaim,upstreamClaim⟩ := carries_claims carries
  have inHand : ∀ id, lease.claim id = .inHand id := fun id => by simp [Lease.claim,unreleased]
  have dropped : ∀ id, lease.release.claim id = .nothing := fun id => by simp [Lease.claim,Lease.release,unreleased]
  obtain ⟨first,returned⟩ := release_own inv at_i (diskClaim.trans (inHand _))
  have has : claimed s.resources.upstream (upstreamClaims s.requests i) = some lease.upstream := by
    rw [upstreamClaims_at at_i,upstreamClaim,inHand]
    rfl
  -- the reservation goes first, and the slot is still held then
  have second := @guarded_step _ _ _ _ _ _ first (.releaseLease lease.upstream) trivial trivial
    (given_up inv.guarded.upstream has)
  have onward := onward_trans (guarded_onward inv.guarded (.release lease.reservation))
    (guarded_onward first (.releaseLease lease.upstream))
  have freed : Freed (Coordinator.step (Coordinator.step s.resources (.release lease.reservation))
      (.releaseLease lease.upstream)) lease.upstream := by
    obtain ⟨record,found,_⟩ := isActive_known (inv.guarded.upstream.live i _ has)
    have known : lease.upstream < s.resources.upstream.leases.length := at_lt found
    exact ⟨Nat.lt_of_lt_of_le known onward.upstream.longer,
      UpstreamHandles.releaseLease_inactive _ s.resources.upstream known⟩
  have both : lease.giveBack s.resources = Coordinator.step (Coordinator.step s.resources (.release lease.reservation))
      (.releaseLease lease.upstream) := by simp [Lease.giveBack,unreleased]
  have back : GivenBack (lease.giveBack s.resources) r.ticket r.slot lease.release := by
    rw [both]
    have yielded' := yielded_onward onward yielded
    have same : lease.release = { lease with released := true, releases := 1 } := by
      simp [Lease.release,unreleased,releases]
    rw [same]
    exact ⟨rfl,rfl,⟨yielded'.reservation,yielded'.upstream⟩,
      returned_onward (guarded_onward first (.releaseLease lease.upstream)) returned,freed⟩
  obtain ⟨gone,gone'⟩ := finished_claims finished released
  rw [both] at back ⊢
  refine ⟨?_,onward,givenBack_proper finished released back,(asked_onward inv at_i onward).1,(asked_onward inv at_i onward).2⟩
  rw [gone,gone',dropped,dropped]
  exact second

theorem turn_after {s' : Service} (turn : Turn s.resources r s' r') : After config world evictionHook s i s' r' := by
  have proper := inv.proper i r at_i
  cases turn with
  | turnedAway early =>
    have unasked : r.ticket = none ∧ r.slot = none := by
      rcases early with phase | phase <;> rw [Proper,phase] at proper <;> exact proper
    refine after_early inv at_i rfl rfl ⟨?_,?_⟩ rfl rfl
    · simp [unasked.1]
    · simp [unasked.2]
  | join n early =>
    refine after_early inv at_i rfl rfl ?_ rfl rfl
    rcases early with phase | phase <;> rw [Proper,phase] at proper <;> exact proper
  | inspect n queued | prepare queued =>
    rw [Proper,queued] at proper
    exact after_early inv at_i rfl rfl proper rfl rfl
  | tear n early =>
    refine after_early inv at_i rfl rfl ?_ rfl rfl
    rcases early with phase | phase <;> rw [Proper,phase] at proper <;> exact proper
  | ask prepared o => exact after_ask inv at_i prepared o
  | signal op harmless aborted => exact after_signal inv at_i harmless aborted
  | refused request asked failure settled =>
    rw [Proper,asked] at proper
    refine after_early inv at_i rfl rfl ⟨?_,?_⟩ rfl rfl
    · intro other same
      obtain rfl : request = other := Option.mem_unique proper.1 same
      exact ⟨.error failure,settled,fun reservation is => by cases is⟩
    · simp [proper.2]
  | connect request reservation asked settled o => exact after_connect inv at_i asked settled o
  | cutOff reservation request asked exception settled => exact after_cutOff inv at_i asked settled
  | lease reservation request upstream asked settled =>
    rw [Proper,asked] at proper
    have got : UpstreamHandles.delivered s.resources.upstream request = some upstream := by
      simp [UpstreamHandles.delivered,settled]
    refine after_still inv at_i ?_ (fun _ => lease_claim_settled _ _ _) ?_ (fun _ => lease_claim_settled _ _ _)
      ⟨rfl,rfl,⟨proper.1,⟨request,proper.2,got⟩⟩⟩ rfl rfl
    · rw [asked]
      exact fun id has => has
    · rw [asked]
      exact fun id has => got.trans has
  | keep lease before phase after =>
    obtain ⟨disk,upstream⟩ := carries_claims before
    obtain ⟨disk',upstream'⟩ := carries_claims after
    have carried := proper_carried proper before
    refine after_still inv at_i ?_ ?_ ?_ ?_ (@carried_proper _ { r with phase := phase } _ after carried) rfl rfl
    · rw [disk,disk']
      exact fun _ has => has
    · rw [disk']
      exact fun _ => lease_claim_settled _ _ _
    · rw [upstream,upstream']
      exact fun _ has => has
    · rw [upstream']
      exact fun _ => lease_claim_settled _ _ _
  | letGo lease before phase finished released => exact after_letGo inv at_i before finished released

end

end

end

/-! ### Whole runs -/

theorem diskClaims_set (known : i < requests.length) (r' : Request) :
    diskClaims (requests.set i r') = update (diskClaims requests) i r'.phase.diskClaim := by
  funext j
  by_cases here : j = i
  · subst here
    simp [diskClaims,known]
  · simp [diskClaims,update_of_ne here,Ne.symm here]

theorem upstreamClaims_set (known : i < requests.length) (r' : Request) :
    upstreamClaims (requests.set i r') = update (upstreamClaims requests) i r'.phase.upstreamClaim := by
  funext j
  by_cases here : j = i
  · subst here
    simp [upstreamClaims,known]
  · simp [upstreamClaims,update_of_ne here,Ne.symm here]

theorem arrive_at (requests : List Request) (new : Request) (j : Nat) :
    (requests ++ [new])[j]? = requests[j]? ∨ (requests[j]? = none ∧ (requests ++ [new])[j]? = some new) := by
  rcases Nat.lt_or_ge j requests.length with inside | outside
  · exact .inl (List.getElem?_append_left inside)
  · have absent : requests[j]? = none := List.getElem?_eq_none outside
    rw [List.getElem?_append_right outside,absent]
    rcases Nat.eq_zero_or_pos (j - requests.length) with first | later
    · exact .inr ⟨rfl,by simp [first]⟩
    · exact .inl (List.getElem?_eq_none (show [new].length ≤ j - requests.length from later))

theorem claims_arrive (requests : List Request) (kind : LockKind) (fileId : String) (expectedSize : Nat)
    (contentVersion : Option String) :
    diskClaims (requests ++ [newRequest kind fileId expectedSize contentVersion]) = diskClaims requests ∧
    upstreamClaims (requests ++ [newRequest kind fileId expectedSize contentVersion]) = upstreamClaims requests := by
  refine ⟨funext fun j => ?_,funext fun j => ?_⟩
  · rcases arrive_at requests (newRequest kind fileId expectedSize contentVersion) j with same | ⟨absent,new⟩
    · simp only [diskClaims,same]
    · simp only [diskClaims,absent,new]
      rfl
  · rcases arrive_at requests (newRequest kind fileId expectedSize contentVersion) j with same | ⟨absent,new⟩
    · simp only [upstreamClaims,same]
    · simp only [upstreamClaims,absent,new]
      rfl

section
variable {config : Config} {world : World} {evictionHook : Bool} {s s' : State}

section
variable (inv : Inv config world evictionHook s) (resources : s'.resources = s.resources)
include inv resources

theorem inv_same (requests : s'.requests = s.requests) : Inv config world evictionHook s' := by
  obtain ⟨guarded,proper,tickets,slots⟩ := inv
  constructor <;> rw [resources,requests] <;> assumption

theorem inv_arrive {kind : LockKind} {fileId : String} {expectedSize : Nat}
    {contentVersion : Option String} (requests : s'.requests = s.requests ++ [newRequest kind fileId expectedSize contentVersion]) :
    Inv config world evictionHook s' := by
  obtain ⟨disk,upstream⟩ := claims_arrive s.requests kind fileId expectedSize contentVersion
  have placed : ∀ (j : Nat) (r : Request), s'.requests[j]? = some r →
      s.requests[j]? = some r ∨ r = newRequest kind fileId expectedSize contentVersion := by
    intro j r at_j
    rw [requests] at at_j
    rcases arrive_at s.requests (newRequest kind fileId expectedSize contentVersion) j with same | ⟨_,new⟩
    · exact .inl (same ▸ at_j)
    · exact .inr (Option.mem_unique at_j new)
  refine ⟨?_,?_,?_,?_⟩
  · rw [resources,requests,disk,upstream]
    exact inv.guarded
  · intro j r at_j
    rw [resources]
    rcases placed j r at_j with old | rfl
    · exact inv.proper j r old
    · exact ⟨rfl,rfl⟩
  · intro j r request at_j asked
    rw [resources]
    rcases placed j r at_j with old | rfl
    · exact inv.tickets j r request old asked
    · cases asked
  · intro j r request at_j asked
    rw [resources]
    rcases placed j r at_j with old | rfl
    · exact inv.slots j r request old asked
    · cases asked

end

theorem inv_turn (inv : Inv config world evictionHook s) {i : Nat} {r r' : Request} (at_i : s.requests[i]? = some r)
    (after : After config world evictionHook s i s'.resources r') (requests : s'.requests = s.requests.set i r') :
    Inv config world evictionHook s' := by
  have known : i < s.requests.length := at_lt at_i
  have placed : ∀ (j : Nat) (q : Request), s'.requests[j]? = some q → (j = i ∧ q = r') ∨ s.requests[j]? = some q := by
    intro j q at_j
    rw [requests] at at_j
    by_cases here : j = i
    · subst here
      rw [List.getElem?_set_self known] at at_j
      exact .inl ⟨rfl,(Option.some.inj at_j).symm⟩
    · rw [List.getElem?_set_ne (Ne.symm here)] at at_j
      exact .inr at_j
  refine ⟨?_,?_,?_,?_⟩
  · rw [requests,diskClaims_set known,upstreamClaims_set known]
    exact after.guarded
  · intro j q at_j
    rcases placed j q at_j with ⟨_,rfl⟩ | old
    · exact after.proper
    · exact proper_onward after.onward (inv.proper j q old)
  · intro j q request at_j asked
    rcases placed j q at_j with ⟨_,rfl⟩ | old
    · exact after.ticket request asked
    · exact Nat.lt_of_lt_of_le (inv.tickets j q request old asked) after.onward.disk.numbered
  · intro j q request at_j asked
    rcases placed j q at_j with ⟨_,rfl⟩ | old
    · exact after.slot request asked
    · exact Nat.lt_of_lt_of_le (inv.slots j q request old asked) after.onward.upstream.numbered

theorem step_inv (l : Label) (inv : Inv config world evictionHook s) (allowed : Allowed s l) :
    Inv config world evictionHook (step s l) := by
  rcases step_cases s l with ⟨resources,requests⟩ | ⟨op,rfl,resources,requests⟩ |
    ⟨kind,fileId,expectedSize,contentVersion,resources,requests⟩ | ⟨i,r,r',moves⟩
  · exact inv_same inv resources requests
  · obtain ⟨noHook,disk,upstream⟩ := allowed
    have onward := guarded_onward inv.guarded op
    refine ⟨guarded_step inv.guarded noHook disk upstream,?_,?_,?_⟩
    · exact fun j r at_j => proper_onward onward (inv.proper j r at_j)
    · exact fun j r request at_j asked => Nat.lt_of_lt_of_le (inv.tickets j r request at_j asked) onward.disk.numbered
    · exact fun j r request at_j asked => Nat.lt_of_lt_of_le (inv.slots j r request at_j asked) onward.upstream.numbered
  · exact inv_arrive inv resources requests
  · have after := turn_after inv moves.at_i moves.turn
    rcases moves.requests with requests | ⟨kind,fileId,expectedSize,contentVersion,requests⟩
    · exact inv_turn inv moves.at_i after requests
    · -- the turn first, and then the request in the spool lock
      have turned := @inv_turn _ _ _ s { s with resources := (step s l).resources, requests := s.requests.set i r' } inv i
        r r' moves.at_i after rfl
      exact inv_arrive turned rfl requests

theorem inv_initial (config : Config) (world : World) (evictionHook : Bool) :
    Inv config world evictionHook (initial config world evictionHook) := by
  have nobody : ∀ holder id, DiskHandles.owns (diskClaims []) (DiskQueue.fresh evictionHook) holder ≠ some id := by
    rintro (i | key) id has
    · cases has
    · cases has
  refine ⟨⟨.start,⟨Settlement.diskSettled_fresh evictionHook,⟨?_,?_,?_⟩,?_⟩,
    ⟨Settlement.upstreamSettled_fresh,?_,?_,?_⟩⟩,?_,?_,?_⟩
  · exact fun holder other id has => absurd has (nobody holder id)
  · exact fun holder id has => absurd has (nobody holder id)
  · exact fun i j request awaits => by cases awaits
  · exact fun i id has => by cases has
  · exact fun i j id has => by cases has
  · exact fun i j request awaits => by cases awaits
  · exact fun i id has => by cases has
  · exact fun i r at_i => by cases at_i
  · exact fun i r request at_i => by cases at_i
  · exact fun i r request at_i => by cases at_i

theorem reached_inv (reach : Reached config world evictionHook s) : Inv config world evictionHook s :=
  reachable_invariant (inv_initial config world evictionHook) (fun _ l inv allowed => step_inv l inv allowed) reach

end

/-! ### Joining -/

/-- A request that reads a session or looks at one has asked for nothing, unless it has torn down a
spool session whose file was broken. -/
def Follows (n : Nat) (r : Request) : Prop :=
  (r.ticket = none ∧ r.slot = none ∧ (r.phase.Finished ∨ r.kind = .spool ∧ r.phase = .checking n)) ∨
    (r.kind = .spool ∧ r.torn = some n ∧ r.phase ≠ .queued ∧ ∀ m, r.phase ≠ .checking m)

section
variable (turn : Turn s r s' r')
include turn

theorem turn_finished (finished : r.phase.Finished) : r'.phase = r.phase ∧ r'.ticket = r.ticket ∧ r'.slot = r.slot := by
  have busy : ∀ lease, ¬ r.phase.Carries lease := by
    intro lease carries
    generalize r.phase = phase at carries finished
    cases carries <;> exact finished
  cases turn with
  | signal => exact ⟨rfl,rfl,rfl⟩
  | keep lease before | letGo lease before => exact absurd before (busy lease)
  | turnedAway early | join n early => rcases early with phase | phase <;> rw [phase] at finished <;> exact absurd finished id
  | tear n early => rcases early with phase | phase <;> rw [phase] at finished <;> exact absurd finished id
  | inspect n phase | prepare phase | ask phase | refused request phase => rw [phase] at finished; exact absurd finished id
  | connect request reservation phase | cutOff reservation request phase => rw [phase] at finished; exact absurd finished id
  | lease reservation request upstream phase => rw [phase] at finished; exact absurd finished id

theorem turn_checking (checking : r.phase = .checking n) : r'.kind = r.kind ∧ r'.ticket = r.ticket ∧ r'.slot = r.slot ∧
      (r'.phase.Finished ∨ r'.phase = .checking n ∨ r'.torn = some n ∧ r'.phase = .preparing) := by
  cases turn with
  | signal => exact ⟨rfl,rfl,rfl,.inr (.inl checking)⟩
  | join m early => exact ⟨rfl,rfl,rfl,.inl trivial⟩
  | tear m early =>
    rw [checking] at early
    rcases early with phase | phase
    · cases phase
    · cases phase
      exact ⟨rfl,rfl,rfl,.inr (.inr ⟨rfl,rfl⟩)⟩
  | keep lease before | letGo lease before => rw [checking] at before; cases before
  | turnedAway early => rw [checking] at early; rcases early with phase | phase <;> cases phase
  | inspect m phase | prepare phase | ask phase | refused request phase => rw [checking] at phase; cases phase
  | connect request reservation phase | cutOff reservation request phase => rw [checking] at phase; cases phase
  | lease reservation request upstream phase => rw [checking] at phase; cases phase

theorem turn_late (entered : r.phase ≠ .queued) (looked : ∀ m, r.phase ≠ .checking m) :
    r'.kind = r.kind ∧ r'.torn = r.torn ∧ r'.phase ≠ .queued ∧ ∀ m, r'.phase ≠ .checking m := by
  cases turn with
  | signal => exact ⟨rfl,rfl,entered,looked⟩
  | join m early | tear m early =>
    rcases early with phase | phase
    · exact absurd phase entered
    · exact absurd phase (looked m)
  | inspect m phase | prepare phase => exact absurd phase entered
  | keep lease before phase after =>
    refine ⟨rfl,rfl,?_,?_⟩ <;> intros <;> intro is <;> subst is <;> cases after
  | letGo lease before phase finished =>
    refine ⟨rfl,rfl,?_,?_⟩ <;> intros <;> intro is <;> subst is <;> exact finished
  | turnedAway | ask | refused | connect | cutOff | lease => exact ⟨rfl,rfl,by simp,by simp⟩

theorem turn_follows (follows : Follows n r) : Follows n r' := by
  rcases follows with ⟨ticket,slot,finished | ⟨spool,checking⟩⟩ | ⟨spool,torn,entered,looked⟩
  · obtain ⟨phase,ticket',slot'⟩ := turn_finished turn finished
    exact .inl ⟨ticket'.trans ticket,slot'.trans slot,.inl (phase ▸ finished)⟩
  · obtain ⟨kind,ticket',slot',joined | still | ⟨torn,prepared⟩⟩ := turn_checking turn checking
    · exact .inl ⟨ticket'.trans ticket,slot'.trans slot,.inl joined⟩
    · exact .inl ⟨ticket'.trans ticket,slot'.trans slot,.inr ⟨kind.trans spool,still⟩⟩
    · exact .inr ⟨kind.trans spool,torn,by simp [prepared],by simp [prepared]⟩
  · obtain ⟨kind,torn',entered',looked'⟩ := turn_late turn entered looked
    exact .inr ⟨kind.trans spool,torn'.trans torn,entered',looked'⟩

end

theorem run_follows {s s' : State} (reach : Reachable SessionLeases.step Allowed s s')
    (at_i : s.requests[i]? = some r) (follows : Follows n r) : ∃ r', s'.requests[i]? = some r' ∧ Follows n r' := by
  induction reach with
  | start => exact ⟨r,at_i,follows⟩
  | @next t l _ _ ih =>
    obtain ⟨q,at_q,followsQ⟩ := ih
    have known : i < t.requests.length := at_lt at_q
    rcases step_cases t l with ⟨_,requests⟩ | ⟨op,_,_,requests⟩ | ⟨_,_,_,_,_,requests⟩ | ⟨j,p,p',moves⟩
    · exact ⟨q,requests ▸ at_q,followsQ⟩
    · exact ⟨q,requests ▸ at_q,followsQ⟩
    · exact ⟨q,by rw [requests,List.getElem?_append_left known,at_q],followsQ⟩
    · have placed : ∃ r', (t.requests.set j p')[i]? = some r' ∧ Follows n r' := by
        by_cases here : j = i
        · subst here
          obtain rfl : q = p := Option.mem_unique at_q moves.at_i
          exact ⟨p',List.getElem?_set_self known,turn_follows moves.turn followsQ⟩
        · exact ⟨q,by rw [List.getElem?_set_ne here,at_q],followsQ⟩
      obtain ⟨r',found,followsR⟩ := placed
      rcases moves.requests with requests | ⟨_,_,_,_,requests⟩
      · exact ⟨r',requests ▸ found,followsR⟩
      · refine ⟨r',?_,followsR⟩
        rw [requests,List.getElem?_append_left (by simpa using known),found]

theorem enter_follows {s : State} {session : Session} (at_i : s.requests[i]? = some r)
    (asked : r.ticket = none ∧ r.slot = none) (queued : r.phase = .queued)
    (found : s.found r.kind r.fileId = some (n,session)) (live : session.error = none) (fits : session.fits r = true)
    (cached : Bool) :
    ∃ r', (SessionLeases.step s (.request i (.enter cached))).requests[i]? = some r' ∧ Follows n r' := by
  have known : i < s.requests.length := at_lt at_i
  have placed : ∀ phase : Phase, phase.Finished ∨ r.kind = .spool ∧ phase = .checking n →
      ∃ r', (s.setPhase i r phase).requests[i]? = some r' ∧ Follows n r' := fun phase follows =>
    ⟨{ r with phase := phase },List.getElem?_set_self known,.inl ⟨asked.1,asked.2,follows⟩⟩
  have version : CacheService.sameContentVersion session.contentVersion r.contentVersion = true := by
    simp only [Session.fits,Bool.and_eq_true] at fits
    exact fits.2
  simp only [SessionLeases.step,at_i,State.act,queued]
  unfold State.enter
  split
  · exact placed _ (.inl trivial)
  cases kind : r.kind with
  | build =>
    rw [kind] at found
    simp only [found]
    split
    · exact placed _ (.inl trivial)
    · exact placed _ (.inl trivial)
  | spool =>
    rw [kind] at found
    simp only [found,live,fits,Option.isSome_none,Bool.false_eq_true,Bool.true_eq_false,or_self,if_false]
    split
    · exact placed _ (.inl trivial)
    · exact placed _ (.inr ⟨kind,rfl⟩)

/-! ### Nothing is lost -/

/-- A lease is in use until its request and its runner have ended and is then given back once; a request
that failed has none. -/
structure Accounted (s : Service) (r : Request) : Prop where
  yielded : ∀ lease, r.phase.lease = some lease → Yielded s r.ticket r.slot lease
  lease : ∀ lease, r.phase.lease = some lease →
    (¬ r.phase.Finished ∧ lease.released = false ∧ lease.releases = 0 ∧
      DiskQueue.isActive s.disk lease.reservation = true ∧ isActive s.upstream lease.upstream = true) ∨
    (r.phase.Finished ∧ lease.released = true ∧ lease.releases = 1 ∧ Returned s lease.reservation ∧ Freed s lease.upstream)
  failed : r.phase = .closed none → (∀ request, r.slot = some request → UpstreamHandles.delivered s.upstream request = none) ∧
    ∀ request reservation, r.ticket = some request → delivered s.disk request = some reservation → Returned s reservation

def otherReservations (s : State) : List Nat :=
  s.resources.disk.reservations.filter fun id =>
    s.requests.all fun r => (r.ticket.bind (delivered s.resources.disk)) ≠ some id

def otherLeases (s : State) : List Nat :=
  s.resources.upstream.upstreamLeases.filter fun id =>
    s.requests.all fun r => (r.slot.bind (UpstreamHandles.delivered s.resources.upstream)) ≠ some id

section
variable {config : Config} {world : World} {evictionHook : Bool} {s : State} {i : Nat} {r : Request}

theorem accounted_carried (inv : Inv config world evictionHook s) (at_i : s.requests[i]? = some r) {lease : Lease}
    (carries : r.phase.Carries lease) :
    lease.released = false ∧ lease.releases = 0 ∧ DiskQueue.isActive s.resources.disk lease.reservation = true ∧
      isActive s.resources.upstream lease.upstream = true := by
  have carried := proper_carried (inv.proper i r at_i) carries
  obtain ⟨diskClaim,upstreamClaim⟩ := carries_claims carries
  refine ⟨carried.unreleased,carried.releases,inv.guarded.disk.live i _ ?_,inv.guarded.upstream.live i _ ?_⟩
  · rw [diskClaims_at at_i,diskClaim]
    simp [Lease.claim,carried.unreleased,DiskHandles.claimed]
  · rw [upstreamClaims_at at_i,upstreamClaim]
    simp [Lease.claim,carried.unreleased,claimed]

theorem failed_slot {s : Service} {ticket slot : Option Nat} (failed : Failed s ticket slot) {request : Nat}
    (asked : slot = some request) : UpstreamHandles.delivered s.upstream request = none := by
  obtain ⟨exception,done⟩ := failed.upstream request asked
  simp [UpstreamHandles.delivered,done]

theorem failed_ticket {s : Service} {ticket slot : Option Nat} (failed : Failed s ticket slot) {request reservation : Nat}
    (asked : ticket = some request) (got : delivered s.disk request = some reservation) : Returned s reservation := by
  obtain ⟨outcome,done,back⟩ := failed.reservation request asked
  unfold delivered at got
  rw [done] at got
  cases outcome with
  | ok id =>
    cases got
    exact back _ rfl
  | error failure => cases got

theorem lease_cases {phase : Phase} {lease : Lease} (got : phase.lease = some lease) :
    phase.Carries lease ∧ ¬ phase.Finished ∨ phase.Finished := by
  cases phase with
  | leased l => cases got; exact .inl ⟨.leased,id⟩
  | replacing l => cases got; exact .inl ⟨.replacing,id⟩
  | leading n l => cases got; exact .inl ⟨.leading n,id⟩
  | unwinding n l => cases got; exact .inl ⟨.unwinding n,id⟩
  | joined | closed => exact .inr trivial
  | queued | checking | preparing | reserving | connecting => cases got

theorem proper_givenBack {s : Service} (proper : Proper s r) (finished : r.phase.Finished) {lease : Lease}
    (got : r.phase.lease = some lease) : GivenBack s r.ticket r.slot lease := by
  unfold Proper at proper
  generalize r.phase = phase at proper finished got
  cases phase with
  | joined n l | closed l => cases got; exact proper
  | _ => exact absurd finished id

theorem finished_returned {s : Service} (proper : Proper s r) (finished : r.phase.Finished) :
    (∀ id, r.ticket.bind (delivered s.disk) = some id → Returned s id) ∧
      ∀ id, r.slot.bind (UpstreamHandles.delivered s.upstream) = some id → Freed s id := by
  cases got : r.phase.lease with
  | some lease =>
    have back := proper_givenBack proper finished got
    obtain ⟨⟨request,asked,yielded⟩,⟨request',asked',yielded'⟩⟩ := back.yielded
    refine ⟨fun id is => ?_,fun id is => ?_⟩
    · rw [asked,Option.bind_some,yielded] at is
      cases is
      exact back.reservation
    · rw [asked',Option.bind_some,yielded'] at is
      cases is
      exact back.upstream
  | none =>
    unfold Proper at proper
    generalize r.phase = phase at proper finished got
    cases phase with
    | joined n lease =>
      cases got
      simp [proper.1,proper.2]
    | closed lease =>
      cases got
      refine ⟨fun id is => ?_,fun id is => ?_⟩
      · obtain ⟨request,asked,yielded⟩ := Option.bind_eq_some_iff.mp is
        exact failed_ticket proper asked yielded
      · obtain ⟨request,asked,yielded⟩ := Option.bind_eq_some_iff.mp is
        rw [failed_slot proper asked] at yielded
        cases yielded
    | _ => exact absurd finished id

section
variable (inv : Inv config world evictionHook s)
include inv

theorem accounted_of_inv (at_i : s.requests[i]? = some r) : Accounted s.resources r := by
  have proper := inv.proper i r at_i
  refine ⟨?_,?_,?_⟩
  · intro lease got
    rcases lease_cases got with ⟨carries,_⟩ | finished
    · exact (proper_carried proper carries).yielded
    · exact (proper_givenBack proper finished got).yielded
  · intro lease got
    rcases lease_cases got with ⟨carries,busy⟩ | finished
    · exact .inl ⟨busy,accounted_carried inv at_i carries⟩
    · have back := proper_givenBack proper finished got
      exact .inr ⟨finished,back.released,back.releases,back.reservation,back.upstream⟩
  · intro phase
    unfold Proper at proper
    rw [phase] at proper
    exact ⟨fun request asked => failed_slot proper asked,fun request id asked got => failed_ticket proper asked got⟩

theorem inactive_reservation {id : Nat} (returned : Returned s.resources id) : id ∉ s.resources.disk.reservations := by
  have ledger := (DiskMoves.reachable_disk (DiskLedger.ledger_fresh _) DiskLedger.move_ledger inv.guarded.runs).2
  intro member
  have active := (ledger.live id _ (List.getElem?_eq_getElem returned.1)).mp member
  have inactive := returned.2
  simp only [DiskQueue.isActive,List.getElem?_eq_getElem returned.1,Option.map_some] at inactive
  rw [active] at inactive
  cases inactive

theorem inactive_lease {id : Nat} (freed : Freed s.resources id) : id ∉ s.resources.upstream.upstreamLeases := by
  have ledger := UpstreamLedger.lease_ledger_reachable _ _ _ _ inv.guarded.runs
  intro member
  have active := (ledger.live id _ (List.getElem?_eq_getElem freed.1)).mp member
  have inactive := freed.2
  simp only [isActive,List.getElem?_eq_getElem freed.1,Option.map_some] at inactive
  rw [active] at inactive
  cases inactive

theorem finished_others (all : ∀ r ∈ s.requests, r.phase.Finished) :
    otherReservations s = s.resources.disk.reservations ∧ otherLeases s = s.resources.upstream.upstreamLeases := by
  have gone : ∀ r ∈ s.requests, (∀ id, r.ticket.bind (delivered s.resources.disk) = some id → Returned s.resources id) ∧
      ∀ id, r.slot.bind (UpstreamHandles.delivered s.resources.upstream) = some id → Freed s.resources id := by
    intro r member
    obtain ⟨i,at_i⟩ := List.mem_iff_getElem?.mp member
    exact finished_returned (inv.proper i r at_i) (all r member)
  refine ⟨List.filter_eq_self.mpr ?_,List.filter_eq_self.mpr ?_⟩
  · intro id listed
    refine List.all_eq_true.mpr fun r member => decide_eq_true ?_
    exact fun got => inactive_reservation inv ((gone r member).1 id got) listed
  · intro id listed
    refine List.all_eq_true.mpr fun r member => decide_eq_true ?_
    exact fun got => inactive_lease inv ((gone r member).2 id got) listed

end

/-- Every lease that cold requests acquire is in use until its request and its runner have ended and is
then given back once; in the end the counters are what others hold. -/
theorem session_resources_returned_once (reach : Reached config world evictionHook s) :
    (∀ r ∈ s.requests, Accounted s.resources r) ∧
    ((∀ r ∈ s.requests, r.phase.Finished) →
      s.resources.upstream.activeUpstreams = (otherLeases s).length ∧
      s.resources.upstream.activeUpstreamWeight =
        Store.total UpstreamLedger.weightPart s.resources.upstream.leases (otherLeases s) ∧
      s.resources.disk.reservedPendingBytes =
        Store.total DiskLedger.pendingPart s.resources.disk.records (otherReservations s)) ∧
    (∀ (i : Nat) (r : Request) (n : Nat) (session : Session) (cached : Bool) (s' : State), s.requests[i]? = some r →
      r.phase = .queued → s.found r.kind r.fileId = some (n,session) → session.error = none → session.fits r = true →
      Reachable SessionLeases.step Allowed (SessionLeases.step s (.request i (.enter cached))) s' →
      ∃ r', s'.requests[i]? = some r' ∧
        (r'.ticket = none ∧ r'.slot = none ∨ r'.kind = .spool ∧ r'.torn = some n)) := by
  have inv := reached_inv reach
  refine ⟨?_,?_,?_⟩
  · intro r member
    obtain ⟨i,at_i⟩ := List.mem_iff_getElem?.mp member
    exact accounted_of_inv inv at_i
  · intro all
    obtain ⟨reservations,leases⟩ := finished_others inv all
    have disk := (DiskMoves.reachable_disk (DiskLedger.ledger_fresh _) DiskLedger.move_ledger inv.guarded.runs).2
    have upstream := UpstreamLedger.lease_ledger_reachable _ _ _ _ inv.guarded.runs
    rw [reservations,leases]
    exact ⟨upstream.counted,upstream.weighed,disk.pending⟩
  · intro i r n session cached s' at_i queued found live fits runs
    have asked : r.ticket = none ∧ r.slot = none := by
      have proper := inv.proper i r at_i
      unfold Proper at proper
      rwa [queued] at proper
    obtain ⟨q,at_q,follows⟩ := enter_follows at_i asked queued found live fits cached
    obtain ⟨r',at_r,follows'⟩ := run_follows runs at_q follows
    rcases follows' with ⟨ticket,slot,_⟩ | ⟨spool,torn,_⟩
    · exact ⟨r',at_r,.inl ⟨ticket,slot⟩⟩
    · exact ⟨r',at_r,.inr ⟨spool,torn⟩⟩

end

def sharedBuild : List Label :=
  [.resources (.acquireUpstreamSlot ⟨none,none,.absent⟩),.arrive .build "a" 8 none,.request 0 (.enter false),
    .request 0 .acquire,.request 0 .reserved,.request 0 .connected,.request 0 .hold,.arrive .build "a" 8 none]

def sharedBuildEnd : List Label :=
  [.request 1 (.enter false),.request 0 (.write 5),.abort 0 "timeout",.request 0 (.ended (.failed "timeout")),
    .request 0 .unwound]

theorem shared_build_returned :
    let shared := sharedBuild.foldl SessionLeases.step (initial defaultConfig (volume 0 100) false)
    let atRest := sharedBuildEnd.foldl SessionLeases.step shared
    (∃ r, shared.requests[0]? = some r ∧ r.phase = .leading 0 ⟨0,1,false,0⟩ ∧ Accounted shared.resources r) ∧
    (∃ r, atRest.requests[0]? = some r ∧ r.phase = .joined 0 (some ⟨0,1,true,1⟩) ∧ Accounted atRest.resources r) ∧
    atRest.resources.upstream.activeUpstreams = 1 ∧ otherLeases atRest = [0] ∧
    atRest.resources.upstream.activeUpstreams = (otherLeases atRest).length ∧
    atRest.resources.disk.reservedPendingBytes =
      Store.total DiskLedger.pendingPart atRest.resources.disk.records (otherReservations atRest) ∧
    ∃ r, atRest.requests[1]? = some r ∧ (r.ticket = none ∧ r.slot = none ∨ r.kind = .spool ∧ r.torn = some 0) := by
  intro shared atRest
  have reachShared : Reached defaultConfig (volume 0 100) false shared :=
    reachable_run .start sharedBuild (by simp [Legal,sharedBuild,Allowed,NoHook,DiskHandles.Foreign,UpstreamHandles.Foreign])
  have reachRest : Reached defaultConfig (volume 0 100) false atRest :=
    reachable_run reachShared sharedBuildEnd (by simp [Legal,sharedBuildEnd,Allowed])
  have leads : (shared.requests[0]?).map Request.phase = some (.leading 0 ⟨0,1,false,0⟩) := by decide +kernel
  have led : (atRest.requests[0]?).map Request.phase = some (.joined 0 (some ⟨0,1,true,1⟩)) := by decide +kernel
  have waits : (shared.requests[1]?) = some (newRequest .build "a" 8 none) := by decide +kernel
  have session : shared.found .build "a" = some (0,⟨.build,"a",8,none,true,false,none⟩) := by decide +kernel
  obtain ⟨leader,at_leader,leading⟩ := Option.map_eq_some_iff.mp leads
  obtain ⟨former,at_former,joined⟩ := Option.map_eq_some_iff.mp led
  obtain ⟨counted,_,pending⟩ := (session_resources_returned_once reachRest).2.1 (by decide +kernel)
  refine ⟨⟨leader,at_leader,leading,?_⟩,⟨former,at_former,joined,?_⟩,by decide +kernel,by decide +kernel,counted,pending,?_⟩
  · exact (session_resources_returned_once reachShared).1 leader (List.mem_of_getElem? at_leader)
  · exact (session_resources_returned_once reachRest).1 former (List.mem_of_getElem? at_former)
  · refine (session_resources_returned_once reachShared).2.2 1 _ 0 _ false atRest waits rfl session rfl (by decide) ?_
    exact reachable_run .start sharedBuildEnd.tail (by simp [Legal,sharedBuildEnd,Allowed])

/-- A request of the build lock finds no room and leads a spool session, and a second one comes to the
build lock. -/
def besideSpool : List Label :=
  [.arrive .build "a" 8 none,.request 0 (.enter false),.request 0 .degrade,.request 1 (.enter false),.request 1 .acquire,
    .request 1 .reserved,.request 1 .connected,.request 1 .hold,.arrive .build "a" 8 none]

def withoutFile : List Label :=
  [.arrive .spool "a" 8 none,.request 0 (.enter false),.request 0 .acquire,.request 0 .reserved,.request 0 .connected,
    .request 0 .hold,.ready 0,.arrive .spool "a" 8 none]

/-- No live session of the other kind, and no spool session whose file has gone, keeps a request from
its lease. -/
theorem live_session_unshared :
    let beside := besideSpool.foldl SessionLeases.step (initial defaultConfig (volume 0 100) false)
    let entering : List Label := [.request 2 (.enter false),.request 2 .acquire,.request 2 .reserved,.request 2 .connected]
    let broken := withoutFile.foldl SessionLeases.step (initial defaultConfig (volume 0 100) false)
    let checking : List Label :=
      [.request 1 (.enter false),.request 1 (.checked false),.request 1 .acquire,.request 1 .reserved,.request 1 .connected]
    (Reached defaultConfig (volume 0 100) false beside ∧ beside.requests[2]? = some (newRequest .build "a" 8 none) ∧
      beside.found .spool "a" = some (0,⟨.spool,"a",8,none,false,false,none⟩) ∧
      (beside.requests[1]?).map (·.phase) = some (.leading 0 ⟨0,0,false,0⟩) ∧
      Legal SessionLeases.step Allowed beside entering ∧
      ((entering.foldl SessionLeases.step beside).requests[2]?).map (·.phase) = some (.leased ⟨1,1,false,0⟩)) ∧
    Reached defaultConfig (volume 0 100) false broken ∧ broken.requests[1]? = some (newRequest .spool "a" 8 none) ∧
      broken.found .spool "a" = some (0,⟨.spool,"a",8,none,true,false,none⟩) ∧
      (broken.requests[0]?).map (·.phase) = some (.leading 0 ⟨0,0,false,0⟩) ∧
      Legal SessionLeases.step Allowed broken checking ∧
      ((checking.foldl SessionLeases.step broken).requests[1]?).map (·.phase) = some (.leased ⟨1,1,false,0⟩) := by
  intro beside entering broken checking
  refine ⟨⟨?_,by decide +kernel,by decide +kernel,by decide +kernel,by simp [entering,Legal,Allowed],by decide +kernel⟩,
    ?_,by decide +kernel,by decide +kernel,by decide +kernel,by simp [checking,Legal,Allowed],by decide +kernel⟩
  · exact reachable_run .start besideSpool (by simp [Legal,besideSpool,Allowed])
  · exact reachable_run .start withoutFile (by simp [Legal,withoutFile,Allowed])

end Tgtc.LeaseReturns
