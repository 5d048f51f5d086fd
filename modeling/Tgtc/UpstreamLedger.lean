import Tgtc.Store
import Tgtc.UpstreamMoves

/-!
The ledger of upstream leases. Weights are clipped against a budget that can change; what a lease adds to the counters
when it is granted is what its release takes off, and no grant goes over the budget.
-/
namespace Tgtc.UpstreamLedger
open Numbers Resources UpstreamQueue UpstreamMoves Coordinator Runs
open Store (amount total total_open total_close amount_of_found amount_le_total)

def weightPart (_ : Nat) (record : LeaseRecord) : Int := record.weight

/-- The lease fits the budget in force when it was granted, alone and together with what was held. -/
def WithinBudget (grant : LeaseGrant) : Prop :=
  1 ≤ grant.weight ∧ within grant.weight grant.budget = true ∧ within grant.activeUpstreamWeight grant.budget = true

structure Ledger (u : Upstream) : Prop where
  distinct : u.upstreamLeases.Nodup
  known : ∀ id ∈ u.upstreamLeases, id < u.leases.length
  live : ∀ (id : Nat) (record : LeaseRecord), u.leases[id]? = some record →
    (id ∈ u.upstreamLeases ↔ record.active = true)
  counted : u.activeUpstreams = u.upstreamLeases.length
  weighed : u.activeUpstreamWeight = total weightPart u.leases u.upstreamLeases
  granted : ∀ (id : Nat) (record : LeaseRecord), u.leases[id]? = some record →
    ∃ event ∈ u.log, ∃ grant, event.grant = some grant ∧ grant.lease = id ∧ grant.weight = record.weight
  bounded : ∀ event ∈ u.log, ∀ grant, event.grant = some grant → WithinBudget grant

theorem ledger_fresh : Ledger UpstreamQueue.fresh := by
  refine ⟨List.nodup_nil,?_,?_,rfl,rfl,?_,?_⟩
  · intro id member; cases member
  · intro id record found; cases found
  · intro id record found; cases found
  · intro event member; cases member

theorem one_le_budget {c : Config} {n : Int} (budget : currentUpstreamBudget c = some n) : 1 ≤ n := by
  unfold currentUpstreamBudget Number.atLeastOne at budget
  split at budget
  · cases budget; exact le_refl _
  · cases budget; exact le_refl _
  · cases budget; exact le_max_left _ _
  · cases budget

theorem clip_budget (c : Config) {weight : Int} (positive : 1 ≤ weight) :
    1 ≤ clip weight (currentUpstreamBudget c) ∧
      within (clip weight (currentUpstreamBudget c)) (currentUpstreamBudget c) = true := by
  cases budget : currentUpstreamBudget c with
  | none => exact ⟨positive,rfl⟩
  | some n =>
    have least := one_le_budget budget
    exact ⟨le_min positive least,decide_eq_true (min_le_right _ _)⟩

theorem resolveUpstreamWeight_budget (c : Config) (o : AcquireUpstreamOptions) :
    1 ≤ resolveUpstreamWeight c o ∧ within (resolveUpstreamWeight c o) (currentUpstreamBudget c) = true :=
  clip_budget c (le_max_left _ _)

theorem effectiveWaiterWeight_budget (c : Config) (weight : Int) :
    1 ≤ effectiveWaiterWeight c weight ∧ within (effectiveWaiterWeight c weight) (currentUpstreamBudget c) = true :=
  clip_budget c (le_max_left _ _)

theorem ledger_emit {u : Upstream} (ledger : Ledger u) (event : UpstreamEvent) (silent : event.grant = none) :
    Ledger (emit u event) := by
  refine ⟨ledger.distinct,ledger.known,ledger.live,ledger.counted,ledger.weighed,?_,?_⟩
  · intro id record found
    obtain ⟨earlier,member,grant,reported⟩ := ledger.granted id record found
    exact ⟨earlier,List.mem_append_left _ member,grant,reported⟩
  · intro other member grant reported
    rcases List.mem_append.mp member with old | new
    · exact ledger.bounded other old grant reported
    · rw [List.mem_singleton.mp new,silent] at reported
      cases reported

theorem ledger_open (ctx : Context) {u : Upstream} (ledger : Ledger u) {weight : Int} (waiting : List Nat)
    (budget : 1 ≤ weight ∧ within weight (currentUpstreamBudget ctx.config) = true)
    (fits : canGrantUpstream ctx.config u weight = true) (event : UpstreamEvent)
    (reports : event.grant = some (leaseGrant ctx u weight waiting)) :
    Ledger (emit (grantUpstreamLease u weight) event) := by
  have fresh : u.leases.length ∉ u.upstreamLeases := fun member =>
    absurd (ledger.known _ member) (Nat.lt_irrefl _)
  refine ⟨?_,?_,?_,?_,?_,?_,?_⟩
  · exact ledger.distinct.append (List.nodup_singleton _) (by simpa using fresh)
  · intro id member
    simp only [emit,grantUpstreamLease,List.length_append,List.length_singleton]
    rcases List.mem_append.mp member with old | new
    · have := ledger.known id old; omega
    · rw [List.mem_singleton.mp new]; omega
  · intro id record found
    simp only [emit,grantUpstreamLease,List.mem_append,List.mem_singleton] at found ⊢
    rcases Nat.lt_trichotomy id u.leases.length with old | new | beyond
    · rw [List.getElem?_append_left old] at found
      rw [← ledger.live id record found]
      exact ⟨fun h => h.resolve_right (by omega),.inl⟩
    · subst new
      simp only [List.getElem?_concat_length,Option.some.injEq] at found
      subst found
      simp
    · rw [List.getElem?_eq_none (by simp; omega)] at found
      cases found
  · simp only [emit,grantUpstreamLease,List.length_append,List.length_singleton]
    rw [ledger.counted]
    omega
  · simp only [emit,grantUpstreamLease]
    rw [total_open weightPart ledger.known,ledger.weighed]
    rfl
  · intro id record found
    simp only [emit,grantUpstreamLease] at found ⊢
    rcases Nat.lt_trichotomy id u.leases.length with old | new | beyond
    · rw [List.getElem?_append_left old] at found
      obtain ⟨earlier,member,grant,reported⟩ := ledger.granted id record found
      exact ⟨earlier,List.mem_append_left _ member,grant,reported⟩
    · subst new
      simp only [List.getElem?_concat_length,Option.some.injEq] at found
      subst found
      exact ⟨event,by simp,_,reports,rfl,rfl⟩
    · rw [List.getElem?_eq_none (by simp; omega)] at found
      cases found
  · intro other member grant reported
    rcases List.mem_append.mp member with old | new
    · exact ledger.bounded other old grant reported
    · rw [List.mem_singleton.mp new,reports] at reported
      cases reported
      exact ⟨budget.1,budget.2,fits⟩

theorem weight_le_active {u : Upstream} (ledger : Ledger u) {id : Nat} {record : LeaseRecord}
    (found : u.leases[id]? = some record) (active : record.active = true) :
    record.weight ≤ u.activeUpstreamWeight := by
  have nonneg : ∀ other ∈ u.upstreamLeases, 0 ≤ amount weightPart u.leases other := by
    intro other member
    have at_other := List.getElem?_eq_getElem (ledger.known other member)
    obtain ⟨event,logged,grant,reported,_,same⟩ := ledger.granted other _ at_other
    have positive := (ledger.bounded event logged grant reported).1
    rw [amount_of_found weightPart at_other]
    simp only [weightPart]
    omega
  have part := amount_le_total weightPart nonneg ((ledger.live id record found).mpr active)
  rw [amount_of_found weightPart found,← ledger.weighed] at part
  exact part

theorem length_filter_ne {live : List Nat} (distinct : live.Nodup) {id : Nat} (member : id ∈ live) :
    (live.filter (· ≠ id)).length + 1 = live.length := by
  have erased : live.filter (· ≠ id) = live.erase id := by
    rw [distinct.erase_eq_filter]
    apply List.filter_congr
    intro other _
    by_cases same : other = id <;> simp [same]
  rw [erased,List.length_erase_of_mem member]
  have := List.length_pos_of_mem member
  omega

theorem ledger_retire {u : Upstream} (ledger : Ledger u) {id : Nat} {record : LeaseRecord}
    (found : u.leases[id]? = some record) (active : record.active = true) : Ledger (retireLease u id record) := by
  have member : id ∈ u.upstreamLeases := (ledger.live id record found).mpr active
  have part := weight_le_active ledger found active
  have shorter := length_filter_ne ledger.distinct member
  have off : id ∉ u.upstreamLeases.filter (· ≠ id) := by simp
  have changed : ∀ (other : Nat) (r : LeaseRecord), (retireLease u id record).leases[other]? = some r →
      ∃ old, u.leases[other]? = some old ∧ r = if id = other then { old with active := false } else old := by
    intro other r at_other
    simp only [retireLease,List.getElem?_modify] at at_other
    cases before : u.leases[other]? with
    | none => rw [before] at at_other; cases at_other
    | some old =>
      rw [before] at at_other
      exact ⟨old,rfl,by simpa using at_other.symm⟩
  refine ⟨ledger.distinct.filter _,?_,?_,?_,?_,?_,ledger.bounded⟩
  · intro other inside
    simpa [retireLease] using ledger.known other (List.mem_of_mem_filter inside)
  · intro other r at_other
    obtain ⟨old,before,rfl⟩ := changed other r at_other
    simp only [retireLease,List.mem_filter,ledger.live other old before]
    by_cases same : id = other
    · simp [same]
    · simp [same,Ne.symm same]
  · simp only [retireLease]
    rw [ledger.counted]
    omega
  · simp only [retireLease]
    rw [Store.total_modify_absent weightPart off,total_close weightPart ledger.distinct member,
      amount_of_found weightPart found,← ledger.weighed]
    simp only [weightPart]
    omega
  · intro other r at_other
    obtain ⟨old,before,rfl⟩ := changed other r at_other
    obtain ⟨event,logged,grant,reported,lease,weight⟩ := ledger.granted other old before
    refine ⟨event,logged,grant,reported,lease,?_⟩
    rw [weight]
    split <;> rfl

theorem move_ledger (ctx : Context) (kind : Kind) (u u' : Upstream) (byItself : kind ≠ .hook)
    (move : Move ctx kind u u') (ledger : Ledger u) : Ledger u' := by
  have same : ∀ {v : Upstream}, v.leases = u.leases → v.upstreamLeases = u.upstreamLeases →
      v.activeUpstreams = u.activeUpstreams → v.activeUpstreamWeight = u.activeUpstreamWeight → v.log = u.log →
      Ledger v := by
    rintro ⟨_,_,_,_,_,_,_,_,_,_⟩ rfl rfl rfl rfl rfl
    exact { ledger with }
  have queueLeft : ∀ id, Ledger (without u id) := fun id => same rfl rfl rfl rfl rfl
  have numbered : ∀ waiting timers listeners, Ledger { u with
      nextRequest := u.nextRequest + 1, waitingUpstream := waiting, timers := timers, listeners := listeners } :=
    fun _ _ _ => same rfl rfl rfl rfl rfl
  cases move with
  | reject => exact ledger_emit (numbered _ _ _) (.answered _ (.rejected _)) rfl
  | grant _ o fits =>
    exact ledger_open ctx (numbered u.waitingUpstream u.timers u.listeners) (waitingIds u)
      (resolveUpstreamWeight_budget ctx.config o) fits (.answered _ (.granted _)) rfl
  | enqueue => exact ledger_emit (numbered _ _ _) (.queued _ _ _) rfl
  | weigh => exact same rfl rfl rfl rfl rfl
  | serve _ head rest queue reason fits =>
    exact ledger_open ctx (queueLeft head.id) (waitingIds u) (effectiveWaiterWeight_budget ctx.config head.weight) fits
      (.left _ (.granted _ reason)) rfl
  | pass _ head rest queue policy unreserved candidate behind fits =>
    have opened := ledger_open ctx (queueLeft candidate.id) (waitingIds u)
      (effectiveWaiterWeight_budget ctx.config candidate.weight) fits (.left candidate.id (.granted _ .fitSkip)) rfl
    exact { opened with }
  | retire _ id record found active => exact ledger_retire ledger found active
  | leave _ waiter member ending refusal =>
    refine ledger_emit (queueLeft waiter.id) (.left _ ending) ?_
    cases refusal <;> rfl
  | count => exact absurd rfl byItself

def NoHook (_ : Service) : Op → Prop
  | .setActiveUpstreamCount _ => False
  | _ => True

theorem noHook_does {s : Service} {op : Op} (allowed : NoHook s op) {kind : Kind} (does : Does op kind) :
    kind ≠ .hook := by
  rintro rfl
  cases op with
  | setActiveUpstreamCount => exact allowed
  | _ => exact does

/-- The counters are the number and the weight of the leases held, each within the budget of its moment.
-/
theorem lease_ledger_reachable (config : Config) (world : World) (evictionHook : Bool) (s : Service)
    (reach : Reachable step NoHook (Coordinator.fresh config world evictionHook) s) : Ledger s.upstream :=
  reachable_upstream ledger_fresh (fun _ _ allowed _ does => noHook_does allowed does) move_ledger reach

theorem lease_ledger_after_lowered_budget :
    Ledger (after defaultConfig 100 [.acquireUpstreamSlot ⟨some .nan,some (.whole (2 ^ 31)),.absent⟩,
      .acquireUpstreamSlot ⟨some (.finite (-3 / 2)),none,.pending⟩,
      .configure ⟨none,none,none,some (.whole 2),some .boundedFit,none⟩,.releaseLease 0,.releaseLease 0]).upstream :=
  lease_ledger_reachable defaultConfig (volume 0 100) false _ (reachable_run .start _ (by simp [Legal,NoHook]))

end Tgtc.UpstreamLedger
