import Mathlib.Data.List.Nodup
import Mathlib.Data.List.Count

/-!
Counting semaphores that hand permits on. A release gives the permit to the first in the queue, and the count of free
permits grows only when nobody waits.
-/
namespace Tgtc.Permits

inductive Permit where
  | none | parked | held
deriving DecidableEq

structure Semaphore where
  max : Nat
  count : Nat
  waiters : List Nat

def Semaphore.fresh (max : Nat) : Semaphore := ⟨max,max,[]⟩

def Semaphore.acquire (sem : Semaphore) (who : Nat) : Semaphore × Permit :=
  if sem.count > 0 then ({ sem with count := sem.count - 1 },.held)
  else ({ sem with waiters := sem.waiters ++ [who] },.parked)

def Semaphore.release (sem : Semaphore) : Semaphore × Option Nat :=
  match sem.waiters with
  | next :: rest => ({ sem with waiters := rest },some next)
  | [] => ({ sem with count := sem.count + 1 },Option.none)

def Semaphore.busy (sem : Semaphore) : Bool := sem.count < sem.max || sem.waiters.length > 0

def handed (permits : List Permit) : Option Nat → List Permit
  | some next => permits.set next .held
  | Option.none => permits

structure Balanced (sem : Semaphore) (permits : List Permit) : Prop where
  total : sem.count + permits.count .held = sem.max
  queued : ∀ i, i ∈ sem.waiters ↔ permits[i]? = some .parked
  once : sem.waiters.Nodup
  taken : sem.waiters ≠ [] → sem.count = 0

section
variable {sem : Semaphore} {permits : List Permit} {i : Nat}

theorem count_held_set {was : Permit} (found : permits[i]? = some was) (now : Permit) :
    (permits.set i now).count .held + (if was = .held then 1 else 0) =
      permits.count .held + (if now = .held then 1 else 0) := by
  obtain ⟨bound,value⟩ := List.getElem?_eq_some_iff.mp found
  rw [List.count_set bound,value]
  by_cases holds : was = .held
  · have positive : 0 < permits.count .held := List.count_pos_iff.mpr (holds ▸ List.mem_of_getElem? found)
    simp only [holds,if_true,beq_iff_eq]
    omega
  · simp only [holds,beq_iff_eq,if_false]
    omega

theorem get_set {was : Permit} (found : permits[i]? = some was) (now : Permit) (j : Nat) :
    (permits.set i now)[j]? = if j = i then some now else permits[j]? := by
  obtain ⟨bound,_⟩ := List.getElem?_eq_some_iff.mp found
  by_cases same : i = j
  · subst same
    simp [bound]
  · simp [same,Ne.symm same]

theorem balanced_fresh (max : Nat) (absent : ∀ p ∈ permits, p = .none) : Balanced (.fresh max) permits := by
  refine ⟨?_,?_,List.nodup_nil,fun waits => absurd rfl waits⟩
  · have none_held : permits.count .held = 0 := by
      rw [List.count_eq_zero]
      intro member
      cases absent _ member
    simp [Semaphore.fresh,none_held]
  · intro i
    refine ⟨fun waits => absurd waits (by simp [Semaphore.fresh]),fun parked => ?_⟩
    cases absent _ (List.mem_of_getElem? parked)

theorem balanced_append (balanced : Balanced sem permits) : Balanced sem (permits ++ [Permit.none]) := by
  refine ⟨?_,?_,balanced.once,balanced.taken⟩
  · simpa using balanced.total
  · intro j
    rw [balanced.queued j]
    by_cases bound : j < permits.length
    · rw [List.getElem?_append_left bound]
    · rw [List.getElem?_append_right (by omega),List.getElem?_eq_none (by omega)]
      cases gap : j - permits.length <;> simp

theorem balanced_acquire (balanced : Balanced sem permits) (absent : permits[i]? = some .none) :
    Balanced (sem.acquire i).1 (permits.set i (sem.acquire i).2) := by
  have outside : i ∉ sem.waiters := by
    rw [balanced.queued,absent]
    simp
  have total := balanced.total
  unfold Semaphore.acquire
  split
  · next free =>
    have idle : sem.waiters = [] := by
      by_contra waits
      have := balanced.taken waits
      omega
    have held := count_held_set absent .held
    refine ⟨?_,fun j => ?_,balanced.once,fun waits => absurd idle waits⟩
    · simp only [reduceCtorEq,if_false,if_true] at held
      simp only
      omega
    · rw [get_set absent,balanced.queued j]
      by_cases same : j = i
      · simp [same,absent]
      · simp [same]
  · next none_free =>
    have held := count_held_set absent .parked
    refine ⟨?_,fun j => ?_,?_,fun _ => by simp only; omega⟩
    · simp only [reduceCtorEq] at held
      simp only
      omega
    · rw [get_set absent,List.mem_append,balanced.queued j]
      by_cases same : j = i
      · simp [same]
      · simp [same]
    · exact balanced.once.append (List.nodup_singleton i) (by simpa using outside)

theorem release_parked (balanced : Balanced sem permits) {next : Nat} (handedOn : sem.release.2 = some next) :
    permits[next]? = some .parked := by
  apply (balanced.queued next).mp
  unfold Semaphore.release at handedOn
  cases queue : sem.waiters with
  | nil => simp [queue] at handedOn
  | cons first rest =>
    rw [queue] at handedOn
    cases handedOn
    simp

@[simp] theorem acquire_max (sem : Semaphore) (who : Nat) : (sem.acquire who).1.max = sem.max := by
  unfold Semaphore.acquire
  split <;> rfl

@[simp] theorem release_max (sem : Semaphore) : sem.release.1.max = sem.max := by
  unfold Semaphore.release
  split <;> rfl

theorem acquire_present (sem : Semaphore) (who : Nat) : (sem.acquire who).2 ≠ .none := by
  unfold Semaphore.acquire
  split <;> simp

theorem balanced_release (balanced : Balanced sem permits) (holds : permits[i]? = some .held) :
    Balanced sem.release.1 (handed (permits.set i .none) sem.release.2) := by
  have given := count_held_set holds .none
  simp only [reduceCtorEq,if_true,if_false] at given
  have total := balanced.total
  unfold Semaphore.release
  cases queue : sem.waiters with
  | nil =>
    refine ⟨?_,fun j => ?_,List.nodup_nil,fun waits => absurd rfl waits⟩
    · simp only [handed]
      omega
    · have parked := balanced.queued j
      rw [queue] at parked
      simp only [handed]
      rw [get_set holds]
      by_cases same : j = i
      · simp [same]
      · rw [if_neg same,parked]
  | cons next rest =>
    have none_free := balanced.taken (by simp [queue])
    have parked : permits[next]? = some .parked := (balanced.queued next).mp (by simp [queue])
    have other : next ≠ i := by
      rintro rfl
      rw [parked] at holds
      cases holds
    have still : (permits.set i .none)[next]? = some .parked := by
      rw [get_set holds,if_neg other,parked]
    obtain ⟨absent,once⟩ := List.nodup_cons.mp (queue ▸ balanced.once)
    have taken := count_held_set still .held
    simp only [reduceCtorEq,if_false,if_true] at taken
    refine ⟨?_,fun j => ?_,once,fun _ => none_free⟩
    · simp only [handed]
      omega
    · simp only [handed]
      rw [get_set still,get_set holds]
      by_cases first : j = next
      · simp [first,absent]
      rw [if_neg first]
      by_cases same : j = i
      · have outside : i ∉ sem.waiters := by
          rw [balanced.queued,holds]
          simp
        rw [queue,List.mem_cons,not_or] at outside
        simp [same,outside.2]
      · rw [if_neg same,← balanced.queued j,queue]
        simp [first]

end
end Tgtc.Permits
