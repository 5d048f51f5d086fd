import Mathlib.Algebra.Order.Floor.Ring
import Mathlib.Data.Rat.Floor
import Mathlib.Data.List.Perm.Subperm
import Mathlib.Data.List.Nodup
import Tgtc.Runs

/-!
The tokens of the uploads of a page. A call for a token gets one at once while fewer are out than there may be, and
waits in a queue otherwise; a token that comes back goes to the first in the queue.
-/
namespace Tgtc.UploadScheduler
open Runs
open List (append_nil filterMap_append filter_eq_self filter_sublist length_append map_append map_cons map_nil mem_append
  mem_filter mem_map mem_map_of_mem mem_singleton nodup_append nodup_nil not_mem_nil pairwise_cons)
universe u

def UPLOAD_CONCURRENCY_DEFAULT : Nat := 4
def MIN_CONCURRENCY : Nat := 1
def MAX_CONCURRENCY : Nat := 8

structure Waiter (Signal : Type u) where
  id : Nat
  signal : Option Signal
  settled : Bool

/-- What the callers see: a call is resolved, with the counts of that moment, or rejected, and its token comes back. -/
inductive Event where
  | granted (id active concurrency : Nat)
  | rejected (id : Nat)
  | released (id : Nat)
deriving DecidableEq

structure State (Signal : Type u) where
  concurrency : Nat
  active : Nat
  queue : List (Waiter Signal)
  aborted : List Signal
  listeners : List (Signal × Nat)
  calls : Nat
  log : List Event

def constructor (Signal : Type u) : State Signal := ⟨UPLOAD_CONCURRENCY_DEFAULT,0,[],[],[],0,[]⟩

section
variable {Signal : Type u}

def State.resolve (s : State Signal) (id : Nat) : State Signal := { s with log := s.log ++ [.granted id s.active s.concurrency] }

def State.reject (s : State Signal) (id : Nat) : State Signal := { s with log := s.log ++ [.rejected id] }

/-- `removeEventListener` of the listener of a waiter -/
def cleanup (s : State Signal) (id : Nat) : State Signal := { s with listeners := s.listeners.filter fun listener => listener.2 ≠ id }

def shiftNextWaiter : List (Waiter Signal) → Option (Waiter Signal) × List (Waiter Signal)
  | [] => (none,[])
  | waiter :: rest => if waiter.settled then shiftNextWaiter rest else (some waiter,rest)

def removeWaiter (s : State Signal) (id : Nat) : State Signal := { s with queue := s.queue.eraseP fun waiter => waiter.id = id }

def onAbort (s : State Signal) (id : Nat) : State Signal :=
  let s := { s with queue := s.queue.map fun waiter => if waiter.id = id then { waiter with settled := true } else waiter }
  (removeWaiter (cleanup s id) id).reject id

def grant (s : State Signal) (waiter : Waiter Signal) : State Signal := (cleanup s waiter.id).resolve waiter.id

section
variable [DecidableEq Signal]

def acquire (s : State Signal) (signal : Option Signal) : State Signal :=
  let id := s.calls
  let s := { s with calls := s.calls + 1 }
  if signal.any fun signal => signal ∈ s.aborted then s.reject id
  else if s.active < s.concurrency then { s with active := s.active + 1 }.resolve id
  else { s with queue := s.queue ++ [⟨id,signal,false⟩], listeners := s.listeners ++ (signal.map fun signal => (signal,id)).toList }

def abort (s : State Signal) (signal : Signal) : State Signal :=
  if signal ∈ s.aborted then s
  else ((s.listeners.filter fun listener => listener.1 = signal).map Prod.snd).foldl onAbort { s with aborted := signal :: s.aborted }

end

def release (s : State Signal) (id : Nat) : State Signal :=
  let s := { s with log := s.log ++ [Event.released id] }
  match if s.active ≤ s.concurrency then shiftNextWaiter s.queue else (none,s.queue) with
  | (some waiter,queue) => grant { s with queue } waiter
  | (none,queue) => { s with queue, active := s.active - 1 }

/-- The loop of `setConcurrency`, which takes a waiter out each time. -/
def grantWaiting : Nat → State Signal → State Signal
  | 0, s => s
  | fuel + 1, s =>
    if s.active < s.concurrency then
      match shiftNextWaiter s.queue with
      | (some waiter,queue) => grantWaiting fuel (grant { s with queue, active := s.active + 1 } waiter)
      | (none,queue) => { s with queue }
    else s

def setConcurrency (s : State Signal) (n : ℚ) : State Signal :=
  grantWaiting s.queue.length { s with concurrency := (min (MAX_CONCURRENCY : ℤ) (max MIN_CONCURRENCY ⌊n⌋)).toNat }

inductive Label (Signal : Type u) where
  | acquire (signal : Option Signal)
  | abort (signal : Signal)
  | release (id : Nat)
  | setConcurrency (n : ℚ)

def step [DecidableEq Signal] (s : State Signal) : Label Signal → State Signal
  | .acquire signal => acquire s signal
  | .abort signal => abort s signal
  | .release id => release s id
  | .setConcurrency n => setConcurrency s n

end

def Event.settles : Event → Option Nat
  | .granted id _ _ | .rejected id => some id
  | .released _ => none

def Event.grants : Event → Option Nat
  | .granted id _ _ => some id
  | _ => none

def Event.releases : Event → Option Nat
  | .released id => some id
  | _ => none

def settled (log : List Event) : List Nat := log.filterMap Event.settles

def grants (log : List Event) : List Nat := log.filterMap Event.grants

def releases (log : List Event) : List Nat := log.filterMap Event.releases

def outstanding (log : List Event) : List Nat := (grants log).filter fun id => id ∉ releases log

/-- A call gets its token only when every call before it has been settled. -/
def InOrder (log : List Event) : Prop :=
  ∀ before id active concurrency after, log = before ++ Event.granted id active concurrency :: after →
    ∀ earlier < id, earlier ∈ settled before

def Event.Within : Event → Prop
  | .granted _ active concurrency => active ≤ concurrency
  | _ => True

def Allowed {Signal : Type u} (s : State Signal) : Label Signal → Prop
  | .release id => id ∈ grants s.log ∧ id ∉ releases s.log
  | _ => True

structure Ledger {Signal : Type u} (queue : List (Waiter Signal)) (calls : Nat) (listeners : List (Signal × Nat))
    (log : List Event) : Prop where
  sorted : (queue.map Waiter.id).Pairwise (· < ·)
  pending : ∀ id, id ∈ queue.map Waiter.id ↔ id < calls ∧ id ∉ settled log
  unsettled : ∀ waiter ∈ queue, waiter.settled = false
  once : (settled log).Nodup
  called : ∀ id ∈ settled log, id < calls
  listened : ∀ listener ∈ listeners, listener.2 ∈ queue.map Waiter.id
  separate : (listeners.map Prod.snd).Nodup
  within : ∀ event ∈ log, event.Within
  ordered : InOrder log

section
variable {Signal : Type u} {queue : List (Waiter Signal)} {calls : Nat} {listeners : List (Signal × Nat)} {log : List Event}

theorem settled_append (log : List Event) (event : Event) : settled (log ++ [event]) = settled log ++ event.settles.toList := by
  simp [settled,List.filterMap_cons]
  cases event.settles <;> rfl

theorem grants_append (log : List Event) (event : Event) : grants (log ++ [event]) = grants log ++ event.grants.toList := by
  simp [grants,List.filterMap_cons]
  cases event.grants <;> rfl

theorem releases_append (log : List Event) (event : Event) : releases (log ++ [event]) = releases log ++ event.releases.toList := by
  simp [releases,List.filterMap_cons]
  cases event.releases <;> rfl

theorem grants_sublist (log : List Event) : (grants log).Sublist (settled log) := by
  induction log with
  | nil => exact List.Sublist.slnil
  | cons event rest ih =>
    cases event with
    | granted id _ _ => exact ih.cons_cons id
    | rejected id => exact ih.cons id
    | released id => exact ih

theorem outstanding_length (once : (settled log).Nodup) (back : (releases log).Nodup) (given : ∀ id ∈ releases log,id ∈ grants log) :
    (outstanding log).length + (releases log).length = (grants log).length := by
  have nodup := once.sublist (grants_sublist log)
  have same : ((grants log).filter fun id => id ∈ releases log).Perm (releases log) := by
    rw [List.perm_ext_iff_of_nodup (nodup.sublist filter_sublist) back]
    intro id
    simp only [mem_filter,decide_eq_true_eq]
    exact ⟨fun member => member.2,fun member => ⟨given id member,member⟩⟩
  have split := List.length_eq_length_filter_add (l := grants log) fun id => decide (id ∈ releases log)
  rw [same.length_eq] at split
  simp only [outstanding,decide_not]
  omega

theorem inOrder_append {event : Event} (order : InOrder log)
    (next : ∀ id ∈ event.grants,∀ earlier < id,earlier ∈ settled log) : InOrder (log ++ [event]) := by
  intro before id active concurrency after split
  rcases List.eq_nil_or_concat after with rfl | ⟨after',last,rfl⟩
  · obtain ⟨rfl,same⟩ := List.append_inj' split rfl
    cases same
    exact next id rfl
  · have split' : log ++ [event] = (before ++ Event.granted id active concurrency :: after') ++ [last] := by simpa using split
    obtain ⟨rfl,_⟩ := List.append_inj' split' rfl
    exact order before id active concurrency after' rfl

theorem ledger_empty : Ledger ([] : List (Waiter Signal)) 0 [] [] where
  sorted := List.Pairwise.nil
  pending id := by simp
  unsettled _ none := absurd none not_mem_nil
  once := nodup_nil
  called _ none := absurd none not_mem_nil
  listened _ none := absurd none not_mem_nil
  separate := nodup_nil
  within _ none := absurd none not_mem_nil
  ordered before id active concurrency after split := by simp at split

section
variable (ledger : Ledger queue calls listeners log)
include ledger

theorem Ledger.enqueue (signal : Option Signal) :
    Ledger (queue ++ [⟨calls,signal,false⟩]) (calls + 1) (listeners ++ (signal.map fun signal => (signal,calls)).toList) log where
  sorted := by
    rw [map_append,List.pairwise_append]
    refine ⟨ledger.sorted,List.pairwise_singleton _ _,?_⟩
    intro id member next same
    have called := ((ledger.pending id).mp member).1
    simp only [map_cons,map_nil,mem_singleton] at same
    omega
  pending id := by
    have fresh : calls ∉ settled log := fun member => Nat.lt_irrefl _ (ledger.called calls member)
    rw [map_append,mem_append,ledger.pending id]
    simp only [map_cons,map_nil,mem_singleton]
    constructor
    · rintro (⟨called,open'⟩ | rfl)
      · exact ⟨by omega,open'⟩
      · exact ⟨by omega,fresh⟩
    · rintro ⟨called,open'⟩
      by_cases new : id = calls
      · exact .inr new
      · exact .inl ⟨by omega,open'⟩
  unsettled waiter member := by
    rcases mem_append.mp member with earlier | new
    · exact ledger.unsettled waiter earlier
    · cases mem_singleton.mp new; rfl
  once := ledger.once
  called id member := Nat.lt_succ_of_lt (ledger.called id member)
  listened listener member := by
    rw [map_append]
    rcases mem_append.mp member with earlier | new
    · exact List.mem_append_left _ (ledger.listened listener earlier)
    · apply List.mem_append_right
      cases signal with
      | none => exact absurd new not_mem_nil
      | some signal => cases mem_singleton.mp new; exact mem_singleton.mpr rfl
  separate := by
    rw [map_append,nodup_append]
    refine ⟨ledger.separate,by cases signal <;> simp,?_⟩
    intro id member new at'
    obtain ⟨listener,listens,rfl⟩ := mem_map.mp member
    have called := ((ledger.pending _).mp (ledger.listened listener listens)).1
    cases signal with
    | none => exact absurd at' not_mem_nil
    | some signal =>
      simp only [Option.map_some,Option.toList_some,map_cons,map_nil,mem_singleton] at at'
      omega
  within := ledger.within
  ordered := ledger.ordered

theorem Ledger.settle (event : Event) {id : Nat} (settles : event.settles = some id)
    (waits : id ∈ queue.map Waiter.id) (first : ∀ other ∈ event.grants,∀ earlier < other,earlier ∈ settled log)
    (within : event.Within) :
    Ledger (queue.filter fun waiter => waiter.id ≠ id) calls (listeners.filter fun listener => listener.2 ≠ id)
      (log ++ [event]) where
  sorted := ledger.sorted.sublist (List.Sublist.map _ filter_sublist)
  pending other := by
    have kept : other ∈ (queue.filter fun waiter => waiter.id ≠ id).map Waiter.id ↔ other ∈ queue.map Waiter.id ∧ other ≠ id := by
      simp only [mem_map,mem_filter,decide_eq_true_eq]
      constructor
      · rintro ⟨waiter,⟨member,differs⟩,rfl⟩
        exact ⟨⟨waiter,member,rfl⟩,differs⟩
      · rintro ⟨⟨waiter,member,rfl⟩,differs⟩
        exact ⟨waiter,⟨member,differs⟩,rfl⟩
    rw [kept,ledger.pending other,settled_append,settles,mem_append]
    simp only [Option.toList_some,mem_singleton]
    tauto
  unsettled waiter member := ledger.unsettled waiter (mem_filter.mp member).1
  once := by
    rw [settled_append,settles,nodup_append]
    refine ⟨ledger.once,List.nodup_singleton _,?_⟩
    intro other member id' same
    cases mem_singleton.mp same
    rintro rfl
    exact ((ledger.pending _).mp waits).2 member
  called other member := by
    rw [settled_append,settles,mem_append] at member
    rcases member with earlier | now
    · exact ledger.called other earlier
    · cases mem_singleton.mp now
      exact ((ledger.pending _).mp waits).1
  listened listener member := by
    obtain ⟨listens,differs⟩ := mem_filter.mp member
    obtain ⟨waiter,waits,same⟩ := mem_map.mp (ledger.listened listener listens)
    exact mem_map.mpr ⟨waiter,mem_filter.mpr ⟨waits,by rw [same]; exact differs⟩,same⟩
  separate := ledger.separate.sublist (List.Sublist.map _ filter_sublist)
  within event' member := by
    rcases mem_append.mp member with earlier | now
    · exact ledger.within event' earlier
    · cases mem_singleton.mp now; exact within
  ordered := inOrder_append ledger.ordered first

theorem Ledger.released (id : Nat) : Ledger queue calls listeners (log ++ [.released id]) :=
  have same : settled (log ++ [.released id]) = settled log := by rw [settled_append]; exact append_nil _
  { ledger with
    pending := by rw [same]; exact ledger.pending
    once := by rw [same]; exact ledger.once
    called := by rw [same]; exact ledger.called
    within := fun event member => by
      rcases mem_append.mp member with earlier | now
      · exact ledger.within event earlier
      · cases mem_singleton.mp now; trivial
    ordered := inOrder_append ledger.ordered nofun }

theorem Ledger.direct {event : Event} (settles : event.settles = some calls)
    (first : ∀ other ∈ event.grants,∀ earlier < other,earlier ∈ settled log) (within : event.Within) :
    Ledger queue (calls + 1) listeners (log ++ [event]) := by
  have waits := (ledger.enqueue none).settle event settles (by simp) first within
  have called : ∀ id ∈ queue.map Waiter.id,id ≠ calls := fun id member => Nat.ne_of_lt ((ledger.pending id).mp member).1
  have queue' : (queue ++ [Waiter.mk calls none false]).filter (fun waiter => waiter.id ≠ calls) = queue := by
    rw [List.filter_append,filter_eq_self.mpr,List.filter_eq_nil_iff.mpr,append_nil]
    · simp
    · exact fun waiter member => decide_eq_true (called _ (mem_map_of_mem member))
  have listeners' : (listeners ++ []).filter (fun listener => listener.2 ≠ calls) = listeners := by
    rw [append_nil,filter_eq_self]
    exact fun listener member => decide_eq_true (called _ (ledger.listened listener member))
  rw [queue'] at waits
  rw [← listeners']
  exact waits

end

theorem Ledger.first {waiter : Waiter Signal} {rest : List (Waiter Signal)} (ledger : Ledger (waiter :: rest) calls listeners log) :
    ∀ earlier < waiter.id,earlier ∈ settled log := by
  intro earlier before
  by_contra open'
  have called : waiter.id < calls := ((ledger.pending waiter.id).mp (by simp)).1
  have waits := (ledger.pending earlier).mpr ⟨by omega,open'⟩
  rcases List.mem_cons.mp waits with same | later
  · omega
  · have := (pairwise_cons.mp ledger.sorted).1 earlier later
    omega

theorem Ledger.rest {waiter : Waiter Signal} {rest : List (Waiter Signal)} (ledger : Ledger (waiter :: rest) calls listeners log) :
    (waiter :: rest).filter (fun other => other.id ≠ waiter.id) = rest := by
  rw [List.filter_cons_of_neg (by simp),filter_eq_self]
  intro other member
  have := (pairwise_cons.mp ledger.sorted).1 other.id (mem_map_of_mem member)
  exact decide_eq_true (by omega)

theorem shiftNextWaiter_head (unsettled : ∀ waiter ∈ queue,waiter.settled = false) :
    shiftNextWaiter queue = (queue.head?,queue.tail) := by
  cases queue with
  | nil => rfl
  | cons waiter rest => simp [shiftNextWaiter,unsettled waiter (by simp)]

theorem removeWaiter_filter (id : Nat) (sorted : (queue.map Waiter.id).Pairwise (· < ·)) :
    ((queue.map fun waiter => if waiter.id = id then { waiter with settled := true } else waiter).eraseP
      fun waiter => waiter.id = id) =
      queue.filter fun waiter => waiter.id ≠ id := by
  induction queue with
  | nil => rfl
  | cons waiter rest ih =>
    obtain ⟨later,sorted'⟩ := pairwise_cons.mp sorted
    by_cases same : waiter.id = id
    · have others : ∀ other ∈ rest,other.id ≠ id := by
        intro other member
        have := later other.id (mem_map_of_mem member)
        omega
      rw [map_cons,if_pos same,List.eraseP_cons_of_pos (by simpa using same),List.filter_cons_of_neg (by simpa using same),
        filter_eq_self.mpr fun other member => decide_eq_true (others other member)]
      calc rest.map (fun waiter => if waiter.id = id then { waiter with settled := true } else waiter)
        _ = rest.map fun waiter => waiter := List.map_congr_left fun other member => if_neg (others other member)
        _ = rest := List.map_id rest
    · rw [map_cons,if_neg same,List.eraseP_cons_of_neg (by simpa using same),List.filter_cons_of_pos (by simpa using same),ih sorted']

end

structure Counts (active : Nat) (log : List Event) : Prop where
  counted : active + (releases log).length = (grants log).length
  back : (releases log).Nodup
  given : ∀ id ∈ releases log,id ∈ grants log

section
variable {active : Nat} {log : List Event} (counts : Counts active log)
include counts

theorem counts_rejected (id : Nat) : Counts active (log ++ [.rejected id]) := by
  have grants' : grants (log ++ [.rejected id]) = grants log := by rw [grants_append]; exact append_nil _
  have releases' : releases (log ++ [.rejected id]) = releases log := by rw [releases_append]; exact append_nil _
  constructor
  · rw [grants',releases']; exact counts.counted
  · rw [releases']; exact counts.back
  · rw [grants',releases']; exact counts.given

theorem counts_granted (id now concurrency : Nat) : Counts (active + 1) (log ++ [.granted id now concurrency]) := by
  have grants' : grants (log ++ [.granted id now concurrency]) = grants log ++ [id] := grants_append _ _
  have releases' : releases (log ++ [.granted id now concurrency]) = releases log := by rw [releases_append]; exact append_nil _
  constructor
  · rw [grants',releases',length_append,List.length_singleton]
    have := counts.counted
    omega
  · rw [releases']; exact counts.back
  · rw [grants',releases']
    exact fun other member => List.mem_append_left _ (counts.given other member)

theorem counts_released {id : Nat} (given : id ∈ grants log) (out : id ∉ releases log) :
    1 ≤ active ∧ Counts (active - 1) (log ++ [.released id]) := by
  have grants' : grants (log ++ [.released id]) = grants log := by rw [grants_append]; exact append_nil _
  have releases' : releases (log ++ [.released id]) = releases log ++ [id] := releases_append _ _
  have back : (releases log ++ [id]).Nodup := nodup_append.mpr
    ⟨counts.back,List.nodup_singleton _,fun other member new same => by cases mem_singleton.mp same; rintro rfl; exact out member⟩
  have among : ∀ other ∈ releases log ++ [id],other ∈ grants log := by
    intro other member
    rcases mem_append.mp member with earlier | now
    · exact counts.given other earlier
    · cases mem_singleton.mp now; exact given
  have more : (releases log ++ [id]).length ≤ (grants log).length := (List.subperm_of_subset back among).length_le
  have counted := counts.counted
  rw [length_append,List.length_singleton] at more
  refine ⟨by omega,⟨?_,by rw [releases']; exact back,by rw [grants',releases']; exact among⟩⟩
  rw [grants',releases',length_append,List.length_singleton]
  omega

end

section
variable {Signal : Type u}

structure Sound (s : State Signal) : Prop where
  ledger : Ledger s.queue s.calls s.listeners s.log
  counts : Counts s.active s.log

def Full (s : State Signal) : Prop := s.queue ≠ [] → s.concurrency ≤ s.active

variable {s : State Signal}

theorem grant_sound {waiter : Waiter Signal} {rest : List (Waiter Signal)} {active : Nat}
    (ledger : Ledger (waiter :: rest) s.calls s.listeners s.log) (within : s.active ≤ s.concurrency) (counts : Counts active s.log)
    (one : s.active = active + 1) : Sound (grant { s with queue := rest } waiter) where
  ledger := by
    have kept := ledger.settle (.granted waiter.id s.active s.concurrency) rfl (by simp)
      (fun other same => by cases same; exact ledger.first) within
    rw [ledger.rest] at kept
    exact kept
  counts := by
    have granted := counts_granted counts waiter.id s.active s.concurrency
    rw [← one] at granted
    exact granted

theorem release_sound {id : Nat} (sound : Sound s) (full : Full s) (ok : id ∈ grants s.log ∧ id ∉ releases s.log) :
    Sound (release s id) ∧ Full (release s id) := by
  have ledger := sound.ledger.released id
  obtain ⟨some,counts⟩ := counts_released sound.counts ok.1 ok.2
  by_cases within : s.active ≤ s.concurrency
  · cases waits : s.queue with
    | nil =>
      rw [waits] at ledger
      simp only [release,if_pos within,waits]
      exact ⟨⟨ledger,counts⟩,fun some => absurd rfl some⟩
    | cons waiter rest =>
      have enough : s.concurrency ≤ s.active := full (by rw [waits]; simp)
      have shift := shiftNextWaiter_head sound.ledger.unsettled
      rw [waits] at ledger shift
      simp only [release,if_pos within,waits,shift]
      exact ⟨grant_sound (s := { s with log := s.log ++ [Event.released id] }) ledger within counts (Nat.sub_add_cancel some).symm,
        fun _ => enough⟩
  · simp only [release,if_neg within]
    exact ⟨⟨ledger,counts⟩,fun _ => by simp only; omega⟩

theorem grantWaiting_sound (fuel : Nat) : ∀ {s : State Signal},Sound s → s.queue.length ≤ fuel →
    Sound (grantWaiting fuel s) ∧ Full (grantWaiting fuel s) := by
  induction fuel with
  | zero =>
    intro s sound none
    exact ⟨sound,fun some => absurd (List.length_eq_zero_iff.mp (Nat.le_zero.mp none)) some⟩
  | succ fuel ih =>
    intro s sound enough
    simp only [grantWaiting]
    by_cases free : s.active < s.concurrency
    · rw [if_pos free]
      have ledger := sound.ledger
      have shift := shiftNextWaiter_head ledger.unsettled
      cases waits : s.queue with
      | nil =>
        simp only [shiftNextWaiter]
        exact ⟨by rw [← waits]; exact sound,fun some => absurd rfl some⟩
      | cons waiter rest =>
        rw [waits] at shift ledger enough
        rw [shift]
        apply ih
        · exact grant_sound (s := { s with active := s.active + 1 }) ledger free sound.counts rfl
        · simpa [grant,cleanup,State.resolve] using enough
    · rw [if_neg free]
      exact ⟨sound,fun _ => by omega⟩

theorem setConcurrency_sound (sound : Sound s) (n : ℚ) : Sound (setConcurrency s n) ∧ Full (setConcurrency s n) := by
  apply grantWaiting_sound
  · exact ⟨sound.ledger,sound.counts⟩
  · exact Nat.le_refl _

theorem onAbort_sound {id : Nat} (sound : Sound s) (full : Full s) (waits : id ∈ s.queue.map Waiter.id) :
    (Sound (onAbort s id) ∧ Full (onAbort s id)) ∧
      ∀ other ∈ s.queue.map Waiter.id,other ≠ id → other ∈ (onAbort s id).queue.map Waiter.id := by
  have kept := sound.ledger.settle (.rejected id) rfl waits (nofun) trivial
  have queue : (onAbort s id).queue = s.queue.filter fun waiter => waiter.id ≠ id := removeWaiter_filter id sound.ledger.sorted
  refine ⟨⟨⟨by rw [queue]; exact kept,counts_rejected sound.counts id⟩,?_⟩,?_⟩
  · intro _
    exact full fun none => by rw [none] at waits; exact absurd waits not_mem_nil
  · intro other member differs
    obtain ⟨waiter,waiting,rfl⟩ := mem_map.mp member
    rw [queue]
    exact mem_map_of_mem (mem_filter.mpr ⟨waiting,decide_eq_true differs⟩)

theorem onAborts_sound : ∀ (ids : List Nat) {s : State Signal},Sound s → Full s → ids.Nodup →
    (∀ id ∈ ids,id ∈ s.queue.map Waiter.id) →
    Sound (ids.foldl onAbort s) ∧ Full (ids.foldl onAbort s) := by
  intro ids
  induction ids with
  | nil => intro s sound full _ _; exact ⟨sound,full⟩
  | cons id rest ih =>
    intro s sound full separate waits
    obtain ⟨fresh,separate'⟩ := List.nodup_cons.mp separate
    obtain ⟨⟨sound',full'⟩,stay⟩ := onAbort_sound sound full (waits id (by simp))
    apply ih sound' full' separate'
    intro other member
    exact stay other (waits other (List.mem_cons_of_mem _ member)) fun same => fresh (same ▸ member)

theorem constructor_sound : Sound (constructor Signal) ∧ Full (constructor Signal) :=
  ⟨⟨ledger_empty,⟨rfl,nodup_nil,nofun⟩⟩,fun some => absurd rfl some⟩

variable [DecidableEq Signal]

theorem abort_sound (sound : Sound s) (full : Full s) (signal : Signal) :
    Sound (abort s signal) ∧ Full (abort s signal) := by
  simp only [abort]
  split
  · exact ⟨sound,full⟩
  apply onAborts_sound
  · exact ⟨sound.ledger,sound.counts⟩
  · exact full
  · exact sound.ledger.separate.sublist (List.Sublist.map _ filter_sublist)
  · intro id member
    obtain ⟨listener,listens,rfl⟩ := mem_map.mp member
    exact sound.ledger.listened listener (mem_filter.mp listens).1

theorem acquire_sound (sound : Sound s) (full : Full s) (signal : Option Signal) :
    Sound (acquire s signal) ∧ Full (acquire s signal) := by
  simp only [acquire]
  split
  · exact ⟨⟨sound.ledger.direct rfl (fun _ none => by cases none) trivial,counts_rejected sound.counts s.calls⟩,full⟩
  split
  · rename_i free
    -- nobody waits while a token could be given
    have none : s.queue = [] := by
      by_contra some
      have := full some
      omega
    have first : ∀ earlier < s.calls,earlier ∈ settled s.log := by
      intro earlier before
      by_contra open'
      have := (sound.ledger.pending earlier).mpr ⟨before,open'⟩
      rw [none] at this
      exact absurd this not_mem_nil
    exact ⟨⟨sound.ledger.direct rfl (fun _ same => by cases same; exact first) (Nat.succ_le_of_lt free),
      counts_granted sound.counts s.calls _ _⟩,fun some => absurd none some⟩
  · exact ⟨⟨sound.ledger.enqueue signal,sound.counts⟩,fun _ => by simp only; omega⟩

theorem step_sound {l : Label Signal} (inv : Sound s ∧ Full s) (ok : Allowed s l) :
    Sound (step s l) ∧ Full (step s l) := by
  cases l with
  | acquire signal => exact acquire_sound inv.1 inv.2 signal
  | abort signal => exact abort_sound inv.1 inv.2 signal
  | release id => exact release_sound inv.1 inv.2 ok
  | setConcurrency n => exact setConcurrency_sound inv.1 n

/-- The tokens are counted and within the limit, no call waits while one is free, and each is settled at
most once, in their order. -/
theorem tokens_kept {s : State Signal} (reach : Reachable step Allowed (constructor Signal) s) :
    s.active = (outstanding s.log).length ∧
      (∀ id active concurrency,Event.granted id active concurrency ∈ s.log → active ≤ concurrency) ∧
      (s.queue ≠ [] → s.concurrency ≤ s.active) ∧ InOrder s.log ∧ (settled s.log).Nodup := by
  obtain ⟨sound,full⟩ := @reachable_invariant _ _ step Allowed _ (fun s : State Signal => Sound s ∧ Full s) constructor_sound
    (fun _ _ inv ok => step_sound inv ok) s reach
  have split := outstanding_length sound.ledger.once sound.counts.back sound.counts.given
  have counted := sound.counts.counted
  exact ⟨by omega,fun id active concurrency member => sound.ledger.within _ member,full,sound.ledger.ordered,sound.ledger.once⟩

end

structure Grows {Signal : Type u} (s s' : State Signal) : Prop where
  log : ∃ new,s'.log = s.log ++ new ∧ releases new = []
  calls : s.calls ≤ s'.calls
  aborted : ∀ signal ∈ s.aborted,signal ∈ s'.aborted

section
variable {Signal : Type u} {s s' s'' : State Signal}

theorem grows_same (log : s'.log = s.log) (calls : s'.calls = s.calls) (aborted : s'.aborted = s.aborted) : Grows s s' :=
  ⟨⟨[],by rw [log,append_nil],rfl⟩,Nat.le_of_eq calls.symm,by rw [aborted]; exact fun _ member => member⟩

theorem grows_trans (first : Grows s s') (second : Grows s' s'') : Grows s s'' := by
  obtain ⟨new,log,none⟩ := first.log
  obtain ⟨new',log',none'⟩ := second.log
  refine ⟨⟨new ++ new',by rw [log',log,List.append_assoc],?_⟩,first.calls.trans second.calls,
    fun signal member => second.aborted signal (first.aborted signal member)⟩
  simp only [releases] at none none' ⊢
  rw [filterMap_append,none,none',append_nil]

theorem grows_onAbort (s : State Signal) (id : Nat) : Grows s (onAbort s id) := ⟨⟨_,rfl,rfl⟩,Nat.le_refl _,fun _ member => member⟩

theorem grows_grant (s : State Signal) (waiter : Waiter Signal) : Grows s (grant s waiter) :=
  ⟨⟨_,rfl,rfl⟩,Nat.le_refl _,fun _ member => member⟩

theorem grows_onAborts (ids : List Nat) : ∀ s : State Signal,Grows s (ids.foldl onAbort s) := by
  induction ids with
  | nil => intro s; exact grows_same rfl rfl rfl
  | cons id rest ih => intro s; exact grows_trans (grows_onAbort s id) (ih _)

theorem grows_grantWaiting (fuel : Nat) : ∀ s : State Signal,Grows s (grantWaiting fuel s) := by
  induction fuel with
  | zero => intro s; exact grows_same rfl rfl rfl
  | succ fuel ih =>
    intro s
    simp only [grantWaiting]
    split
    · split
      · rename_i waiter queue _
        have given : Grows s { s with queue, active := s.active + 1 } := grows_same rfl rfl rfl
        exact grows_trans (grows_trans given (grows_grant _ waiter)) (ih _)
      · exact grows_same rfl rfl rfl
    · exact grows_same rfl rfl rfl

theorem grows_release (s : State Signal) (id : Nat) : Grows { s with log := s.log ++ [Event.released id] } (release s id) := by
  simp only [release]
  split
  · exact ⟨⟨_,rfl,rfl⟩,Nat.le_refl _,fun _ member => member⟩
  · exact grows_same rfl rfl rfl

variable [DecidableEq Signal]

theorem grows_acquire (s : State Signal) (signal : Option Signal) : Grows s (acquire s signal) ∧ (acquire s signal).calls = s.calls + 1 := by
  simp only [acquire]
  split
  · exact ⟨⟨⟨_,rfl,rfl⟩,Nat.le_succ _,fun _ member => member⟩,rfl⟩
  · split
    · exact ⟨⟨⟨_,rfl,rfl⟩,Nat.le_succ _,fun _ member => member⟩,rfl⟩
    · exact ⟨⟨⟨[],by simp,rfl⟩,Nat.le_succ _,fun _ member => member⟩,rfl⟩

theorem grows_abort (s : State Signal) (signal : Signal) : Grows s (abort s signal) := by
  simp only [abort]
  split
  · exact grows_same rfl rfl rfl
  · have known : Grows s { s with aborted := signal :: s.aborted } :=
      ⟨⟨[],by simp,rfl⟩,Nat.le_refl _,fun _ member => List.mem_cons_of_mem _ member⟩
    exact grows_trans known (grows_onAborts _ _)

theorem grows_step (s : State Signal) {l : Label Signal} (other : ∀ id,l ≠ .release id) : Grows s (step s l) := by
  cases l with
  | acquire signal => exact (grows_acquire s signal).1
  | abort signal => exact grows_abort s signal
  | release id => exact absurd rfl (other id)
  | setConcurrency n =>
    have limited (concurrency : Nat) : Grows s { s with concurrency } := grows_same rfl rfl rfl
    exact grows_trans (limited _) (grows_grantWaiting _ _)

end

instance decidableAllowed {Signal : Type u} (s : State Signal) : ∀ l,Decidable (Allowed s l) := fun l => by
  cases l <;> unfold Allowed <;> infer_instance

def exampleRun : List (Label Nat) :=
  [Label.acquire none,.acquire (some 0),.setConcurrency (3 / 2),.acquire (some 1),.acquire none,.acquire none,.abort 1,
    .release 0,.release 1,.setConcurrency 2]

theorem tokens_kept_run :
    (exampleRun.foldl step (constructor Nat)).log =
        [Event.granted 0 1 4,.granted 1 2 4,.rejected 2,.released 0,.released 1,.granted 3 1 1,.granted 4 2 2] ∧
      (exampleRun.foldl step (constructor Nat)).active = (outstanding (exampleRun.foldl step (constructor Nat)).log).length :=
  ⟨by decide +kernel,(tokens_kept (reachable_run .start exampleRun (by decide +kernel))).1⟩

end Tgtc.UploadScheduler
