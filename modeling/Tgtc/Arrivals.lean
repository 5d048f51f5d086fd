import Mathlib.Data.List.Basic

/-!
Queues of requests that are numbered as they arrive: the next number is larger than every number in use, requests join
at the end and may leave from anywhere.
-/
namespace Tgtc.Arrivals
open List (count_append count_pos_iff map_cons mem_cons)

/-- A queue in the order of arrival, with numbers below the next one. -/
structure InOrder (waiting : List Nat) (next : Nat) : Prop where
  sorted : waiting.Pairwise (· < ·)
  numbered : ∀ id ∈ waiting, id < next

theorem inOrder_nil (next : Nat) : InOrder [] next :=
  ⟨.nil,fun _ member => absurd member (by simp)⟩

theorem inOrder_thin {waiting fewer : List Nat} {next later : Nat} (ordered : InOrder waiting next)
    (thinner : List.Sublist fewer waiting) (grown : next ≤ later) : InOrder fewer later :=
  ⟨ordered.sorted.sublist thinner,fun id member =>
    Nat.lt_of_lt_of_le (ordered.numbered id (thinner.subset member)) grown⟩

theorem inOrder_join {waiting : List Nat} {next : Nat} (ordered : InOrder waiting next) :
    InOrder (waiting ++ [next]) (next + 1) := by
  refine ⟨?_,?_⟩
  · rw [List.pairwise_append]
    refine ⟨ordered.sorted,List.pairwise_singleton _ _,?_⟩
    intro id member other new
    rw [List.mem_singleton.mp new]
    exact ordered.numbered id member
  · intro id member
    rcases List.mem_append.mp member with old | new
    · exact Nat.lt_succ_of_lt (ordered.numbered id old)
    · rw [List.mem_singleton.mp new]
      exact Nat.lt_succ_self _

theorem inOrder_head {first : Nat} {rest : List Nat} {next : Nat} (ordered : InOrder (first :: rest) next) :
    ∀ id ∈ first :: rest, first ≤ id := by
  intro id member
  rcases mem_cons.mp member with rfl | later
  · exact Nat.le_refl _
  · exact Nat.le_of_lt (List.rel_of_pairwise_cons ordered.sorted later)

theorem inOrder_nodup {waiting : List Nat} {next : Nat} (ordered : InOrder waiting next) : waiting.Nodup :=
  ordered.sorted.imp Nat.ne_of_lt

universe u

theorem map_eraseP {Item : Type u} (number : Item → Nat) (id : Nat) : ∀ items : List Item,
    (items.eraseP (fun item => number item = id)).map number = (items.map number).erase id := by
  intro items
  induction items with
  | nil => rfl
  | cons item rest ih =>
    by_cases here : number item = id
    · simp [here]
    · simp [here,ih]

inductive Note
  | answered (request : Nat)
  | joined (request : Nat)
  | left (request : Nat)
  | other
deriving DecidableEq

/-- Every request so far was answered at once or joined the queue, once; one that
    joined waits or has left, once. -/
structure Accounted (waiting : List Nat) (next : Nat) (notes : List Note) : Prop where
  ordered : InOrder waiting next
  arrived : ∀ id, notes.count (.answered id) + notes.count (.joined id) = if id < next then 1 else 0
  settled : ∀ id, waiting.count id + notes.count (.left id) = notes.count (.joined id)

theorem accounted_nil : Accounted [] 0 [] :=
  ⟨inOrder_nil 0,fun _ => rfl,fun _ => rfl⟩

variable {notes : List Note}

theorem accounted_other {waiting : List Nat} {next : Nat} (before : Accounted waiting next notes) :
    Accounted waiting next (notes ++ [Note.other]) := by
  refine ⟨before.ordered,?_,?_⟩
  · intro id
    have arrived := before.arrived id
    simpa [count_append] using arrived
  · intro id
    have settled := before.settled id
    simpa [count_append] using settled

theorem accounted_answer {waiting : List Nat} {next : Nat} (before : Accounted waiting next notes) :
    Accounted waiting (next + 1) (notes ++ [Note.answered next]) := by
  refine ⟨inOrder_thin before.ordered (List.Sublist.refl _) (Nat.le_succ _),?_,?_⟩
  · intro id
    have arrived := before.arrived id
    rcases Nat.lt_trichotomy id next with old | rfl | beyond
    · rw [if_pos old] at arrived
      simp [Nat.ne_of_gt old,Nat.lt_succ_of_lt old,arrived]
    · rw [if_neg (Nat.lt_irrefl id)] at arrived
      simp [count_append]
      omega
    · rw [if_neg (by omega)] at arrived
      rw [if_neg (by omega)]
      simp [Nat.ne_of_lt beyond]
      omega
  · intro id
    have settled := before.settled id
    simpa [count_append] using settled

theorem accounted_join {waiting : List Nat} {next : Nat} (before : Accounted waiting next notes) :
    Accounted (waiting ++ [next]) (next + 1) (notes ++ [Note.joined next]) := by
  refine ⟨inOrder_join before.ordered,?_,?_⟩
  · intro id
    have arrived := before.arrived id
    rcases Nat.lt_trichotomy id next with old | rfl | beyond
    · rw [if_pos old] at arrived
      simp [Nat.ne_of_gt old,Nat.lt_succ_of_lt old,arrived]
    · rw [if_neg (Nat.lt_irrefl id)] at arrived
      simp [count_append]
      omega
    · rw [if_neg (by omega)] at arrived
      rw [if_neg (by omega)]
      simp [Nat.ne_of_lt beyond]
      omega
  · intro id
    have settled := before.settled id
    by_cases same : next = id
    · subst same
      simp [count_append]
      omega
    · simp [same]
      omega

theorem accounted_leave {waiting : List Nat} {next : Nat} (before : Accounted waiting next notes)
    {id : Nat} (waits : id ∈ waiting) : Accounted (waiting.erase id) next (notes ++ [Note.left id]) := by
  refine ⟨inOrder_thin before.ordered List.erase_sublist (Nat.le_refl _),?_,?_⟩
  · intro other
    have arrived := before.arrived other
    simpa [count_append] using arrived
  · intro other
    have settled := before.settled other
    have present : 0 < waiting.count id := count_pos_iff.mpr waits
    by_cases same : id = other
    · subst same
      simp [count_append]
      omega
    · simp [List.count_erase_of_ne (Ne.symm same),same]
      omega

theorem accounted_left {waiting : List Nat} {next : Nat} (account : Accounted waiting next notes)
    {id : Nat} (left : Note.left id ∈ notes) :
    id ∉ waiting ∧ notes.count (.left id) = 1 ∧ notes.count (.joined id) = 1 ∧ notes.count (.answered id) = 0 := by
  have arrived := account.arrived id
  have settled := account.settled id
  have once : 0 < notes.count (.left id) := count_pos_iff.mpr left
  have most : notes.count (.answered id) + notes.count (.joined id) ≤ 1 := by
    rw [arrived]
    split <;> omega
  refine ⟨?_,by omega,by omega,by omega⟩
  intro waits
  have present : 0 < waiting.count id := count_pos_iff.mpr waits
  omega

theorem accounted_done {waiting : List Nat} {next : Nat} (account : Accounted waiting next notes)
    {id : Nat} (done : Note.answered id ∈ notes ∨ Note.left id ∈ notes) : id < next ∧ id ∉ waiting := by
  have arrived := account.arrived id
  have settled := account.settled id
  have noted : 0 < notes.count (.answered id) ∨ 0 < notes.count (.left id) :=
    done.imp count_pos_iff.mpr count_pos_iff.mpr
  have known : id < next := by
    by_contra late
    rw [if_neg late] at arrived
    omega
  rw [if_pos known] at arrived
  refine ⟨known,fun waits => ?_⟩
  have present : 0 < waiting.count id := count_pos_iff.mpr waits
  omega

theorem eq_of_count_one {Event : Type u} (note : Event → Note) {n : Note} : ∀ {events : List Event},
    (events.map note).count n = 1 → ∀ {a b : Event}, a ∈ events → b ∈ events → note a = n → note b = n → a = b := by
  intro events
  induction events with
  | nil => intro once; simp at once
  | cons event rest ih =>
    intro once a b memberA memberB noteA noteB
    by_cases here : note event = n
    · have absent : ∀ other ∈ rest, note other ≠ n := by
        intro other inside same
        have present : 0 < (rest.map note).count n := count_pos_iff.mpr (same ▸ List.mem_map_of_mem inside)
        simp only [map_cons,here,List.count_cons_self] at once
        omega
      have first : ∀ other, other ∈ event :: rest → note other = n → other = event := by
        intro other member same
        rcases mem_cons.mp member with rfl | inside
        · rfl
        · exact absurd same (absent other inside)
      rw [first a memberA noteA,first b memberB noteB]
    · have later : ∀ other, other ∈ event :: rest → note other = n → other ∈ rest := by
        intro other member same
        rcases mem_cons.mp member with rfl | inside
        · exact absurd same here
        · exact inside
      rw [map_cons,List.count_cons_of_ne here] at once
      exact ih once (later a memberA noteA) (later b memberB noteB) noteA noteB

end Tgtc.Arrivals
