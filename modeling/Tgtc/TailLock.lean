import Tgtc.Maps

/-!
Locks made of promise tails. A call of a key waits for the tail its key had when it came, puts its own tail in that
place, and runs when the tail it waits for has settled.
-/
namespace Tgtc.TailLock
open Maps
universe u

inductive Stage where
  | waiting | inside | left
deriving DecidableEq

structure Call (Key : Type u) where
  key : Key
  previous : Option Nat
  stage : Stage
  settled : Bool

structure Lock (Key : Type u) where
  calls : List (Call Key)
  tails : OrderedMap Key Nat

section
variable {Key : Type u}

def Lock.empty : Lock Key := ⟨[],.empty⟩

def Lock.Settled (lock : Lock Key) (i : Nat) : Prop := ∃ c, lock.calls[i]? = some c ∧ c.settled = true

instance (lock : Lock Key) (i : Nat) : Decidable (lock.Settled i) := by
  unfold Lock.Settled
  infer_instance

def Lock.Clear (lock : Lock Key) (c : Call Key) : Prop := ∀ p ∈ c.previous, lock.Settled p

instance (lock : Lock Key) (c : Call Key) : Decidable (lock.Clear c) := by
  unfold Lock.Clear
  infer_instance

def Lock.At (lock : Lock Key) (i : Nat) (key : Key) (stage : Stage) : Prop :=
  ∃ c, lock.calls[i]? = some c ∧ c.key = key ∧ c.stage = stage

def Lock.Ready (lock : Lock Key) (i : Nat) : Prop :=
  ∃ c, lock.calls[i]? = some c ∧ c.stage = .waiting ∧ lock.Clear c

def Lock.Settling (lock : Lock Key) (i : Nat) : Prop :=
  ∃ c, lock.calls[i]? = some c ∧ c.stage = .left ∧ lock.Clear c

instance (lock : Lock Key) (i : Nat) : Decidable (lock.Ready i) := by
  unfold Lock.Ready
  infer_instance

instance (lock : Lock Key) (i : Nat) : Decidable (lock.Settling i) := by
  unfold Lock.Settling
  infer_instance

def Lock.enter (lock : Lock Key) (i : Nat) : Lock Key :=
  { lock with calls := lock.calls.modify i (fun c => { c with stage := .inside }) }

def Lock.settle (lock : Lock Key) (i : Nat) : Lock Key :=
  { lock with calls := lock.calls.modify i (fun c => { c with settled := true }) }

variable [DecidableEq Key]

instance (lock : Lock Key) (i : Nat) (key : Key) (stage : Stage) : Decidable (lock.At i key stage) := by
  unfold Lock.At
  infer_instance

def Lock.join (lock : Lock Key) (key : Key) : Lock Key :=
  { calls := lock.calls ++ [⟨key,lock.tails.get key,.waiting,false⟩], tails := lock.tails.set key lock.calls.length }

def Lock.leave (lock : Lock Key) (i : Nat) (key : Key) : Lock Key :=
  { calls := lock.calls.modify i (fun c => { c with stage := .left })
    tails := if lock.tails.get key = some i then lock.tails.delete key else lock.tails }

structure Sound (lock : Lock Key) : Prop where
  order : ∀ {i j : Nat} {a b : Call Key}, i < j → lock.calls[i]? = some a → lock.calls[j]? = some b →
    a.key = b.key → b.stage ≠ .waiting → a.stage = .left
  known : ∀ {j p : Nat} {b : Call Key}, lock.calls[j]? = some b → b.previous = some p →
    ∃ c, lock.calls[p]? = some c ∧ c.key = b.key
  behind : ∀ {i j : Nat} {a b : Call Key}, i < j → lock.calls[i]? = some a → lock.calls[j]? = some b →
    a.key = b.key → a.stage ≠ .left → ∃ p, b.previous = some p ∧ i ≤ p
  settled : ∀ {i : Nat} {a : Call Key}, lock.calls[i]? = some a → a.settled = true → a.stage = .left
  tail : ∀ {key : Key} {p : Nat}, lock.tails.get key = some p →
    (∃ c, lock.calls[p]? = some c ∧ c.key = key ∧ c.stage ≠ .left) ∧
      ∀ (i : Nat) (a : Call Key), lock.calls[i]? = some a → a.key = key → i ≤ p
  free : ∀ {key : Key}, lock.tails.get key = none →
    ∀ (i : Nat) (a : Call Key), lock.calls[i]? = some a → a.key = key → a.stage = .left

theorem empty_sound : Sound (Lock.empty : Lock Key) := by
  constructor
  all_goals simp [Lock.empty,OrderedMap.empty,OrderedMap.get]

omit [DecidableEq Key] in
theorem found_modify {calls : List (Call Key)} {k i : Nat} {g : Call Key → Call Key} {a : Call Key}
    (found : (calls.modify k g)[i]? = some a) :
    ∃ old, calls[i]? = some old ∧ a = if k = i then g old else old := by
  rw [List.getElem?_modify] at found
  obtain ⟨old,at_i,rfl⟩ := Option.map_eq_some_iff.mp found
  refine ⟨old,at_i,?_⟩
  by_cases here : k = i
  · simp [here]
  · simp [here]

omit [DecidableEq Key] in
theorem found_append {calls : List (Call Key)} {i : Nat} {new a : Call Key}
    (found : (calls ++ [new])[i]? = some a) : calls[i]? = some a ∨ (i = calls.length ∧ a = new) := by
  by_cases old : i < calls.length
  · rw [List.getElem?_append_left old] at found
    exact .inl found
  rw [List.getElem?_append_right (by omega)] at found
  have last : i - calls.length = 0 := by
    by_contra beyond
    rw [List.getElem?_eq_none (by simp; omega)] at found
    cases found
  rw [last] at found
  exact .inr ⟨by omega,by simpa using found.symm⟩

omit [DecidableEq Key] in
theorem lt_of_found {calls : List (Call Key)} {i : Nat} {a : Call Key} (found : calls[i]? = some a) :
    i < calls.length := by
  obtain ⟨bound,_⟩ := List.getElem?_eq_some_iff.mp found
  exact bound

variable {lock : Lock Key} {i : Nat} {c : Call Key} {key : Key}

theorem clear_first (sound : Sound lock) {j : Nat} {a b : Call Key} (before : i < j)
    (at_i : lock.calls[i]? = some a) (at_j : lock.calls[j]? = some b) (same : a.key = b.key)
    (clear : lock.Clear b) : a.stage = .left := by
  by_contra unfinished
  obtain ⟨p,waits,upTo⟩ := sound.behind before at_i at_j same unfinished
  obtain ⟨c,at_p,done⟩ := clear p waits
  obtain ⟨c',at_p',key⟩ := sound.known at_j waits
  obtain rfl : c' = c := by simpa [at_p] using at_p'.symm
  have left := sound.settled at_p done
  rcases Nat.lt_or_ge i p with earlier | last
  · exact unfinished (sound.order earlier at_i at_p (same.trans key.symm) (by simp [left]))
  · obtain rfl : i = p := by omega
    obtain rfl : a = c' := by simpa [at_p] using at_i.symm
    exact unfinished left

theorem join_sound (sound : Sound lock) (key : Key) : Sound (lock.join key) := by
  constructor
  case order =>
    intro i j a b before at_i at_j same started
    rcases found_append at_j with old | ⟨rfl,rfl⟩
    · rcases found_append at_i with first | ⟨rfl,_⟩
      · exact sound.order before first old same started
      · have := lt_of_found old
        omega
    · exact absurd rfl started
  case known =>
    intro j p b at_j waits
    have grow : ∀ {q : Nat} {c : Call Key}, lock.calls[q]? = some c → (lock.join key).calls[q]? = some c := by
      intro q c at_q
      exact (List.getElem?_append_left (lt_of_found at_q)).trans at_q
    rcases found_append at_j with old | ⟨rfl,rfl⟩
    · obtain ⟨c,at_p,shared⟩ := sound.known old waits
      exact ⟨c,grow at_p,shared⟩
    · obtain ⟨⟨c,at_p,shared,_⟩,_⟩ := sound.tail waits
      exact ⟨c,grow at_p,shared⟩
  case behind =>
    intro i j a b before at_i at_j same unfinished
    have first : lock.calls[i]? = some a := by
      rcases found_append at_i with first | ⟨rfl,_⟩
      · exact first
      · have := lt_of_found at_j
        simp only [Lock.join,List.length_append,List.length_singleton] at this
        omega
    rcases found_append at_j with old | ⟨rfl,rfl⟩
    · exact sound.behind before first old same unfinished
    · cases tail : lock.tails.get key with
      | none => exact absurd (sound.free tail i a first same) unfinished
      | some p => exact ⟨p,rfl,(sound.tail tail).2 i a first same⟩
  case settled =>
    intro i a at_i done
    rcases found_append at_i with old | ⟨_,rfl⟩
    · exact sound.settled old done
    · cases done
  case tail =>
    intro k p found
    by_cases here : k = key
    · subst here
      obtain rfl : lock.calls.length = p := by
        simpa [Lock.join,get_set_same] using found
      refine ⟨⟨⟨k,lock.tails.get k,.waiting,false⟩,by simp [Lock.join],rfl,by simp⟩,?_⟩
      intro i a at_i _
      have := lt_of_found at_i
      simp only [Lock.join,List.length_append,List.length_singleton] at this
      omega
    · have old : lock.tails.get k = some p := by simpa [Lock.join,get_set_other _ _ here] using found
      obtain ⟨⟨c,at_p,shared,unfinished⟩,last⟩ := sound.tail old
      refine ⟨⟨c,?_,shared,unfinished⟩,?_⟩
      · exact (List.getElem?_append_left (lt_of_found at_p)).trans at_p
      · intro i a at_i mine
        rcases found_append at_i with first | ⟨_,rfl⟩
        · exact last i a first mine
        · exact absurd mine.symm here
  case free =>
    intro k absent i a at_i mine
    by_cases here : k = key
    · subst here
      simp [Lock.join,get_set_same] at absent
    · have old : lock.tails.get k = none := by simpa [Lock.join,get_set_other _ _ here] using absent
      rcases found_append at_i with first | ⟨_,rfl⟩
      · exact sound.free old i a first mine
      · exact absurd mine.symm here

omit [DecidableEq Key] in
theorem modify_found {calls : List (Call Key)} {i : Nat} {old : Call Key} (found : calls[i]? = some old) (k : Nat)
    (g : Call Key → Call Key) : (calls.modify k g)[i]? = some (if k = i then g old else old) := by
  rw [List.getElem?_modify,found]
  by_cases here : k = i
  · simp [here]
  · simp [here]

omit [DecidableEq Key] in
theorem rewritten_call {calls : List (Call Key)} {k : Nat} {c : Call Key} (at_k : calls[k]? = some c)
    {g : Call Key → Call Key} (sameKey : (g c).key = c.key) (samePrevious : (g c).previous = c.previous)
    (onward : c.stage = .left → (g c).stage = .left) {i : Nat} {a : Call Key} (found : (calls.modify k g)[i]? = some a) :
    ∃ old, calls[i]? = some old ∧ a.key = old.key ∧ a.previous = old.previous ∧
      (old.stage = .left → a.stage = .left) ∧ ((i = k ∧ old = c ∧ a = g c) ∨ (i ≠ k ∧ a = old)) := by
  obtain ⟨old,at_i,shape⟩ := found_modify found
  by_cases here : k = i
  · subst here
    obtain rfl : old = c := by simpa [at_k] using at_i.symm
    simp only [↓reduceIte] at shape
    subst shape
    exact ⟨old,at_i,sameKey,samePrevious,onward,.inl ⟨rfl,rfl,rfl⟩⟩
  · simp only [here,↓reduceIte] at shape
    subst shape
    exact ⟨a,at_i,rfl,rfl,id,.inr ⟨fun same => here same.symm,rfl⟩⟩

theorem rewritten_tail (sound : Sound lock) {k : Nat} (at_k : lock.calls[k]? = some c)
    {left : Prop} {tails : OrderedMap Key Nat} (entry : (tails = lock.tails ∧ (left → lock.tails.get c.key ≠ some k)) ∨
      (tails = lock.tails.delete c.key ∧ lock.tails.get c.key = some k ∧ left)) {p : Nat}
    (found : tails.get key = some p) : lock.tails.get key = some p ∧ (p = k → ¬ left) := by
  have mine : ∀ {key : Key}, lock.tails.get key = some k → c.key = key := by
    intro key held
    obtain ⟨⟨d,at_p,shared,_⟩,_⟩ := sound.tail held
    obtain rfl : d = c := by simpa [at_k] using at_p.symm
    exact shared
  rcases entry with ⟨rfl,other⟩ | ⟨rfl,_,_⟩
  · refine ⟨found,?_⟩
    rintro rfl leaves
    exact other leaves (mine found ▸ found)
  · have elsewhere : key ≠ c.key := by
      rintro rfl
      rw [get_delete_same] at found
      cases found
    rw [get_delete_other _ elsewhere] at found
    refine ⟨found,?_⟩
    rintro rfl _
    exact elsewhere (mine found).symm

/-- Moving a call on and settling its tail keeps the queues, if those before it have left and the tail
stays or the call was the last. -/
theorem rewrite_sound (sound : Sound lock) {k : Nat} (at_k : lock.calls[k]? = some c)
    {g : Call Key → Call Key} {tails : OrderedMap Key Nat} (sameKey : (g c).key = c.key)
    (samePrevious : (g c).previous = c.previous) (onward : c.stage = .left → (g c).stage = .left)
    (first : (g c).stage ≠ .waiting → ∀ (i : Nat) (a : Call Key), i < k → lock.calls[i]? = some a → a.key = c.key →
      a.stage = .left)
    (done : (g c).settled = true → (g c).stage = .left)
    (entry : (tails = lock.tails ∧ ((g c).stage = .left → lock.tails.get c.key ≠ some k)) ∨
      (tails = lock.tails.delete c.key ∧ lock.tails.get c.key = some k ∧ (g c).stage = .left)) :
    Sound { calls := lock.calls.modify k g, tails := tails } := by
  have look : ∀ {i : Nat} {a : Call Key}, (lock.calls.modify k g)[i]? = some a → _ :=
    fun found => rewritten_call at_k sameKey samePrevious onward found
  constructor
  case order =>
    intro i j a b before at_i at_j same started
    obtain ⟨a',at_i',keyA,_,stays,_⟩ := look at_i
    obtain ⟨b',at_j',keyB,_,_,which⟩ := look at_j
    have shared : a'.key = b'.key := by rw [← keyA,← keyB,same]
    apply stays
    rcases which with ⟨rfl,rfl,rfl⟩ | ⟨_,rfl⟩
    · exact first started i a' before at_i' shared
    · exact sound.order before at_i' at_j' shared started
  case known =>
    intro j p b at_j waits
    obtain ⟨b',at_j',keyB,previous,_,_⟩ := look at_j
    obtain ⟨d,at_p,shared⟩ := sound.known at_j' (previous ▸ waits)
    refine ⟨_,modify_found at_p k g,?_⟩
    by_cases here : k = p
    · subst here
      obtain rfl : d = c := by simpa [at_k] using at_p.symm
      simp only [↓reduceIte]
      rw [sameKey,shared,keyB]
    · simp only [here,↓reduceIte]
      rw [shared,keyB]
  case behind =>
    intro i j a b before at_i at_j same unfinished
    obtain ⟨a',at_i',keyA,_,stays,_⟩ := look at_i
    obtain ⟨b',at_j',keyB,previous,_,_⟩ := look at_j
    have shared : a'.key = b'.key := by rw [← keyA,← keyB,same]
    obtain ⟨p,waits,upTo⟩ := sound.behind before at_i' at_j' shared (fun left => unfinished (stays left))
    exact ⟨p,previous.trans waits,upTo⟩
  case settled =>
    intro i a at_i past
    obtain ⟨a',at_i',_,_,_,which⟩ := look at_i
    rcases which with ⟨rfl,rfl,rfl⟩ | ⟨_,rfl⟩
    · exact done past
    · exact sound.settled at_i' past
  case tail =>
    intro key p found
    have old := rewritten_tail sound at_k entry found
    obtain ⟨⟨d,at_p,shared,unfinished⟩,last⟩ := sound.tail old.1
    refine ⟨⟨_,modify_found at_p k g,?_⟩,?_⟩
    · by_cases here : k = p
      · subst here
        obtain rfl : d = c := by simpa [at_k] using at_p.symm
        simp only [↓reduceIte]
        exact ⟨sameKey.trans shared,old.2 rfl⟩
      · simp only [here]
        exact ⟨shared,unfinished⟩
    · intro i a at_i mine
      obtain ⟨a',at_i',keyA,_⟩ := look at_i
      exact last i a' at_i' (keyA.symm.trans mine)
  case free =>
    intro key absent i a at_i mine
    obtain ⟨a',at_i',keyA,_,stays,which⟩ := look at_i
    by_cases old : lock.tails.get key = none
    · exact stays (sound.free old i a' at_i' (keyA.symm.trans mine))
    rcases entry with ⟨rfl,_⟩ | ⟨rfl,held,left⟩
    · exact absurd absent old
    have here : key = c.key := by
      by_contra elsewhere
      rw [get_delete_other _ elsewhere] at absent
      exact old absent
    subst here
    have last := (sound.tail held).2 i a' at_i' (keyA.symm.trans mine)
    rcases which with ⟨_,_,rfl⟩ | ⟨other,_⟩
    · exact left
    · exact stays (first (by simp [left]) i a' (by omega) at_i' (keyA.symm.trans mine))

theorem enter_sound (sound : Sound lock) (ready : lock.Ready i) :
    Sound (lock.enter i) := by
  obtain ⟨c,at_i,waiting,clear⟩ := ready
  refine rewrite_sound sound at_i rfl rfl ?_ ?_ ?_ (.inl ⟨rfl,by simp⟩)
  · simp [waiting]
  · intro _ j a before at_j same
    exact clear_first sound before at_j at_i same clear
  · intro past
    have left := sound.settled at_i past
    simp [waiting] at left

theorem leave_sound (sound : Sound lock) (inside : lock.At i key .inside) :
    Sound (lock.leave i key) := by
  obtain ⟨c,at_i,rfl,running⟩ := inside
  refine rewrite_sound sound at_i rfl rfl (fun _ => rfl) ?_ (fun _ => rfl) ?_
  · intro _ j a before at_j same
    exact sound.order before at_j at_i same (by simp [running])
  · by_cases mine : lock.tails.get c.key = some i
    · simp [mine]
    · simp [mine]

theorem settle_sound (sound : Sound lock) (settling : lock.Settling i) :
    Sound (lock.settle i) := by
  obtain ⟨c,at_i,left,clear⟩ := settling
  refine rewrite_sound sound at_i rfl rfl id ?_ (fun _ => left) (.inl ⟨rfl,?_⟩)
  · intro _ j a before at_j same
    exact clear_first sound before at_j at_i same clear
  · intro _ mine
    obtain ⟨⟨d,at_d,_,unfinished⟩,_⟩ := sound.tail mine
    obtain rfl : d = c := by simpa [at_i] using at_d.symm
    exact unfinished left

/-- Of two calls of a key the later one starts when the earlier one has left. -/
def InCallOrder (lock : Lock Key) : Prop :=
  ∀ (i j : Nat) (key : Key) (stage : Stage), i < j → lock.At j key stage → stage ≠ .waiting →
    (∃ earlier, lock.At i key earlier) → lock.At i key .left

theorem sound_inCallOrder (sound : Sound lock) : InCallOrder lock := by
  rintro i j key stage before ⟨b,at_j,keyB,rfl⟩ started ⟨earlier,a,at_i,keyA,_⟩
  exact ⟨a,at_i,keyA,sound.order before at_i at_j (keyA.trans keyB.symm) started⟩

omit [DecidableEq Key] in
theorem at_unique {lock : Lock Key} {i : Nat} {key key' : Key} {stage stage' : Stage} (one : lock.At i key stage)
    (other : lock.At i key' stage') : key = key' ∧ stage = stage' := by
  obtain ⟨a,at_i,rfl,rfl⟩ := one
  obtain ⟨b,at_i',rfl,rfl⟩ := other
  obtain rfl : b = a := by simpa [at_i] using at_i'.symm
  exact ⟨rfl,rfl⟩

omit [DecidableEq Key] in
theorem inside_unique {lock : Lock Key} (ordered : InCallOrder lock) {i j : Nat} {key : Key}
    (one : lock.At i key .inside) (other : lock.At j key .inside) : i = j := by
  rcases Nat.lt_trichotomy i j with before | same | after
  · have left := ordered i j key .inside before other (by simp) ⟨_,one⟩
    simpa using (at_unique one left).2
  · exact same
  · have left := ordered j i key .inside after one (by simp) ⟨_,other⟩
    simpa using (at_unique other left).2

theorem tails_empty (sound : Sound lock) (past : ∀ c ∈ lock.calls, c.stage = .left) :
    lock.tails = .empty := by
  apply eq_empty_of_get
  intro key
  cases found : lock.tails.get key with
  | none => rfl
  | some p =>
    obtain ⟨⟨c,at_p,_,unfinished⟩,_⟩ := sound.tail found
    exact absurd (past c (List.mem_of_getElem? at_p)) unfinished

theorem unfinished_tail (sound : Sound lock)
    (at_i : lock.calls[i]? = some c) (unfinished : c.stage ≠ .left) : ∃ p, lock.tails.get c.key = some p ∧ i ≤ p := by
  cases found : lock.tails.get c.key with
  | none => exact absurd (sound.free found i c at_i rfl) unfinished
  | some p => exact ⟨p,rfl,(sound.tail found).2 i c at_i rfl⟩

theorem settled_left (sound : Sound lock) {p : Nat} {stage earlier : Stage}
    (settled : lock.Settled p) (at_p : lock.At p key stage) (at_i : lock.At i key earlier) (upTo : i ≤ p) :
    earlier = .left := by
  obtain ⟨c,found,past⟩ := settled
  obtain ⟨d,found',keyD,_⟩ := at_p
  obtain rfl : d = c := by simpa [found] using found'.symm
  have left := sound.settled found past
  rcases Nat.lt_or_ge i p with before | last
  · have gone := sound_inCallOrder sound i p key .left before ⟨d,found,keyD,left⟩ (by simp) ⟨_,at_i⟩
    exact (at_unique at_i gone).2
  · obtain rfl : i = p := by omega
    exact (at_unique at_i ⟨d,found,keyD,left⟩).2

end
end Tgtc.TailLock
