import Mathlib
import Tgtc.Maps

/-!
A shelf and a book that should list the same things with the same sizes, changed by operations that touch one first
and the other later.
-/
namespace Tgtc.TwoBooks
open Maps
open Function (update update_of_ne update_self)
universe u v

inductive Half (Key : Type u) where
  /-- on the shelf and not in the book, with the size the book will be given if it is known -/
  | ahead (key : Key) (size : Option Nat)
  | behind (key : Key) (size : Nat)

section
variable {Key : Type u}

def Half.key : Half Key → Key
  | .ahead key _ => key
  | .behind key _ => key

structure Balanced (halves : Nat → Option (Half Key)) (shelf book : Key → Option Nat) : Prop where
  unique : ∀ t t' h h', halves t = some h → halves t' = some h' → h.key = h'.key → t = t'
  ahead : ∀ t key size, halves t = some (.ahead key size) → book key = none ∧ ∀ n ∈ size, shelf key = some n
  behind : ∀ t key size, halves t = some (.behind key size) → shelf key = none ∧ book key = some size
  rest : ∀ key, (∀ t h, halves t = some h → h.key ≠ key) → book key = shelf key

def Free (halves : Nat → Option (Half Key)) (key : Key) : Prop := ∀ t h, halves t = some h → h.key ≠ key

variable {halves : Nat → Option (Half Key)} {shelf book shelf' book' : Key → Option Nat} {t : Nat} {key : Key}

theorem balanced_start (shelf : Key → Option Nat) : Balanced (fun _ => none) shelf shelf :=
  ⟨nofun,nofun,nofun,fun _ _ => rfl⟩

theorem balanced_begin (balanced : Balanced halves shelf book) (idle : halves t = none) (free : Free halves key)
    {h : Half Key} (here : h.key = key) (sameShelf : ∀ other, other ≠ key → shelf' other = shelf other)
    (sameBook : ∀ other, other ≠ key → book' other = book other)
    (ahead : ∀ size, h = .ahead key size → book' key = none ∧ ∀ n ∈ size, shelf' key = some n)
    (behind : ∀ size, h = .behind key size → shelf' key = none ∧ book' key = some size) :
    Balanced (update halves t (some h)) shelf' book' := by
  have cases_of : ∀ u g, update halves t (some h) u = some g → (u = t ∧ g = h) ∨ (u ≠ t ∧ halves u = some g) := by
    intro u g found
    by_cases same : u = t
    · subst same
      rw [update_self] at found
      exact .inl ⟨rfl,(Option.some.inj found).symm⟩
    · rw [update_of_ne same] at found
      exact .inr ⟨same,found⟩
  refine ⟨?_,?_,?_,?_⟩
  · intro u u' g g' found found' same
    rcases cases_of u g found with ⟨rfl,rfl⟩ | ⟨_,old⟩
    · rcases cases_of u' g' found' with ⟨rfl,rfl⟩ | ⟨_,old'⟩
      · rfl
      · exact absurd (same.symm.trans here) (free u' g' old')
    · rcases cases_of u' g' found' with ⟨rfl,rfl⟩ | ⟨_,old'⟩
      · exact absurd (same.trans here) (free u g old)
      · exact balanced.unique u u' g g' old old' same
  · intro u other size found
    rcases cases_of u _ found with ⟨rfl,same⟩ | ⟨_,old⟩
    · have : other = key := by rw [← here,← same]; rfl
      subst this
      exact ahead size same.symm
    · have different : other ≠ key := free u _ old
      rw [sameBook other different,sameShelf other different]
      exact balanced.ahead u other size old
  · intro u other size found
    rcases cases_of u _ found with ⟨rfl,same⟩ | ⟨_,old⟩
    · have : other = key := by rw [← here,← same]; rfl
      subst this
      exact behind size same.symm
    · have different : other ≠ key := free u _ old
      rw [sameBook other different,sameShelf other different]
      exact balanced.behind u other size old
  · intro other untouched
    have different : other ≠ key := by
      rintro rfl
      exact untouched t h (by simp) here
    rw [sameBook other different,sameShelf other different]
    refine balanced.rest other fun u g found => ?_
    have elsewhere : u ≠ t := by
      rintro rfl
      rw [idle] at found
      cases found
    exact untouched u g (by rw [update_of_ne elsewhere]; exact found)

theorem balanced_finish (balanced : Balanced halves shelf book) {h : Half Key} (found : halves t = some h)
    (sameShelf : ∀ other, other ≠ h.key → shelf' other = shelf other)
    (sameBook : ∀ other, other ≠ h.key → book' other = book other) (agree : book' h.key = shelf' h.key) :
    Balanced (update halves t none) shelf' book' := by
  have still : ∀ u g, update halves t none u = some g → u ≠ t ∧ halves u = some g ∧ g.key ≠ h.key := by
    intro u g at_u
    by_cases same : u = t
    · rw [same,update_self] at at_u
      cases at_u
    · rw [update_of_ne same] at at_u
      exact ⟨same,at_u,fun clash => same (balanced.unique u t g h at_u found clash)⟩
  refine ⟨?_,?_,?_,?_⟩
  · intro u u' g g' at_u at_u' same
    exact balanced.unique u u' g g' (still u g at_u).2.1 (still u' g' at_u').2.1 same
  · intro u other size at_u
    obtain ⟨_,old,different⟩ := still u _ at_u
    rw [sameBook other different,sameShelf other different]
    exact balanced.ahead u other size old
  · intro u other size at_u
    obtain ⟨_,old,different⟩ := still u _ at_u
    rw [sameBook other different,sameShelf other different]
    exact balanced.behind u other size old
  · intro other untouched
    by_cases here : other = h.key
    · rw [here]
      exact agree
    rw [sameBook other here,sameShelf other here]
    refine balanced.rest other fun u g at_u => ?_
    by_cases same : u = t
    · rw [same,found] at at_u
      cases at_u
      exact Ne.symm here
    · exact untouched u g (by rw [update_of_ne same]; exact at_u)

end

section
variable {Key : Type u} {Value : Type v}

def total (weight : Value → Nat) (m : OrderedMap Key Value) : Nat := (m.entries.map (fun e => weight e.2)).sum

def mapValues {Value' : Type v} (g : Value → Value') (m : OrderedMap Key Value) : OrderedMap Key Value' :=
  ⟨m.entries.map (fun e => (e.1,g e.2)),by
    rw [List.map_map]
    exact m.distinct⟩

variable [DecidableEq Key]

theorem get_mapValues {Value' : Type v} (g : Value → Value') (m : OrderedMap Key Value) (k : Key) :
    (mapValues g m).get k = (m.get k).map g := by
  apply Option.ext
  intro v
  rw [get_eq_some_iff,Option.map_eq_some_iff]
  simp only [mapValues,List.mem_map]
  constructor
  · rintro ⟨e,member,same⟩
    cases same
    exact ⟨e.2,(get_eq_some_iff m e.1 e.2).mpr member,rfl⟩
  · rintro ⟨w,found,rfl⟩
    exact ⟨(k,w),(get_eq_some_iff m k w).mp found,rfl⟩

theorem total_eq_of_get {weight : Value → Nat} {m m' : OrderedMap Key Value} (same : ∀ k, m.get k = m'.get k) :
    total weight m = total weight m' := by
  have perm : m.entries.Perm m'.entries := by
    refine (List.perm_ext_iff_of_nodup (List.Nodup.of_map _ m.distinct) (List.Nodup.of_map _ m'.distinct)).mpr fun e => ?_
    rw [← get_eq_some_iff m e.1 e.2,← get_eq_some_iff m' e.1 e.2,same e.1]
  exact (perm.map _).sum_eq

theorem total_set (weight : Value → Nat) {m : OrderedMap Key Value} {k : Key} (v : Value) (absent : m.get k = none) :
    total weight (m.set k v) = total weight m + weight v := by
  have missing : k ∉ m.entries.map Prod.fst := by
    intro member
    obtain ⟨e,listed,rfl⟩ := List.mem_map.mp member
    rw [(get_eq_some_iff m e.1 e.2).mpr listed] at absent
    cases absent
  simp [total,OrderedMap.set,setEntries,missing]

theorem total_delete (weight : Value → Nat) {m : OrderedMap Key Value} {k : Key} {v : Value} (found : m.get k = some v) :
    total weight (m.delete k) + weight v = total weight m := by
  have again : ∀ other, ((m.delete k).set k v).get other = m.get other := by
    intro other
    by_cases same : other = k
    · rw [same,get_set_same,found]
    · rw [get_set_other _ _ same,get_delete_other _ same]
  rw [← total_eq_of_get again,total_set weight v (get_delete_same m k)]

theorem total_keys (weight : Value → Nat) (m : OrderedMap Key Value) :
    total weight m = ((m.entries.map Prod.fst).map (fun k => ((m.get k).map weight).getD 0)).sum := by
  unfold total
  rw [List.map_map]
  congr 1
  apply List.map_congr_left
  intro e member
  simp [(get_eq_some_iff m e.1 e.2).mpr member]

end
end Tgtc.TwoBooks
