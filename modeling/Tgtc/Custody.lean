import Mathlib.Logic.ExistsUnique

/-!
Custody of items that must not be shared: what each holder holds, and which
items are still live. Every live item has exactly one holder; an item comes new
to a holder, passes from one to another, or is let go once it is dead.
-/
namespace Tgtc.Custody
universe u v

variable {Holder : Type u} {Item : Type v}

def Sole (live : Item → Prop) (owns : Holder → Option Item) : Prop :=
  ∀ item, live item → ∃! holder, owns holder = some item

variable {live live' : Item → Prop} {owns owns' : Holder → Option Item}

section
variable (sole : Sole live owns)
include sole

theorem sole_keep (kept : ∀ item, live' item → live item ∧ ∀ holder, owns' holder = some item ↔ owns holder = some item) :
    Sole live' owns' := by
  intro item alive
  obtain ⟨before,same⟩ := kept item alive
  obtain ⟨holder,holds,only⟩ := sole item before
  exact ⟨holder,(same holder).mpr holds,fun other has => only other ((same other).mp has)⟩

theorem sole_fewer (fewer : ∀ item, live' item → live item) : Sole live' owns :=
  sole_keep sole fun item alive => ⟨fewer item alive,fun _ => Iff.rfl⟩

theorem sole_drop (fewer : ∀ item, live' item → live item) {giver : Holder}
    (dead : ∀ item, owns giver = some item → ¬ live' item) (gone : owns' giver = none)
    (others : ∀ holder, holder ≠ giver → owns' holder = owns holder) : Sole live' owns' := by
  refine sole_keep sole fun item alive => ⟨fewer item alive,fun holder => ?_⟩
  by_cases here : holder = giver
  · subst here
    rw [gone]
    exact ⟨fun has => (by cases has),fun had => absurd alive (dead item had)⟩
  · rw [others holder here]

theorem sole_place {item : Item} {receiver : Holder} (placed : live' item → ∀ holder, owns' holder = some item ↔ holder = receiver)
    (kept : ∀ other, other ≠ item → live' other →
      live other ∧ ∀ holder, owns' holder = some other ↔ owns holder = some other) : Sole live' owns' := by
  intro other alive
  by_cases here : other = item
  · subst here
    exact ⟨receiver,(placed alive receiver).mpr rfl,fun holder has => (placed alive holder).mp has⟩
  · obtain ⟨before,same⟩ := kept other here alive
    obtain ⟨holder,holds,only⟩ := sole other before
    exact ⟨holder,(same holder).mpr holds,fun h has => only h ((same h).mp has)⟩

theorem sole_new {item : Item} {receiver : Holder} (fresh : ∀ holder, owns holder ≠ some item)
    (grown : ∀ other, live' other → other = item ∨ live other)
    (free : ∀ other, owns receiver = some other → ¬ live' other) (got : owns' receiver = some item)
    (others : ∀ holder, holder ≠ receiver → owns' holder = owns holder) : Sole live' owns' := by
  refine @sole_place _ _ live live' owns owns' sole item receiver (fun _ holder => ?_) fun other different alive => ?_
  · by_cases here : holder = receiver
    · simp [here,got]
    · rw [others holder here]
      exact ⟨fun has => absurd has (fresh holder),fun same => absurd same here⟩
  · refine ⟨(grown other alive).resolve_left different,fun holder => ?_⟩
    by_cases here : holder = receiver
    · subst here
      rw [got,Option.some.injEq]
      exact ⟨fun same => absurd same.symm different,fun had => absurd alive (free other had)⟩
    · rw [others holder here]

theorem sole_pass (fewer : ∀ item, live' item → live item) {item : Item}
    {giver receiver : Holder} (gives : owns giver = some item) (gone : owns' giver = none)
    (free : ∀ other, owns receiver = some other → ¬ live' other) (got : owns' receiver = some item)
    (others : ∀ holder, holder ≠ giver → holder ≠ receiver → owns' holder = owns holder) : Sole live' owns' := by
  have only : live' item → ∀ holder, owns holder = some item → holder = giver :=
    fun alive holder has => (sole item (fewer item alive)).unique has gives
  refine @sole_place _ _ live live' owns owns' sole item receiver (fun alive holder => ?_) fun other different living => ?_
  · by_cases here : holder = receiver
    · simp [here,got]
    refine ⟨fun has => absurd ?_ here,fun same => absurd same here⟩
    by_cases there : holder = giver
    · rw [there,gone] at has
      cases has
    · rw [others holder there here] at has
      exact absurd (only alive holder has) there
  · refine ⟨fewer other living,fun holder => ?_⟩
    by_cases here : holder = receiver
    · subst here
      rw [got,Option.some.injEq]
      exact ⟨fun same => absurd same.symm different,fun had => absurd living (free other had)⟩
    · by_cases there : holder = giver
      · rw [there,gone,gives,Option.some.injEq]
        exact ⟨fun has => (by cases has),fun same => absurd same.symm different⟩
      · rw [others holder there here]

end

def Apart (owns : Holder → Option Item) : Prop :=
  ∀ holder other item, owns holder = some item → owns other = some item → holder = other

theorem apart_fewer (apart : Apart owns) (fewer : ∀ holder item, owns' holder = some item → owns holder = some item) :
    Apart owns' :=
  fun holder other item has also => apart holder other item (fewer holder item has) (fewer other item also)

theorem apart_place (apart : Apart owns) (item : Item) (receives : Holder → Prop)
    (only : ∀ holder other, receives holder → receives other → holder = other)
    (source : ∀ holder x, owns' holder = some x → (owns holder = some x ∧ x ≠ item) ∨ (x = item ∧ receives holder)) :
    Apart owns' := by
  intro holder other x has also
  rcases source holder x has with ⟨had,different⟩ | ⟨same,here⟩
  · rcases source other x also with ⟨hadToo,_⟩ | ⟨same,_⟩
    · exact apart holder other x had hadToo
    · exact absurd same different
  · rcases source other x also with ⟨_,different⟩ | ⟨_,there⟩
    · exact absurd same different
    · exact only holder other here there

end Tgtc.Custody
