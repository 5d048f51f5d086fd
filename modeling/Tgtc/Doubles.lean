import Mathlib.Data.Int.Log
import Mathlib.Data.Rat.Floor
import Mathlib.Tactic.Ring
import Mathlib.Tactic.Linarith

/-!
Rounding of binary floating point with 53 significant bits, to nearest and to even on ties, for results within the
exponents of normal numbers.
-/
namespace Tgtc.Doubles

def nearestEven (q : ℚ) : ℤ :=
  if q - ⌊q⌋ < 1 / 2 then ⌊q⌋
  else if 1 / 2 < q - ⌊q⌋ then ⌊q⌋ + 1
  else if ⌊q⌋ % 2 = 0 then ⌊q⌋
  else ⌊q⌋ + 1

def grain (q : ℚ) : ℚ := 2 ^ (Int.log 2 |q| - 52)

def rounded (q : ℚ) : ℚ := if q = 0 then 0 else nearestEven (q / grain q) * grain q

def Representable (x : ℚ) : Prop := ∃ (m : ℕ) (k : ℤ), m ≤ 2 ^ 53 ∧ x = m * 2 ^ k

section
variable {q x : ℚ} {n : ℤ}

theorem nearestEven_le (le : q ≤ n) : nearestEven q ≤ n := by
  have low : ⌊q⌋ ≤ n := by
    have : (⌊q⌋ : ℚ) ≤ n := (Int.floor_le q).trans le
    exact_mod_cast this
  by_cases same : ⌊q⌋ = n
  · -- `q` is whole, so that nothing is left to round
    have rest : q - ⌊q⌋ < 1 / 2 := by
      rw [same]
      linarith
    rw [nearestEven,if_pos rest]
    exact low
  · unfold nearestEven
    split_ifs <;> omega

theorem le_nearestEven (le : (n : ℚ) ≤ q) : n ≤ nearestEven q := by
  have low : n ≤ ⌊q⌋ := Int.le_floor.mpr le
  unfold nearestEven
  split_ifs <;> omega

theorem grain_pos (q : ℚ) : 0 < grain q := zpow_pos two_pos _

theorem representable_nonneg (representable : Representable x) : 0 ≤ x := by
  obtain ⟨m,k,_,rfl⟩ := representable
  exact mul_nonneg m.cast_nonneg (zpow_pos two_pos k).le

theorem pow_log_le (positive : 0 < q) : (2 : ℚ) ^ Int.log 2 |q| ≤ q := by
  have bound := Int.zpow_log_le_self one_lt_two (abs_pos.mpr positive.ne')
  rwa [abs_of_pos positive] at bound ⊢

theorem leading_grain (q : ℚ) : (2 : ℚ) ^ Int.log 2 |q| = (2 ^ 52 : ℤ) * grain q := by
  unfold grain
  rw [zpow_sub₀ two_ne_zero]
  ring

theorem multiple_rounded_le (positive : 0 < q) (le : q ≤ n * grain q) : rounded q ≤ n * grain q := by
  rw [rounded,if_neg positive.ne']
  have quotient : q / grain q ≤ n := (div_le_iff₀ (grain_pos q)).mpr le
  have : (nearestEven (q / grain q) : ℚ) ≤ n := by exact_mod_cast nearestEven_le quotient
  exact mul_le_mul_of_nonneg_right this (grain_pos q).le

theorem multiple_le_rounded (positive : 0 < q) (le : n * grain q ≤ q) : n * grain q ≤ rounded q := by
  rw [rounded,if_neg positive.ne']
  have quotient : (n : ℚ) ≤ q / grain q := (le_div_iff₀ (grain_pos q)).mpr le
  have : (n : ℚ) ≤ nearestEven (q / grain q) := by exact_mod_cast le_nearestEven quotient
  exact mul_le_mul_of_nonneg_right this (grain_pos q).le

theorem representable_multiple (q : ℚ) (representable : Representable x) :
    (∃ n : ℤ, x = n * grain q) ∨ x ≤ 2 ^ Int.log 2 |q| := by
  obtain ⟨m,k,bits,rfl⟩ := representable
  by_cases fine : Int.log 2 |q| - 52 ≤ k
  · left
    obtain ⟨d,gap⟩ := Int.eq_ofNat_of_zero_le (sub_nonneg.mpr fine)
    refine ⟨m * 2 ^ d,?_⟩
    have split : k = (Int.log 2 |q| - 52) + d := by omega
    unfold grain
    rw [split,zpow_add₀ two_ne_zero,zpow_natCast]
    push_cast
    ring
  · right
    have coarse : k + 53 ≤ Int.log 2 |q| := by omega
    calc (m : ℚ) * 2 ^ k ≤ 2 ^ 53 * 2 ^ k := by
          apply mul_le_mul_of_nonneg_right _ (zpow_pos two_pos k).le
          exact_mod_cast bits
      _ = 2 ^ (k + 53) := by
          rw [zpow_add₀ two_ne_zero]
          ring
      _ ≤ 2 ^ Int.log 2 |q| := zpow_le_zpow_right₀ one_le_two coarse

theorem rounded_le (representable : Representable x) (le : q ≤ x) : rounded q ≤ x := by
  have nonneg := representable_nonneg representable
  rcases lt_or_ge 0 q with positive | negative
  · rcases representable_multiple q representable with ⟨n,multiple⟩ | beyond
    · rw [multiple] at le ⊢
      exact multiple_rounded_le positive le
    · have leading : x = (2 ^ 52 : ℤ) * grain q := by
        rw [← leading_grain]
        exact le_antisymm beyond ((pow_log_le positive).trans le)
      rw [leading] at le ⊢
      exact multiple_rounded_le positive le
  · by_cases zero : q = 0
    · rw [rounded,if_pos zero]
      exact nonneg
    · rw [rounded,if_neg zero]
      have quotient : q / grain q ≤ (0 : ℤ) := by
        exact div_nonpos_of_nonpos_of_nonneg negative (grain_pos q).le
      have down : (nearestEven (q / grain q) : ℚ) ≤ 0 := by exact_mod_cast nearestEven_le quotient
      exact (mul_nonpos_of_nonpos_of_nonneg down (grain_pos q).le).trans nonneg

theorem le_rounded (representable : Representable x) (le : x ≤ q) : x ≤ rounded q := by
  have nonneg := representable_nonneg representable
  rcases (nonneg.trans le).lt_or_eq with positive | zero
  · rcases representable_multiple q representable with ⟨n,multiple⟩ | beyond
    · rw [multiple] at le ⊢
      exact multiple_le_rounded positive le
    · rw [leading_grain] at beyond
      refine beyond.trans (multiple_le_rounded positive ?_)
      rw [← leading_grain]
      exact pow_log_le positive
  · rw [rounded,if_pos zero.symm]
    exact le.trans zero.symm.le

theorem rounded_of_representable (representable : Representable x) : rounded x = x :=
  le_antisymm (rounded_le representable le_rfl) (le_rounded representable le_rfl)

theorem representable_natCast {m : ℕ} (bits : m ≤ 2 ^ 53) : Representable m := ⟨m,0,bits,by simp⟩

theorem representable_whole (nonneg : 0 ≤ n) (bits : n ≤ 2 ^ 53) : Representable n := by
  obtain ⟨m,rfl⟩ := Int.eq_ofNat_of_zero_le nonneg
  have := representable_natCast (m := m) (by omega)
  simpa using this

end
end Tgtc.Doubles
