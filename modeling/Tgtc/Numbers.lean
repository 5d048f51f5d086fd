import Mathlib.Data.Rat.Floor

/-!
Numbers of the source language. A number is not-a-number, one of the two
infinities or finite; finite values are exact rationals, so that fractional,
negative and over-large arguments are all there, and the rounding of doubles
beyond the safe integers is not.
-/
namespace Tgtc.Numbers

inductive Number
  | nan
  | negInfinity
  | finite (value : ℚ)
  | infinity
deriving DecidableEq

/-- The whole number `n`. -/
def Number.whole (n : Int) : Number := .finite n

/-- `Number.isSafeInteger`, with the integer it recognises. -/
def Number.safeInteger : Number → Option Int
  | .finite q => if q.den = 1 ∧ |q.num| ≤ 9007199254740991 then some q.num else none
  | _ => none

/-- `Math.max(1, Math.floor(x) || 1)`; `none` stands for positive infinity. -/
def Number.atLeastOne : Number → Option Int
  | .nan | .negInfinity => some 1
  | .finite q => some (max 1 (if ⌊q⌋ = 0 then 1 else ⌊q⌋))
  | .infinity => none

/-- `a <= b` for a whole number and a limit that may be infinite. -/
def within (a : Int) : Option Int → Bool
  | none => true
  | some limit => a ≤ limit

/-- `Math.min(a, b)` for a whole number and a limit that may be infinite. -/
def clip (a : Int) : Option Int → Int
  | none => a
  | some limit => min a limit

end Tgtc.Numbers
