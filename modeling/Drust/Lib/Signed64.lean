import Mathlib.Algebra.Order.Ring.Int
import Mathlib.Tactic.Linarith

/-!
# Signed machine integers

Integers of 64 bits in two's complement, as integers that stay in their range. A sum or a
difference wraps around the range; it is exact where the range holds the result
(`wrap_of_fits`). A saturating product stops at the ends of the range.
-/

namespace Signed64

def minValue : Int := -2 ^ 63

def maxValue : Int := 2 ^ 63 - 1

/-- The range holds the number. -/
def Fits (x : Int) : Prop := minValue ≤ x ∧ x ≤ maxValue

instance (x : Int) : Decidable (Fits x) :=
  inferInstanceAs (Decidable (_ ∧ _))

def wrap (x : Int) : Int :=
  (x + 2 ^ 63) % 2 ^ 64 - 2 ^ 63

def saturate (x : Int) : Int :=
  max minValue (min x maxValue)

def saturatingMul (x y : Int) : Int :=
  saturate (x * y)

/-- A number of 64 bits without a sign, read as one with a sign. -/
def ofUnsigned (n : Nat) : Int :=
  wrap n

variable {x : Int}

theorem wrap_of_fits (h : Fits x) : wrap x = x := by
  simp only [Fits, minValue, maxValue] at h
  rw [wrap]
  omega

theorem fits_saturate (x : Int) : Fits (saturate x) := by
  simp only [Fits, saturate, minValue, maxValue]
  omega

theorem saturate_of_fits (h : Fits x) : saturate x = x := by
  simp only [Fits, minValue, maxValue] at h
  simp only [saturate, minValue, maxValue]
  omega

theorem saturate_nonneg_iff : 0 ≤ saturate x ↔ 0 ≤ x := by
  simp only [saturate, minValue, maxValue]
  omega

end Signed64
