import Mathlib

/-!
# Finite double-precision numbers

The finite values of the IEEE 754 `binary64` format. Every finite double is an
integer multiple of the least subnormal `2 ^ (-1074)`, so a value is kept as that
multiple (`scaled`), together with the proof that it is one the format holds: a
significand below `2 ^ 53` times a power of two in range. The sign of a zero is
not kept, since no comparison can see it.

`roundInt` is the conversion of an integer to a double, to the nearest with ties
to the even significand. It is the identity up to `2 ^ 53` and loses low bits
above. `cmpInt` compares an integer with a double *exactly*; comparing
`roundInt` of the integer instead is what a cast does.
-/

/-- `n` is the value of a finite double, in units of `2 ^ (-1074)`. -/
def Binary64.Representable (n : Int) : Prop :=
  ∃ (m : Int) (e : Nat), m.natAbs < 2 ^ 53 ∧ e ≤ 2045 ∧ n = m * ((2 ^ e : Nat) : Int)

/-- A finite double. -/
structure Binary64 where
  /-- The value, in units of `2 ^ (-1074)`. -/
  scaled : Int
  representable : Binary64.Representable scaled

namespace Binary64

instance : DecidableEq Binary64 := fun a b =>
  decidable_of_iff (a.scaled = b.scaled) ⟨fun h => by cases a; cases b; simp_all, fun h => h ▸ rfl⟩

/-- The scale of an integer: `1` in units of `2 ^ (-1074)`. -/
def one : Nat := 2 ^ 1074

/-- Round a natural number to 53 significant bits, to nearest, ties to even. -/
def roundNat (n : Nat) : Nat :=
  if n < 2 ^ 53 then n
  else
    let k := Nat.log2 n - 52
    let q := n / 2 ^ k
    let r := n % 2 ^ k
    (if 2 ^ k < 2 * r ∨ (2 * r = 2 ^ k ∧ q % 2 = 1) then q + 1 else q) * 2 ^ k

/-- Round an integer to 53 significant bits, away from zero as `roundNat`. -/
def roundInt (x : Int) : Int :=
  if x < 0 then -(roundNat x.natAbs : Int) else (roundNat x.natAbs : Int)

/-- The significand `roundNat` leaves has at most 53 bits, its carry apart. -/
theorem quotient_lt {n : Nat} (h : ¬ n < 2 ^ 53) :
    n / 2 ^ (Nat.log2 n - 52) < 2 ^ 53 := by
  have hn : n ≠ 0 := by omega
  have hlog : 53 ≤ Nat.log2 n := (Nat.le_log2 hn).mpr (by omega)
  have hlt : n < 2 ^ (Nat.log2 n + 1) := Nat.lt_log2_self
  rw [Nat.div_lt_iff_lt_mul (by positivity), ← pow_add]
  have : 53 + (Nat.log2 n - 52) = Nat.log2 n + 1 := by omega
  rwa [this]

/-- A carry out of the significand is a power of two more. -/
theorem carry_pow (k u : Nat) : 2 ^ 53 * 2 ^ k * 2 ^ u = 2 ^ 52 * 2 ^ (k + 1 + u) := by
  rw [← pow_add, ← pow_add, ← pow_add]
  congr 1
  omega

/-- A rounded natural number below `2 ^ 65` is a double. -/
theorem representable_roundNat {n : Nat} (h : n < 2 ^ 65) :
    Representable ((roundNat n : Int) * (one : Int)) := by
  unfold roundNat one
  split
  · next hs => exact ⟨n, 1074, by simpa using hs, by omega, rfl⟩
  · next hs =>
    have hn : n ≠ 0 := by omega
    have hk : Nat.log2 n - 52 ≤ 12 := by
      have : Nat.log2 n < 65 := (Nat.log2_lt hn).mpr h
      omega
    have hq := quotient_lt hs
    simp only
    set k := Nat.log2 n - 52
    set q := n / 2 ^ k
    set q' := if 2 ^ k < 2 * (n % 2 ^ k) ∨ (2 * (n % 2 ^ k) = 2 ^ k ∧ q % 2 = 1)
      then q + 1 else q
    have hq' : q' ≤ 2 ^ 53 := by
      have : q' ≤ q + 1 := by simp only [q']; split <;> omega
      omega
    by_cases hcarry : q' = 2 ^ 53
    · -- the carry out of the significand moves into the exponent
      refine ⟨((2 ^ 52 : Nat) : Int), k + 1 + 1074, by simp, by omega, ?_⟩
      rw [hcarry, ← Int.natCast_mul, ← Int.natCast_mul, carry_pow]
    · refine ⟨(q' : Int), k + 1074, by simp; omega, by omega, ?_⟩
      rw [Int.natCast_mul, mul_assoc, ← Int.natCast_mul, ← Nat.pow_add]

theorem representable_neg {n : Int} (h : Representable n) : Representable (-n) := by
  obtain ⟨m, e, hm, he, rfl⟩ := h
  exact ⟨-m, e, by simpa using hm, he, by ring⟩

theorem representable_roundInt {x : Int} (h : x.natAbs < 2 ^ 65) :
    Representable (roundInt x * (one : Int)) := by
  unfold roundInt
  split
  · rw [neg_mul]
    exact representable_neg (representable_roundNat h)
  · exact representable_roundNat h

/-- The conversion of an integer of machine size to a double. -/
def ofInt (x : Int) (h : x.natAbs < 2 ^ 65) : Binary64 where
  scaled := roundInt x * (one : Int)
  representable := representable_roundInt h

/-- The order of two doubles. -/
def cmp (a b : Binary64) : Ordering :=
  compare a.scaled b.scaled

/-- The exact order of an integer and a double. -/
def cmpInt (x : Int) (b : Binary64) : Ordering :=
  compare (x * (one : Int)) b.scaled

theorem one_pos : (0 : Int) < (one : Int) := by
  unfold one
  positivity

end Binary64
