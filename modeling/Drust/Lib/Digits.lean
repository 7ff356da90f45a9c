import Mathlib

/-!
# Decimal digits

A list of digits and the decimal representation of its value: the representation is the list
itself, or it is shorter (`toDigits_value`), which it is where the list has leading zeros.
-/

namespace Digits

/-- The value of a list of decimal digits. -/
def value (ds : List Char) : Nat :=
  Nat.ofDigitChars 10 ds 0

def AllDigits (ds : List Char) : Prop :=
  ∀ c ∈ ds, c.isDigit = true

variable {ds es : List Char}

theorem value_append (ds : List Char) (c : Char) :
    value (ds ++ [c]) = 10 * value ds + (c.toNat - '0'.toNat) := by
  rw [value, Nat.ofDigitChars_append, Nat.ofDigitChars_cons, Nat.ofDigitChars_nil]
  rfl

theorem value_toDigits (n : Nat) : value (Nat.toDigits 10 n) = n :=
  Nat.ofDigitChars_toDigits (by decide) (by decide)

theorem allDigits_toDigits (n : Nat) : AllDigits (Nat.toDigits 10 n) :=
  fun _ hc => Nat.isDigit_of_mem_toDigits (by decide) (by decide) hc

theorem digit_bounds {c : Char} (h : c.isDigit = true) :
    '0'.toNat ≤ c.toNat ∧ c.toNat - '0'.toNat < 10 := by
  rw [Char.isDigit, Bool.and_eq_true, decide_eq_true_eq, decide_eq_true_eq, ge_iff_le,
    UInt32.le_iff_toNat_le, UInt32.le_iff_toNat_le] at h
  change 48 ≤ c.toNat ∧ c.toNat ≤ 57 at h
  show 48 ≤ c.toNat ∧ c.toNat - 48 < 10
  omega

theorem value_lt (h : AllDigits ds) : value ds < 10 ^ ds.length := by
  induction ds using List.reverseRecOn with
  | nil => decide
  | append_singleton ds c ih =>
    have hds : AllDigits ds := fun d hd => h d (List.mem_append_left _ hd)
    have hc := (digit_bounds (h c (by simp))).2
    have hlt := ih hds
    rw [value_append, List.length_append, List.length_singleton, Nat.pow_succ]
    omega

/-- Two lists of digits of one length and one value are the same. -/
theorem eq_of_value_eq (hds : AllDigits ds) (hes : AllDigits es) (hlength : ds.length = es.length)
    (hvalue : value ds = value es) : ds = es := by
  induction ds using List.reverseRecOn generalizing es with
  | nil => exact (List.eq_nil_of_length_eq_zero hlength.symm).symm
  | append_singleton ds c ih =>
    obtain rfl | ⟨es, e, rfl⟩ := es.eq_nil_or_concat
    · simp at hlength
    · rw [List.concat_eq_append] at *
      have hc := digit_bounds (hds c (by simp))
      have he := digit_bounds (hes e (by simp))
      rw [value_append, value_append] at hvalue
      -- the last digits agree, and so do the values before them
      have hlast : c.toNat = e.toNat := by omega
      have hbefore : value ds = value es := by omega
      have hds' : AllDigits ds := fun d hd => hds d (List.mem_append_left _ hd)
      have hes' : AllDigits es := fun d hd => hes d (List.mem_append_left _ hd)
      simp only [List.length_append, List.length_singleton, Nat.add_right_cancel_iff] at hlength
      rw [ih hds' hes' hlength hbefore, Char.toNat_inj.mp hlast]

/-- Printing the value drops leading zeros and nothing else. -/
theorem toDigits_value (h : AllDigits ds) (hne : ds ≠ []) :
    Nat.toDigits 10 (value ds) = ds ∨ (Nat.toDigits 10 (value ds)).length < ds.length := by
  have hle : (Nat.toDigits 10 (value ds)).length ≤ ds.length :=
    (Nat.length_toDigits_le_iff (by decide) (List.length_pos_iff.mpr hne)).mpr (value_lt h)
  obtain heq | hlt := Nat.eq_or_lt_of_le hle
  · exact .inl (eq_of_value_eq (allDigits_toDigits _) h heq (value_toDigits _))
  · exact .inr hlt

end Digits
