import Mathlib

/-!
# ASCII case

`Char.toLower` moves the capital letters of ASCII and nothing else.
-/

namespace Ascii

/-- The control characters, of ASCII and after it. Unicode has no others. -/
def isControl (c : Char) : Bool :=
  c.toNat < 0x20 || (0x7F ≤ c.toNat && c.toNat < 0xA0)

theorem toLower_spec (c : Char) : c.toLower = c ∨
    65 ≤ c.toNat ∧ c.toNat ≤ 90 ∧ c.toLower.toNat = c.toNat + 32 := by
  by_cases h : 'A'.val ≤ c.val ∧ c.val ≤ 'Z'.val
  · have hlow : 65 ≤ c.toNat := h.1
    have hhigh : c.toNat ≤ 90 := h.2
    refine .inr ⟨hlow, hhigh, ?_⟩
    rw [Char.toLower, dif_pos ⟨h.1, h.2⟩]
    show (c.val + 32).toNat = c.toNat + 32
    rw [UInt32.toNat_add]
    exact Nat.mod_eq_of_lt (by show c.toNat + 32 < 2 ^ 32; omega)
  · exact .inl (dif_neg h)

theorem toLower_toLower (c : Char) : c.toLower.toLower = c.toLower := by
  obtain h | ⟨hlow, -, h⟩ := toLower_spec c
  · rw [h, h]
  · obtain h' | ⟨-, h', -⟩ := toLower_spec c.toLower
    · exact h'
    · omega

/-- Characters before the letters stay, and nothing else becomes one of them. -/
theorem toLower_eq_iff {c d : Char} (hd : d.toNat < 65) : c.toLower = d ↔ c = d := by
  obtain h | ⟨hlow, -, h⟩ := toLower_spec c
  · rw [h]
  · constructor
    · rintro rfl
      omega
    · rintro rfl
      omega

end Ascii
