import Drust.Lib.Binary64

/-!
# Rounding and order

The conversion of an integer to a double does not carry it past a number that a double holds: one
at or below the integer stays at or below (`le_roundInt`), and so on the other side
(`roundInt_le`).
-/

namespace Binary64

/-- The number has at most 53 significant bits. -/
def Fits53 (m : Nat) : Prop :=
  ∃ s e, s < 2 ^ 53 ∧ m = s * 2 ^ e

theorem dvd_of_fits {m k : Nat} (h : Fits53 m) (hk : 2 ^ (52 + k) ≤ m) : 2 ^ k ∣ m := by
  obtain ⟨s, e, hs, rfl⟩ := h
  have hlt : 2 ^ (52 + k) < 2 ^ (53 + e) := by
    calc 2 ^ (52 + k) ≤ s * 2 ^ e := hk
      _ < 2 ^ 53 * 2 ^ e := Nat.mul_lt_mul_of_pos_right hs (by positivity)
      _ = 2 ^ (53 + e) := (pow_add 2 53 e).symm
  have hle : k ≤ e := by
    have := (Nat.pow_lt_pow_iff_right (by decide)).mp hlt
    omega
  exact Dvd.dvd.mul_left (pow_dvd_pow 2 hle) s

/-- A number between two multiples of the last place is one of them. -/
theorem succ_mul_le {m k q : Nat} (h : Fits53 m) (hk : 2 ^ (52 + k) ≤ m) (hlt : q * 2 ^ k < m) :
    (q + 1) * 2 ^ k ≤ m := by
  obtain ⟨c, rfl⟩ := dvd_of_fits h hk
  rw [Nat.mul_comm _ c] at hlt ⊢
  exact Nat.mul_le_mul_right _ (Nat.lt_of_mul_lt_mul_right hlt)

section RoundNat

variable {m n : Nat}

theorem pow_le_of_large (h : ¬n < 2 ^ 53) : 2 ^ (52 + (Nat.log2 n - 52)) ≤ n := by
  have hn : n ≠ 0 := by omega
  have hlog : 53 ≤ Nat.log2 n := (Nat.le_log2 hn).mpr (by omega)
  have heq : 52 + (Nat.log2 n - 52) = Nat.log2 n := by omega
  rw [heq]
  exact Nat.log2_self_le hn

theorem le_roundNat (h : Fits53 m) (hle : m ≤ n) : m ≤ roundNat n := by
  unfold roundNat
  by_cases hsmall : n < 2 ^ 53
  · rwa [if_pos hsmall]
  rw [if_neg hsmall]
  have hpow := pow_le_of_large hsmall
  simp only
  generalize Nat.log2 n - 52 = k at hpow
  have hdown : m ≤ n / 2 ^ k * 2 ^ k := by
    by_contra hlt
    have hlarge : 2 ^ (52 + k) ≤ n / 2 ^ k * 2 ^ k := by
      rw [pow_add]
      refine Nat.mul_le_mul_right _ ((Nat.le_div_iff_mul_le (by positivity)).mpr ?_)
      rwa [← pow_add]
    have hup := succ_mul_le h (hlarge.trans (Nat.le_of_not_le hlt)) (Nat.lt_of_not_le hlt)
    have hn : n < (n / 2 ^ k + 1) * 2 ^ k :=
      (Nat.div_lt_iff_lt_mul (by positivity)).mp (Nat.lt_succ_self _)
    omega
  refine hdown.trans (Nat.mul_le_mul_right _ ?_)
  split
  · exact Nat.le_succ _
  · exact le_rfl

theorem roundNat_le (h : Fits53 m) (hle : n ≤ m) : roundNat n ≤ m := by
  unfold roundNat
  by_cases hsmall : n < 2 ^ 53
  · rwa [if_pos hsmall]
  rw [if_neg hsmall]
  have hpow := pow_le_of_large hsmall
  simp only
  generalize Nat.log2 n - 52 = k at hpow
  have hsplit : 2 ^ k * (n / 2 ^ k) + n % 2 ^ k = n := Nat.div_add_mod n (2 ^ k)
  rw [Nat.mul_comm] at hsplit
  split
  · next hround =>
    refine succ_mul_le h (hpow.trans hle) ?_
    have hpos : 0 < 2 ^ k := by positivity
    omega
  · omega

end RoundNat

section RoundInt

variable {m x : Int}

theorem le_roundInt (h : Fits53 m.natAbs) (hle : m ≤ x) : m ≤ roundInt x := by
  unfold roundInt
  split
  · have := roundNat_le h (n := x.natAbs) (by omega)
    omega
  · by_cases hm : m < 0
    · omega
    · have := le_roundNat h (n := x.natAbs) (by omega)
      omega

theorem roundInt_le (h : Fits53 m.natAbs) (hle : x ≤ m) : roundInt x ≤ m := by
  unfold roundInt
  split
  · by_cases hm : m < 0
    · have := le_roundNat h (n := x.natAbs) (by omega)
      omega
    · omega
  · have := roundNat_le h (n := x.natAbs) (by omega)
    omega

end RoundInt

theorem fits_of_mul_pow {m s E e : Nat} (hs : s < 2 ^ 53) (h : m * 2 ^ E = s * 2 ^ e) :
    Fits53 m := by
  obtain he | he := Nat.le_total E e
  · obtain ⟨d, rfl⟩ := Nat.exists_eq_add_of_le he
    refine ⟨s, d, hs, Nat.eq_of_mul_eq_mul_right (Nat.two_pow_pos E) ?_⟩
    rw [h, Nat.mul_assoc, ← Nat.pow_add, Nat.add_comm d]
  · obtain ⟨d, rfl⟩ := Nat.exists_eq_add_of_le he
    refine ⟨m, 0, ?_, by rw [pow_zero, Nat.mul_one]⟩
    rw [Nat.add_comm, Nat.pow_add, ← Nat.mul_assoc] at h
    have heq := Nat.eq_of_mul_eq_mul_right (Nat.two_pow_pos e) h
    exact (Nat.le_mul_of_pos_right _ (Nat.two_pow_pos d)).trans_lt (heq ▸ hs)

/-- The value of a double that is an integer. -/
theorem fits_of_integral {b : Binary64} {m : Int} (h : b.scaled = m * (one : Int)) :
    Fits53 m.natAbs := by
  obtain ⟨s, e, hs, -, hscaled⟩ := b.representable
  have habs := congrArg Int.natAbs (h.symm.trans hscaled)
  rw [Int.natAbs_mul, Int.natAbs_mul, Int.natAbs_natCast, Int.natAbs_natCast] at habs
  unfold one at habs
  exact fits_of_mul_pow hs habs

section Cmp

variable {b : Binary64} {m x : Int} (hx : x.natAbs < 2 ^ 65)

theorem cmp_ofInt_ne_lt (hb : b.scaled = m * (one : Int)) (hle : m ≤ x) :
    cmp (ofInt x hx) b ≠ .lt := by
  rw [cmp, ofInt, hb]
  intro hlt
  have hround := le_roundInt (fits_of_integral hb) hle
  have := Int.mul_le_mul_of_nonneg_right hround (Int.le_of_lt one_pos)
  exact absurd (Std.compare_eq_lt.mp hlt) (Int.not_lt.mpr this)

theorem cmp_ofInt_ne_gt (hb : b.scaled = m * (one : Int)) (hle : x ≤ m) :
    cmp (ofInt x hx) b ≠ .gt := by
  rw [cmp, ofInt, hb]
  intro hgt
  have hround := roundInt_le (fits_of_integral hb) hle
  have := Int.mul_le_mul_of_nonneg_right hround (Int.le_of_lt one_pos)
  exact absurd (Std.compare_eq_gt.mp hgt) (Int.not_lt.mpr this)

end Cmp

end Binary64
