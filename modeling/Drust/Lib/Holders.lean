import Mathlib.Data.List.Nodup
import Mathlib.Logic.Function.Basic

/-!
# Who holds a marker and who holds a permit

A table of markers and a counting semaphore, as seen from the parties that hold them. The
table says only which markers are set and the semaphore only how many permits are left; the
parties' own states say who holds what. `Marked` ties a table to its parties: a marker is set
exactly as long as one party has it. `Counted` ties a semaphore to its parties: those that
have a permit and the permits that are left make up the limit.
-/

namespace Holders

variable {π κ : Type}

/-! ### Markers -/

/-- The markers that are set are those that a party has, and no two parties have the same. -/
structure Marked (taken : κ → Bool) (has : π → Option κ) : Prop where
  owner : ∀ k, taken k = true → ∃ p, has p = some k
  taken : ∀ p k, has p = some k → taken k = true
  unique : ∀ p q k, has p = some k → has q = some k → p = q

section Marked

variable {taken : κ → Bool} {has : π → Option κ} {p : π} {k : κ}

theorem Marked.existsUnique (h : Marked taken has) (k : κ) :
    taken k = true ↔ ∃! p, has p = some k := by
  constructor
  · intro hk
    obtain ⟨p, hp⟩ := h.owner k hk
    exact ⟨p, hp, fun q hq => h.unique q p k hq hp⟩
  · rintro ⟨p, hp, -⟩
    exact h.taken p k hp

variable [DecidableEq κ] [DecidableEq π]

/-- A party without a marker sets one that is free. -/
theorem Marked.take (h : Marked taken has) (hfree : taken k = false) (hp : has p = none) :
    Marked (Function.update taken k true) (Function.update has p (some k)) := by
  have hother : ∀ q, has q ≠ some k := by
    intro q hq
    rw [h.taken q k hq] at hfree
    cases hfree
  refine ⟨?_, ?_, ?_⟩
  · intro k' hk'
    obtain rfl | hne := eq_or_ne k' k
    · exact ⟨p, Function.update_self ..⟩
    · rw [Function.update_of_ne hne] at hk'
      obtain ⟨q, hq⟩ := h.owner k' hk'
      have hqp : q ≠ p := by
        rintro rfl
        rw [hp] at hq
        cases hq
      exact ⟨q, by rw [Function.update_of_ne hqp, hq]⟩
  · intro q k' hq
    obtain rfl | hqp := eq_or_ne q p
    · rw [Function.update_self] at hq
      rw [Option.some.inj hq, Function.update_self]
    · rw [Function.update_of_ne hqp] at hq
      have hne : k' ≠ k := fun heq => hother q (heq ▸ hq)
      rw [Function.update_of_ne hne]
      exact h.taken q k' hq
  · intro q r k' hq hr
    obtain rfl | hqp := eq_or_ne q p
    · rw [Function.update_self] at hq
      obtain rfl := Option.some.inj hq
      by_contra hqr
      rw [Function.update_of_ne (Ne.symm hqr)] at hr
      exact hother r hr
    · rw [Function.update_of_ne hqp] at hq
      obtain rfl | hrp := eq_or_ne r p
      · rw [Function.update_self] at hr
        obtain rfl := Option.some.inj hr
        exact absurd hq (hother q)
      · rw [Function.update_of_ne hrp] at hr
        exact h.unique q r k' hq hr

/-- A party takes its marker back. -/
theorem Marked.drop (h : Marked taken has) (hp : has p = some k) :
    Marked (Function.update taken k false) (Function.update has p none) := by
  have hother : ∀ q, q ≠ p → has q ≠ some k := fun q hqp hq => hqp (h.unique q p k hq hp)
  refine ⟨?_, ?_, ?_⟩
  · intro k' hk'
    obtain rfl | hne := eq_or_ne k' k
    · rw [Function.update_self] at hk'
      cases hk'
    · rw [Function.update_of_ne hne] at hk'
      obtain ⟨q, hq⟩ := h.owner k' hk'
      have hqp : q ≠ p := by
        rintro rfl
        rw [hp] at hq
        exact hne (Option.some.inj hq).symm
      exact ⟨q, by rw [Function.update_of_ne hqp, hq]⟩
  · intro q k' hq
    obtain rfl | hqp := eq_or_ne q p
    · rw [Function.update_self] at hq
      cases hq
    · rw [Function.update_of_ne hqp] at hq
      have hne : k' ≠ k := fun heq => hother q hqp (heq ▸ hq)
      rw [Function.update_of_ne hne]
      exact h.taken q k' hq
  · intro q r k' hq hr
    obtain rfl | hqp := eq_or_ne q p
    · rw [Function.update_self] at hq
      cases hq
    · obtain rfl | hrp := eq_or_ne r p
      · rw [Function.update_self] at hr
        cases hr
      · rw [Function.update_of_ne hqp] at hq
        rw [Function.update_of_ne hrp] at hr
        exact h.unique q r k' hq hr

end Marked

/-! ### Permits -/

/-- The parties that have a permit and the permits left are as many as the limit. -/
def Counted (left limit : Nat) (has : π → Bool) : Prop :=
  ∃ holders : List π, holders.Nodup ∧ (∀ p, p ∈ holders ↔ has p = true) ∧
    holders.length + left = limit

section Counted

variable {left limit : Nat} {has : π → Bool} {p : π}

/-- No more parties than the limit have a permit. -/
theorem Counted.length_le (h : Counted left limit has) {ps : List π} (hnodup : ps.Nodup)
    (hps : ∀ p ∈ ps, has p = true) : ps.length ≤ limit := by
  obtain ⟨holders, -, hmem, hlength⟩ := h
  have hsub : ps ⊆ holders := fun p hp => (hmem p).mpr (hps p hp)
  have hle : ps.length ≤ holders.length := List.Nodup.length_le_of_subset hnodup hsub
  omega

variable [DecidableEq π]

theorem Counted.acquire (h : Counted (left + 1) limit has) (hp : has p = false) :
    Counted left limit (Function.update has p true) := by
  obtain ⟨holders, hnodup, hmem, hlength⟩ := h
  have hp' : p ∉ holders := by
    rw [hmem, hp]
    exact Bool.false_ne_true
  refine ⟨p :: holders, List.nodup_cons.mpr ⟨hp', hnodup⟩, ?_, ?_⟩
  · intro q
    obtain rfl | hqp := eq_or_ne q p
    · simp
    · rw [Function.update_of_ne hqp, List.mem_cons, hmem]
      exact or_iff_right hqp
  · rw [List.length_cons]
    omega

theorem Counted.release (h : Counted left limit has) (hp : has p = true) :
    Counted (left + 1) limit (Function.update has p false) := by
  obtain ⟨holders, hnodup, hmem, hlength⟩ := h
  have hp' : p ∈ holders := (hmem p).mpr hp
  refine ⟨holders.erase p, hnodup.erase p, ?_, ?_⟩
  · intro q
    rw [hnodup.mem_erase_iff]
    obtain rfl | hqp := eq_or_ne q p
    · simp
    · rw [Function.update_of_ne hqp, hmem]
      exact and_iff_right hqp
  · have hpos : 0 < holders.length := List.length_pos_of_mem hp'
    rw [List.length_erase_of_mem hp']
    omega

end Counted

end Holders
