import Mathlib

/-!
# Insertion-ordered maps

A map that keeps the order of its entries is the list of these, each key once. There are two
ways to remove an entry. `shiftRemove` keeps the order of the others; `swapRemove` puts the last
entry into the gap, and so changes the order but nothing a lookup can see
(`swapRemove_perm`, `lookup_eq_of_perm`).
-/

namespace AssocList

variable {κ ν : Type} [DecidableEq κ]

/-- Remove an entry; the entries after it move up. -/
def shiftRemove (m : List (κ × ν)) (k : κ) : List (κ × ν) :=
  m.eraseP fun kv => kv.1 == k

/-- Remove an entry; the last one takes its place. -/
def swapRemove (m : List (κ × ν)) (k : κ) : List (κ × ν) :=
  match m.findIdx? fun kv => kv.1 == k, m.getLast? with
  | some i, some last => (m.set i last).dropLast
  | _, _ => m

/-- Filling a gap with the last element is a removal, up to the order. -/
theorem dropLast_set_perm {α : Type} {init : List α} {last : α} {i : Nat}
    (hi : i < (init ++ [last]).length) :
    ((init ++ [last]).set i last).dropLast.Perm ((init ++ [last]).eraseIdx i) := by
  rw [List.length_append, List.length_singleton] at hi
  rcases Nat.lt_succ_iff_lt_or_eq.mp hi with hlt | heq
  · rw [List.set_append_left i last hlt, List.dropLast_concat,
      List.eraseIdx_append_of_lt_length hlt]
    exact (List.set_perm_cons_eraseIdx hlt last).trans (List.perm_append_singleton _ _).symm
  · rw [heq, List.set_append_right _ last le_rfl, List.eraseIdx_append_of_length_le le_rfl,
      Nat.sub_self]
    simp

/-- The two removals leave the same entries. -/
theorem swapRemove_perm (m : List (κ × ν)) (k : κ) : (swapRemove m k).Perm (shiftRemove m k) := by
  unfold swapRemove shiftRemove
  rw [List.eraseP_eq_eraseIdx]
  cases hi : m.findIdx? fun kv => kv.1 == k with
  | none => exact .refl _
  | some i =>
    obtain ⟨hlt, -⟩ := List.findIdx?_eq_some_iff_getElem.mp hi
    rcases List.eq_nil_or_concat m with rfl | ⟨init, last, rfl⟩
    · exact absurd hlt (Nat.not_lt_zero i)
    · rw [List.concat_eq_append] at hlt ⊢
      rw [List.getLast?_concat]
      exact dropLast_set_perm hlt

/-- With distinct keys, an entry is found by its key. -/
theorem lookup_eq_some_iff_mem {m : List (κ × ν)} (hnodup : (m.map Prod.fst).Nodup) {k : κ} {v : ν} :
    m.lookup k = some v ↔ (k, v) ∈ m := by
  induction m with
  | nil => simp
  | cons kv m ih =>
    obtain ⟨k', v'⟩ := kv
    rw [List.map_cons, List.nodup_cons] at hnodup
    rw [List.lookup_cons, List.mem_cons, Prod.mk.injEq]
    by_cases hk : k = k'
    · subst hk
      have hfresh : (k, v) ∉ m := fun hmem => hnodup.1 (List.mem_map.mpr ⟨_, hmem, rfl⟩)
      simp [hfresh, eq_comm]
    · rw [beq_false_of_ne hk]
      simp only [hk, false_and, false_or]
      exact ih hnodup.2

/-- The order of the entries plays no role for a lookup. -/
theorem lookup_eq_of_perm {m m' : List (κ × ν)} (hnodup : (m.map Prod.fst).Nodup) (h : m.Perm m')
    (k : κ) : m.lookup k = m'.lookup k := by
  have hnodup' : (m'.map Prod.fst).Nodup := (h.map Prod.fst).nodup_iff.mp hnodup
  ext v
  rw [lookup_eq_some_iff_mem hnodup, lookup_eq_some_iff_mem hnodup', h.mem_iff]

theorem nodup_shiftRemove {m : List (κ × ν)} (hnodup : (m.map Prod.fst).Nodup) (k : κ) :
    ((shiftRemove m k).map Prod.fst).Nodup :=
  (List.eraseP_sublist.map Prod.fst).nodup hnodup

/-- A removed key is gone. -/
theorem lookup_shiftRemove_self {m : List (κ × ν)} (hnodup : (m.map Prod.fst).Nodup) (k : κ) :
    (shiftRemove m k).lookup k = none := by
  induction m with
  | nil => rfl
  | cons kv m ih =>
    obtain ⟨k', v'⟩ := kv
    rw [List.map_cons, List.nodup_cons] at hnodup
    by_cases hk : k' = k
    · subst hk
      have hfirst : shiftRemove ((k', v') :: m) k' = m :=
        List.eraseP_cons_of_pos (beq_self_eq_true k')
      rw [hfirst, List.lookup_eq_none_iff]
      intro kv hmem
      rw [bne_iff_ne]
      exact fun heq => hnodup.1 (List.mem_map.mpr ⟨kv, hmem, heq.symm⟩)
    · have hlater : shiftRemove ((k', v') :: m) k = (k', v') :: shiftRemove m k :=
        List.eraseP_cons_of_neg (by simpa using hk)
      rw [hlater, List.lookup_cons, beq_false_of_ne (Ne.symm hk)]
      exact ih hnodup.2

end AssocList
