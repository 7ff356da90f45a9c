import Mathlib

/-!
# Prefixes as ranges

In the lexicographic order of lists, the lists that begin with `b ++ [x]` form a half-open
interval: from `b ++ [x]` itself up to, and without, `b ++ [y]`, where `y` comes right after
`x`. This is how an ordered index finds the keys with a given prefix.
-/

namespace List

variable {α : Type} [Ord α]

theorem compare_nil_left_ne_gt (s : List α) : compare [] s ≠ .gt := by
  cases s with
  | nil => simp
  | cons c cs => simp [List.compare_nil_cons]

theorem compare_nil_right_ne_lt (s : List α) : compare s [] ≠ .lt := by
  cases s with
  | nil => simp
  | cons c cs => simp [List.compare_cons_nil]

/-- `y` comes right after `x`. -/
structure Covers (x y : α) : Prop where
  lt : compare x y = .lt
  eq_of_between : ∀ c, compare x c ≠ .gt → compare c y = .lt → x = c

variable [Std.OrientedOrd α] [Std.LawfulEqOrd α]

theorem prefix_iff_range {x y : α} (hxy : Covers x y) (b s : List α) :
    (compare (b ++ [x]) s ≠ .gt ∧ compare s (b ++ [y]) = .lt) ↔ b ++ [x] <+: s := by
  induction b generalizing s with
  | nil =>
    cases s with
    | nil => simp [List.compare_cons_nil]
    | cons c cs =>
      simp only [List.nil_append, List.compare_cons_cons]
      constructor
      · rintro ⟨hlow, hhigh⟩
        -- the first element is at least `x`, and below `y`
        have hxc : compare x c ≠ .gt := by
          intro h
          exact hlow (Ordering.then_eq_gt.mpr (.inl h))
        have hcy : compare c y = .lt := by
          obtain h | ⟨-, h⟩ := Ordering.then_eq_lt.mp hhigh
          · exact h
          · exact absurd h (compare_nil_right_ne_lt cs)
        rw [hxy.eq_of_between c hxc hcy]
        exact ⟨cs, rfl⟩
      · intro h
        obtain rfl : x = c := (List.cons_prefix_cons.mp h).1
        refine ⟨?_, Ordering.then_eq_lt.mpr (.inl hxy.lt)⟩
        rw [Std.ReflOrd.compare_self]
        exact compare_nil_left_ne_gt cs
  | cons d b ih =>
    cases s with
    | nil => simp [List.compare_cons_nil]
    | cons c cs =>
      simp only [List.cons_append, List.compare_cons_cons, List.cons_prefix_cons]
      rw [← ih cs]
      constructor
      · rintro ⟨hlow, hhigh⟩
        -- neither bound lets the first elements differ
        have hdc : d = c := by
          cases hcmp : compare d c with
          | eq => exact Std.LawfulEqOrd.eq_of_compare hcmp
          | gt => exact absurd (Ordering.then_eq_gt.mpr (.inl hcmp)) hlow
          | lt =>
            have hcd : compare c d = .gt := by rw [Std.OrientedOrd.eq_swap, hcmp]; rfl
            rw [hcd] at hhigh
            cases hhigh
        subst hdc
        rw [Std.ReflOrd.compare_self] at hlow hhigh
        exact ⟨rfl, hlow, hhigh⟩
      · rintro ⟨rfl, hlow, hhigh⟩
        rw [Std.ReflOrd.compare_self]
        exact ⟨hlow, hhigh⟩

end List
