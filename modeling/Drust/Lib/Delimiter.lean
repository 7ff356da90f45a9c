import Mathlib.Data.List.Basic

/-!
# Fields joined by a delimiter

A field that cannot hold the delimiter is cut off a joined text at either end. What is left
between two such fields may hold anything.
-/

namespace Delimiter

variable {α : Type*} {sep : α} {xs ys zs ws : List α}

/-- The field before the first delimiter. -/
theorem cut_first (hxs : sep ∉ xs) (hys : sep ∉ ys) (h : xs ++ sep :: zs = ys ++ sep :: ws) :
    xs = ys ∧ zs = ws := by
  induction xs generalizing ys with
  | nil =>
    cases ys with
    | nil => exact ⟨rfl, (List.cons.inj h).2⟩
    | cons y ys => exact absurd ((List.cons.inj h).1 ▸ List.mem_cons_self) hys
  | cons x xs ih =>
    cases ys with
    | nil => exact absurd ((List.cons.inj h).1 ▸ List.mem_cons_self) hxs
    | cons y ys =>
      obtain ⟨rfl, htail⟩ := List.cons.inj h
      obtain ⟨rfl, hrest⟩ :=
        ih (fun hx => hxs (List.mem_cons_of_mem _ hx)) (fun hy => hys (List.mem_cons_of_mem _ hy)) htail
      exact ⟨rfl, hrest⟩

/-- The field after the last delimiter. -/
theorem cut_last (hzs : sep ∉ zs) (hws : sep ∉ ws) (h : xs ++ sep :: zs = ys ++ sep :: ws) :
    xs = ys ∧ zs = ws := by
  have hrev := congrArg List.reverse h
  simp only [List.reverse_append, List.reverse_cons, List.append_assoc, List.singleton_append] at hrev
  obtain ⟨hzs', hxs'⟩ := cut_first (by simpa using hzs) (by simpa using hws) hrev
  exact ⟨List.reverse_injective hxs', List.reverse_injective hzs'⟩

end Delimiter
