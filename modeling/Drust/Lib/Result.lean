import Mathlib

/-!
# Fallible computations

Inversion rules for computations in `Except`: what a successful bind, guard or traversal
says about its parts. A proof about fallible code peels a computation apart with these
and never unfolds the monad.
-/

/-- An element of the first of two related lists has its counterpart in the second. -/
theorem List.Forall₂.exists_of_mem {α β : Type} {R : α → β → Prop} {xs : List α} {ys : List β}
    {x : α} (h : List.Forall₂ R xs ys) (hx : x ∈ xs) : ∃ y ∈ ys, R x y := by
  induction h with
  | nil => cases hx
  | cons hhead _ ih =>
    obtain rfl | hx := List.mem_cons.mp hx
    · exact ⟨_, List.mem_cons_self, hhead⟩
    · obtain ⟨y, hy, hxy⟩ := ih hx
      exact ⟨y, List.mem_cons_of_mem _ hy, hxy⟩

namespace Except

variable {ε ε' α β : Type}

/-- A bind succeeds when both of its parts do. -/
theorem bind_eq_ok_iff {x : Except ε α} {f : α → Except ε β} {b : β} :
    (x >>= f) = .ok b ↔ ∃ a, x = .ok a ∧ f a = .ok b := by
  cases x with
  | error e =>
    constructor
    · intro h
      cases h
    · rintro ⟨a, h, -⟩
      cases h
  | ok a =>
    constructor
    · intro h
      exact ⟨a, rfl, h⟩
    · rintro ⟨a', h, hf⟩
      cases h
      exact hf

@[simp] theorem ok_bind (a : α) (f : α → Except ε β) : (Except.ok a >>= f) = f a := rfl

@[simp] theorem error_bind (e : ε) (f : α → Except ε β) : (Except.error e >>= f) = .error e := rfl

/-- Another error changes nothing about a success. -/
theorem mapError_eq_ok_iff {x : Except ε α} {f : ε → ε'} {a : α} :
    x.mapError f = .ok a ↔ x = .ok a := by
  cases x with
  | error e => exact ⟨fun h => (nomatch h), fun h => (nomatch h)⟩
  | ok b =>
    rw [Except.mapError, Except.ok.injEq, Except.ok.injEq]

theorem map_eq_ok_iff {x : Except ε α} {f : α → β} {b : β} :
    x.map f = .ok b ↔ ∃ a, x = .ok a ∧ f a = b := by
  cases x with
  | error e =>
    constructor
    · intro h
      cases h
    · rintro ⟨a, h, -⟩
      cases h
  | ok a =>
    constructor
    · intro h
      exact ⟨a, rfl, Except.ok.inj h⟩
    · rintro ⟨a', h, hf⟩
      cases h
      exact congrArg Except.ok hf

theorem toOption_eq_some_iff {x : Except ε α} {a : α} : x.toOption = some a ↔ x = .ok a := by
  cases x with
  | error e =>
    constructor
    · intro h
      cases h
    · intro h
      cases h
  | ok b =>
    constructor
    · intro h
      exact congrArg Except.ok (Option.some.inj h)
    · intro h
      exact congrArg some (Except.ok.inj h)

/-- A traversal succeeds when it does at every element. -/
theorem mapM_eq_ok_iff {f : α → Except ε β} {xs : List α} {ys : List β} :
    xs.mapM f = .ok ys ↔ List.Forall₂ (fun x y => f x = .ok y) xs ys := by
  induction xs generalizing ys with
  | nil =>
    rw [List.mapM_nil, List.forall₂_nil_left_iff]
    exact ⟨fun h => by cases h; rfl, fun h => h ▸ rfl⟩
  | cons x xs ih =>
    rw [List.mapM_cons, bind_eq_ok_iff, List.forall₂_cons_left_iff]
    constructor
    · rintro ⟨y, hy, h⟩
      obtain ⟨ys', hys, h⟩ := bind_eq_ok_iff.mp h
      cases h
      exact ⟨y, ys', hy, ih.mp hys, rfl⟩
    · rintro ⟨y, ys', hy, hys, rfl⟩
      exact ⟨y, hy, bind_eq_ok_iff.mpr ⟨ys', ih.mpr hys, rfl⟩⟩

end Except
