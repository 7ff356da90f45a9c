import Mathlib

/-!
# Pipes that may lose items

Items are handed in at one end and come out at the other one. An item may be refused at the
entrance, lost on the way, or lost at the exit, and each loss is counted.

Whatever a pipe does, what is out and what is inside stand in the order in which they were handed
in, and what is missing is what was counted (`Pipe.Accounted.step`). So a pipe that counts no loss
has lost nothing (`Pipe.Accounted.eq_of_lossless`).
-/

structure Pipe (α : Type) where
  handed : List α
  out : List α
  /-- What is on its way, the oldest first. -/
  inside : List α
  losses : Nat

namespace Pipe

variable {α : Type}

/-- A move of a pipe. -/
inductive Step (p : Pipe α) : Pipe α → Prop
  | refl : Step p p
  | enter (x : α) : Step p { p with handed := p.handed ++ [x], inside := p.inside ++ [x] }
  | refuse (x : α) : Step p { p with handed := p.handed ++ [x], losses := p.losses + 1 }
  | lose {front back : List α} {x : α} (h : p.inside = front ++ x :: back) :
      Step p { p with inside := front ++ back, losses := p.losses + 1 }
  /-- The oldest items come out, or are lost at the exit. -/
  | emit {front back kept : List α} (h : p.inside = front ++ back) (hkept : kept.Sublist front) :
      Step p { p with
        out := p.out ++ kept, inside := back,
        losses := p.losses + (front.length - kept.length) }

/-- What is out or inside is in order, and what is missing is counted. -/
structure Accounted (p : Pipe α) : Prop where
  order : (p.out ++ p.inside).Sublist p.handed
  count : p.handed.length = (p.out ++ p.inside).length + p.losses

theorem accounted_empty : Accounted (⟨[], [], [], 0⟩ : Pipe α) :=
  ⟨List.nil_sublist _, rfl⟩

variable {p p' : Pipe α}

theorem Accounted.step (h : p.Accounted) (hstep : Step p p') : p'.Accounted := by
  obtain ⟨horder, hcount⟩ := h
  rw [List.length_append] at hcount
  cases hstep with
  | refl => exact ⟨horder, by rw [List.length_append, hcount]⟩
  | enter x =>
    constructor
    · rw [← List.append_assoc]
      exact horder.append (List.Sublist.refl [x])
    · simp only [List.length_append, List.length_singleton]
      omega
  | refuse x =>
    constructor
    · exact horder.trans (List.sublist_append_left _ _)
    · simp only [List.length_append, List.length_singleton]
      omega
  | @lose front back x hinside =>
    have hsub : (front ++ back).Sublist p.inside := by
      rw [hinside]
      exact (List.sublist_cons_self x back).append_left front
    constructor
    · exact (hsub.append_left p.out).trans horder
    · rw [hinside, List.length_append, List.length_cons] at hcount
      simp only [List.length_append]
      omega
  | @emit front back kept hinside hkept =>
    have hsub : (p.out ++ kept ++ back).Sublist (p.out ++ p.inside) := by
      rw [hinside, List.append_assoc]
      exact (hkept.append_right back).append_left p.out
    have hle := hkept.length_le
    constructor
    · exact hsub.trans horder
    · rw [hinside, List.length_append] at hcount
      simp only [List.length_append]
      omega

/-- A pipe that has counted no loss has everything. -/
theorem Accounted.eq_of_lossless (h : p.Accounted) (hlosses : p.losses = 0) :
    p.out ++ p.inside = p.handed := by
  refine h.order.eq_of_length ?_
  have hcount := h.count
  omega

end Pipe
