import Mathlib.Init

/-!
# Computations that keep what they did before they failed

A computation in `EStateM` that fails has a state too: that of the moment it failed. The two
rules here execute one step by step.
-/

namespace EStateM

variable {ε σ α β : Type} {x : EStateM ε σ α} {g : α → EStateM ε σ β} {s s' : σ}

theorem bind_of_ok {a : α} (h : x s = .ok a s') : (x >>= g) s = g a s' := by
  show EStateM.bind x g s = _
  rw [EStateM.bind, h]

theorem bind_of_error {e : ε} (h : x s = .error e s') : (x >>= g) s = .error e s' := by
  show EStateM.bind x g s = _
  rw [EStateM.bind, h]

end EStateM
