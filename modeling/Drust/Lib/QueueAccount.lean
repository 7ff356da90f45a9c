import Mathlib

/-!
# The account of a bounded queue

A queue with a counter that is incremented before the cap is tested. A caller that finds the
counter at the cap takes its increment back, one that is admitted sends its job later, and the
counter is decremented when the job is finished. So the counter may be above the cap for a while,
and a decrement may be of any kind that is right above zero.

`Account` is what such a queue stands for: what the counter counts, and the jobs in their order.
The moves of the callers and of the one worker keep it balanced (`Balanced.step`): the counter is
what it counts, no more jobs than the cap are admitted, and what was started is what was sent, in
order.
-/

@[ext] structure Account (α : Type) where
  counter : Nat
  /-- The callers that are admitted and have not sent yet. -/
  sending : Nat
  /-- The callers that take their increment back. -/
  undoing : Nat
  /-- What was sent and is not finished, the oldest first. -/
  pending : List α
  /-- The oldest of them has been started. -/
  begun : Bool
  entered : List α
  started : List α

namespace Account

variable {α : Type}

/-- A move of an account. -/
inductive Step (cap : Nat) (a : Account α) : Account α → Prop
  | refl : Step cap a a
  | grant (h : a.counter < cap) :
      Step cap a { a with counter := a.counter + 1, sending := a.sending + 1 }
  | refuse (h : cap ≤ a.counter) :
      Step cap a { a with counter := a.counter + 1, undoing := a.undoing + 1 }
  | undo {n : Nat} (dec : Nat → Nat) (hdec : ∀ n, dec (n + 1) = n) (h : a.undoing = n + 1) :
      Step cap a { a with counter := dec a.counter, undoing := n }
  | lose {n : Nat} (h : a.sending = n + 1) :
      Step cap a { a with sending := n, undoing := a.undoing + 1 }
  | enter {n : Nat} (h : a.sending = n + 1) (job : α) :
      Step cap a
        { a with sending := n, pending := a.pending ++ [job], entered := a.entered ++ [job] }
  | start {job : α} {rest : List α} (h : a.pending = job :: rest) (hbegun : a.begun = false) :
      Step cap a { a with begun := true, started := a.started ++ [job] }
  | finish {job : α} {rest : List α} (h : a.pending = job :: rest) (hbegun : a.begun = true) :
      Step cap a { a with counter := a.counter - 1, pending := rest, begun := false }

/-- Admitted and not finished. -/
def admitted (a : Account α) : Nat :=
  a.sending + a.pending.length

/-- The oldest job, if it has been started. -/
def running (a : Account α) : List α :=
  if a.begun then a.pending.take 1 else []

/-- The counter is right, the cap is kept, and what was sent is done or pending. -/
structure Balanced (cap : Nat) (a : Account α) : Prop where
  counter : a.counter = a.admitted + a.undoing
  admitted : a.admitted ≤ cap
  busy : a.begun = true → a.pending ≠ []
  order : ∃ done, a.entered = done ++ a.pending ∧ a.started = done ++ a.running

variable {cap : Nat} {a a' : Account α}

theorem Balanced.step (h : a.Balanced cap) (hstep : Step cap a a') : a'.Balanced cap := by
  have hcounter := h.counter
  have hadmitted := h.admitted
  obtain ⟨done, hentered, hstarted⟩ := h.order
  unfold Account.admitted at hcounter hadmitted
  unfold running at hstarted
  cases hstep with
  | refl => exact h
  | grant hlt =>
    refine ⟨?_, ?_, h.busy, h.order⟩ <;> simp only [Account.admitted] <;> omega
  | refuse hle =>
    refine ⟨?_, h.admitted, h.busy, h.order⟩
    simp only [Account.admitted]
    omega
  | undo dec hdec hundoing =>
    refine ⟨?_, h.admitted, h.busy, h.order⟩
    -- the caller that takes its increment back is counted, so the counter is not at zero
    obtain ⟨n, hn⟩ : ∃ n, a.counter = n + 1 := ⟨a.counter - 1, by omega⟩
    simp only [Account.admitted, hn, hdec]
    omega
  | lose hsending =>
    refine ⟨?_, ?_, h.busy, h.order⟩ <;> simp only [Account.admitted] <;> omega
  | enter hsending job =>
    refine ⟨?_, ?_, fun _ => by simp, done, ?_, ?_⟩
    · simp only [Account.admitted, List.length_append, List.length_singleton]
      omega
    · simp only [Account.admitted, List.length_append, List.length_singleton]
      omega
    · simp only [hentered, List.append_assoc]
    · -- what is begun stays at the head
      simp only [hstarted, running]
      congr 1
      split
      · next hbegun => rw [List.take_append_of_le_length (List.length_pos_iff.mpr (h.busy hbegun))]
      · rfl
  | start hpending hbegun =>
    refine ⟨h.counter, h.admitted, fun _ => by simp [hpending], done, hentered, ?_⟩
    simp [hstarted, hbegun, running, hpending]
  | @finish job rest hpending hbegun =>
    refine ⟨?_, ?_, fun hfalse => absurd hfalse Bool.false_ne_true, done ++ [job], ?_, ?_⟩
    · simp only [hpending, List.length_cons] at hcounter
      simp only [Account.admitted]
      omega
    · simp only [hpending, List.length_cons] at hadmitted
      simp only [Account.admitted]
      omega
    · simp [hentered, hpending]
    · simp [hstarted, hbegun, running, hpending]

/-- A job that is started is counted, until it is finished. -/
theorem Balanced.counter_pos (h : a.Balanced cap) (hbegun : a.begun = true) : 0 < a.counter := by
  have hpending : 0 < a.pending.length := List.length_pos_iff.mpr (h.busy hbegun)
  have hcounter := h.counter
  unfold Account.admitted at hcounter
  omega

/-- What was started was sent before, in the same order. -/
theorem Balanced.started_initial (h : a.Balanced cap) : a.started <+: a.entered := by
  obtain ⟨done, hentered, hstarted⟩ := h.order
  rw [hentered, hstarted, List.prefix_append_right_inj]
  unfold running
  split
  · exact List.take_prefix ..
  · exact List.nil_prefix

end Account
