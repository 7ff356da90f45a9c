import Mathlib

/-!
# Logs with a budget for every window

A log of times in order, in which a time is written only while fewer than a budget of the times
before it are in the window that ends with it (`Admitted`). Then no window has more than the budget,
wherever it ends (`Admitted.length_le`). When the window that ends now is full, the wait until there
is room again is up to the time that the first of its times leaves it (`isLeast_wait`).

A counter that starts again with a new window once the old one is over (`Counted`) is cheaper and
says less: a window that ends anywhere meets two of the windows of the counter, and has up to twice
the capacity (`Counted.length_le`).
-/

namespace SlidingWindow

/-- The times in the window that ends now. -/
def live (window now : Nat) (log : List Nat) : List Nat :=
  log.filter fun t => now < t + window

/-- Every time was written while there was room for it. -/
inductive Admitted (window budget : Nat) : List Nat → Prop
  | nil : Admitted window budget []
  | snoc {log : List Nat} {now : Nat} (h : Admitted window budget log) (hle : ∀ t ∈ log, t ≤ now)
      (hroom : (live window now log).length < budget) : Admitted window budget (log ++ [now])

variable {window budget now : Nat} {log : List Nat}

theorem Admitted.sorted (h : Admitted window budget log) : log.Pairwise (· ≤ ·) := by
  induction h with
  | nil => exact List.Pairwise.nil
  | snoc _ hle _ ih => exact List.pairwise_append.mpr ⟨ih, List.pairwise_singleton _ _, by simpa⟩

/-- No window has more than the budget. -/
theorem Admitted.length_le (h : Admitted window budget log) (t : Nat) :
    (log.filter fun x => t < x + window ∧ x ≤ t).length ≤ budget := by
  induction h with
  | nil => exact Nat.zero_le _
  | @snoc log now _ hle hroom ih =>
    rw [List.filter_append, List.length_append]
    by_cases hin : t < now + window ∧ now ≤ t
    · -- what is in the window with the last time was live when that was written
      have hsub : (log.filter fun x => t < x + window ∧ x ≤ t).Sublist (live window now log) := by
        refine List.monotone_filter_right log ?_
        intro x hx
        simp only [decide_eq_true_eq] at hx ⊢
        omega
      have := hsub.length_le
      simp only [List.filter_cons, hin, List.filter_nil]
      simp only [and_self, decide_true, if_true, List.length_singleton]
      omega
    · simp only [List.filter_cons, hin, List.filter_nil]
      simpa using ih

/-- In a log that is in order, the times that have left the window are the first ones. -/
theorem dropWhile_eq_live (hsorted : log.Pairwise (· ≤ ·)) (hpast : ∀ t ∈ log, t ≤ now) :
    log.dropWhile (fun t => window ≤ now - t) = live window now log := by
  unfold live
  induction log with
  | nil => rfl
  | cons t log ih =>
    obtain ⟨hle, hsorted⟩ := List.pairwise_cons.mp hsorted
    have ht := hpast t List.mem_cons_self
    rw [List.dropWhile_cons]
    by_cases hout : window ≤ now - t
    · rw [if_pos (decide_eq_true hout), ih hsorted fun x hx => hpast x (List.mem_cons_of_mem _ hx),
        List.filter_cons_of_neg (by simp; omega)]
    · rw [if_neg (by simpa using hout)]
      refine (List.filter_eq_self.mpr ?_).symm
      intro x hx
      obtain rfl | hx := List.mem_cons.mp hx
      · simp only [decide_eq_true_eq]
        omega
      · have := hle x hx
        simp only [decide_eq_true_eq]
        omega

/-- The wait until the window has room again, after the oldest of its times. -/
theorem isLeast_wait (hsorted : log.Pairwise (· ≤ ·)) (hpast : ∀ t ∈ log, t ≤ now)
    {oldest : Nat} {rest : List Nat} (hlive : live window now log = oldest :: rest)
    (hfull : (live window now log).length = budget) :
    IsLeast {d | (live window (now + d) log).length < budget} (window - (now - oldest)) := by
  have hmem : oldest ∈ live window now log := by
    rw [hlive]
    exact List.mem_cons_self
  obtain ⟨holdest, hin⟩ := List.mem_filter.mp hmem
  have hin : now < oldest + window := by simpa using hin
  have hle := hpast oldest holdest
  have hfilter : ∀ d, live window (now + d) log =
      (live window now log).filter fun t => now + d < t + window := by
    intro d
    unfold live
    rw [List.filter_filter]
    refine List.filter_congr ?_
    intro t _
    by_cases h : now + d < t + window
    · simp [h, show now < t + window by omega]
    · simp [h]
  constructor
  · -- the oldest time has left the window by then
    change (live window _ log).length < budget
    rw [hfilter, hlive, List.filter_cons_of_neg (by simp; omega), ← hfull, hlive]
    exact Nat.lt_succ_of_le (List.length_filter_le _ _)
  · intro d hd
    by_contra hlt
    have hd : (live window (now + d) log).length < budget := hd
    -- before that, all of them are still there
    have hall : (live window now log).filter (fun t => now + d < t + window) =
        live window now log := by
      refine List.filter_eq_self.mpr ?_
      intro t ht
      have hle' : oldest ≤ t := by
        have hs : (live window now log).Pairwise (· ≤ ·) := hsorted.filter _
        rw [hlive] at hs ht
        obtain rfl | ht := List.mem_cons.mp ht
        · exact Nat.le_refl _
        · exact (List.pairwise_cons.mp hs).1 t ht
      simp only [decide_eq_true_eq]
      omega
    rw [hfilter, hall, hfull] at hd
    exact Nat.lt_irrefl _ hd

/-! ### Windows with a fixed start -/

/-- A log, the start of the window of the counter, and the counter. -/
inductive Counted (window capacity : Nat) : List Nat → Nat → Nat → Prop
  | open (start : Nat) : Counted window capacity [] start 0
  | add {log : List Nat} {start count now : Nat} (h : Counted window capacity log start count)
      (hstart : start ≤ now) (hin : now < start + window) (hroom : count < capacity) :
      Counted window capacity (log ++ [now]) start (count + 1)
  | roll {log : List Nat} {start count now : Nat} (h : Counted window capacity log start count)
      (hover : start + window ≤ now) : Counted window capacity log now 0

variable {capacity start count : Nat}

theorem Counted.count_le (h : Counted window capacity log start count) : count ≤ capacity := by
  cases h with
  | «open» start => exact Nat.zero_le _
  | add _ _ _ hroom => exact hroom
  | roll _ _ => exact Nat.zero_le _

theorem Counted.lt (h : Counted window capacity log start count) :
    ∀ t ∈ log, t < start + window := by
  induction h with
  | «open» start => exact List.forall_mem_nil _
  | add _ _ hin _ ih =>
    intro t ht
    obtain ht | ht := List.mem_append.mp ht
    · exact ih t ht
    · exact List.mem_singleton.mp ht ▸ hin
  | roll _ hover ih =>
    intro t ht
    have := ih t ht
    omega

/-- The counter counts the times since the start of its window. -/
theorem Counted.count_eq (h : Counted window capacity log start count) :
    log.countP (fun x => start ≤ x) = count := by
  induction h with
  | «open» start => rfl
  | add _ hstart _ _ ih => rw [List.countP_append, ih, List.countP_singleton, if_pos (by simpa)]
  | roll h hover _ =>
    rw [List.countP_eq_zero]
    intro x hx
    have := h.lt x hx
    simp only [decide_eq_true_eq]
    omega

/-- Of the times before the start, a window that ends later has those of one window of the
counter. -/
theorem Counted.before_le (h : Counted window capacity log start count) {t : Nat} (ht : start ≤ t) :
    log.countP (fun x => x < start ∧ t < x + window) ≤ capacity := by
  induction h generalizing t with
  | «open» start => exact Nat.zero_le _
  | add h hstart _ _ ih =>
    rw [List.countP_append, List.countP_singleton, if_neg (by simp; omega), Nat.add_zero]
    exact ih ht
  | roll h hover _ =>
    refine (List.countP_mono_left ?_).trans (h.count_eq.le.trans h.count_le)
    intro x _ hx
    simp only [decide_eq_true_eq] at hx ⊢
    omega

theorem countP_le_add {α : Type} {p q r : α → Bool} (h : ∀ x, p x = true → q x = true ∨ r x = true)
    (xs : List α) : xs.countP p ≤ xs.countP q + xs.countP r := by
  induction xs with
  | nil => exact Nat.zero_le _
  | cons x xs ih =>
    rw [List.countP_cons, List.countP_cons, List.countP_cons]
    by_cases hp : p x = true
    · obtain hq | hr := h x hp
      · rw [if_pos hp, if_pos hq]
        omega
      · rw [if_pos hp, if_pos hr]
        omega
    · rw [if_neg hp]
      omega

/-- Every window meets at most two windows of the counter. -/
theorem Counted.length_le (h : Counted window capacity log start count) (t : Nat) :
    log.countP (fun x => t < x + window ∧ x ≤ t) ≤ 2 * capacity := by
  induction h generalizing t with
  | «open» start => exact Nat.zero_le _
  | @add log start count now h hstart hin hroom ih =>
    rw [List.countP_append, List.countP_singleton]
    by_cases hwindow : t < now + window ∧ now ≤ t
    · rw [if_pos (decide_eq_true hwindow)]
      have hbefore := h.before_le (t := t) (by omega)
      have hcount := h.count_eq
      have hsplit : log.countP (fun x => t < x + window ∧ x ≤ t) ≤
          log.countP (fun x => x < start ∧ t < x + window) + log.countP (fun x => start ≤ x) := by
        refine countP_le_add ?_ log
        intro x hx
        simp only [decide_eq_true_eq] at hx ⊢
        omega
      omega
    · rw [if_neg (by simpa using hwindow)]
      exact ih t
  | roll h hover ih => exact ih t

end SlidingWindow
