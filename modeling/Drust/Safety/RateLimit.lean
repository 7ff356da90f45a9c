import Drust.Lib.KeyMap
import Drust.Lib.SlidingWindow
import Drust.Lib.Transition

/-!
# The rate limiter of the bearers

A key has a queue of the times at which it was let through, and a call first takes out of it what
the window has left behind. A sweep drops the queues that a call would find empty, and when there
are still more queues than the cap, some of the others. The times are those of a clock that starts
with the process.

As long as no sweep drops the queue of a key for the cap, the answers to the key are those of a log of
everything that was let through (`answers_match_log`): a call is let through exactly when fewer than
the budget are in the window, and the wait that the others are told is the least one after which there
is room. No window ever has more than the budget (`window_budget`). A budget of zero is not refused
when it is configured, and the first call panics then (`panics_iff`).
-/

namespace Drust

namespace RateLimit

open SlidingWindow

structure RateLimiter where
  budget : Nat
  window : Nat
  mapCap : Nat
  deriving DecidableEq, Repr

abbrev Buckets := KeyMap String (List Nat)

def bucket (b : Buckets) (key : String) : List Nat :=
  (b.get key).getD []

/-- The queue of a key without the times that the window has left behind. -/
def popExpired (rl : RateLimiter) (now : Nat) (q : List Nat) : List Nat :=
  q.dropWhile fun t => rl.window ≤ now - t

/-- What a call with this queue is told: that it may go on, or how long to wait. There is no answer
when the thread panics. -/
def verdict (rl : RateLimiter) (now : Nat) (q : List Nat) : Option (Except Nat Unit) :=
  if rl.budget ≤ q.length then
    match q with
    | [] => none
    | oldest :: _ => some (.error (rl.window - (now - oldest)))
  else some (.ok ())

def tryAcquire (rl : RateLimiter) (b : Buckets) (key : String) (now : Nat) :
    Option (Except Nat Unit) × Buckets :=
  let q := popExpired rl now (bucket b key)
  match verdict rl now q with
  | some (.ok ()) => (some (.ok ()), b.set key (q ++ [now]))
  | answer => (answer, b.set key q)

/-- The queues whose newest time is in the window. -/
def retainLive (rl : RateLimiter) (b : Buckets) (now : Nat) : Buckets :=
  b.retain fun _ q =>
    match q.getLast? with
    | some t => decide (now - t < rl.window)
    | none => false

/-- The keys that are dropped for the cap are any so many of those that are left. -/
def IsOver (rl : RateLimiter) (b : Buckets) (dropped : List String) : Prop :=
  dropped.Nodup ∧ dropped ⊆ b.keys ∧ dropped.length = b.size - rl.mapCap

instance (rl : RateLimiter) (b : Buckets) (dropped : List String) :
    Decidable (IsOver rl b dropped) :=
  inferInstanceAs (Decidable (_ ∧ _ ∧ _))

def cleanupOnce (rl : RateLimiter) (b : Buckets) (now : Nat) (dropped : List String) : Buckets :=
  (retainLive rl b now).retain fun key _ => key ∉ dropped

/-! ### Runs -/

structure State where
  buckets : Buckets := .empty
  /-- The times at which the calls of a key were let through. -/
  log : String → List Nat := fun _ => []
  /-- The latest reading of the clock for a key. -/
  seen : String → Nat := fun _ => 0

inductive Label where
  | acquire (key : String) (now : Nat)
  | cleanup (now : Nat) (dropped : List String)
  deriving DecidableEq

/-- What a call is told in a state. -/
def answer (rl : RateLimiter) (s : State) (key : String) (now : Nat) : Option (Except Nat Unit) :=
  (tryAcquire rl s.buckets key now).1

def step (rl : RateLimiter) (s : State) : Label → Option State
  | .acquire key now =>
    let out := tryAcquire rl s.buckets key now
    some { buckets := out.2
           log := Function.update s.log key
             (if out.1 = some (.ok ()) then s.log key ++ [now] else s.log key)
           seen := Function.update s.seen key now }
  | .cleanup now dropped =>
    if IsOver rl (retainLive rl s.buckets now) dropped then
      some { s with
        buckets := cleanupOnce rl s.buckets now dropped
        seen := fun key => max (s.seen key) now }
    else none

/-- The readings for the key do not go back, and no sweep drops it for the cap. -/
def Keeps (key : String) (s : State) : Label → Prop
  | .acquire key' now => key' = key → s.seen key ≤ now
  | .cleanup _ dropped => key ∉ dropped

instance (key : String) (s : State) (l : Label) : Decidable (Keeps key s l) := by
  unfold Keeps
  split <;> infer_instance

/-! ### The queue and the log -/

/-- The queue of a key is the end of its log, and the rest has left the window. -/
structure Logged (rl : RateLimiter) (key : String) (s : State) : Prop where
  admitted : Admitted rl.window rl.budget (s.log key)
  past : ∀ t ∈ s.log key, t ≤ s.seen key
  queue : ∃ gone, s.log key = gone ++ bucket s.buckets key ∧
    ∀ t ∈ gone, t + rl.window ≤ s.seen key

variable {rl : RateLimiter} {key : String} {s s' : State} {now : Nat}

/-- What a call finds in its queue is what the log has in the window. -/
theorem Logged.popExpired (h : Logged rl key s) (hnow : s.seen key ≤ now) :
    popExpired rl now (bucket s.buckets key) = live rl.window now (s.log key) := by
  obtain ⟨gone, hlog, hgone⟩ := h.queue
  have hsorted := h.admitted.sorted
  have hpast := h.past
  have hnone : gone.filter (fun t => decide (now < t + rl.window)) = [] := by
    rw [List.filter_eq_nil_iff]
    intro t ht
    have := hgone t ht
    simp only [decide_eq_true_eq]
    omega
  rw [hlog] at hsorted hpast
  rw [hlog, live, List.filter_append, hnone, List.nil_append]
  refine dropWhile_eq_live (List.pairwise_append.mp hsorted).2.1 ?_
  exact fun t ht => (hpast t (List.mem_append_right _ ht)).trans hnow

theorem verdict_ok_iff {q : List Nat} : verdict rl now q = some (.ok ()) ↔ q.length < rl.budget := by
  unfold verdict
  split
  · next hle =>
    split
    · exact iff_of_false (by simp) (Nat.not_lt.mpr hle)
    · exact iff_of_false (by simp) (Nat.not_lt.mpr hle)
  · next hlt => exact iff_of_true rfl (Nat.lt_of_not_le hlt)

theorem fst_tryAcquire (b : Buckets) :
    (tryAcquire rl b key now).1 = verdict rl now (popExpired rl now (bucket b key)) := by
  unfold tryAcquire
  dsimp only
  split
  · next h => exact h.symm
  · rfl

theorem bucket_tryAcquire (rl : RateLimiter) (b : Buckets) (key : String) (now : Nat) :
    bucket (tryAcquire rl b key now).2 key =
      if (tryAcquire rl b key now).1 = some (.ok ()) then
        popExpired rl now (bucket b key) ++ [now]
      else popExpired rl now (bucket b key) := by
  rw [fst_tryAcquire]
  unfold tryAcquire bucket
  dsimp only
  split
  · next h => rw [if_pos h, KeyMap.get_set_self, Option.getD_some]
  · next h => rw [if_neg h, KeyMap.get_set_self, Option.getD_some]

theorem bucket_tryAcquire_of_ne {key' : String} (b : Buckets) (hne : key ≠ key') :
    bucket (tryAcquire rl b key' now).2 key = bucket b key := by
  unfold tryAcquire bucket
  dsimp only
  split <;> rw [KeyMap.get_set_of_ne hne]

theorem Logged.acquire (h : Logged rl key s) (hnow : s.seen key ≤ now)
    (hstep : step rl s (.acquire key now) = some s') : Logged rl key s' := by
  cases hstep
  have hlive := h.popExpired hnow
  have hpast : ∀ t ∈ s.log key, t ≤ now := fun t ht => (h.past t ht).trans hnow
  obtain ⟨gone, hlog, hgone⟩ := h.queue
  -- what the call takes out of the queue has left the window
  have hsplit : ∃ gone', s.log key = gone' ++ RateLimit.popExpired rl now (bucket s.buckets key) ∧
      ∀ t ∈ gone', t + rl.window ≤ now := by
    refine ⟨gone ++ (bucket s.buckets key).takeWhile fun t => rl.window ≤ now - t, ?_, ?_⟩
    · rw [List.append_assoc, RateLimit.popExpired, List.takeWhile_append_dropWhile]
      exact hlog
    · intro t ht
      obtain ht | ht := List.mem_append.mp ht
      · exact (hgone t ht).trans hnow
      · have hout : rl.window ≤ now - t := by simpa using List.mem_takeWhile_imp ht
        have hle := hpast t (hlog ▸ List.mem_append_right _ ((List.takeWhile_sublist _).mem ht))
        omega
  obtain ⟨gone', hlog', hgone'⟩ := hsplit
  have hbucket := bucket_tryAcquire rl s.buckets key now
  by_cases hok : (tryAcquire rl s.buckets key now).1 = some (.ok ())
  · rw [if_pos hok] at hbucket
    have hroom : (live rl.window now (s.log key)).length < rl.budget := by
      rw [fst_tryAcquire, verdict_ok_iff, hlive] at hok
      exact hok
    refine ⟨?_, ?_, gone', ?_, ?_⟩
    · simp only [Function.update_self, if_pos hok]
      exact h.admitted.snoc hpast hroom
    · simp only [Function.update_self, if_pos hok]
      intro t ht
      obtain ht | ht := List.mem_append.mp ht
      · exact hpast t ht
      · exact (List.mem_singleton.mp ht).le
    · simp only [Function.update_self, if_pos hok]
      rw [hbucket, ← List.append_assoc, ← hlog']
    · simpa only [Function.update_self] using hgone'
  · rw [if_neg hok] at hbucket
    refine ⟨?_, ?_, gone', ?_, ?_⟩
    · simpa only [Function.update_self, if_neg hok] using h.admitted
    · simpa only [Function.update_self, if_neg hok] using hpast
    · simp only [Function.update_self, if_neg hok]
      rw [hbucket, ← hlog']
    · simpa only [Function.update_self] using hgone'

theorem Logged.acquire_of_ne {key' : String} (h : Logged rl key s) (hne : key ≠ key')
    (hstep : step rl s (.acquire key' now) = some s') : Logged rl key s' := by
  cases hstep
  refine ⟨?_, ?_, ?_⟩
  · simpa only [Function.update_of_ne hne] using h.admitted
  · simpa only [Function.update_of_ne hne] using h.past
  · simpa only [Function.update_of_ne hne, bucket_tryAcquire_of_ne s.buckets hne] using h.queue

/-- A queue that a sweep does not drop for the cap is kept, or has left the window. -/
theorem bucket_cleanupOnce (rl : RateLimiter) (now : Nat) {b : Buckets} {dropped : List String}
    (hkept : key ∉ dropped)
    (hsorted : (bucket b key).Pairwise (· ≤ ·)) :
    bucket (cleanupOnce rl b now dropped) key = bucket b key ∨
      bucket (cleanupOnce rl b now dropped) key = [] ∧
        ∀ t ∈ bucket b key, rl.window ≤ now - t := by
  unfold bucket cleanupOnce retainLive at *
  rw [KeyMap.get_retain, KeyMap.get_retain]
  cases hget : b.get key with
  | none => exact Or.inl rfl
  | some q =>
    rw [hget, Option.getD_some] at hsorted
    cases hlast : q.getLast? with
    | none =>
      rw [List.getLast?_eq_none_iff.mp hlast]
      exact Or.inl (by simp [Option.filter])
    | some newest =>
      by_cases hlive : now - newest < rl.window
      · exact Or.inl (by simp [Option.filter, hlast, hlive, hkept])
      · refine Or.inr ⟨by simp [Option.filter, hlast, hlive], ?_⟩
        intro t ht
        obtain ⟨init, rfl⟩ := List.getLast?_eq_some_iff.mp hlast
        have hle : t ≤ newest := by
          obtain ht | ht := List.mem_append.mp ht
          · exact (List.pairwise_append.mp hsorted).2.2 t ht newest (List.mem_singleton_self _)
          · exact (List.mem_singleton.mp ht).le
        omega

theorem Logged.cleanup {dropped : List String} (h : Logged rl key s) (hkept : key ∉ dropped)
    (hstep : step rl s (.cleanup now dropped) = some s') : Logged rl key s' := by
  simp only [RateLimit.step] at hstep
  split at hstep
  · cases hstep
    obtain ⟨gone, hlog, hgone⟩ := h.queue
    have hpast : ∀ t ∈ s.log key, t ≤ max (s.seen key) now :=
      fun t ht => (h.past t ht).trans (Nat.le_max_left _ _)
    have hsorted := h.admitted.sorted
    rw [hlog] at hsorted
    obtain hsame | ⟨hempty, hout⟩ := bucket_cleanupOnce rl now hkept
      (List.pairwise_append.mp hsorted).2.1
    · refine ⟨h.admitted, hpast, gone, hlog.trans (congrArg (gone ++ ·) hsame.symm), ?_⟩
      exact fun t ht => (hgone t ht).trans (Nat.le_max_left _ _)
    · refine ⟨h.admitted, hpast, s.log key, ?_, ?_⟩
      · exact (List.append_nil _).symm.trans (congrArg (s.log key ++ ·) hempty.symm)
      · intro t ht
        dsimp only
        have hle := hpast t ht
        rw [hlog] at ht
        obtain ht | ht := List.mem_append.mp ht
        · exact (hgone t ht).trans (Nat.le_max_left _ _)
        · have := hout t ht
          omega
  · cases hstep

theorem Logged.step {l : Label} (h : Logged rl key s) (hkeeps : Keeps key s l)
    (hstep : step rl s l = some s') : Logged rl key s' := by
  cases l with
  | acquire key' now =>
    by_cases hkey : key' = key
    · subst hkey
      exact h.acquire (hkeeps rfl) hstep
    · exact h.acquire_of_ne (Ne.symm hkey) hstep
  | cleanup now dropped => exact h.cleanup hkeeps hstep

theorem Logged.run {ls : List Label} (hrun : Transition.run (RateLimit.step rl) {} ls = some s)
    (hkeeps : Transition.Along (RateLimit.step rl) (Keeps key) {} ls) : Logged rl key s := by
  have hstart : Logged rl key {} :=
    ⟨.nil, List.forall_mem_nil _, [], rfl, List.forall_mem_nil _⟩
  exact hkeeps.invariant (fun h hC hstep => h.step hC hstep) hstart hrun

/-! ### What a key gets -/

/-- A call is let through while the window has room, and otherwise told the least wait after which it
has. -/
theorem answers_match_log (rl : RateLimiter) (key : String) (ls : List Label) (s : State)
    (now : Nat) (hbudget : 0 < rl.budget)
    (hrun : Transition.run (step rl) {} ls = some s)
    (hkeeps : Transition.Along (step rl) (Keeps key) {} ls) (hnow : s.seen key ≤ now) :
    (answer rl s key now = some (.ok ()) ∧
        (live rl.window now (s.log key)).length < rl.budget) ∨
      ∃ d, answer rl s key now = some (.error d) ∧
        IsLeast {d | (live rl.window (now + d) (s.log key)).length < rl.budget} d ∧ 0 < d := by
  have h := Logged.run hrun hkeeps
  have hlive := h.popExpired hnow
  unfold answer
  rw [fst_tryAcquire, hlive]
  by_cases hroom : (live rl.window now (s.log key)).length < rl.budget
  · exact Or.inl ⟨verdict_ok_iff.mpr hroom, hroom⟩
  · refine Or.inr ?_
    have hpast : ∀ t ∈ s.log key, t ≤ now := fun t ht => (h.past t ht).trans hnow
    have hfull : (live rl.window now (s.log key)).length = rl.budget := by
      refine Nat.le_antisymm ?_ (Nat.le_of_not_lt hroom)
      have hwindow := h.admitted.length_le now
      have hsame : (s.log key).filter (fun x => now < x + rl.window ∧ x ≤ now) =
          live rl.window now (s.log key) := by
        refine List.filter_congr ?_
        intro t ht
        simp [hpast t ht]
      rwa [hsame] at hwindow
    cases hq : live rl.window now (s.log key) with
    | nil =>
      rw [hq] at hfull
      exact absurd hbudget (by simp [← hfull])
    | cons oldest rest =>
      have hleast := isLeast_wait h.admitted.sorted hpast hq hfull
      refine ⟨_, by rw [verdict, if_pos (by rw [← hq, hfull])], hleast, ?_⟩
      have hmem : oldest ∈ live rl.window now (s.log key) := hq ▸ List.mem_cons_self
      obtain ⟨hold, hin⟩ := List.mem_filter.mp hmem
      simp only [decide_eq_true_eq] at hin
      have := hpast oldest hold
      omega

/-- Two calls in ten seconds. -/
def twoInTen : RateLimiter where
  budget := 2
  window := 10
  mapCap := 1

/-- The third call comes too soon, and a sweep drops the queue of another key. -/
def threeCalls : List Label :=
  [.acquire "a" 0, .acquire "b" 1, .acquire "a" 3, .cleanup 4 ["b"], .acquire "a" 5]

theorem answers_match_log_third :
    ∃ s, Transition.run (step twoInTen) {} threeCalls = some s ∧
      answer twoInTen s "a" 6 = some (.error 4) ∧
      ((answer twoInTen s "a" 6 = some (.ok ()) ∧ (live 10 6 (s.log "a")).length < 2) ∨
        ∃ d, answer twoInTen s "a" 6 = some (.error d) ∧
          IsLeast {d | (live 10 (6 + d) (s.log "a")).length < 2} d ∧ 0 < d) := by
  have hsome : (Transition.run (step twoInTen) {} threeCalls).map
      (fun s => (answer twoInTen s "a" 6, s.seen "a")) = some (some (.error 4), 5) := by decide
  obtain ⟨s, hrun, heq⟩ := Option.map_eq_some_iff.mp hsome
  obtain ⟨hanswer, hseen⟩ := Prod.mk.inj heq
  exact ⟨s, hrun, hanswer, answers_match_log twoInTen "a" threeCalls s 6 (by decide) hrun
    (by decide) (by omega)⟩

/-- No window, wherever it ends, has more than the budget. -/
theorem window_budget (rl : RateLimiter) (key : String) (ls : List Label) (s : State) (t : Nat)
    (hrun : Transition.run (step rl) {} ls = some s)
    (hkeeps : Transition.Along (step rl) (Keeps key) {} ls) :
    ((s.log key).filter fun x => t < x + rl.window ∧ x ≤ t).length ≤ rl.budget :=
  (Logged.run hrun hkeeps).admitted.length_le t

theorem window_budget_third :
    ∃ s, Transition.run (step twoInTen) {} threeCalls = some s ∧ s.log "a" = [0, 3] ∧
      ((s.log "a").filter fun x => 9 < x + 10 ∧ x ≤ 9).length ≤ 2 := by
  have hsome : (Transition.run (step twoInTen) {} threeCalls).map (fun s => s.log "a") =
      some [0, 3] := by decide
  obtain ⟨s, hrun, hlog⟩ := Option.map_eq_some_iff.mp hsome
  exact ⟨s, hrun, hlog, window_budget twoInTen "a" threeCalls s 9 hrun (by decide)⟩

/-- With a budget of zero, every call panics, and with another one none does. -/
theorem panics_iff (rl : RateLimiter) (key : String) (ls : List Label) (s : State) (now : Nat)
    (hrun : Transition.run (step rl) {} ls = some s)
    (hkeeps : Transition.Along (step rl) (Keeps key) {} ls) (hnow : s.seen key ≤ now) :
    answer rl s key now = none ↔ rl.budget = 0 := by
  constructor
  · intro hnone
    by_contra hbudget
    obtain ⟨hok, -⟩ | ⟨d, herror, -⟩ :=
      answers_match_log rl key ls s now (Nat.pos_of_ne_zero hbudget) hrun hkeeps hnow
    · rw [hok] at hnone
      cases hnone
    · rw [herror] at hnone
      cases hnone
  · intro hbudget
    have h := Logged.run hrun hkeeps
    have hempty : live rl.window now (s.log key) = [] := by
      have hle := h.admitted.length_le now
      rw [hbudget] at hle
      rw [List.eq_nil_iff_length_eq_zero]
      refine Nat.le_antisymm (Nat.le_trans (Nat.le_of_eq ?_) hle) (Nat.zero_le _)
      refine congrArg List.length (List.filter_congr ?_)
      intro t ht
      simp [(h.past t ht).trans hnow]
    unfold answer
    rw [fst_tryAcquire, h.popExpired hnow, hempty, verdict, hbudget]
    rfl

end RateLimit

end Drust
