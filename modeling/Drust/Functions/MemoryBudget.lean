import Drust.Lib.Transition
import Mathlib

/-!
# The memory budget of an invocation

All linear memories of a store share one budget. Before a memory grows, wasmtime asks the
limiter with its present size and the wanted one; the limiter keeps a running total and refuses
what would take it above the cap. What it permits may still fail: the memory's declared maximum
is checked later, and the host may have no pages. The limiter is not told, so its total is then
larger than the memories are together. The difference is `lost`.

Sizes are numbers below `2 ^ 64`, and the limiter's sums and differences saturate.
-/

namespace Drust

namespace MemoryBudget

open Transition

def usizeMax : Nat := 2 ^ 64 - 1

/-- Differences of numbers stop at zero by themselves. -/
def saturatingAdd (x y : Nat) : Nat :=
  min (x + y) usizeMax

/-! ### The limiter -/

structure MemLimiter where
  cap : Nat
  granted : Nat
  tablesGranted : Nat
  oomHit : Bool
  deriving DecidableEq, Repr

def MemLimiter.new (cap : Nat) : MemLimiter where
  cap := cap
  granted := 0
  tablesGranted := 0
  oomHit := false

def memoryGrowing (l : MemLimiter) (current desired : Nat) : Bool × MemLimiter :=
  let newTotal := saturatingAdd (l.granted - current) desired
  if l.cap < newTotal then (false, { l with oomHit := true })
  else (true, { l with granted := newTotal })

def tableGrowing (l : MemLimiter) (current desired : Nat) : Bool × MemLimiter :=
  let newTotal := saturatingAdd (l.tablesGranted - current) desired
  if 1000000 < newTotal then (false, l) else (true, { l with tablesGranted := newTotal })

inductive TrapStatus where
  | oom
  | timeout
  | trap
  deriving DecidableEq, Repr

/-- What a trap is reported as. -/
def trapStatus (l : MemLimiter) (interrupted : Bool) : TrapStatus :=
  if l.oomHit then .oom else if interrupted then .timeout else .trap

/-! ### The store -/

structure State where
  limiter : MemLimiter
  /-- The sizes of the memories. -/
  memories : List Nat
  deriving DecidableEq, Repr

def init (cap : Nat) : State where
  limiter := .new cap
  memories := []

inductive Label where
  /-- A new memory, which is empty when the limiter is asked. It is there unless it fails. -/
  | create (desired : Nat) (taken : Bool)
  | grow (i desired : Nat) (taken : Bool)
  | growTable (current desired : Nat)
  deriving DecidableEq, Repr

def step (s : State) : Label → Option State
  | .create desired taken =>
    let answer := memoryGrowing s.limiter 0 desired
    some { limiter := answer.2,
           memories := if answer.1 && taken then s.memories ++ [desired] else s.memories }
  | .grow i desired taken =>
    match s.memories[i]? with
    | some current =>
      -- a memory does not shrink
      if current ≤ desired then
        let answer := memoryGrowing s.limiter current desired
        some { limiter := answer.2,
               memories := if answer.1 && taken then s.memories.set i desired else s.memories }
      else none
    | none => none
  | .growTable current desired =>
    some { s with limiter := (tableGrowing s.limiter current desired).2 }

/-- The present size of the memory that asks, the size that it wants, and whether it would get
it. -/
def request (s : State) : Label → Option (Nat × Nat × Bool)
  | .create desired taken => some (0, desired, taken)
  | .grow i desired taken => s.memories[i]?.map (fun current => (current, desired, taken))
  | .growTable _ _ => none

/-- The sizes together. -/
def State.total (s : State) : Nat :=
  s.memories.sum

/-- What was permitted and is in no memory. -/
def State.lost (s : State) : Nat :=
  s.limiter.granted - s.total

/-! ### A step as a request -/

theorem sum_set (sizes : List Nat) (i desired : Nat) {current : Nat}
    (h : sizes[i]? = some current) :
    current ≤ sizes.sum ∧ (sizes.set i desired).sum = sizes.sum - current + desired := by
  induction sizes generalizing i with
  | nil => cases h
  | cons size sizes ih =>
    cases i with
    | zero =>
      obtain rfl := Option.some.inj h
      simp only [List.set_cons_zero, List.sum_cons]
      omega
    | succ i =>
      obtain ⟨hle, hsum⟩ := ih i h
      simp only [List.set_cons_succ, List.sum_cons, hsum]
      omega

theorem memoryGrowing_eq (l : MemLimiter) (current desired : Nat) :
    memoryGrowing l current desired =
      if l.cap < min (l.granted - current + desired) usizeMax then
        (false, { l with oomHit := true })
      else (true, { l with granted := min (l.granted - current + desired) usizeMax }) :=
  rfl

/-- What a request does to the limiter and to the sizes together: it is refused or permitted. -/
inductive Answer (s : State) (current desired : Nat) (taken : Bool) (s' : State) : Prop
  | refused (h : s.limiter.cap < min (s.limiter.granted - current + desired) usizeMax)
      (hanswer : (memoryGrowing s.limiter current desired).1 = false)
      (hlimiter : s'.limiter = { s.limiter with oomHit := true }) (htotal : s'.total = s.total)
  | permitted (h : min (s.limiter.granted - current + desired) usizeMax ≤ s.limiter.cap)
      (hanswer : (memoryGrowing s.limiter current desired).1 = true)
      (hlimiter : s'.limiter = { s.limiter with
        granted := min (s.limiter.granted - current + desired) usizeMax })
      (htotal : s'.total = if taken then s.total - current + desired else s.total)

theorem Answer.of_eq {s s' : State} {current desired : Nat} {taken : Bool} {sizes : List Nat}
    (hsizes : sizes.sum = s.total - current + desired)
    (h : s' = { limiter := (memoryGrowing s.limiter current desired).2,
                memories := if (memoryGrowing s.limiter current desired).1 && taken then sizes
                  else s.memories }) : Answer s current desired taken s' := by
  by_cases hover : s.limiter.cap < min (s.limiter.granted - current + desired) usizeMax
  · have hgrowing := memoryGrowing_eq s.limiter current desired
    rw [if_pos hover] at hgrowing
    rw [hgrowing] at h
    exact .refused hover (by rw [hgrowing]) (by rw [h]) (by rw [h]; rfl)
  · have hgrowing := memoryGrowing_eq s.limiter current desired
    rw [if_neg hover] at hgrowing
    rw [hgrowing, Bool.true_and] at h
    refine .permitted (Nat.le_of_not_lt hover) (by rw [hgrowing]) (by rw [h]) ?_
    rw [h, State.total]
    split
    · exact hsizes
    · rfl

theorem step_request {s s' : State} {l : Label} (h : step s l = some s') {current desired : Nat}
    {taken : Bool} (hl : request s l = some (current, desired, taken)) :
    current ≤ s.total ∧ current ≤ desired ∧ Answer s current desired taken s' := by
  cases l with
  | create desired' taken' =>
    obtain ⟨rfl, rfl, rfl⟩ : 0 = current ∧ desired' = desired ∧ taken' = taken := by
      simpa [request] using hl
    refine ⟨Nat.zero_le _, Nat.zero_le _, .of_eq ?_ (Option.some.inj h).symm⟩
    rw [List.sum_append, List.sum_singleton]
    rfl
  | grow i desired' taken' =>
    obtain ⟨size, hsize, heq⟩ := Option.map_eq_some_iff.mp hl
    obtain ⟨rfl, rfl, rfl⟩ : size = current ∧ desired' = desired ∧ taken' = taken := by
      simpa using heq
    obtain ⟨hle, hsum⟩ := sum_set s.memories i desired' hsize
    rw [step, hsize] at h
    simp only at h
    split at h
    · next hgrows => exact ⟨hle, hgrows, .of_eq hsum (Option.some.inj h).symm⟩
    · cases h
  | growTable => cases hl

theorem step_no_request {s s' : State} {l : Label} (h : step s l = some s')
    (hl : request s l = none) : s'.total = s.total ∧ s'.limiter.cap = s.limiter.cap ∧
      s'.limiter.granted = s.limiter.granted := by
  cases l with
  | create => cases hl
  | grow i =>
    rw [step] at h
    split at h
    · next size hsize =>
      rw [request, hsize] at hl
      cases hl
    · cases h
  | growTable current desired =>
    obtain rfl := Option.some.inj h
    simp only [tableGrowing]
    split
    all_goals exact ⟨rfl, rfl, rfl⟩

/-! ### Safe and exact -/

/-- What is wanted of a step with a request. -/
structure Exact (s : State) (current desired : Nat) (s' : State) : Prop where
  /-- The difference does not stop at zero. -/
  difference : current ≤ s.limiter.granted
  /-- As long as the memories fit, the sum does not saturate. -/
  sum : s.total - current + desired ≤ usizeMax →
    s.limiter.granted - current + desired ≤ usizeMax
  /-- Only what does not fit the cap is refused, and a trap is then for want of memory. -/
  refused : (memoryGrowing s.limiter current desired).1 = false →
    s.limiter.cap < s.total - current + desired ∧ ∀ interrupted,
      trapStatus s'.limiter interrupted = .oom
  within : s'.total ≤ s.limiter.cap

def ExactStep (s : State) (l : Label) : Prop :=
  ∀ current desired taken s', request s l = some (current, desired, taken) →
    step s l = some s' → Exact s current desired s'

/-- Where the memories fit after the request, they do so with what is lost added. And no memory
is given more than fits a number. -/
def Harmless (s : State) (l : Label) : Prop :=
  ∀ current desired taken, request s l = some (current, desired, taken) →
    (s.total - current + desired ≤ usizeMax →
      s.total - current + desired + s.lost ≤ usizeMax) ∧
    (s.total - current + desired ≤ s.limiter.cap →
      s.total - current + desired + s.lost ≤ s.limiter.cap) ∧
    (taken = true → s.limiter.cap = usizeMax → s.total - current + desired ≤ usizeMax)

structure Inv (cap : Nat) (s : State) : Prop where
  cap_eq : s.limiter.cap = cap
  covered : s.total ≤ s.limiter.granted
  within : s.limiter.granted ≤ cap

theorem inv_init (cap : Nat) : Inv cap (init cap) where
  cap_eq := rfl
  covered := Nat.le_refl 0
  within := Nat.zero_le cap

section Requests

variable {s s' : State} {l : Label} {cap current desired : Nat} {taken : Bool}

theorem exact_iff (hcap : cap ≤ usizeMax) (hs : Inv cap s) (h : step s l = some s')
    (hl : request s l = some (current, desired, taken)) : Exact s current desired s' ↔
      (s.total - current + desired ≤ usizeMax →
        s.total - current + desired + s.lost ≤ usizeMax) ∧
      (s.total - current + desired ≤ s.limiter.cap →
        s.total - current + desired + s.lost ≤ s.limiter.cap) ∧
      (taken = true → s.limiter.cap = usizeMax → s.total - current + desired ≤ usizeMax) := by
  obtain ⟨hcurrent, hgrows, hanswer⟩ := step_request h hl
  have hcovered := hs.covered
  have hwithin := hs.within
  have hcap_eq := hs.cap_eq
  have hlost : s.limiter.granted = s.total + s.lost := by
    rw [State.lost]
    omega
  constructor
  · rintro ⟨-, hsum, hrefused, hafter⟩
    refine ⟨fun hfits => ?_, fun hfits => ?_, fun htaken hfull => ?_⟩
    · have hgranted := hsum hfits
      omega
    · cases hanswer with
      | refused _ hfalse =>
        have hover := (hrefused hfalse).1
        omega
      | permitted hpermit =>
        -- else the cap is the largest number, and the sum saturates
        have hgranted := hsum (by omega)
        omega
    · cases hanswer with
      | refused hrefuse => omega
      | permitted _ _ _ htotal =>
        rw [if_pos htaken] at htotal
        omega
  · rintro ⟨hmax, hfits, hheld⟩
    refine ⟨by omega, fun hle => ?_, fun hfalse => ?_, ?_⟩
    · have hgranted := hmax hle
      omega
    · cases hanswer with
      | refused hrefuse _ hlimiter =>
        refine ⟨?_, fun interrupted => ?_⟩
        · by_contra hle
          have hgranted := hfits (by omega)
          omega
        · rw [hlimiter]
          rfl
      | permitted _ htrue =>
        rw [htrue] at hfalse
        cases hfalse
    · cases hanswer with
      | refused _ _ _ htotal => omega
      | permitted hpermit _ _ htotal =>
        split at htotal
        · next htaken =>
          have hheld := hheld htaken
          omega
        · omega

theorem inv_step (hcap : cap ≤ usizeMax) (hs : Inv cap s) (hl : ExactStep s l)
    (h : step s l = some s') : Inv cap s' := by
  cases hrequest : request s l with
  | none =>
    obtain ⟨htotal, hcap_eq, hgranted⟩ := step_no_request h hrequest
    refine ⟨hcap_eq.trans hs.cap_eq, ?_, ?_⟩
    · rw [htotal, hgranted]
      exact hs.covered
    · rw [hgranted]
      exact hs.within
  | some r =>
    obtain ⟨current, desired, taken⟩ := r
    obtain ⟨hcurrent, hgrows, hanswer⟩ := step_request h hrequest
    have hexact := hl current desired taken s' hrequest h
    have hcovered := hs.covered
    have hwithin := hs.within
    have hcap_eq := hs.cap_eq
    have hafter := hexact.within
    cases hanswer with
    | refused _ _ hlimiter htotal =>
      refine ⟨?_, ?_, ?_⟩
      · rw [hlimiter]
        exact hcap_eq
      · rw [hlimiter, htotal]
        exact hcovered
      · rw [hlimiter]
        exact hwithin
    | permitted hpermit _ hlimiter htotal =>
      refine ⟨?_, ?_, ?_⟩
      · rw [hlimiter]
        exact hcap_eq
      · rw [hlimiter]
        show s'.total ≤ min (s.limiter.granted - current + desired) usizeMax
        split at htotal
        all_goals omega
      · rw [hlimiter]
        show min (s.limiter.granted - current + desired) usizeMax ≤ cap
        omega

end Requests

/-- In every run of requests over any memories the budget is safe and exact at every step, or
some request is one that only what is lost keeps from fitting. -/
theorem budget_exact_iff {cap : Nat} (hcap : cap ≤ usizeMax) {ls : List Label} {s : State}
    (hrun : run step (init cap) ls = some s) :
    Along step ExactStep (init cap) ls ↔ Along step Harmless (init cap) ls := by
  refine Along.iff_of_invariant (Inv cap) ?_ (inv_init cap) hrun
  intro s l t _ hs ht
  refine ⟨?_, fun hl => inv_step hcap hs hl ht⟩
  constructor
  · intro hexact current desired taken hrequest
    exact (exact_iff hcap hs ht hrequest).mp (hexact current desired taken t hrequest ht)
  · intro hharmless current desired taken s' hrequest hs'
    obtain rfl := Option.some.inj (ht.symm.trans hs')
    exact (exact_iff hcap hs ht hrequest).mpr (hharmless current desired taken hrequest)

/-- Two memories grow side by side, and a third growth does not fit. -/
theorem budget_exact_two : Along step ExactStep (init 100)
    [.create 40 true, .create 30 true, .grow 0 60 true, .grow 1 50 true] := by
  have hrun : run step (init 100) [.create 40 true, .create 30 true, .grow 0 60 true,
      .grow 1 50 true] = some ⟨⟨100, 90, 0, true⟩, [60, 30]⟩ := by decide
  refine (budget_exact_iff (by decide) hrun).mpr ⟨?_, ?_, ?_, ?_, trivial⟩
  all_goals
    intro current desired taken hrequest
    cases Option.some.inj hrequest
    decide

/-- A growth that is permitted and fails afterwards: the same request is then refused, with
nothing in any memory. -/
theorem budget_inexact : ∃ ls s, run step (init 100) ls = some s ∧
    ¬ Along step ExactStep (init 100) ls := by
  refine ⟨[.create 60 false, .create 60 true], _, rfl, ?_⟩
  rintro ⟨-, hexact, -⟩
  have hover := ((hexact 0 60 true _ rfl rfl).refused (by decide)).1
  revert hover
  decide

end MemoryBudget

end Drust
