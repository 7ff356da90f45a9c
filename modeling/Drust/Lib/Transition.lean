import Mathlib

/-!
# Runs of a labelled transition function

A system is a partial step function: a label names an atomic step of one of the parties, and
a step that is not enabled in a state has no result. A run is a list of labels, that is, one
interleaving of the parties' steps. `Along` says that every step of a run meets a condition
on the state that it starts from, and an invariant that is preserved by the steps that meet
it holds after every such run (`Along.invariant`). `run_counter` is about a machine counter
that a run increments: comparing it with an earlier value tells whether it was incremented,
as long as it has not wrapped around.
-/

namespace Transition

variable {σ ℓ : Type} {step : σ → ℓ → Option σ}

/-- The state after a run, when every step of it is enabled. -/
def run (step : σ → ℓ → Option σ) : σ → List ℓ → Option σ
  | s, [] => some s
  | s, l :: ls =>
    match step s l with
    | some s' => run step s' ls
    | none => none

/-- Every step of a run meets a condition on the state before it. -/
def Along (step : σ → ℓ → Option σ) (C : σ → ℓ → Prop) : σ → List ℓ → Prop
  | _, [] => True
  | s, l :: ls =>
    C s l ∧ match step s l with
      | some s' => Along step C s' ls
      | none => True

instance Along.decidable {C : σ → ℓ → Prop} [∀ s l, Decidable (C s l)] :
    ∀ s ls, Decidable (Along step C s ls)
  | _, [] => inferInstanceAs (Decidable True)
  | s, l :: ls =>
    have : Decidable (match step s l with
        | some s' => Along step C s' ls
        | none => True) :=
      match step s l with
      | some s' => Along.decidable s' ls
      | none => inferInstanceAs (Decidable True)
    inferInstanceAs (Decidable (_ ∧ _))

theorem run_cons {s s' : σ} {l : ℓ} {ls : List ℓ} (h : run step s (l :: ls) = some s') :
    ∃ t, step s l = some t ∧ run step t ls = some s' := by
  rw [run] at h
  split at h
  · next t ht => exact ⟨t, ht, h⟩
  · cases h

theorem run_append {s : σ} {ls ls' : List ℓ} :
    run step s (ls ++ ls') = (run step s ls).bind (fun t => run step t ls') := by
  induction ls generalizing s with
  | nil => rfl
  | cons l ls ih =>
    rw [List.cons_append, run, run]
    cases step s l with
    | none => rfl
    | some t => exact ih

/-- A condition that each of the labels meets in every state. -/
theorem Along.of_forall {C : σ → ℓ → Prop} {ls : List ℓ} (h : ∀ l ∈ ls, ∀ s, C s l) :
    ∀ s, Along step C s ls := by
  induction ls with
  | nil => exact fun _ => trivial
  | cons l ls ih =>
    intro s
    refine ⟨h l List.mem_cons_self s, ?_⟩
    split
    · exact ih (fun l hl => h l (List.mem_cons_of_mem _ hl)) _
    · trivial

theorem Along.imp {C D : σ → ℓ → Prop} (h : ∀ s l, C s l → D s l) {ls : List ℓ} :
    ∀ {s : σ}, Along step C s ls → Along step D s ls := by
  induction ls with
  | nil => exact fun _ => trivial
  | cons l ls ih =>
    intro s hC
    refine ⟨h s l hC.1, ?_⟩
    have hC := hC.2
    split
    · next s' hs' =>
      rw [hs'] at hC
      exact ih hC
    · trivial

theorem Along.and {C D : σ → ℓ → Prop} {ls : List ℓ} :
    ∀ {s : σ}, Along step C s ls → Along step D s ls →
      Along step (fun s l => C s l ∧ D s l) s ls := by
  induction ls with
  | nil => exact fun _ _ => trivial
  | cons l ls ih =>
    intro s hC hD
    refine ⟨⟨hC.1, hD.1⟩, ?_⟩
    have hC := hC.2
    have hD := hD.2
    split
    · next s' hs' =>
      rw [hs'] at hC hD
      exact ih hC hD
    · trivial

/-- The first part of a run meets the condition too. -/
theorem Along.of_append_left {C : σ → ℓ → Prop} {ls ls' : List ℓ} :
    ∀ {s : σ}, Along step C s (ls ++ ls') → Along step C s ls := by
  induction ls with
  | nil => exact fun _ => trivial
  | cons l ls ih =>
    intro s h
    refine ⟨h.1, ?_⟩
    have h := h.2
    split
    · next s' hs' =>
      rw [hs'] at h
      exact ih h
    · trivial

/-- The later part of a run meets the condition too. -/
theorem Along.of_append {C : σ → ℓ → Prop} {ls ls' : List ℓ} {t : σ} :
    ∀ {s : σ}, Along step C s (ls ++ ls') → run step s ls = some t → Along step C t ls' := by
  induction ls with
  | nil =>
    intro s h hrun
    obtain rfl := Option.some.inj hrun
    exact h
  | cons l ls ih =>
    intro s h hrun
    obtain ⟨u, hu, hrun⟩ := run_cons hrun
    have h := h.2
    rw [hu] at h
    exact ih h hrun

/-- A condition that an invariant gives for every enabled step. -/
theorem Along.of_invariant {C : σ → ℓ → Prop} {Inv : σ → Prop} {ls : List ℓ} {s' : σ}
    (hstep : ∀ {s l t}, l ∈ ls → Inv s → step s l = some t → C s l ∧ Inv t) :
    ∀ {s : σ}, Inv s → run step s ls = some s' → Along step C s ls := by
  induction ls with
  | nil => exact fun _ _ => trivial
  | cons l ls ih =>
    intro s hs hrun
    obtain ⟨t, ht, hrun⟩ := run_cons hrun
    obtain ⟨hC, hInv⟩ := hstep List.mem_cons_self hs ht
    refine ⟨hC, ?_⟩
    rw [ht]
    exact ih (fun hl => hstep (List.mem_cons_of_mem _ hl)) hInv hrun

/-- Two conditions that say the same of every enabled step, as long as an invariant holds. The
first of them may be needed for the invariant. -/
theorem Along.iff_of_invariant {C D : σ → ℓ → Prop} (Inv : σ → Prop) {ls : List ℓ} {s' : σ}
    (hstep : ∀ {s l t}, l ∈ ls → Inv s → step s l = some t →
      (C s l ↔ D s l) ∧ (C s l → Inv t)) :
    ∀ {s : σ}, Inv s → run step s ls = some s' → (Along step C s ls ↔ Along step D s ls) := by
  induction ls with
  | nil => exact fun _ _ => Iff.rfl
  | cons l ls ih =>
    intro s hs hrun
    obtain ⟨t, ht, hrun⟩ := run_cons hrun
    obtain ⟨hCD, hInv⟩ := hstep List.mem_cons_self hs ht
    have hrest : C s l → (Along step C t ls ↔ Along step D t ls) :=
      fun hC => ih (fun hl => hstep (List.mem_cons_of_mem _ hl)) (hInv hC) hrun
    rw [Along, Along, ht]
    constructor
    · exact fun h => ⟨hCD.mp h.1, (hrest h.1).mp h.2⟩
    · exact fun h => ⟨hCD.mpr h.1, (hrest (hCD.mpr h.1)).mpr h.2⟩

/-- What every step keeps that meets the condition holds after every run that does. -/
theorem Along.invariant {C : σ → ℓ → Prop} {Inv : σ → Prop}
    (hstep : ∀ {s l s'}, Inv s → C s l → step s l = some s' → Inv s') {ls : List ℓ} :
    ∀ {s s' : σ}, Inv s → Along step C s ls → run step s ls = some s' → Inv s' := by
  induction ls with
  | nil =>
    intro s s' hs _ hrun
    obtain rfl := Option.some.inj hrun
    exact hs
  | cons l ls ih =>
    intro s s' hs halong hrun
    obtain ⟨t, ht, hrun⟩ := run_cons hrun
    obtain ⟨hC, halong⟩ := halong
    rw [ht] at halong
    exact ih (hstep hs hC ht) halong hrun

/-- What every step keeps holds after every run. -/
theorem run_invariant {Inv : σ → Prop}
    (hstep : ∀ {s l s'}, Inv s → step s l = some s' → Inv s') {s s' : σ} {ls : List ℓ}
    (hs : Inv s) (hrun : run step s ls = some s') : Inv s' := by
  induction ls generalizing s with
  | nil =>
    obtain rfl := Option.some.inj hrun
    exact hs
  | cons l ls ih =>
    obtain ⟨t, ht, hrun⟩ := run_cons hrun
    exact ih (hstep hs ht) hrun

/-- What holds at the end of a run and not at its beginning was entered by a step of it. -/
theorem run_entered {P : σ → Prop} {s' : σ} {ls : List ℓ} :
    ∀ {s : σ}, run step s ls = some s' → ¬ P s → P s' →
      ∃ ls₁ l ls₂ t t', ls = ls₁ ++ l :: ls₂ ∧ run step s ls₁ = some t ∧ step t l = some t' ∧
        ¬ P t ∧ P t' := by
  induction ls with
  | nil =>
    intro s hrun hs hs'
    obtain rfl := Option.some.inj hrun
    exact absurd hs' hs
  | cons l ls ih =>
    intro s hrun hs hs'
    obtain ⟨t, ht, hrun⟩ := run_cons hrun
    by_cases hPt : P t
    · exact ⟨[], l, ls, s, t, rfl, rfl, ht, hs, hPt⟩
    · obtain ⟨ls₁, l', ls₂, u, u', rfl, hrun₁, hu, hPu, hPu'⟩ := ih hrun hPt hs'
      refine ⟨l :: ls₁, l', ls₂, u, u', rfl, ?_, hu, hPu, hPu'⟩
      rw [run, ht]
      exact hrun₁

/-- A 64-bit counter that some of the steps increment counts them, up to its wrap. -/
theorem run_counter (Inv : σ → Prop) (counter : σ → UInt64) (hit : ℓ → Bool)
    (hInv : ∀ s l s', Inv s → step s l = some s' → Inv s')
    (hcount : ∀ s l s', Inv s → step s l = some s' →
      counter s' = if hit l then counter s + 1 else counter s) {ls : List ℓ} :
    ∀ {s s' : σ}, Inv s → run step s ls = some s' →
      counter s' = counter s + UInt64.ofNat (ls.countP hit) := by
  induction ls with
  | nil =>
    intro s s' _ hrun
    obtain rfl := Option.some.inj hrun
    simp
  | cons l ls ih =>
    intro s s' hs hrun
    obtain ⟨t, ht, hrun⟩ := run_cons hrun
    rw [ih (hInv _ _ _ hs ht) hrun, hcount _ _ _ hs ht, List.countP_cons]
    by_cases hl : hit l = true
    · rw [if_pos hl, if_pos hl, UInt64.ofNat_add, UInt64.add_assoc, UInt64.add_comm 1]
      rfl
    · rw [if_neg hl, if_neg hl, Nat.add_zero]

/-- Such a counter is back at its value exactly after a multiple of `2 ^ 64` increments. -/
theorem run_counter_eq_iff (Inv : σ → Prop) (counter : σ → UInt64) (hit : ℓ → Bool)
    (hInv : ∀ s l s', Inv s → step s l = some s' → Inv s')
    (hcount : ∀ s l s', Inv s → step s l = some s' →
      counter s' = if hit l then counter s + 1 else counter s) {ls : List ℓ} {s s' : σ}
    (hs : Inv s) (hrun : run step s ls = some s') :
    counter s' = counter s ↔ ls.countP hit % 2 ^ 64 = 0 := by
  rw [run_counter Inv counter hit hInv hcount hs hrun, UInt64.add_eq_left, ← UInt64.toNat_inj,
    UInt64.toNat_ofNat']
  rfl

end Transition
