import Drust.Lib.Transition

/-!
# Journals of row changes

Tables of rows, and a journal of changes to them, over arbitrary types of tables, row ids and
rows. A change names the image that it removes, and applying it fails unless the table holds
that image at that row. Replaying a journal is a run of `apply`.

`run_renew` is about a journal that is rewritten behind the end: the last change that put a
row may be given another new image, and the replay ends with that image in the row. This is
sound because nothing after that change has touched the row, which shows in the row being
there at the end.
-/

namespace Journal

variable {τ ι ρ σ : Type}

/-- The rows of each table, by row id. -/
abbrev Tables (τ ι ρ : Type) := τ → ι → Option ρ

inductive Change (ι ρ : Type) where
  | insert (r : ι) (new : ρ)
  | delete (r : ι) (old : ρ)
  /-- The row may move from one id to another. -/
  | update (src r : ι) (old new : ρ)

namespace Change

/-- The row that the change puts. -/
def target : Change ι ρ → Option ι
  | .insert r _ => some r
  | .delete _ _ => none
  | .update _ r _ _ => some r

/-- The images that the change names. -/
def images : Change ι ρ → List ρ
  | .insert _ new => [new]
  | .delete _ old => [old]
  | .update _ _ old new => [old, new]

/-- The change with another new image. -/
def renew (y : ρ) : Change ι ρ → Change ι ρ
  | .insert r _ => .insert r y
  | .delete r old => .delete r old
  | .update src r old _ => .update src r old y

def map (f : ρ → σ) : Change ι ρ → Change ι σ
  | .insert r new => .insert r (f new)
  | .delete r old => .delete r (f old)
  | .update src r old new => .update src r (f old) (f new)

theorem mem_images_renew {c : Change ι ρ} {x y : ρ} (h : x ∈ (c.renew y).images) :
    x = y ∨ x ∈ c.images := by
  cases c with
  | insert r new => exact .inl (List.mem_singleton.mp h)
  | delete r old => exact .inr h
  | update src r old new =>
    obtain h | h := List.mem_cons.mp h
    · exact .inr (h ▸ List.mem_cons_self)
    · exact .inl (List.mem_singleton.mp h)

end Change

structure Entry (τ ι ρ : Type) where
  table : τ
  change : Change ι ρ

/-- The entry puts the row. -/
def Entry.Puts (e : Entry τ ι ρ) (t : τ) (r : ι) : Prop :=
  e.table = t ∧ e.change.target = some r

def Entry.map (f : τ → ρ → σ) (e : Entry τ ι ρ) : Entry τ ι σ where
  table := e.table
  change := e.change.map (f e.table)

def Tables.map (f : τ → ρ → σ) (C : Tables τ ι ρ) : Tables τ ι σ :=
  fun t r => (C t r).map (f t)

section Apply

variable [DecidableEq τ] [DecidableEq ι]

def Tables.set (C : Tables τ ι ρ) (t : τ) (r : ι) (x : Option ρ) : Tables τ ι ρ :=
  fun t' r' => if t' = t ∧ r' = r then x else C t' r'

@[simp] theorem Tables.set_self (C : Tables τ ι ρ) (t : τ) (r : ι) (x : Option ρ) :
    C.set t r x t r = x := by
  simp [Tables.set]

theorem Tables.set_of_ne (C : Tables τ ι ρ) {t t' : τ} {r r' : ι} (x : Option ρ)
    (h : ¬ (t' = t ∧ r' = r)) : C.set t r x t' r' = C t' r' := by
  simp [Tables.set, h]

theorem Tables.set_set (C : Tables τ ι ρ) (t : τ) (r : ι) (x y : Option ρ) :
    (C.set t r x).set t r y = C.set t r y := by
  funext t' r'
  unfold Tables.set
  split <;> rfl

theorem Tables.set_comm (C : Tables τ ι ρ) {t t' : τ} {r r' : ι} (x y : Option ρ)
    (h : ¬ (t' = t ∧ r' = r)) : (C.set t r x).set t' r' y = (C.set t' r' y).set t r x := by
  funext t'' r''
  unfold Tables.set
  grind

/-- Apply an entry: remove the old image, which the table must hold, and put the new one. -/
def apply [DecidableEq ρ] (C : Tables τ ι ρ) (e : Entry τ ι ρ) : Option (Tables τ ι ρ) :=
  match e.change with
  | .insert r new => if C e.table r = none then some (C.set e.table r (some new)) else none
  | .delete r old => if C e.table r = some old then some (C.set e.table r none) else none
  | .update src r old new =>
    if C e.table src = some old ∧ (r = src ∨ C e.table r = none) then
      some ((C.set e.table src none).set e.table r (some new))
    else none

variable [DecidableEq ρ] {C D : Tables τ ι ρ} {e : Entry τ ι ρ} {t : τ} {r : ι}

/-- The tables that an entry is not about stay. -/
theorem apply_of_ne (h : apply C e = some D) (ht : t ≠ e.table) : D t = C t := by
  have hset : ∀ (C : Tables τ ι ρ) r x, C.set e.table r x t = C t := by
    intro C r x
    funext r'
    exact C.set_of_ne x (fun hr => ht hr.1)
  unfold apply at h
  split at h
  all_goals
    split at h
    · rw [← Option.some.inj h]
      simp only [hset]
    · cases h

/-- An entry depends on its own table only. -/
theorem apply_congr {C' : Tables τ ι ρ} (h : apply C e = some D) (hC : C' e.table = C e.table) :
    ∃ D', apply C' e = some D' ∧ D' e.table = D e.table := by
  have hset : ∀ {C C' : Tables τ ι ρ} {r x}, C' e.table = C e.table →
      C'.set e.table r x e.table = C.set e.table r x e.table := by
    intro C C' r x hC
    funext r'
    simp only [Tables.set, hC]
  unfold apply at h ⊢
  rw [hC]
  split at h
  all_goals
    split at h
    · next hcond =>
      rw [if_pos hcond]
      refine ⟨_, rfl, ?_⟩
      rw [← Option.some.inj h]
      simp only [hset hC, hset (hset hC)]
    · cases h

/-- A row that is not there stays away unless it is put. -/
theorem apply_gone (h : apply C e = some D) (hput : ¬ e.Puts t r) (hC : C t r = none) :
    D t r = none := by
  unfold apply at h
  unfold Entry.Puts at hput
  split at h
  all_goals
    next hchange =>
    rw [hchange] at hput
    split at h
    · rw [← Option.some.inj h]
      simp only [Change.target, Option.some.injEq] at hput
      unfold Tables.set
      grind
    · cases h

/-- Overwriting a row commutes with an entry that neither puts nor removes it. -/
theorem apply_overwrite (h : apply C e = some D) (hput : ¬ e.Puts t r) (hlive : D t r ≠ none)
    (y : ρ) : apply (C.set t r (some y)) e = some (D.set t r (some y)) := by
  unfold apply at h ⊢
  unfold Entry.Puts at hput
  split at h
  · next r' x hchange =>
    have hne : ¬ (e.table = t ∧ r' = r) := by simpa [hchange, Change.target] using hput
    split at h
    · next hcond =>
      rw [← Option.some.inj h, C.set_of_ne (some y) hne, if_pos hcond, C.set_comm _ _ hne]
    · cases h
  · next r' x hchange =>
    split at h
    · next hcond =>
      have hD := Option.some.inj h
      -- the row that is removed is not the one that is there afterwards
      have hne : ¬ (e.table = t ∧ r' = r) := by
        rintro ⟨rfl, rfl⟩
        exact hlive (by rw [← hD, Tables.set_self])
      rw [← hD, C.set_of_ne (some y) hne, if_pos hcond, C.set_comm _ _ hne]
    · cases h
  · next src r' x x' hchange =>
    have hne : ¬ (e.table = t ∧ r' = r) := by simpa [hchange, Change.target] using hput
    split at h
    · next hcond =>
      have hD := Option.some.inj h
      have hsrc : ¬ (e.table = t ∧ src = r) := by
        rintro ⟨rfl, rfl⟩
        refine hlive ?_
        rw [← hD, Tables.set_of_ne _ _ (fun h => hne ⟨h.1, h.2.symm⟩), Tables.set_self]
      rw [← hD, C.set_of_ne (some y) hsrc, C.set_of_ne (some y) hne, if_pos hcond,
        C.set_comm _ _ hsrc, Tables.set_comm _ _ _ hne]
    · cases h

/-- An entry with another new image puts that one. -/
theorem apply_renew (h : apply C e = some D) (hput : e.Puts t r) (y : ρ) :
    apply C { e with change := e.change.renew y } = some (D.set t r (some y)) := by
  obtain ⟨rfl, hr⟩ := hput
  unfold apply at h
  split at h
  · next r' x hchange =>
    obtain rfl : r' = r := by simpa [hchange, Change.target] using hr
    split at h
    · next hcond =>
      simp only [apply, hchange, Change.renew]
      rw [if_pos hcond, ← Option.some.inj h, Tables.set_set]
    · cases h
  · next r' x hchange => simp [hchange, Change.target] at hr
  · next src r' x x' hchange =>
    obtain rfl : r' = r := by simpa [hchange, Change.target] using hr
    split at h
    · next hcond =>
      simp only [apply, hchange, Change.renew]
      rw [if_pos hcond, ← Option.some.inj h, Tables.set_set]
    · cases h

/-! ### Replays -/

open Transition

theorem run_gone {es : List (Entry τ ι ρ)} :
    ∀ {C : Tables τ ι ρ}, run apply C es = some D → (∀ e ∈ es, ¬ e.Puts t r) → C t r = none →
      D t r = none := by
  induction es with
  | nil =>
    intro C h _ hC
    rw [← Option.some.inj h]
    exact hC
  | cons e es ih =>
    intro C h hput hC
    obtain ⟨F, hF, h⟩ := run_cons h
    obtain ⟨hput₁, hput₂⟩ := List.forall_mem_cons.mp hput
    exact ih h hput₂ (apply_gone hF hput₁ hC)

/-- Overwriting a row commutes with a replay that never puts it and ends with it there. -/
theorem run_overwrite {es : List (Entry τ ι ρ)} (y : ρ) :
    ∀ {C : Tables τ ι ρ}, run apply C es = some D → (∀ e ∈ es, ¬ e.Puts t r) → D t r ≠ none →
      run apply (C.set t r (some y)) es = some (D.set t r (some y)) := by
  induction es with
  | nil =>
    intro C h _ _
    rw [← Option.some.inj h]
    rfl
  | cons e es ih =>
    intro C h hput hlive
    obtain ⟨F, hF, h⟩ := run_cons h
    obtain ⟨hput₁, hput₂⟩ := List.forall_mem_cons.mp hput
    -- nothing puts the row later, so it is there after the first entry already
    have hF' : F t r ≠ none := fun hnone => hlive (run_gone h hput₂ hnone)
    rw [run, apply_overwrite hF hput₁ hF' y]
    exact ih h hput₂ hlive

/-- The last entry that put a row may be given another new image. -/
theorem run_renew {pre post : List (Entry τ ι ρ)} {y : ρ}
    (h : run apply C (pre ++ e :: post) = some D) (he : e.Puts t r)
    (hput : ∀ e ∈ post, ¬ e.Puts t r) (hlive : D t r ≠ none) :
    run apply C (pre ++ { e with change := e.change.renew y } :: post)
      = some (D.set t r (some y)) := by
  rw [run_append] at h ⊢
  obtain ⟨E, hE, h⟩ := Option.bind_eq_some_iff.mp h
  obtain ⟨F, hF, h⟩ := run_cons h
  rw [hE, Option.bind_some, run, apply_renew hF he y]
  exact run_overwrite y h hput hlive

section Map

variable [DecidableEq σ] (f : τ → ρ → σ)

omit [DecidableEq ρ] [DecidableEq σ] in
theorem Tables.map_set (C : Tables τ ι ρ) (t : τ) (r : ι) (x : Option ρ) :
    (C.set t r x).map f = (C.map f).set t r (x.map (f t)) := by
  funext t' r'
  unfold Tables.map Tables.set
  by_cases h : t' = t ∧ r' = r
  · obtain ⟨rfl, rfl⟩ := h
    simp
  · simp only [if_neg h]

/-- A replay of images is a replay of what they are projected to. -/
theorem apply_map (h : apply C e = some D) : apply (C.map f) (e.map f) = some (D.map f) := by
  unfold apply at h
  split at h
  all_goals
    next hchange =>
    split at h
    · next hcond =>
      simp only [apply, Entry.map, hchange, Change.map]
      rw [if_pos (by simp [Tables.map, hcond]), ← Option.some.inj h]
      simp only [Tables.map_set, Option.map_some, Option.map_none]
    · cases h

theorem run_map {es : List (Entry τ ι ρ)} :
    ∀ {C : Tables τ ι ρ}, run apply C es = some D →
      run apply (C.map f) (es.map (Entry.map f)) = some (D.map f) := by
  induction es with
  | nil =>
    intro C h
    rw [← Option.some.inj h]
    rfl
  | cons e es ih =>
    intro C h
    obtain ⟨F, hF, h⟩ := run_cons h
    rw [List.map_cons, run, apply_map f hF]
    exact ih h

end Map

end Apply

end Journal
