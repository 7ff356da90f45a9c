import Mathlib

/-!
# Shared counters behind the keys of a map

A map from keys to 64-bit counters. A counter is an object: whoever has looked it up keeps it
and reads its value without the map. Entries are made on demand and never removed, so all who
have ever looked up a key have one counter, and an increment through the key reaches them
(`values_bump`).
-/

structure CounterMap (κ : Type) where
  entries : List (κ × Nat) := []
  values : Nat → UInt64 := fun _ => 0
  /-- The counters made so far. -/
  made : Nat := 0
  fresh : ∀ c ∈ entries.map Prod.snd, c < made := by simp
  distinct : (entries.map Prod.snd).Nodup := by simp

namespace CounterMap

variable {κ : Type} [DecidableEq κ]

/-- The counter of a key. -/
def get (m : CounterMap κ) (k : κ) : Option Nat :=
  m.entries.lookup k

/-- The counter of a key, made if there is none. -/
def entry (m : CounterMap κ) (k : κ) : Nat × CounterMap κ :=
  match m.get k with
  | some c => (c, m)
  | none =>
    (m.made,
      { entries := (k, m.made) :: m.entries
        values := Function.update m.values m.made 0
        made := m.made + 1
        fresh := by
          intro c hc
          obtain rfl | hc := List.mem_cons.mp hc
          · exact Nat.lt_succ_self m.made
          · exact Nat.lt_succ_of_lt (m.fresh c hc)
        distinct := by
          refine List.nodup_cons.mpr ⟨?_, m.distinct⟩
          intro hmem
          exact Nat.lt_irrefl _ (m.fresh m.made hmem) })

/-- Increment a counter, wrapping around. -/
def fetchAdd (m : CounterMap κ) (c : Nat) : CounterMap κ :=
  { m with values := Function.update m.values c (m.values c + 1) }

/-- Increment the counter of a key. -/
def bump (m : CounterMap κ) (k : κ) : CounterMap κ :=
  (m.entry k).2.fetchAdd (m.entry k).1

variable {m : CounterMap κ} {k k' : κ} {c : Nat}

theorem mem_of_get (h : m.get k = some c) : (k, c) ∈ m.entries := by
  obtain ⟨l₁, l₂, hl, -⟩ := List.lookup_eq_some_iff.mp h
  rw [hl]
  exact List.mem_append_right _ List.mem_cons_self

theorem lt_made_of_get (h : m.get k = some c) : c < m.made :=
  m.fresh c (List.mem_map_of_mem (mem_of_get h))

/-- Two keys have two counters. -/
theorem get_inj (h : m.get k = some c) (h' : m.get k' = some c) : k = k' := by
  have heq := List.inj_on_of_nodup_map m.distinct (mem_of_get h) (mem_of_get h') rfl
  exact congrArg Prod.fst heq

theorem get_entry (m : CounterMap κ) (k : κ) : (m.entry k).2.get k = some (m.entry k).1 := by
  unfold entry
  split
  · next h => exact h
  · simp [get]

theorem get_entry_of_get (h : m.get k' = some c) : (m.entry k).2.get k' = some c := by
  unfold entry
  split
  · exact h
  · next hk =>
    have hne : (k' == k) = false := by
      rw [beq_eq_false_iff_ne]
      rintro rfl
      rw [hk] at h
      cases h
    unfold get
    rw [List.lookup_cons, hne]
    exact h

theorem values_entry (h : m.get k' = some c) : (m.entry k).2.values c = m.values c := by
  unfold entry
  split
  · rfl
  · exact Function.update_of_ne (Nat.ne_of_lt (lt_made_of_get h)) _ _

theorem bump_of_get (h : m.get k = some c) : m.bump k = m.fetchAdd c := by
  have hentry : m.entry k = (c, m) := by
    unfold entry
    rw [h]
  rw [bump, hentry]

/-- Who has looked a key up keeps its counter. -/
theorem get_bump (h : m.get k' = some c) : (m.bump k).get k' = some c :=
  get_entry_of_get h

/-- An increment reaches the counter of its own key, and no other. -/
theorem values_bump (h : m.get k' = some c) :
    (m.bump k).values c = if k = k' then m.values c + 1 else m.values c := by
  have hentry := get_entry m k
  by_cases hk : k = k'
  · subst hk
    have hc : (m.entry k).1 = c :=
      Option.some.inj (hentry.symm.trans (get_entry_of_get h))
    rw [if_pos rfl, bump, fetchAdd, hc]
    show Function.update _ c _ c = _
    rw [Function.update_self, values_entry h]
  · have hc : c ≠ (m.entry k).1 := by
      rintro rfl
      exact hk (get_inj hentry (get_entry_of_get h))
    rw [if_neg hk, bump, fetchAdd]
    show Function.update _ _ _ c = _
    rw [Function.update_of_ne hc, values_entry h]

end CounterMap
