import Mathlib.Logic.Function.Basic

/-!
# Lock objects behind one key of a map

A map hands out a lock object for a key and makes one when it has none. The entry may be
removed at any time, also while parties hold or wait for the object, and the next lookup then
makes another: for one key there may be several lock objects at once, and a party that holds
one of them excludes only those who hold the same.

`Tracks` ties the holders of the objects to what the parties hold, and `Single` says that all
parties have the object that is in the map. Together they give mutual exclusion across the
parties (`Tracks.exclusive`).
-/

structure LockSlot (π : Type) where
  /-- The object in the map. -/
  entry : Option Nat := none
  /-- The objects made so far. -/
  made : Nat := 0
  holder : Nat → Option π := fun _ => none

namespace LockSlot

variable {π : Type}

/-- The object of the key, made on a miss. -/
def lookup (k : LockSlot π) : Nat × LockSlot π :=
  match k.entry with
  | some l => (l, k)
  | none => (k.made, { k with entry := some k.made, made := k.made + 1 })

def remove (k : LockSlot π) : LockSlot π :=
  { k with entry := none }

/-- Lock an object that is free. -/
def acquire (k : LockSlot π) (l : Nat) (p : π) : Option (LockSlot π) :=
  match k.holder l with
  | some _ => none
  | none => some { k with holder := Function.update k.holder l (some p) }

/-- Drop the guard of an object. -/
def release (k : LockSlot π) : Option Nat → LockSlot π
  | some l => { k with holder := Function.update k.holder l none }
  | none => k

theorem lookup_entry (k : LockSlot π) : k.lookup.2.entry = some k.lookup.1 := by
  unfold lookup
  split
  · next h => exact h
  · rfl

/-! ### Who holds what -/

/-- Each party holds the objects that it is the holder of. -/
def Tracks (k : LockSlot π) (held : π → Option Nat) : Prop :=
  ∀ l p, k.holder l = some p ↔ held p = some l

/-- The parties have no other object than the one in the map. -/
def Single (k : LockSlot π) (used : π → Option Nat) : Prop :=
  ∀ p l, used p = some l → k.entry = some l

variable {k k' : LockSlot π} {held used : π → Option Nat} {p q : π} {l : Nat}

/-- As long as all have one object, two parties do not both hold one. -/
theorem Tracks.exclusive (h : k.Tracks held) (hsingle : k.Single used)
    (hused : ∀ p, (held p).isSome = true → used p = held p) (hp : (held p).isSome = true)
    (hq : (held q).isSome = true) : p = q := by
  obtain ⟨l, hl⟩ := Option.isSome_iff_exists.mp hp
  obtain ⟨l', hl'⟩ := Option.isSome_iff_exists.mp hq
  have hentry : k.entry = some l := hsingle p l ((hused p hp).trans hl)
  have hentry' : k.entry = some l' := hsingle q l' ((hused q hq).trans hl')
  obtain rfl : l = l' := Option.some.inj (hentry.symm.trans hentry')
  exact Option.some.inj (((h l p).mpr hl).symm.trans ((h l q).mpr hl'))

theorem Tracks.lookup (h : k.Tracks held) : k.lookup.2.Tracks held := by
  unfold LockSlot.lookup
  split <;> exact h

theorem Single.acquire (h : k.Single used) (hacquire : k.acquire l p = some k') :
    k'.Single used := by
  unfold LockSlot.acquire at hacquire
  split at hacquire
  · cases hacquire
  · rw [← Option.some.inj hacquire]
    exact h

theorem Single.release (h : k.Single used) (g : Option Nat) : (k.release g).Single used := by
  cases g <;> exact h

section Update

variable [DecidableEq π]

/-- What a party keeps leaves the view of all parties as it was. -/
theorem comp_update_of_eq {τ β : Type} {f : τ → β} {parties : π → τ} {y : τ}
    (h : f y = f (parties p)) : f ∘ Function.update parties p y = f ∘ parties := by
  rw [Function.comp_update, h]
  exact Function.update_eq_self p (f ∘ parties)

theorem Tracks.acquire (h : k.Tracks held) (hp : held p = none)
    (hacquire : k.acquire l p = some k') :
    k'.Tracks (Function.update held p (some l)) := by
  unfold LockSlot.acquire at hacquire
  split at hacquire
  · cases hacquire
  next hfree =>
  rw [← Option.some.inj hacquire]
  intro l' q
  by_cases hq : q = p
  · subst hq
    by_cases hl : l' = l
    · subst hl
      simp
    · -- the party held no other object before
      have hnot : k.holder l' ≠ some q := by
        rw [Ne, h l' q, hp]
        exact fun h => nomatch h
      simp [Function.update_of_ne hl, hnot, Ne.symm hl]
  · by_cases hl : l' = l
    · subst hl
      have hnot : held q ≠ some l' := by
        rw [Ne, ← h l' q, hfree]
        exact fun h => nomatch h
      simp [Function.update_of_ne hq, hnot, Ne.symm hq]
    · simp only [Function.update_of_ne hl, Function.update_of_ne hq]
      exact h l' q

/-- Dropping what a party holds. -/
theorem Tracks.release (h : k.Tracks held) :
    (k.release (held p)).Tracks (Function.update held p none) := by
  intro l' q
  cases hp : held p with
  | none =>
    by_cases hq : q = p
    · subst hq
      simp [LockSlot.release, h l' q, hp]
    · simp only [LockSlot.release, Function.update_of_ne hq]
      exact h l' q
  | some l =>
    by_cases hq : q = p
    · subst hq
      by_cases hl : l' = l
      · subst hl
        simp [LockSlot.release]
      · have hnot : k.holder l' ≠ some q := by
          rw [Ne, h l' q, hp, Option.some.injEq]
          exact Ne.symm hl
        simp [LockSlot.release, Function.update_of_ne hl, hnot]
    · by_cases hl : l' = l
      · subst hl
        have hnot : held q ≠ some l' := by
          rw [Ne, ← h l' q, (h l' p).mpr hp, Option.some.injEq]
          exact Ne.symm hq
        simp [LockSlot.release, Function.update_of_ne hq, hnot]
      · simp only [LockSlot.release, Function.update_of_ne hl, Function.update_of_ne hq]
        exact h l' q

theorem Single.lookup (h : k.Single used) :
    k.lookup.2.Single (Function.update used p (some k.lookup.1)) := by
  intro q l hq
  rw [lookup_entry]
  by_cases hqp : q = p
  · subst hqp
    simpa using hq
  · rw [Function.update_of_ne hqp] at hq
    have hentry := h q l hq
    simp [LockSlot.lookup, hentry]

theorem Single.forget (h : k.Single used) : k.Single (Function.update used p none) := by
  intro q l hq
  by_cases hqp : q = p
  · subst hqp
    simp at hq
  · rw [Function.update_of_ne hqp] at hq
    exact h q l hq

end Update

end LockSlot
