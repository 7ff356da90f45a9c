import Drust.Lib.LockSlot

/-!
# Lock objects behind the keys of a map

A map that hands out a lock object for every key, one `LockSlot` a key. A party deals with one
object at a time, of one key: what it holds and what it has looked up are pairs of a key and an
object. `Tracks` and `Single` say of all keys what `LockSlot` says of one, and as long as they
hold, two parties do not both hold an object of one key (`Tracks.exclusive`).
-/

namespace LockTable

variable {κ π : Type} [DecidableEq κ]

/-- The object of one key. -/
def ofKey (k : κ) : Option (κ × Nat) → Option Nat
  | some (k', l) => if k' = k then some l else none
  | none => none

@[simp] theorem ofKey_self (k : κ) (l : Nat) : ofKey k (some (k, l)) = some l :=
  if_pos rfl

theorem ofKey_of_ne {k k' : κ} (h : k' ≠ k) (l : Nat) : ofKey k (some (k', l)) = none :=
  if_neg h

@[simp] theorem ofKey_none (k : κ) : ofKey k none = none := rfl

/-- Each party holds the objects that it is the holder of. -/
def Tracks (tb : κ → LockSlot π) (held : π → Option (κ × Nat)) : Prop :=
  ∀ k, (tb k).Tracks (ofKey k ∘ held)

/-- The parties have no other objects than those in the map. -/
def Single (tb : κ → LockSlot π) (used : π → Option (κ × Nat)) : Prop :=
  ∀ k, (tb k).Single (ofKey k ∘ used)

variable {tb : κ → LockSlot π} {held used : π → Option (κ × Nat)} {p q : π} {k : κ} {l l' : Nat}

/-- Two parties do not both hold an object of one key. -/
theorem Tracks.exclusive (h : Tracks tb held) (hsingle : Single tb used)
    (hused : ∀ p, (held p).isSome = true → used p = held p) (hp : held p = some (k, l))
    (hq : held q = some (k, l')) : p = q := by
  have hused' : ∀ r, ((ofKey k ∘ held) r).isSome = true → (ofKey k ∘ used) r = (ofKey k ∘ held) r := by
    intro r hr
    have hheld : (held r).isSome = true := by
      cases hnone : held r with
      | none => simp [hnone] at hr
      | some _ => rfl
    simp only [Function.comp_apply, hused r hheld]
  exact (h k).exclusive (hsingle k) hused' (by simp [hp]) (by simp [hq])

theorem Tracks.lookup (h : Tracks tb held) (k : κ) :
    Tracks (Function.update tb k (tb k).lookup.2) held := by
  intro k'
  obtain rfl | hk := eq_or_ne k' k
  · rw [Function.update_self]
    exact (h k').lookup
  · rw [Function.update_of_ne hk]
    exact h k'

theorem Single.acquire (h : Single tb used) {s : LockSlot π}
    (hacquire : (tb k).acquire l p = some s) : Single (Function.update tb k s) used := by
  intro k'
  obtain rfl | hk := eq_or_ne k' k
  · rw [Function.update_self]
    exact (h k').acquire hacquire
  · rw [Function.update_of_ne hk]
    exact h k'

theorem Single.release (h : Single tb used) (k : κ) (g : Option Nat) :
    Single (Function.update tb k ((tb k).release g)) used := by
  intro k'
  obtain rfl | hk := eq_or_ne k' k
  · rw [Function.update_self]
    exact (h k').release g
  · rw [Function.update_of_ne hk]
    exact h k'

section Update

variable [DecidableEq π]

theorem Tracks.acquire (h : Tracks tb held) (hp : held p = none) {s : LockSlot π}
    (hacquire : (tb k).acquire l p = some s) :
    Tracks (Function.update tb k s) (Function.update held p (some (k, l))) := by
  intro k'
  have hnone : (ofKey k' ∘ held) p = none := by simp [hp]
  rw [Function.comp_update]
  obtain rfl | hk := eq_or_ne k' k
  · rw [Function.update_self, ofKey_self]
    exact (h k').acquire hnone hacquire
  · -- an object of another key
    rw [Function.update_of_ne hk, ofKey_of_ne hk.symm, ← hnone, Function.update_eq_self]
    exact h k'

theorem Tracks.release (h : Tracks tb held) (hp : held p = some (k, l)) :
    Tracks (Function.update tb k ((tb k).release (some l))) (Function.update held p none) := by
  intro k'
  rw [Function.comp_update, ofKey_none]
  obtain rfl | hk := eq_or_ne k' k
  · have hheld : (ofKey k' ∘ held) p = some l := by simp [hp]
    rw [Function.update_self, ← hheld]
    exact (h k').release
  · have hheld : (ofKey k' ∘ held) p = none := by
      rw [Function.comp_apply, hp, ofKey_of_ne hk.symm]
    rw [Function.update_of_ne hk, ← hheld, Function.update_eq_self]
    exact h k'

theorem Single.lookup (h : Single tb used) (k : κ) :
    Single (Function.update tb k (tb k).lookup.2)
      (Function.update used p (some (k, (tb k).lookup.1))) := by
  intro k'
  rw [Function.comp_update]
  obtain rfl | hk := eq_or_ne k' k
  · rw [Function.update_self, ofKey_self]
    exact (h k').lookup
  · rw [Function.update_of_ne hk, ofKey_of_ne hk.symm]
    exact (h k').forget

theorem Single.forget (h : Single tb used) : Single tb (Function.update used p none) := by
  intro k
  rw [Function.comp_update, ofKey_none]
  exact (h k).forget

end Update

end LockTable
