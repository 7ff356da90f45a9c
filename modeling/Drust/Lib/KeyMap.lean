import Drust.Lib.AssocList

/-!
# Hash maps

A map with finitely many keys. Its entries are in some order, which a hash map does not promise
anything about: what is said of a map is said of `get`, of its size, and of the entries as a whole.
-/

/-- Entries with different keys. -/
structure KeyMap (κ ν : Type) where
  entries : List (κ × ν)
  nodup : (entries.map Prod.fst).Nodup

namespace KeyMap

variable {κ ν : Type} [DecidableEq κ] {m : KeyMap κ ν} {k k' : κ} {v v' : ν}

def empty : KeyMap κ ν := ⟨[], List.nodup_nil⟩

def keys (m : KeyMap κ ν) : List κ :=
  m.entries.map Prod.fst

def size (m : KeyMap κ ν) : Nat :=
  m.entries.length

def get (m : KeyMap κ ν) (k : κ) : Option ν :=
  m.entries.lookup k

/-- The entries that a predicate holds of. -/
def retain (m : KeyMap κ ν) (p : κ → ν → Bool) : KeyMap κ ν where
  entries := m.entries.filter fun e => p e.1 e.2
  nodup := (List.filter_sublist.map Prod.fst).nodup m.nodup

def erase (m : KeyMap κ ν) (k : κ) : KeyMap κ ν :=
  m.retain fun k' _ => k' != k

/-- The keys stay, and the values are changed. -/
def mapValues (m : KeyMap κ ν) (f : κ → ν → ν) : KeyMap κ ν where
  entries := m.entries.map fun e => (e.1, f e.1 e.2)
  nodup := by
    rw [List.map_map]
    exact m.nodup

def set (m : KeyMap κ ν) (k : κ) (v : ν) : KeyMap κ ν where
  entries := (k, v) :: (m.erase k).entries
  nodup := by
    rw [List.map_cons, List.nodup_cons]
    refine ⟨?_, (m.erase k).nodup⟩
    simp [erase, retain]

theorem get_eq_some_iff : m.get k = some v ↔ (k, v) ∈ m.entries :=
  AssocList.lookup_eq_some_iff_mem m.nodup

theorem mem_keys : k ∈ m.keys ↔ ∃ v, m.get k = some v := by
  simp [keys, get_eq_some_iff]

theorem get_retain {p : κ → ν → Bool} : (m.retain p).get k = (m.get k).filter (p k) := by
  ext v
  rw [get_eq_some_iff, Option.filter_eq_some_iff, get_eq_some_iff]
  simp [retain]

theorem get_mapValues {f : κ → ν → ν} : (m.mapValues f).get k = (m.get k).map (f k) := by
  ext v
  rw [get_eq_some_iff, Option.map_eq_some_iff]
  simp only [mapValues, List.mem_map, Prod.exists, Prod.mk.injEq]
  constructor
  · rintro ⟨k', v', hmem, rfl, rfl⟩
    exact ⟨v', get_eq_some_iff.mpr hmem, rfl⟩
  · rintro ⟨v', hget, rfl⟩
    exact ⟨k, v', get_eq_some_iff.mp hget, rfl, rfl⟩

theorem get_erase_of_ne (h : k' ≠ k) : (m.erase k).get k' = m.get k' := by
  rw [erase, get_retain]
  cases m.get k' with
  | none => rfl
  | some v => simp [h]

theorem get_erase_self : (m.erase k).get k = none := by
  rw [erase, get_retain]
  cases m.get k with
  | none => rfl
  | some v => simp

theorem get_set_self : (m.set k v).get k = some v :=
  get_eq_some_iff.mpr List.mem_cons_self

theorem get_set_of_ne (h : k' ≠ k) : (m.set k v).get k' = m.get k' := by
  rw [get, set, List.lookup_cons, beq_false_of_ne h]
  exact get_erase_of_ne h

end KeyMap
