import Drust.Lib.Json

/-!
# JSON text that is read again

What is left of a value that was printed as a text and parsed again. The text itself is not
modelled: strings, integers and the structure of a value survive it. Two things may not. A
parser that recurses has a limit on how deeply a text may be nested, and a double is printed
in decimal and parsed with the precision of the parser, so it may come back as another one,
or not at all where it is out of range then (`reread`).
-/

namespace Json

/-! ### Nesting -/

mutual

/-- How many arrays and objects stand inside one another. -/
def nesting : Json → Nat
  | .array xs => nestingElems xs + 1
  | .object kvs => nestingMembers kvs + 1
  | _ => 0

def nestingElems : List Json → Nat
  | [] => 0
  | x :: xs => max (nesting x) (nestingElems xs)

def nestingMembers : List (String × Json) → Nat
  | [] => 0
  | (_, v) :: kvs => max (nesting v) (nestingMembers kvs)

end

/-! ### Doubles -/

section Reread

-- A double that was printed, read again; `none` where it is out of range.
variable (f : Binary64 → Option Binary64)

mutual

/-- The value, with every double printed and read again. -/
def reread : Json → Option Json
  | .number (.float x) => (f x).map fun y => .number (.float y)
  | .array xs => (rereadElems xs).map .array
  | .object kvs => (rereadMembers kvs).map .object
  | v => some v

def rereadElems : List Json → Option (List Json)
  | [] => some []
  | x :: xs =>
    match reread x, rereadElems xs with
    | some y, some ys => some (y :: ys)
    | _, _ => none

def rereadMembers : List (String × Json) → Option (List (String × Json))
  | [] => some []
  | (k, v) :: kvs =>
    match reread v, rereadMembers kvs with
    | some w, some kws => some ((k, w) :: kws)
    | _, _ => none

end

/-- The value of the text that a value was printed as, for a parser that gives up at a depth
of `limit`. -/
def readBack (limit : Nat) (v : Json) : Option Json :=
  if nesting v < limit then reread f v else none

variable {f}

theorem rereadElems_cons {x : Json} {xs ys : List Json} (h : rereadElems f (x :: xs) = some ys) :
    ∃ y ys', reread f x = some y ∧ rereadElems f xs = some ys' ∧ ys = y :: ys' := by
  rw [rereadElems] at h
  split at h
  · next y ys' hy hys' => exact ⟨y, ys', hy, hys', (Option.some.inj h).symm⟩
  · cases h

theorem rereadMembers_cons {k : String} {v : Json} {kvs kws : Map}
    (h : rereadMembers f ((k, v) :: kvs) = some kws) :
    ∃ w kws', reread f v = some w ∧ rereadMembers f kvs = some kws' ∧ kws = (k, w) :: kws' := by
  rw [rereadMembers] at h
  split at h
  · next w kws' hw hkws' => exact ⟨w, kws', hw, hkws', (Option.some.inj h).symm⟩
  · cases h

/-- An object is read as an object with the same keys. -/
theorem reread_object {kvs : Map} {w : Json} (h : reread f (.object kvs) = some w) :
    ∃ kws, rereadMembers f kvs = some kws ∧ w = .object kws := by
  rw [reread] at h
  obtain ⟨kws, hkws, hw⟩ := Option.map_eq_some_iff.mp h
  exact ⟨kws, hkws, hw.symm⟩

/-- An object with one member. -/
theorem reread_singleton {k : String} {v w : Json}
    (h : reread f (.object [(k, v)]) = some w) :
    ∃ v', reread f v = some v' ∧ w = .object [(k, v')] := by
  obtain ⟨kws, hkws, rfl⟩ := reread_object h
  obtain ⟨v', rest, hv', hrest, rfl⟩ := rereadMembers_cons hkws
  obtain rfl := Option.some.inj hrest
  exact ⟨v', hv', rfl⟩

theorem reread_array {xs : List Json} {w : Json} (h : reread f (.array xs) = some w) :
    ∃ ys, rereadElems f xs = some ys ∧ w = .array ys := by
  rw [reread] at h
  obtain ⟨ys, hys, hw⟩ := Option.map_eq_some_iff.mp h
  exact ⟨ys, hys, hw.symm⟩

theorem readBack_eq_some_iff {limit : Nat} {v w : Json} :
    readBack f limit v = some w ↔ nesting v < limit ∧ reread f v = some w := by
  unfold readBack
  split
  · next h => simp [h]
  · next h => simp [h]

theorem readBack_eq_none_iff {limit : Nat} {v : Json} :
    readBack f limit v = none ↔ limit ≤ nesting v ∨ reread f v = none := by
  unfold readBack
  split
  · next h => simp [h]
  · next h => simp [Nat.not_lt.mp h]

end Reread

end Json
