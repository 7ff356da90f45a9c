import Drust.Lib.Json

/-!
# Leaving a member out

A value with one member of one object left out, somewhere inside (`Json.Without`). A reader of
values takes a member into account when leaving it out is not the same to the reader. A value
has a member to leave out exactly when one of its objects is not empty (`hasKeys_iff`).
-/

namespace Json

/-- The second value is the first with one member of one of its objects left out. -/
inductive Without : Json → Json → Prop
  | member (kvs₁ kvs₂ : Map) (kv : String × Json) :
      Without (.object (kvs₁ ++ kv :: kvs₂)) (.object (kvs₁ ++ kvs₂))
  | inMember (kvs₁ kvs₂ : Map) (k : String) {v w : Json} (h : Without v w) :
      Without (.object (kvs₁ ++ (k, v) :: kvs₂)) (.object (kvs₁ ++ (k, w) :: kvs₂))
  | inElem (xs ys : List Json) {v w : Json} (h : Without v w) :
      Without (.array (xs ++ v :: ys)) (.array (xs ++ w :: ys))

mutual

/-- Some object of the value has a member. -/
def hasKeys : Json → Bool
  | .object kvs => !kvs.isEmpty
  | .array xs => anyHasKeys xs
  | _ => false

def anyHasKeys : List Json → Bool
  | [] => false
  | x :: xs => hasKeys x || anyHasKeys xs

end

theorem anyHasKeys_iff {xs : List Json} : anyHasKeys xs = true ↔ ∃ x ∈ xs, hasKeys x = true := by
  induction xs with
  | nil => simp [anyHasKeys]
  | cons x xs ih => rw [anyHasKeys, Bool.or_eq_true, ih, List.exists_mem_cons_iff]

/-! ### Inversion -/

/-- Only an object and an array have something to leave out. -/
theorem Without.shape {v w : Json} (h : Without v w) :
    (∃ kvs kvs', v = .object kvs ∧ w = .object kvs') ∨
      (∃ xs ys, v = .array xs ∧ w = .array ys) := by
  cases h with
  | member kvs₁ kvs₂ kv => exact .inl ⟨_, _, rfl, rfl⟩
  | inMember kvs₁ kvs₂ k h => exact .inl ⟨_, _, rfl, rfl⟩
  | inElem xs ys h => exact .inr ⟨_, _, rfl, rfl⟩

theorem Without.of_array {xs : List Json} {w : Json} (h : Without (.array xs) w) :
    ∃ xs₁ x y xs₂, xs = xs₁ ++ x :: xs₂ ∧ w = .array (xs₁ ++ y :: xs₂) ∧ Without x y := by
  generalize hv : Json.array xs = v at h
  cases h with
  | member => cases hv
  | inMember => cases hv
  | inElem xs₁ xs₂ h =>
    obtain rfl := Json.array.inj hv
    exact ⟨xs₁, _, _, xs₂, rfl, rfl, h⟩

/-- From an object either a member is left out, or something in one. -/
theorem Without.of_object {kvs : Map} {w : Json} (h : Without (.object kvs) w) :
    ∃ kvs₁ k v kvs₂, kvs = kvs₁ ++ (k, v) :: kvs₂ ∧
      (w = .object (kvs₁ ++ kvs₂) ∨
        ∃ v', w = .object (kvs₁ ++ (k, v') :: kvs₂) ∧ Without v v') := by
  generalize ho : Json.object kvs = o at h
  cases h with
  | member kvs₁ kvs₂ kv =>
    obtain rfl := Json.object.inj ho
    exact ⟨kvs₁, kv.1, kv.2, kvs₂, rfl, .inl rfl⟩
  | inMember kvs₁ kvs₂ k h =>
    obtain rfl := Json.object.inj ho
    exact ⟨kvs₁, k, _, kvs₂, rfl, .inr ⟨_, rfl, h⟩⟩
  | inElem => cases ho

theorem Without.of_single {k : String} {v w : Json} (h : Without (.object [(k, v)]) w) :
    w = .object [] ∨ ∃ v', w = .object [(k, v')] ∧ Without v v' := by
  obtain ⟨kvs₁, k', v', kvs₂, hkvs, h⟩ := h.of_object
  cases kvs₁ with
  | nil =>
    obtain ⟨hkv, rfl⟩ := List.cons.inj hkvs
    obtain ⟨rfl, rfl⟩ := Prod.mk.inj hkv
    exact h
  | cons kv kvs₁ => simp at hkvs

theorem hasKeys_iff {v : Json} : hasKeys v = true ↔ ∃ w, Without v w := by
  induction v using Json.induct with
  | array xs ih =>
    rw [hasKeys, anyHasKeys_iff]
    constructor
    · rintro ⟨x, hx, hkeys⟩
      obtain ⟨y, hy⟩ := (ih x hx).mp hkeys
      obtain ⟨xs₁, xs₂, rfl⟩ := List.append_of_mem hx
      exact ⟨_, .inElem xs₁ xs₂ hy⟩
    · rintro ⟨w, h⟩
      obtain ⟨xs₁, x, y, xs₂, rfl, -, hxy⟩ := h.of_array
      have hx : x ∈ xs₁ ++ x :: xs₂ := List.mem_append_right _ List.mem_cons_self
      exact ⟨x, hx, (ih x hx).mpr ⟨y, hxy⟩⟩
  | object kvs ih =>
    cases kvs with
    | nil =>
      refine iff_of_false (by simp [hasKeys]) ?_
      rintro ⟨w, h⟩
      obtain ⟨kvs₁, k, v, kvs₂, hkvs, -⟩ := h.of_object
      simp at hkvs
    | cons kv kvs => exact iff_of_true rfl ⟨_, .member [] kvs kv⟩
  | _ =>
    refine iff_of_false (by simp [hasKeys]) ?_
    rintro ⟨w, h⟩
    obtain ⟨_, _, h, -⟩ | ⟨_, _, h, -⟩ := h.shape
    · cases h
    · cases h

theorem not_without_of_hasKeys {v w : Json} (h : hasKeys v = false) : ¬ Without v w := by
  intro hw
  rw [hasKeys_iff.mpr ⟨w, hw⟩] at h
  cases h

/-! ### Leaving out another member -/

/-- A key that an object does not have it does not get by losing a member. -/
theorem Map.get_eq_none_of_append (kvs₁ : Map) {kvs₂ : Map} {kv : String × Json} {k : String}
    (h : Map.get (kvs₁ ++ kv :: kvs₂) k = none) : Map.get (kvs₁ ++ kvs₂) k = none := by
  rw [Map.get_eq_lookup, List.lookup_append] at h ⊢
  obtain ⟨h₁, h₂⟩ := Option.or_eq_none_iff.mp h
  rw [List.lookup_cons] at h₂
  split at h₂
  · cases h₂
  · rw [h₁, h₂]
    rfl

/-- An object with two members can lose one and keep what it has under a key. -/
theorem Map.exists_without_get {kvs : Map} {k : String} {v : Json} (h : Map.get kvs k = some v)
    (hlength : kvs.length ≠ 1) : ∃ kvs₁ kv kvs₂, kvs = kvs₁ ++ kv :: kvs₂ ∧
      Map.get (kvs₁ ++ kvs₂) k = some v := by
  cases kvs with
  | nil => cases h
  | cons kv kvs =>
    obtain ⟨k', v'⟩ := kv
    rw [Map.get_cons] at h
    split at h
    · next hk =>
      -- the first member is the one that is found
      cases kvs with
      | nil => exact absurd rfl hlength
      | cons kv kvs =>
        refine ⟨[(k', v')], kv, kvs, rfl, ?_⟩
        rw [List.singleton_append, Map.get_cons, if_pos hk]
        exact h
    · exact ⟨[], (k', v'), kvs, rfl, h⟩

end Json
