import Drust.Lib.Binary64

/-!
# JSON values

The value type of a JSON library that keeps the order of an object's members:
an object is the list of its members, each key once. Numbers are the three
machine shapes a parser produces, an unsigned 64-bit integer, a signed one, or a
finite double.

Objects nest through `List (String × Json)`, so equality is decided by a mutual
recursion (`Json.decEq`), and the induction principle `Json.induct` hands the
hypothesis over every element of an array and every member of an object.
-/

/-- A JSON number. -/
inductive Json.Number where
  /-- A non-negative integer. -/
  | posInt (n : UInt64)
  /-- A negative integer. -/
  | negInt (n : Int64)
  /-- A number with a fraction or an exponent. -/
  | float (f : Binary64)
  deriving DecidableEq

/-- A JSON value. -/
inductive Json where
  | null
  | bool (b : Bool)
  | number (n : Json.Number)
  | string (s : String)
  | array (xs : List Json)
  | object (kvs : List (String × Json))

namespace Json

/-- The members of an object, in the order they were inserted. -/
abbrev Map := List (String × Json)

/-! ### Numbers -/

namespace Number

/-- The number as a signed 64-bit integer, when it is one. -/
def asI64 : Number → Option Int64
  | .posInt n => if n.toNat < 2 ^ 63 then some (Int64.ofNat n.toNat) else none
  | .negInt n => some n
  | .float _ => none

theorem natAbs_uint64_lt (n : UInt64) : (n.toNat : Int).natAbs < 2 ^ 65 := by
  have := n.toNat_lt
  omega

theorem natAbs_int64_lt (i : Int64) : i.toInt.natAbs < 2 ^ 65 := by
  have h1 := i.le_toInt
  have h2 := i.toInt_lt
  omega

/-- The number as a double, rounded to nearest. -/
def asF64 : Number → Binary64
  | .posInt n => .ofInt n.toNat (natAbs_uint64_lt n)
  | .negInt n => .ofInt n.toInt (natAbs_int64_lt n)
  | .float f => f

end Number

/-! ### Accessors -/

/-- The text of a string value. -/
def asStr : Json → Option String
  | .string s => some s
  | _ => none

/-- The truth value of a Boolean value. -/
def asBool : Json → Option Bool
  | .bool b => some b
  | _ => none

/-- The elements of an array. -/
def asArray : Json → Option (List Json)
  | .array xs => some xs
  | _ => none

/-- Whether the value is an array or an object. -/
def isCompound : Json → Bool
  | .array _ | .object _ => true
  | _ => false

namespace Map

/-- The value of a member. -/
def get (m : Map) (k : String) : Option Json :=
  (m.find? (fun kv => kv.1 == k)).map Prod.snd

/-- Whether there is a member with the key. -/
def containsKey (m : Map) (k : String) : Bool :=
  m.any (fun kv => kv.1 == k)

/-- Set a member: in place when the key is there, at the end when it is new. -/
def insert (m : Map) (k : String) (v : Json) : Map :=
  if m.containsKey k then m.map (fun kv => if kv.1 == k then (k, v) else kv)
  else m ++ [(k, v)]

@[simp] theorem get_nil (k : String) : Map.get [] k = none := rfl

theorem get_cons (k' k : String) (v : Json) (m : Map) :
    Map.get ((k', v) :: m) k = if k' = k then some v else Map.get m k := by
  by_cases h : k' = k
  · simp [Map.get, h]
  · simp [Map.get, h]

/-- A key is present exactly when it has a value. -/
theorem containsKey_iff (m : Map) (k : String) :
    m.containsKey k = true ↔ ∃ v, m.get k = some v := by
  induction m with
  | nil => simp [Map.containsKey]
  | cons kv m ih =>
    obtain ⟨k', v'⟩ := kv
    rw [get_cons]
    by_cases h : k' = k
    · simp [Map.containsKey, h]
    · simpa [Map.containsKey, h] using ih

theorem containsKey_eq_isSome (m : Map) (k : String) :
    m.containsKey k = (m.get k).isSome := by
  rw [Bool.eq_iff_iff, containsKey_iff, Option.isSome_iff_exists]

/-- A member's value is a member. -/
theorem mem_of_get {m : Map} {k : String} {v : Json} (h : m.get k = some v) : (k, v) ∈ m := by
  induction m with
  | nil => simp at h
  | cons kv m ih =>
    obtain ⟨k', v'⟩ := kv
    rw [get_cons] at h
    split at h
    · next hk =>
      obtain rfl := Option.some.inj h
      rw [hk]
      exact List.mem_cons_self ..
    · exact List.mem_cons_of_mem _ (ih h)

theorem get_eq_lookup (m : Map) (k : String) : m.get k = m.lookup k := by
  induction m with
  | nil => rfl
  | cons kv m ih =>
    obtain ⟨k', v⟩ := kv
    rw [get_cons, List.lookup_cons, ih]
    by_cases h : k' = k
    · rw [if_pos h, h, beq_self_eq_true]
    · rw [if_neg h, beq_false_of_ne (Ne.symm h)]

/-- A member that is set has the value it is set to. -/
theorem get_insert_self (m : Map) (k : String) (v : Json) : (m.insert k v).get k = some v := by
  unfold Map.insert
  by_cases hk : m.containsKey k
  · rw [if_pos hk]
    induction m with
    | nil => simp [Map.containsKey] at hk
    | cons kv m ih =>
      obtain ⟨k', v'⟩ := kv
      rw [List.map_cons]
      by_cases h : k' = k
      · rw [if_pos (beq_iff_eq.mpr h), get_cons, if_pos rfl]
      · have hk' : Map.containsKey m k = true := by simpa [Map.containsKey, h] using hk
        rw [if_neg (by simpa using h), get_cons, if_neg h]
        exact ih hk'
  · rw [if_neg hk, get_eq_lookup, List.lookup_append]
    have hnone : List.lookup k m = none := by
      rw [← get_eq_lookup, ← Option.not_isSome_iff_eq_none, ← containsKey_eq_isSome]
      exact hk
    rw [hnone, Option.none_or, List.lookup_cons_self]

end Map

/-! ### Equality -/

mutual

/-- Decide the equality of two values. -/
def decEq : (a b : Json) → Decidable (a = b)
  | .null, .null => isTrue rfl
  | .bool a, .bool b => decidable_of_iff (a = b) (by simp)
  | .number a, .number b => decidable_of_iff (a = b) (by simp)
  | .string a, .string b => decidable_of_iff (a = b) (by simp)
  | .array a, .array b =>
    match decEqList a b with
    | isTrue h => isTrue (by rw [h])
    | isFalse h => isFalse (by simpa using h)
  | .object a, .object b =>
    match decEqMap a b with
    | isTrue h => isTrue (by rw [h])
    | isFalse h => isFalse (by simpa using h)
  | .null, .bool _ | .null, .number _ | .null, .string _ | .null, .array _ | .null, .object _
  | .bool _, .null | .bool _, .number _ | .bool _, .string _ | .bool _, .array _
  | .bool _, .object _
  | .number _, .null | .number _, .bool _ | .number _, .string _ | .number _, .array _
  | .number _, .object _
  | .string _, .null | .string _, .bool _ | .string _, .number _ | .string _, .array _
  | .string _, .object _
  | .array _, .null | .array _, .bool _ | .array _, .number _ | .array _, .string _
  | .array _, .object _
  | .object _, .null | .object _, .bool _ | .object _, .number _ | .object _, .string _
  | .object _, .array _ => isFalse (by simp)

/-- Decide the equality of two arrays. -/
def decEqList : (a b : List Json) → Decidable (a = b)
  | [], [] => isTrue rfl
  | [], _ :: _ => isFalse (by simp)
  | _ :: _, [] => isFalse (by simp)
  | x :: xs, y :: ys =>
    match decEq x y, decEqList xs ys with
    | isTrue h, isTrue h' => isTrue (by rw [h, h'])
    | isFalse h, _ => isFalse (by simp [h])
    | _, isFalse h => isFalse (by simp [h])

/-- Decide the equality of two objects, their members in order. -/
def decEqMap : (a b : List (String × Json)) → Decidable (a = b)
  | [], [] => isTrue rfl
  | [], _ :: _ => isFalse (by simp)
  | _ :: _, [] => isFalse (by simp)
  | (k, x) :: xs, (l, y) :: ys =>
    match instDecidableEqString k l, decEq x y, decEqMap xs ys with
    | isTrue h, isTrue h', isTrue h'' => isTrue (by rw [h, h', h''])
    | isFalse h, _, _ => isFalse (by simp [h])
    | _, isFalse h, _ => isFalse (by simp [h])
    | _, _, isFalse h => isFalse (by simp [h])

end

instance : DecidableEq Json := decEq

/-! ### Induction -/

/-- Induction over a value, with the hypothesis at every element of an array and
at every member of an object. -/
theorem induct {P : Json → Prop} (null : P .null) (bool : ∀ b, P (.bool b))
    (number : ∀ n, P (.number n)) (string : ∀ s, P (.string s))
    (array : ∀ xs, (∀ x ∈ xs, P x) → P (.array xs))
    (object : ∀ kvs : Map, (∀ kv ∈ kvs, P kv.2) → P (.object kvs)) (v : Json) : P v :=
  @Json.rec P (fun xs => ∀ x ∈ xs, P x) (fun kvs => ∀ kv ∈ kvs, P kv.2) (fun kv => P kv.2)
    null bool number string array object
    (by simp) (fun _ _ hx hxs => List.forall_mem_cons.mpr ⟨hx, hxs⟩)
    (by simp) (fun _ _ hkv hkvs => List.forall_mem_cons.mpr ⟨hkv, hkvs⟩)
    (fun _ _ h => h) v

end Json
