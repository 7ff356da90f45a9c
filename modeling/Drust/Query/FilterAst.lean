import Drust.Lib.Json

/-!
# The filter grammar

Filters and policy clauses share one syntax tree, `FilterAst`: the boolean nodes
`and`, `or`, `not` over leaves, a leaf being any JSON object. The tree is an untagged
enum on the wire. Its decoder tries the variants in declaration order on the same
value: an object is an `and` node when its member `"and"` decodes as a list of trees,
else an `or` node when `"or"` does, else a `not` node when `"not"` decodes as a tree,
and a leaf when none of these holds. The struct variants look at their own member and
ignore every other one.

A caller who writes a condition next to a boolean key therefore gets a tree without
that condition. `toJson_eq_iff` says exactly for which objects the tree holds everything
the caller wrote: those where every object that is read as a boolean node has no second
member.
-/

namespace Drust

/-- The filter tree. -/
inductive FilterAst where
  | and (and : List FilterAst)
  | or (or : List FilterAst)
  | not (not : FilterAst)
  | leaf (obj : Json.Map)

namespace FilterAst

/-! ### Decoding -/

mutual

/-- Decode a value, trying the variants in their order. Only an object decodes: no
variant accepts a scalar or an array. -/
def ofJson : Json → Option FilterAst
  | .object kvs =>
    match vecField "and" kvs with
    | some ns => some (.and ns)
    | none =>
      match vecField "or" kvs with
      | some ns => some (.or ns)
      | none =>
        match boxField "not" kvs with
        | some n => some (.not n)
        | none => some (.leaf kvs)
  | _ => none

/-- The member `key` of a struct variant, as a list of trees. -/
def vecField (key : String) : List (String × Json) → Option (List FilterAst)
  | [] => none
  | (k, v) :: kvs => if k = key then ofArray v else vecField key kvs

/-- The member `key` of a struct variant, as a tree. -/
def boxField (key : String) : List (String × Json) → Option FilterAst
  | [] => none
  | (k, v) :: kvs => if k = key then ofJson v else boxField key kvs

/-- Decode an array of trees. -/
def ofArray : Json → Option (List FilterAst)
  | .array xs => ofList xs
  | _ => none

/-- Decode the elements of an array; one that does not decode fails the whole. -/
def ofList : List Json → Option (List FilterAst)
  | [] => some []
  | x :: xs =>
    match ofJson x, ofList xs with
    | some n, some ns => some (n :: ns)
    | _, _ => none

end

/-! ### Encoding -/

mutual

/-- Serialize a tree. -/
def toJson : FilterAst → Json
  | .and ns => .object [("and", .array (toJsons ns))]
  | .or ns => .object [("or", .array (toJsons ns))]
  | .not n => .object [("not", toJson n)]
  | .leaf obj => .object obj

/-- Serialize a list of trees. -/
def toJsons : List FilterAst → List Json
  | [] => []
  | n :: ns => toJson n :: toJsons ns

end

/-- Induction over a tree, with the hypothesis at every child. -/
theorem induct {P : FilterAst → Prop} (and : ∀ ns, (∀ n ∈ ns, P n) → P (.and ns))
    (or : ∀ ns, (∀ n ∈ ns, P n) → P (.or ns)) (not : ∀ n, P n → P (.not n))
    (leaf : ∀ obj, P (.leaf obj)) (n : FilterAst) : P n :=
  @FilterAst.rec P (fun ns => ∀ n ∈ ns, P n) and or not leaf
    (by simp) (fun _ _ hn hns => List.forall_mem_cons.mpr ⟨hn, hns⟩) n

end FilterAst

/-! ### Parsing a caller's filter -/

/-- The text a caller gets for a value that is no filter. -/
def filterShapeHint : String :=
  "filter must be a JSON object: a leaf like \x7b\"status\":\"published\"\x7d " ++
  "(equality) or \x7b\"views\":\x7b\"gte\":10\x7d\x7d (operator — one of eq, ne, gt, " ++
  "gte, lt, lte, like, in, nin, is_null, is_not_null), or a boolean node " ++
  "\x7b\"and\":[...]\x7d / \x7b\"or\":[...]\x7d / \x7b\"not\":\x7b...\x7d\x7d. Pass it as an object, " ++
  "not a JSON-encoded string."

section Parse

-- The parser of JSON text, applied to a double-encoded filter only.
variable (fromStr : String → Option Json)

/-- Parse a caller's value into a filter tree. A string is first decoded as JSON text,
one layer deep: some clients send the whole object as a string. -/
def parseFilterValue (v : Json) : Except String FilterAst := do
  let decoded ← match v with
    | .string s => (fromStr s).elim (.error filterShapeHint) .ok
    | other => .ok other
  (FilterAst.ofJson decoded).elim (.error filterShapeHint) .ok

end Parse

namespace FilterAst

/-! ### What a tree keeps -/

/-- The value decodes as a tree: it is an object. -/
def isTree : Json → Bool
  | .object _ => true
  | _ => false

/-- The value decodes as a list of trees: it is an array of objects. -/
def isTrees : Json → Bool
  | .array xs => xs.all isTree
  | _ => false

/-- An object with these members is read as a boolean node. -/
def isBooleanNode (kvs : Json.Map) : Bool :=
  (kvs.get "and").any isTrees || (kvs.get "or").any isTrees || (kvs.get "not").any isTree

mutual

/-- No object that is read as a boolean node has a second member. Below a leaf nothing
is asked: its members are kept as they are. -/
def noStrayKeys : Json → Bool
  | .object kvs => !isBooleanNode kvs || onlyMember kvs
  | .array xs => noStrayElems xs
  | _ => true

/-- There is one member, and its value has no stray keys. -/
def onlyMember : List (String × Json) → Bool
  | [(_, v)] => noStrayKeys v
  | _ => false

def noStrayElems : List Json → Bool
  | [] => true
  | x :: xs => noStrayKeys x && noStrayElems xs

end

theorem ofJson_isSome (v : Json) : (ofJson v).isSome = isTree v := by
  cases v with
  | object kvs =>
    rw [ofJson]
    split
    · rfl
    · split
      · rfl
      · split <;> rfl
  | _ => rfl

theorem ofList_isSome (xs : List Json) : (ofList xs).isSome = xs.all isTree := by
  induction xs with
  | nil => rfl
  | cons x xs ih =>
    rw [ofList, List.all_cons, ← ih, ← ofJson_isSome]
    cases ofJson x <;> cases ofList xs <;> rfl

theorem ofArray_isSome (v : Json) : (ofArray v).isSome = isTrees v := by
  cases v with
  | array xs => exact ofList_isSome xs
  | _ => rfl

theorem vecField_eq (key : String) (kvs : Json.Map) :
    vecField key kvs = (kvs.get key).bind ofArray := by
  induction kvs with
  | nil => rfl
  | cons kv kvs ih =>
    obtain ⟨k, v⟩ := kv
    rw [vecField, Json.Map.get_cons, ih]
    split <;> rfl

theorem boxField_eq (key : String) (kvs : Json.Map) :
    boxField key kvs = (kvs.get key).bind ofJson := by
  induction kvs with
  | nil => rfl
  | cons kv kvs ih =>
    obtain ⟨k, v⟩ := kv
    rw [boxField, Json.Map.get_cons, ih]
    split <;> rfl

/-- What an object decodes to, with the members that decided it. -/
theorem ofJson_object_cases {kvs : Json.Map} {n : FilterAst} (h : ofJson (.object kvs) = some n) :
    (∃ v ns, kvs.get "and" = some v ∧ ofArray v = some ns ∧ n = .and ns) ∨
    (∃ v ns, kvs.get "or" = some v ∧ ofArray v = some ns ∧ n = .or ns) ∨
    (∃ v m, kvs.get "not" = some v ∧ ofJson v = some m ∧ n = .not m) ∨
    (isBooleanNode kvs = false ∧ n = .leaf kvs) := by
  rw [ofJson, vecField_eq, vecField_eq, boxField_eq] at h
  split at h
  · next ns hand =>
    obtain ⟨v, hget, hv⟩ := Option.bind_eq_some_iff.mp hand
    exact .inl ⟨v, ns, hget, hv, (Option.some.inj h).symm⟩
  · next hand =>
    split at h
    · next ns hor =>
      obtain ⟨v, hget, hv⟩ := Option.bind_eq_some_iff.mp hor
      exact .inr (.inl ⟨v, ns, hget, hv, (Option.some.inj h).symm⟩)
    · next hor =>
      split at h
      · next m hnot =>
        obtain ⟨v, hget, hv⟩ := Option.bind_eq_some_iff.mp hnot
        exact .inr (.inr (.inl ⟨v, m, hget, hv, (Option.some.inj h).symm⟩))
      · next hnot =>
        refine .inr (.inr (.inr ⟨?_, (Option.some.inj h).symm⟩))
        have hdec : ∀ {α : Type} {f : Json → Option α} {p : Json → Bool} {o : Option Json},
            (∀ v, (f v).isSome = p v) → o.bind f = none → o.any p = false := by
          intro α f p o hp hnone
          cases o with
          | none => rfl
          | some v =>
            rw [Option.bind_some] at hnone
            rw [Option.any_some, ← hp, hnone]
            rfl
        rw [isBooleanNode, hdec ofArray_isSome hand, hdec ofArray_isSome hor,
          hdec ofJson_isSome hnot]
        rfl

/-- A node that was decoded from the member `key` alone serializes to the object it came
from when that member was the only one, and its value is kept. -/
theorem object_eq_iff_noStrayKeys {kvs : Json.Map} {key : String} {v w : Json}
    (hget : kvs.get key = some v) (hbool : isBooleanNode kvs = true)
    (hw : w = v ↔ noStrayKeys v = true) :
    Json.object [(key, w)] = .object kvs ↔ noStrayKeys (.object kvs) = true := by
  rw [noStrayKeys, hbool, Bool.not_true, Bool.false_or, Json.object.injEq]
  match kvs with
  | [] => simp at hget
  | [(k, v')] =>
    rw [Json.Map.get_cons] at hget
    split at hget
    · next hk =>
      obtain rfl := Option.some.inj hget
      rw [onlyMember, ← hw]
      simp [hk]
    · simp at hget
  | _ :: _ :: _ => simp [onlyMember]

theorem isBooleanNode_of_and {kvs : Json.Map} {v : Json} {ns : List FilterAst}
    (hget : kvs.get "and" = some v) (hv : ofArray v = some ns) : isBooleanNode kvs = true := by
  rw [isBooleanNode, hget, Option.any_some, ← ofArray_isSome, hv]
  rfl

theorem isBooleanNode_of_or {kvs : Json.Map} {v : Json} {ns : List FilterAst}
    (hget : kvs.get "or" = some v) (hv : ofArray v = some ns) : isBooleanNode kvs = true := by
  rw [isBooleanNode, hget, Option.any_some, ← ofArray_isSome v, hv]
  simp

theorem isBooleanNode_of_not {kvs : Json.Map} {v : Json} {n : FilterAst}
    (hget : kvs.get "not" = some v) (hv : ofJson v = some n) : isBooleanNode kvs = true := by
  rw [isBooleanNode, hget, Option.any_some, ← ofJson_isSome v, hv]
  simp

/-- The elements of an array are kept when each of them is. -/
theorem toJsons_eq_iff {xs : List Json}
    (ih : ∀ x ∈ xs, ∀ n, ofJson x = some n → (toJson n = x ↔ noStrayKeys x = true)) :
    ∀ {ns}, ofList xs = some ns → (toJsons ns = xs ↔ noStrayElems xs = true) := by
  induction xs with
  | nil =>
    intro ns h
    obtain rfl := Option.some.inj h
    simp [toJsons, noStrayElems]
  | cons x xs ihxs =>
    intro ns h
    rw [ofList] at h
    split at h
    · next n ns' hn hns' =>
      obtain rfl := Option.some.inj h
      have hx := ih x (List.mem_cons_self ..) n hn
      have hxs := ihxs (fun y hy => ih y (List.mem_cons_of_mem _ hy)) hns'
      rw [toJsons, noStrayElems, Bool.and_eq_true, List.cons.injEq, hx, hxs]
    · simp at h

/-- A decoded tree serializes to the value it came from exactly when the value has no
stray keys. By induction over the value; an array counts through its elements. -/
theorem toJson_eq_iff (v : Json) :
    (∀ n, ofJson v = some n → (toJson n = v ↔ noStrayKeys v = true)) ∧
    (∀ ns, ofArray v = some ns → (Json.array (toJsons ns) = v ↔ noStrayKeys v = true)) := by
  induction v using Json.induct with
  | array xs ih =>
    refine ⟨fun n h => by simp [ofJson] at h, fun ns h => ?_⟩
    rw [Json.array.injEq, noStrayKeys]
    exact toJsons_eq_iff (fun x hx => (ih x hx).1) h
  | object kvs ih =>
    refine ⟨fun n h => ?_, fun ns h => by simp [ofArray] at h⟩
    obtain ⟨v, ns, hget, hv, rfl⟩ | ⟨v, ns, hget, hv, rfl⟩ | ⟨v, m, hget, hv, rfl⟩ | ⟨hleaf, rfl⟩ :=
      ofJson_object_cases h
    · exact object_eq_iff_noStrayKeys hget (isBooleanNode_of_and hget hv)
        ((ih _ (Json.Map.mem_of_get hget)).2 ns hv)
    · exact object_eq_iff_noStrayKeys hget (isBooleanNode_of_or hget hv)
        ((ih _ (Json.Map.mem_of_get hget)).2 ns hv)
    · exact object_eq_iff_noStrayKeys hget (isBooleanNode_of_not hget hv)
        ((ih _ (Json.Map.mem_of_get hget)).1 m hv)
    · simp [toJson, noStrayKeys, hleaf]
  | _ => exact ⟨fun n h => by simp [ofJson] at h, fun ns h => by simp [ofArray] at h⟩

end FilterAst

/-- Every object parses. -/
theorem exists_parseFilterValue_object (fromStr : String → Option Json) (kvs : Json.Map) :
    ∃ ast, FilterAst.ofJson (.object kvs) = some ast ∧
      parseFilterValue fromStr (.object kvs) = .ok ast := by
  have hsome : (FilterAst.ofJson (.object kvs)).isSome := FilterAst.ofJson_isSome (.object kvs)
  obtain ⟨ast, hast⟩ := Option.isSome_iff_exists.mp hsome
  refine ⟨ast, hast, ?_⟩
  change (FilterAst.ofJson (.object kvs)).elim (Except.error filterShapeHint) Except.ok = _
  rw [hast]
  rfl

end Drust
