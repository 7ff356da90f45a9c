import Drust.Query.Compiles
import Drust.Query.TreeKeys

/-!
# The keys of a filter

Every key of a filter takes part in the condition that is compiled, with one exception: an operand
is bound as a scalar, an object or an array as `NULL`, and the operand of a test for `NULL` is not
looked at, so that the keys in an operand make no difference (`leafKept`). Anywhere else a filter
without one of its keys does not compile at all.
-/

namespace Drust

open Sql
open Json (Without)

namespace VectorFilter

open FilterAst (Subfilter)

/-- Compile a leaf of any kind. -/
def compileLeafNode (schema : CollectionSchema) (obj : Json.Map) : Except FilterError Compiled :=
  match obj with
  | [(key, body)] =>
    if key = "$fts" then compileFts schema body
    else do
      validateField schema key
      compileLeaf key body
  | _ => .error (.parse .leafKeys)

/-- The operator takes the operand. -/
def takesOperand (op : String) (operand : Json) : Bool :=
  (sqlOp op).isSome || op = "is_null" || op = "is_not_null" ||
    ((op = "in" || op = "nin") && operand.asArray.isSome)

/-- Every key in the body of a leaf counts: an operand is bound as a scalar, whatever is in it. -/
def bodyKept : Json → Bool
  | .object [(op, operand)] => !takesOperand op operand || !operand.hasKeys
  | .object _ => true
  | body => !body.hasKeys

/-- Every key of a leaf counts, where the leaf compiles. -/
def leafKept : Json.Map → Bool
  | [(key, body)] => key = "$fts" || bodyKept body
  | _ => true

section Condition

-- The parser of JSON text, applied to a double-encoded filter only.
variable (fromStr : String → Option Json)

/-- The condition that a caller's value compiles to. -/
def condition (schema : CollectionSchema) (v : Json) : Option Compiled :=
  (parseFilterValue fromStr v).toOption.bind fun ast => (compile schema ast).toOption

/-- Every key of the filter takes part in the condition of the filter that it stands in: one
that compiles compiles to something else, or not at all, without the key. -/
def KeysCount (v : Json) : Prop :=
  ∀ u, Subfilter u v → ∀ w, Without u w → ∀ schema p, condition fromStr schema u = some p →
    condition fromStr schema w ≠ some p

end Condition

variable {schema : CollectionSchema}

mutual

theorem compileNode_eq (n : FilterAst) (depth : Nat) : compileNode schema n depth
    = FilterAst.compileWith .tooDeep (fun _ : Unit => compileLeafNode schema) () n depth := by
  rw [compileNode.eq_def, FilterAst.compileWith.eq_def]
  split
  · rfl
  · cases n with
    | and ns =>
      cases ns with
      | nil => rfl
      | cons n ns =>
        simp only
        rw [compileNodes_eq]
    | or ns =>
      cases ns with
      | nil => rfl
      | cons n ns =>
        simp only
        rw [compileNodes_eq]
    | not n =>
      simp only
      rw [compileNode_eq n]
      simp only [← String.append_assoc]
      rfl
    | leaf obj => obtain _ | ⟨⟨key, body⟩, _ | _⟩ := obj <;> rfl

theorem compileNodes_eq (ns : List FilterAst) (depth : Nat) : compileNodes schema ns depth
    = FilterAst.compileAllWith .tooDeep (fun _ : Unit => compileLeafNode schema) () ns depth := by
  cases ns with
  | nil => rw [compileNodes, FilterAst.compileAllWith]
  | cons n ns => rw [compileNodes, FilterAst.compileAllWith, compileNode_eq n, compileNodes_eq ns]

end

/-! #### Leaves that lose a key -/

theorem jsonToValue_of_without {v w : Json} (h : Without v w) : jsonToValue w = jsonToValue v := by
  obtain ⟨_, _, rfl, rfl⟩ | ⟨_, _, rfl, rfl⟩ := h.shape
  · rfl
  · rfl

theorem compileLeafNode_single {obj : Json.Map} {p : Compiled}
    (h : compileLeafNode schema obj = .ok p) : ∃ key body, obj = [(key, body)] := by
  obtain _ | ⟨⟨key, body⟩, _ | _⟩ := obj
  · cases h
  · exact ⟨key, body, rfl⟩
  · cases h

theorem takesOperand_of_compileOp {field op : String} {operand : Json} {p : Compiled}
    (h : compileOp field op operand = .ok p) : takesOperand op operand = true := by
  unfold compileOp at h
  unfold takesOperand
  split at h
  · next hop => simp [hop]
  · split at h
    · next hin =>
      cases operand with
      | array arr => simp [hin, Json.asArray]
      | _ => cases h
    · split at h
      · next hnull => obtain rfl | rfl := hnull <;> simp
      · cases h

/-- What is in an operand makes no difference. -/
theorem compileOp_of_without (field : String) {op : String} {operand operand' : Json}
    (h : Without operand operand') (htakes : takesOperand op operand = true) :
    ∃ p, compileOp field op operand = .ok p ∧ compileOp field op operand' = .ok p := by
  unfold takesOperand at htakes
  unfold compileOp
  cases hop : sqlOp op with
  | some sym => exact ⟨_, rfl, by rw [jsonToValue_of_without h]⟩
  | none =>
    rw [hop] at htakes
    simp only
    split
    · next hin =>
      -- a set without a key in one element has as many elements, each bound as before
      obtain ⟨_, _, rfl, -⟩ | ⟨xs, ys, rfl, rfl⟩ := h.shape
      · obtain rfl | rfl := hin
        · simp [Json.asArray] at htakes
        · simp [Json.asArray] at htakes
      · obtain ⟨xs₁, x, y, xs₂, rfl, hys, hxy⟩ := h.of_array
        obtain rfl := Json.array.inj hys
        have hne : ∀ z : Json, (xs₁ ++ z :: xs₂).isEmpty = false := fun z => by simp
        simp only [hne, Bool.false_eq_true, if_false, List.length_append, List.length_cons,
          List.map_append, List.map_cons, jsonToValue_of_without hxy]
        exact ⟨_, rfl, rfl⟩
    · next hin =>
      split
      · exact ⟨_, rfl, rfl⟩
      · next hnull =>
        rw [not_or] at hin hnull
        simp [hin.1, hin.2, hnull.1, hnull.2] at htakes

/-- The members of an operand that resolves are two strings. -/
theorem string_of_resolveFts {obj : Json.Map} {entry : FtsIndex} {query : String}
    (h : resolveFts schema (.object obj) = .ok (entry, query)) :
    obj.length = 2 ∧ ∀ kv ∈ obj, ∃ s, kv.2 = .string s := by
  obtain ⟨obj', index, ho, hindex, hquery, hlength, -⟩ := resolveFts_eq_ok_iff.mp h
  obtain rfl := Json.object.inj ho
  refine ⟨hlength, ?_⟩
  obtain ⟨⟨a, x⟩, ⟨b, y⟩, rfl⟩ := List.length_eq_two.mp hlength
  rw [Json.Map.get_cons, Json.Map.get_cons, Json.Map.get_nil] at hindex hquery
  simp only [List.mem_cons, List.not_mem_nil, or_false, forall_eq_or_imp, forall_eq]
  split at hindex
  · next ha =>
    rw [if_neg (by rw [ha]; decide)] at hquery
    split at hquery
    · exact ⟨⟨index, Option.some.inj hindex⟩, query, Option.some.inj hquery⟩
    · cases hquery
  · split at hindex
    · next hb =>
      rw [if_neg (c := b = "query") (by rw [hb]; decide)] at hquery
      split at hquery
      · exact ⟨⟨query, Option.some.inj hquery⟩, index, Option.some.inj hindex⟩
      · cases hquery
    · cases hindex

/-- A leaf whose keys count does not compile without one. -/
theorem compileLeafNode_of_without {key : String} {body body' : Json} {p : Compiled}
    (hkept : leafKept [(key, body)] = true) (hbody : Without body body')
    (h : compileLeafNode schema [(key, body)] = .ok p) (q : Compiled) :
    compileLeafNode schema [(key, body')] ≠ .ok q := by
  intro h'
  unfold compileLeafNode at h h'
  simp only at h h'
  split at h
  · next hkey =>
    -- a full-text operand has its two members, each a string
    rw [if_pos hkey] at h'
    obtain ⟨entry, query, hresolve⟩ := compileFts_ok_iff.mp ⟨p, h⟩
    obtain ⟨entry', query', hresolve'⟩ := compileFts_ok_iff.mp ⟨q, h'⟩
    obtain ⟨obj, -, rfl, -⟩ := resolveFts_eq_ok_iff.mp hresolve
    obtain ⟨hlength, hstring⟩ := string_of_resolveFts hresolve
    obtain ⟨kvs₁, k, v, kvs₂, rfl, rfl | ⟨v', -, hv⟩⟩ := hbody.of_object
    · have hlength' := (string_of_resolveFts hresolve').1
      simp only [List.length_append, List.length_cons] at hlength hlength'
      omega
    · obtain ⟨s, rfl⟩ := hstring (k, v) (List.mem_append_right _ List.mem_cons_self)
      exact Json.not_without_of_hasKeys rfl hv
  · next hkey =>
    rw [if_neg hkey] at h'
    obtain ⟨_, -, h⟩ := Except.bind_eq_ok_iff.mp h
    obtain ⟨_, -, h'⟩ := Except.bind_eq_ok_iff.mp h'
    rw [leafKept, decide_eq_false hkey, Bool.false_or] at hkept
    cases body with
    | object o =>
      obtain _ | ⟨⟨op, operand⟩, _ | _⟩ := o
      · exact Json.not_without_of_hasKeys rfl hbody
      · obtain rfl | ⟨operand', rfl, hoperand⟩ := hbody.of_single
        · cases h'
        · rw [bodyKept, takesOperand_of_compileOp h, Bool.not_true, Bool.false_or,
            Bool.not_eq_true'] at hkept
          exact Json.not_without_of_hasKeys hkept hoperand
      · cases h
    | _ => exact Json.not_without_of_hasKeys (by simpa [bodyKept] using hkept) hbody

/-- A leaf with a key that does not count compiles to the same condition without it. -/
theorem exists_without_of_not_kept {kvs : Json.Map} (hkept : leafKept kvs = false) :
    ∃ key body body' schema p, kvs = [(key, body)] ∧ Without body body' ∧
      compileLeafNode schema [(key, body)] = .ok p ∧
        compileLeafNode schema [(key, body')] = .ok p := by
  obtain _ | ⟨⟨key, body⟩, _ | _⟩ := kvs
  · cases hkept
  · rw [leafKept, Bool.or_eq_false_iff, decide_eq_false_iff_not] at hkept
    obtain ⟨hkey, hkept⟩ := hkept
    -- a collection with the one column
    let schema : CollectionSchema := { name := "", fields := [{ name := key, sqlType := "" }] }
    have hleaf : ∀ body, compileLeafNode schema [(key, body)] = compileLeaf key body := by
      intro body
      have hvalid : validateField schema key = .ok () := by simp [validateField, schema]
      rw [compileLeafNode, if_neg hkey, hvalid]
      rfl
    suffices h : ∃ body' p, Without body body' ∧ compileLeaf key body = .ok p ∧
        compileLeaf key body' = .ok p by
      obtain ⟨body', p, hbody, hp, hp'⟩ := h
      exact ⟨key, body, body', schema, p, rfl, hbody, (hleaf _).trans hp, (hleaf _).trans hp'⟩
    cases body with
    | object o =>
      obtain _ | ⟨⟨op, operand⟩, _ | _⟩ := o
      · cases hkept
      · rw [bodyKept, Bool.or_eq_false_iff, Bool.not_eq_false', Bool.not_eq_false'] at hkept
        obtain ⟨operand', hoperand⟩ := Json.hasKeys_iff.mp hkept.2
        obtain ⟨p, hp, hp'⟩ := compileOp_of_without key hoperand hkept.1
        exact ⟨_, p, .inMember [] [] op hoperand, hp, hp'⟩
      · cases hkept
    | array xs =>
      have hkeys : Json.hasKeys (.array xs) = true := by simpa [bodyKept] using hkept
      obtain ⟨w, hw⟩ := Json.hasKeys_iff.mp hkeys
      obtain ⟨xs₁, x, y, xs₂, -, rfl, -⟩ := hw.of_array
      exact ⟨_, _, hw, rfl, rfl⟩
    | _ => cases hkept
  · cases hkept

/-! #### Filters that lose a key -/

variable {fromStr : String → Option Json}

theorem compile_leaf (obj : Json.Map) :
    compile schema (.leaf obj) = compileLeafNode schema obj := by
  rw [compile, compileNode_eq, FilterAst.compileWith, if_neg (by decide)]

theorem condition_object {kvs : Json.Map} {n : FilterAst}
    (hn : FilterAst.ofJson (.object kvs) = some n) :
    condition fromStr schema (.object kvs) = (compile schema n).toOption := by
  have hparse : parseFilterValue fromStr (.object kvs)
      = (FilterAst.ofJson (.object kvs)).elim (Except.error filterShapeHint) Except.ok := rfl
  rw [condition, hparse, hn]
  rfl

/-- Of a filter without stray keys, the keys count when those of its leaves do. -/
theorem keysCount_iff {kvs : Json.Map} (hstray : FilterAst.noStrayKeys (.object kvs) = true) :
    KeysCount fromStr (.object kvs) ↔ FilterAst.leavesKept leafKept (.object kvs) = true := by
  constructor
  · intro h
    refine Bool.not_eq_false _ |>.mp fun hkept => ?_
    -- a leaf that loses a key is a filter of its own, and compiles the same without it
    obtain ⟨obj, hsub, hbool, hleaf⟩ :=
      (FilterAst.exists_leaf_of_not_kept (.object kvs)).1 rfl hstray hkept
    obtain ⟨key, body, body', schema, p, rfl, hbody, hp, hp'⟩ := exists_without_of_not_kept hleaf
    refine h _ hsub _ (.inMember [] [] key hbody) schema p ?_ ?_
    · rw [condition_object (FilterAst.ofJson_leaf hbool), compile_leaf, hp]
      rfl
    · rw [← FilterAst.isBooleanNode_of_without hbody] at hbool
      rw [List.nil_append, condition_object (FilterAst.ofJson_leaf hbool), compile_leaf, hp']
      rfl
  · intro hkept u hsub w hw schema p hu hp
    -- the condition passes on to every filter below
    obtain ⟨hstray, hkept⟩ := FilterAst.kept_of_subfilter hsub hstray hkept
    have htree := FilterAst.isTree_of_subfilter hsub rfl
    obtain ⟨o, o', rfl, rfl⟩ | ⟨_, _, rfl, -⟩ := hw.shape
    · obtain ⟨n, hn⟩ := Option.isSome_iff_exists.mp (FilterAst.ofJson_isSome (.object o))
      obtain ⟨n', hn'⟩ := Option.isSome_iff_exists.mp (FilterAst.ofJson_isSome (.object o'))
      rw [condition_object hn, Except.toOption_eq_some_iff, compile, compileNode_eq] at hu
      rw [condition_object hn', Except.toOption_eq_some_iff, compile, compileNode_eq] at hp
      have hleaf : ∀ key body body', leafKept [(key, body)] = true → Without body body' →
          (∀ c : Unit, True → ∃ p, compileLeafNode schema [(key, body)] = .ok p) →
          ∃ c : Unit, True ∧
            compileLeafNode schema [(key, body')] ≠ compileLeafNode schema [(key, body)] := by
        intro key body body' hleaf hbody hok
        obtain ⟨q, hq⟩ := hok () trivial
        exact ⟨(), trivial, fun heq =>
          compileLeafNode_of_without hleaf hbody hq q (heq.trans hq)⟩
      obtain ⟨c, -, hne⟩ := (FilterAst.compileWith_ne_of_without ⟨(), trivial⟩
        (fun _ _ _ h => compileLeafNode_single h) hleaf (.object o)).1 _ hw hstray hkept 0 n n' hn
        hn' fun _ _ => ⟨p, hu⟩
      exact hne (hp.trans hu.symm)
    · cases htree

end VectorFilter

end Drust
