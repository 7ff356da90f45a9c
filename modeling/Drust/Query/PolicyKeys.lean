import Drust.Query.FilterKeys
import Drust.Query.Policy

/-!
# The keys of a policy

A clause of a policy takes `{"$auth":"id"}` and `{"$data":"<field>"}` for references by that key
alone, and ignores the members next to it, also where it reads the whole body of a leaf as a
reference: `{"owner":{"$auth":"id","$ne":"x"}}` compiles to `owner = ?`, and the second condition
is gone. The keys in other operands make no difference either (`leafKept`).

A reference stands for a value that depends on the caller and the row, so that a key counts here
when the condition is another one without it for some caller and row. A clause that compiles for
one caller compiles for every caller that comes with a row (`compileLeafNode_ok_of_data`).

With the keys that boolean nodes ignore (`FilterAst.noStrayKeys`), these are all the keys that
filters and clauses lose (`filter_loses_nothing_iff`).
-/

namespace Drust

open Sql
open Json (Without)

namespace Policy

open FilterAst (Subfilter)

/-- Compile a leaf of any kind. -/
def compileLeafNode (schema : CollectionSchema) (ctx : PolicyCtx) (obj : Json.Map) :
    Except PolicyError Compiled :=
  match obj with
  | [(key, body)] =>
    if key = "$authenticated" then
      let want := body.asBool.getD true
      .ok (if ctx.authId.isSome = want then "1=1" else "1=0", [])
    else if key = "$fts" then .error .operandUnsupported
    else compileLeaf schema key body ctx
  | _ => .error (.parse .leafKeys)

/-- The reference to the caller is not one. -/
def refused : Json → Bool
  | .object o => (Json.Map.get o "$auth").any fun k => k.asStr != some "id"
  | _ => false

/-- A reference to the caller or to the row, with its key alone. -/
def isReference : Json → Bool
  | .object [(k, v)] => (k = "$auth" && v.asStr = some "id") || (k = "$data" && v.asStr.isSome)
  | _ => false

/-- Every key of an operand counts: it is a reference, or a scalar. -/
def operandKept (operand : Json) : Bool :=
  refused operand || isReference operand || !operand.hasKeys

/-- Every key in the body of a leaf counts. A body with the key of a reference is read as one. -/
def bodyKept : Json → Bool
  | .object o =>
    if Json.Map.containsKey o "$auth" || Json.Map.containsKey o "$data" then
      refused (.object o) || (o.length = 1 && o.all fun kv => !kv.2.hasKeys)
    else match o with
      | [(op, operand)] =>
        match LeafOp.ofName op with
        | some (.inSet _) =>
          match operand with
          | .array arr => arr.any refused || arr.all operandKept
          | _ => true
        | some (.isNull _) => !operand.hasKeys
        | some _ => operandKept operand
        | none => true
      | _ => true
  | body => !body.hasKeys

/-- Every key of a leaf counts, where the leaf compiles. -/
def leafKept : Json.Map → Bool
  | [(key, body)] =>
    if key = "$authenticated" then !body.hasKeys else key = "$fts" || bodyKept body
  | _ => true

section Condition

-- The parser of JSON text, applied to a double-encoded clause only.
variable (fromStr : String → Option Json)

/-- The condition that a clause compiles to for a caller and a row. -/
def condition (schema : CollectionSchema) (v : Json) (ctx : PolicyCtx) : Option Compiled :=
  (parseFilterValue fromStr v).toOption.bind fun ast => (compilePolicyUsing schema ast ctx).toOption

/-- Every key of the clause takes part in the condition of the clause that it stands in: one that
compiles compiles to something else, or not at all, without the key, for some caller and row. -/
def KeysCount (v : Json) : Prop :=
  ∀ u, Subfilter u v → ∀ w, Without u w → ∀ schema ctx p,
    condition fromStr schema u ctx = some p →
      ∃ ctx', condition fromStr schema w ctx' ≠ condition fromStr schema u ctx'

end Condition

variable {schema : CollectionSchema} {ctx : PolicyCtx}

mutual

theorem compileNode_eq (n : FilterAst) (depth : Nat) : compileNode schema n ctx depth
    = FilterAst.compileWith .tooDeep (compileLeafNode schema) ctx n depth := by
  rw [compileNode.eq_def, FilterAst.compileWith.eq_def]
  split
  · rfl
  · cases n with
    | and ns =>
      cases ns with
      | nil => rfl
      | cons n ns =>
        simp only
        rw [compileNodes_eq]
    | or ns =>
      cases ns with
      | nil => rfl
      | cons n ns =>
        simp only
        rw [compileNodes_eq]
    | not n =>
      simp only
      rw [compileNode_eq n]
    | leaf obj => obtain _ | ⟨⟨key, body⟩, _ | _⟩ := obj <;> rfl

theorem compileNodes_eq (ns : List FilterAst) (depth : Nat) : compileNodes schema ns ctx depth
    = FilterAst.compileAllWith .tooDeep (compileLeafNode schema) ctx ns depth := by
  cases ns with
  | nil => rw [compileNodes, FilterAst.compileAllWith]
  | cons n ns => rw [compileNodes, FilterAst.compileAllWith, compileNode_eq n, compileNodes_eq ns]

end

/-! #### Operands that lose a key -/

theorem resolveOperand_auth {o : Json.Map} {k : Json} (hget : Json.Map.get o "$auth" = some k)
    (hk : k.asStr = some "id") : resolveOperand (.object o) ctx = .ok (authValue ctx) := by
  rw [resolveOperand, hget]
  exact if_pos hk

/-- Without a reference to the caller, the operand is known by its reference to the row. -/
theorem resolveOperand_congr {o o' : Json.Map} (hauth : Json.Map.get o "$auth" = none)
    (hauth' : Json.Map.get o' "$auth" = none)
    (hdata : (Json.Map.get o' "$data").bind Json.asStr = (Json.Map.get o "$data").bind Json.asStr) :
    resolveOperand (.object o') ctx = resolveOperand (.object o) ctx := by
  rw [resolveOperand, resolveOperand, hauth, hauth', hdata]
  rfl

theorem refused_eq_false_iff {operand : Json} : refused operand = false ↔
    ∀ o, operand = .object o → ∀ k, Json.Map.get o "$auth" = some k → k.asStr = some "id" := by
  cases operand with
  | object o =>
    rw [refused]
    cases hget : Json.Map.get o "$auth" with
    | none => simp [hget]
    | some k => simp [hget]
  | _ => simp [refused]

/-- An operand resolves for a row unless it is refused. -/
theorem resolveOperand_ok_iff {operand : Json} (hdata : ctx.data.isSome = true) :
    (∃ v, resolveOperand operand ctx = .ok v) ↔ refused operand = false := by
  obtain ⟨row, hrow⟩ := Option.isSome_iff_exists.mp hdata
  rw [refused_eq_false_iff]
  cases operand with
  | object o =>
    unfold resolveOperand
    cases hget : Json.Map.get o "$auth" with
    | some k =>
      by_cases hk : k.asStr = some "id"
      · simp [hk, hget]
      · simp [hk, hget]
    | none =>
      refine iff_of_true ?_ (by simp [hget])
      simp only [hget, hrow]
      cases (Json.Map.get o "$data").bind Json.asStr with
      | none => exact ⟨_, rfl⟩
      | some f => exact ⟨_, rfl⟩
  | _ => exact iff_of_true ⟨_, rfl⟩ (by simp)

theorem not_refused_of_ok {operand : Json} {v : Value} (h : resolveOperand operand ctx = .ok v) :
    refused operand = false := by
  rw [refused_eq_false_iff]
  rintro o rfl k hget
  rw [resolveOperand, hget] at h
  simp only at h
  split at h
  · next hk => exact hk
  · cases h

/-- Of an operand whose keys count, none can be left out without a difference for some caller and
row. -/
theorem resolveOperand_ne_of_without {operand operand' : Json} (hkept : operandKept operand = true)
    (hrefused : refused operand = false) (h : Without operand operand') :
    ∃ ctx : PolicyCtx, ctx.data.isSome = true ∧
      resolveOperand operand' ctx ≠ resolveOperand operand ctx := by
  rw [operandKept, hrefused, Bool.false_or, Bool.or_eq_true] at hkept
  obtain href | hkeys := hkept
  · unfold isReference at href
    split at href
    · next k v =>
      rw [Bool.or_eq_true, Bool.and_eq_true, Bool.and_eq_true, decide_eq_true_eq,
        decide_eq_true_eq, decide_eq_true_eq] at href
      obtain ⟨rfl, hv⟩ | ⟨rfl, hv⟩ := href
      · obtain rfl | ⟨v', -, hv'⟩ := h.of_single
        -- the caller has an id, and without its key the operand is `NULL`
        · refine ⟨{ authId := some "", data := some [] }, rfl, ?_⟩
          rw [resolveOperand_auth (o := [("$auth", v)]) rfl hv]
          intro heq
          cases heq
        · cases v with
          | string s => exact absurd hv' (Json.not_without_of_hasKeys rfl)
          | _ => cases hv
      · cases v with
        | string f =>
          obtain rfl | ⟨v', -, hv'⟩ := h.of_single
          -- a row with a text in the field of the reference
          · refine ⟨{ data := some [(f, .string "")] }, rfl, ?_⟩
            have hfound : resolveOperand (.object [("$data", .string f)])
                { data := some [(f, .string "")] } = .ok (.text "") := by
              simp [resolveOperand, Json.Map.get_cons, memberValue, Json.asStr, jsonToValue]
            rw [hfound]
            intro heq
            cases heq
          · exact absurd hv' (Json.not_without_of_hasKeys rfl)
        | _ => cases hv
    · cases href
  · exact absurd h (Json.not_without_of_hasKeys (by simpa using hkeys))

/-- A reference keeps its meaning without a member next to its key. -/
theorem exists_without_reference {o : Json.Map} (hrefused : refused (.object o) = false)
    (href : Json.Map.containsKey o "$auth" = true ∨ Json.Map.containsKey o "$data" = true)
    (hlength : o.length ≠ 1) : ∃ o', Without (.object o) (.object o') ∧
      (Json.Map.containsKey o' "$auth" = true ∨ Json.Map.containsKey o' "$data" = true) ∧
      ∀ ctx, resolveOperand (.object o') ctx = resolveOperand (.object o) ctx := by
  cases hauth : Json.Map.get o "$auth" with
  | some k =>
    have hk : k.asStr = some "id" := refused_eq_false_iff.mp hrefused o rfl k hauth
    obtain ⟨kvs₁, kv, kvs₂, rfl, hget⟩ := Json.Map.exists_without_get hauth hlength
    refine ⟨_, .member kvs₁ kvs₂ kv, .inl ((Json.Map.containsKey_iff _ _).mpr ⟨k, hget⟩), ?_⟩
    intro ctx
    rw [resolveOperand_auth hget hk, resolveOperand_auth hauth hk]
  | none =>
    rw [Json.Map.containsKey_iff, Json.Map.containsKey_iff, hauth] at href
    obtain ⟨_, ⟨⟩⟩ | ⟨x, hdata⟩ := href
    obtain ⟨kvs₁, kv, kvs₂, rfl, hget⟩ := Json.Map.exists_without_get hdata hlength
    refine ⟨_, .member kvs₁ kvs₂ kv, .inr ((Json.Map.containsKey_iff _ _).mpr ⟨x, hget⟩), ?_⟩
    intro ctx
    have hauth' := Json.Map.get_eq_none_of_append kvs₁ hauth
    exact resolveOperand_congr hauth hauth' (by rw [hget, hdata])

/-- An operand with a key that does not count means the same without it. -/
theorem exists_without_operand {operand : Json} (hkept : operandKept operand = false) :
    ∃ operand', Without operand operand' ∧
      ∀ ctx, resolveOperand operand' ctx = resolveOperand operand ctx := by
  rw [operandKept, Bool.or_eq_false_iff, Bool.or_eq_false_iff, Bool.not_eq_false'] at hkept
  obtain ⟨⟨hrefused, href⟩, hkeys⟩ := hkept
  cases operand with
  | array xs =>
    obtain ⟨w, hw⟩ := Json.hasKeys_iff.mp hkeys
    obtain ⟨xs₁, x, y, xs₂, -, rfl, -⟩ := hw.of_array
    exact ⟨_, hw, fun _ => rfl⟩
  | object o =>
    obtain _ | ⟨⟨k, v⟩, o⟩ := o
    · cases hkeys
    · cases o with
      | nil =>
        -- one member, which is no reference
        refine ⟨_, .member [] [] (k, v), fun ctx => ?_⟩
        have hauth : Json.Map.get [(k, v)] "$auth" = none := by
          rw [Json.Map.get_cons, Json.Map.get_nil]
          refine if_neg fun hk => ?_
          have hv := refused_eq_false_iff.mp hrefused _ rfl v (by rw [Json.Map.get_cons, if_pos hk])
          simp [isReference, hk, hv] at href
        refine resolveOperand_congr hauth rfl ?_
        rw [Json.Map.get_cons]
        split
        · next hk =>
          cases hv : v.asStr with
          | none => exact hv.symm
          | some f => simp [isReference, hk, hv] at href
        · rfl
      | cons kv o =>
        -- with a second member any of them can go that the reference does not need
        by_cases hcontains : Json.Map.containsKey ((k, v) :: kv :: o) "$auth" = true ∨
            Json.Map.containsKey ((k, v) :: kv :: o) "$data" = true
        · obtain ⟨o', hw, -, heq⟩ := exists_without_reference hrefused hcontains (by simp)
          exact ⟨_, hw, heq⟩
        · refine ⟨_, .member [] (kv :: o) (k, v), fun ctx => ?_⟩
          rw [not_or, Json.Map.containsKey_eq_isSome, Json.Map.containsKey_eq_isSome,
            Option.not_isSome_iff_eq_none, Option.not_isSome_iff_eq_none] at hcontains
          have hnone : ∀ key, Json.Map.get ((k, v) :: kv :: o) key = none →
              Json.Map.get (kv :: o) key = none :=
            fun key h => Json.Map.get_eq_none_of_append [] h
          refine resolveOperand_congr hcontains.1 (hnone _ hcontains.1) ?_
          rw [List.nil_append, hcontains.2, hnone _ hcontains.2]
  | _ => cases hkeys

/-! #### Leaves that lose a key -/

theorem resolveOperands_ok {operands : List Json} {vs : List Value}
    (h : resolveOperands operands ctx = .ok vs) :
    ∀ x ∈ operands, ∃ v, resolveOperand x ctx = .ok v := by
  induction operands generalizing vs with
  | nil => exact fun x hx => absurd hx List.not_mem_nil
  | cons x xs ih =>
    obtain ⟨v, hv, h⟩ := Except.bind_eq_ok_iff.mp h
    obtain ⟨rest, hrest, -⟩ := Except.bind_eq_ok_iff.mp h
    exact List.forall_mem_cons.mpr ⟨⟨v, hv⟩, ih hrest⟩

theorem exists_resolved {operands : List Json} (hdata : ctx.data.isSome = true)
    (h : ∀ x ∈ operands, refused x = false) : ∃ vs, resolveOperands operands ctx = .ok vs := by
  induction operands with
  | nil => exact ⟨[], rfl⟩
  | cons x xs ih =>
    obtain ⟨hx, hxs⟩ := List.forall_mem_cons.mp h
    obtain ⟨v, hv⟩ := (resolveOperand_ok_iff hdata).mpr hx
    obtain ⟨vs, hvs⟩ := ih hxs
    exact ⟨v :: vs, by rw [resolveOperands, hv, Except.ok_bind, hvs]; rfl⟩

/-- The value of one element can be read off the values of a set. -/
theorem resolveOperand_eq_of_set {xs ys : List Json} {x y : Json} {vs : List Value}
    (h : resolveOperands (xs ++ x :: ys) ctx = .ok vs)
    (h' : resolveOperands (xs ++ y :: ys) ctx = .ok vs) :
    resolveOperand y ctx = resolveOperand x ctx := by
  induction xs generalizing vs with
  | nil =>
    obtain ⟨v, hv, h⟩ := Except.bind_eq_ok_iff.mp h
    obtain ⟨rest, -, h⟩ := Except.bind_eq_ok_iff.mp h
    obtain ⟨v', hv', h'⟩ := Except.bind_eq_ok_iff.mp h'
    obtain ⟨rest', -, h'⟩ := Except.bind_eq_ok_iff.mp h'
    rw [hv, hv', (List.cons.inj (Except.ok.inj (h.trans h'.symm))).1]
  | cons z xs ih =>
    obtain ⟨v, -, h⟩ := Except.bind_eq_ok_iff.mp h
    obtain ⟨rest, hrest, h⟩ := Except.bind_eq_ok_iff.mp h
    obtain ⟨v', -, h'⟩ := Except.bind_eq_ok_iff.mp h'
    obtain ⟨rest', hrest', h'⟩ := Except.bind_eq_ok_iff.mp h'
    obtain rfl := (List.cons.inj (Except.ok.inj (h.trans h'.symm))).2
    exact ih hrest hrest'

theorem resolveOperands_congr {xs ys : List Json} {x y : Json}
    (h : resolveOperand y ctx = resolveOperand x ctx) :
    resolveOperands (xs ++ y :: ys) ctx = resolveOperands (xs ++ x :: ys) ctx := by
  induction xs with
  | nil => rw [List.nil_append, List.nil_append, resolveOperands, resolveOperands, h]
  | cons z xs ih => rw [List.cons_append, List.cons_append, resolveOperands, resolveOperands, ih]

theorem compileLeafNode_single {obj : Json.Map} {p : Compiled}
    (h : compileLeafNode schema ctx obj = .ok p) : ∃ key body, obj = [(key, body)] := by
  obtain _ | ⟨⟨key, body⟩, _ | _⟩ := obj
  · cases h
  · exact ⟨key, body, rfl⟩
  · cases h

/-- A comparison with an operand, however it is written. -/
def comparison (text : String) (operand : Json) (ctx : PolicyCtx) :
    Except PolicyError Compiled := do
  let v ← resolveOperand operand ctx
  .ok (text, [v])

theorem comparison_inj {text : String} {x y : Json} {p : Compiled}
    (h : comparison text x ctx = .ok p) (h' : comparison text y ctx = .ok p) :
    resolveOperand y ctx = resolveOperand x ctx := by
  obtain ⟨v, hv, h⟩ := Except.bind_eq_ok_iff.mp h
  obtain ⟨v', hv', h'⟩ := Except.bind_eq_ok_iff.mp h'
  have hpair := Except.ok.inj (h.trans h'.symm)
  rw [hv, hv', (List.cons.inj (Prod.mk.inj hpair).2).1]

theorem comparison_ok_iff {text : String} {x : Json} :
    (∃ p, comparison text x ctx = .ok p) ↔ ∃ v, resolveOperand x ctx = .ok v := by
  constructor
  · rintro ⟨p, h⟩
    obtain ⟨v, hv, -⟩ := Except.bind_eq_ok_iff.mp h
    exact ⟨v, hv⟩
  · rintro ⟨v, hv⟩
    exact ⟨(text, [v]), by rw [comparison, hv]; rfl⟩

theorem comparison_congr {text : String} {x y : Json}
    (h : resolveOperand y ctx = resolveOperand x ctx) :
    comparison text y ctx = comparison text x ctx := by
  rw [comparison, comparison, h]

/-- An operator that compares. -/
theorem compileOp_eq_comparison (field : String) {op : String} {o : LeafOp}
    (hop : LeafOp.ofName op = some o) (hset : ∀ neg, o ≠ .inSet neg)
    (hnull : ∀ neg, o ≠ .isNull neg) :
    ∃ text, ∀ operand ctx, compileOp field op operand ctx = comparison text operand ctx := by
  cases o with
  | cmp c =>
    refine ⟨quoteIdent field ++ " " ++ c.text ++ " ?", fun _ _ => ?_⟩
    rw [compileOp, hop]
    rfl
  | like =>
    refine ⟨quoteIdent field ++ " " ++ "LIKE" ++ " ?", fun _ _ => ?_⟩
    rw [compileOp, hop]
    rfl
  | inSet neg => exact absurd rfl (hset neg)
  | isNull neg => exact absurd rfl (hnull neg)

/-- A body that has a reference's key is compared as one, and a body that is no object. -/
theorem compileLeaf_eq_comparison {field : String} {body : Json}
    (hbody : ∀ o, body = .object o →
      Json.Map.containsKey o "$auth" = true ∨ Json.Map.containsKey o "$data" = true) :
    compileLeaf schema field body ctx = validateField schema field >>= fun _ =>
      comparison (quoteIdent field ++ " " ++ CmpOp.text .eq ++ " ?") body ctx := by
  cases body with
  | object o =>
    have href := Bool.or_eq_true_iff.mpr (hbody o rfl)
    simp only [compileLeaf, href, if_true]
    rfl
  | _ => rfl

theorem compileLeaf_op {field op : String} {operand : Json} (hauth : op ≠ "$auth")
    (hdata : op ≠ "$data") : compileLeaf schema field (.object [(op, operand)]) ctx
      = validateField schema field >>= fun _ => compileOp field op operand ctx := by
  have href : (Json.Map.containsKey [(op, operand)] "$auth" ||
      Json.Map.containsKey [(op, operand)] "$data") = false := by
    simp [Json.Map.containsKey, hauth, hdata]
  simp only [compileLeaf, href, Bool.false_eq_true, if_false]

/-- A body with no member, or with several and no reference, does not compile. -/
theorem compileLeaf_members {field : String} {o : Json.Map} {p : Compiled}
    (h : compileLeaf schema field (.object o) ctx = .ok p) :
    (Json.Map.containsKey o "$auth" = true ∨ Json.Map.containsKey o "$data" = true) ∨
      ∃ op operand, o = [(op, operand)] ∧ op ≠ "$auth" ∧ op ≠ "$data" := by
  obtain ⟨_, -, h⟩ := Except.bind_eq_ok_iff.mp h
  simp only at h
  split at h
  · next href => exact .inl (Bool.or_eq_true_iff.mp href)
  · next href =>
    split at h
    · next op operand _ =>
      simp only [Json.Map.containsKey, List.any_cons, List.any_nil, Bool.or_false,
        Bool.or_eq_true, beq_iff_eq, not_or] at href
      exact .inr ⟨op, operand, rfl, href⟩
    · cases h

theorem compileOp_of_name {field op : String} {operand : Json} {p : Compiled}
    (h : compileOp field op operand ctx = .ok p) : ∃ o, LeafOp.ofName op = some o := by
  unfold compileOp at h
  split at h
  · next hop => exact ⟨_, hop⟩
  · next hop => exact ⟨_, hop⟩
  · next hop => exact ⟨_, hop⟩
  · next hop => exact ⟨_, hop⟩
  · cases h

/-- A set with an element. -/
theorem compileOp_set {field op : String} {neg : Bool} (hop : LeafOp.ofName op = some (.inSet neg))
    (xs : List Json) (x : Json) (ys : List Json) :
    compileOp field op (.array (xs ++ x :: ys)) ctx
      = resolveOperands (xs ++ x :: ys) ctx >>= fun vs =>
        .ok (quoteIdent field ++ " " ++ inText neg ++ " (" ++
          placeholders (xs.length + (ys.length + 1)) ++ ")", vs) := by
  have hempty : (xs ++ x :: ys).isEmpty = false := by simp
  rw [compileOp, hop]
  simp only [hempty, Bool.false_eq_true, if_false, List.length_append, List.length_cons]

theorem bodyKept_reference {o : Json.Map}
    (href : Json.Map.containsKey o "$auth" = true ∨ Json.Map.containsKey o "$data" = true) :
    bodyKept (.object o)
      = (refused (.object o) || (o.length = 1 && o.all fun kv => !kv.2.hasKeys)) := by
  rw [bodyKept.eq_def]
  exact if_pos (Bool.or_eq_true_iff.mpr href)

theorem bodyKept_op {op : String} {operand : Json} {o : LeafOp} (hauth : op ≠ "$auth")
    (hdata : op ≠ "$data") (hop : LeafOp.ofName op = some o) :
    bodyKept (.object [(op, operand)]) = match o with
      | .inSet _ => match operand with
        | .array arr => arr.any refused || arr.all operandKept
        | _ => true
      | .isNull _ => !operand.hasKeys
      | _ => operandKept operand := by
  rw [bodyKept.eq_def]
  simp only [Json.Map.containsKey, List.any_cons, List.any_nil, beq_eq_false_iff_ne.mpr hauth,
    beq_eq_false_iff_ne.mpr hdata, Bool.or_self, Bool.false_eq_true, if_false, hop]
  cases o <;> rfl

/-- A comparison without a key of its operand. -/
theorem comparison_ne_of_without {text : String} {operand operand' : Json}
    (hkept : operandKept operand = true) (h : Without operand operand')
    (hok : ∀ ctx : PolicyCtx, ctx.data.isSome = true → ∃ p, comparison text operand ctx = .ok p) :
    ∃ ctx : PolicyCtx, ctx.data.isSome = true ∧
      comparison text operand' ctx ≠ comparison text operand ctx := by
  obtain ⟨v, hv⟩ := comparison_ok_iff.mp (hok { data := some [] } rfl)
  obtain ⟨ctx, hctx, hne⟩ := resolveOperand_ne_of_without hkept (not_refused_of_ok hv) h
  obtain ⟨p, hp⟩ := hok ctx hctx
  exact ⟨ctx, hctx, fun heq => hne (comparison_inj hp (heq.trans hp))⟩

/-- A membership test without a key in its set. -/
theorem compileOp_set_ne_of_without {field op : String} {neg : Bool} {arr : List Json} {w : Json}
    (hop : LeafOp.ofName op = some (.inSet neg))
    (hkept : (arr.any refused || arr.all operandKept) = true) (h : Without (.array arr) w)
    (hok : ∀ ctx : PolicyCtx, ctx.data.isSome = true →
      ∃ p, compileOp field op (.array arr) ctx = .ok p) :
    ∃ ctx : PolicyCtx, ctx.data.isSome = true ∧
      compileOp field op w ctx ≠ compileOp field op (.array arr) ctx := by
  obtain ⟨xs, x, y, ys, rfl, rfl, hxy⟩ := h.of_array
  have hmem : x ∈ xs ++ x :: ys := List.mem_append_right _ List.mem_cons_self
  simp only [compileOp_set hop] at hok ⊢
  obtain ⟨p, hp⟩ := hok { data := some [] } rfl
  obtain ⟨vs, hvs, -⟩ := Except.bind_eq_ok_iff.mp hp
  have hrefused : ∀ z ∈ xs ++ x :: ys, refused z = false := by
    intro z hz
    obtain ⟨v, hv⟩ := resolveOperands_ok hvs z hz
    exact not_refused_of_ok hv
  have hany : (xs ++ x :: ys).any refused = false :=
    List.any_eq_false.mpr fun z hz => by simp [hrefused z hz]
  rw [hany, Bool.false_or] at hkept
  obtain ⟨ctx, hctx, hne⟩ := resolveOperand_ne_of_without (List.all_eq_true.mp hkept x hmem)
    (hrefused x hmem) hxy
  refine ⟨ctx, hctx, fun heq => hne ?_⟩
  obtain ⟨q, hq⟩ := hok ctx hctx
  obtain ⟨vs, hvs, h⟩ := Except.bind_eq_ok_iff.mp hq
  obtain ⟨vs', hvs', h'⟩ := Except.bind_eq_ok_iff.mp (heq.trans hq)
  obtain rfl := (Prod.mk.inj (Except.ok.inj (h.trans h'.symm))).2
  exact resolveOperand_eq_of_set hvs hvs'

/-- An operator without a key of its operand. -/
theorem compileOp_ne_of_without {field op : String} {operand operand' : Json} (hauth : op ≠ "$auth")
    (hdata : op ≠ "$data") (hkept : bodyKept (.object [(op, operand)]) = true)
    (h : Without operand operand')
    (hok : ∀ ctx : PolicyCtx, ctx.data.isSome = true →
      ∃ p, compileOp field op operand ctx = .ok p) :
    ∃ ctx : PolicyCtx, ctx.data.isSome = true ∧
      compileOp field op operand' ctx ≠ compileOp field op operand ctx := by
  obtain ⟨p, hp⟩ := hok { data := some [] } rfl
  obtain ⟨o, hop⟩ := compileOp_of_name hp
  rw [bodyKept_op hauth hdata hop] at hkept
  have hcompare : (∀ neg, o ≠ .inSet neg) → (∀ neg, o ≠ .isNull neg) →
      operandKept operand = true → ∃ ctx : PolicyCtx, ctx.data.isSome = true ∧
        compileOp field op operand' ctx ≠ compileOp field op operand ctx := by
    intro hset hnull hkept
    obtain ⟨text, htext⟩ := compileOp_eq_comparison field hop hset hnull
    simp only [htext] at hok ⊢
    exact comparison_ne_of_without hkept h hok
  cases o with
  | cmp c => exact hcompare (fun _ h => by cases h) (fun _ h => by cases h) hkept
  | like => exact hcompare (fun _ h => by cases h) (fun _ h => by cases h) hkept
  | isNull neg => exact absurd h (Json.not_without_of_hasKeys (by simpa using hkept))
  | inSet neg =>
    obtain ⟨_, _, rfl, -⟩ | ⟨_, _, rfl, -⟩ := h.shape
    · rw [compileOp, hop] at hp
      cases hp
    · exact compileOp_set_ne_of_without hop hkept h hok

/-- Of a body whose keys count, none can be left out without a difference for some caller and
row. -/
theorem compileLeaf_ne_of_without {field : String} {body body' : Json}
    (hkept : bodyKept body = true) (hbody : Without body body')
    (hok : ∀ ctx : PolicyCtx, ctx.data.isSome = true →
      ∃ p, compileLeaf schema field body ctx = .ok p) :
    ∃ ctx : PolicyCtx, ctx.data.isSome = true ∧
      compileLeaf schema field body' ctx ≠ compileLeaf schema field body ctx := by
  obtain ⟨p, hp⟩ := hok { data := some [] } rfl
  -- a body without members does not compile
  have hempty : ∃ ctx : PolicyCtx, ctx.data.isSome = true ∧
      compileLeaf schema field (.object []) ctx ≠ compileLeaf schema field body ctx := by
    refine ⟨{ data := some [] }, rfl, fun heq => ?_⟩
    obtain (h | h) | ⟨_, _, h, -⟩ := compileLeaf_members (heq.trans hp)
    · cases h
    · cases h
    · cases h
  cases body with
  | object o =>
    -- a body that compiles is a reference, or has an operator as its only member
    obtain href | ⟨op, operand, rfl, hauth, hdata⟩ := compileLeaf_members hp
    · rw [compileLeaf_eq_comparison fun _ h => Json.object.inj h ▸ href] at hp
      obtain ⟨_, -, hp⟩ := Except.bind_eq_ok_iff.mp hp
      obtain ⟨v, hv⟩ := comparison_ok_iff.mp ⟨p, hp⟩
      rw [bodyKept_reference href, not_refused_of_ok hv, Bool.false_or, Bool.and_eq_true,
        decide_eq_true_eq] at hkept
      obtain ⟨⟨k, x⟩, rfl⟩ := List.length_eq_one_iff.mp hkept.1
      obtain rfl | ⟨x', -, hx⟩ := hbody.of_single
      · exact hempty
      · exact absurd hx (Json.not_without_of_hasKeys (by simpa using hkept.2))
    · obtain rfl | ⟨operand', rfl, hoperand⟩ := hbody.of_single
      · exact hempty
      · rw [compileLeaf_op hauth hdata] at hp
        obtain ⟨_, hvalid, -⟩ := Except.bind_eq_ok_iff.mp hp
        have hleaf : ∀ x ctx, compileLeaf schema field (.object [(op, x)]) ctx
            = compileOp field op x ctx := by
          intro x ctx
          rw [compileLeaf_op hauth hdata, hvalid]
          rfl
        simp only [hleaf] at hok ⊢
        exact compileOp_ne_of_without hauth hdata hkept hoperand hok
  | _ => exact absurd hbody (Json.not_without_of_hasKeys (by simpa [bodyKept] using hkept))

theorem compileLeafNode_ne_of_without {key : String} {body body' : Json}
    (hkept : leafKept [(key, body)] = true) (hbody : Without body body')
    (hok : ∀ ctx : PolicyCtx, ctx.data.isSome = true →
      ∃ p, compileLeafNode schema ctx [(key, body)] = .ok p) :
    ∃ ctx : PolicyCtx, ctx.data.isSome = true ∧
      compileLeafNode schema ctx [(key, body')] ≠ compileLeafNode schema ctx [(key, body)] := by
  unfold compileLeafNode at hok ⊢
  unfold leafKept at hkept
  by_cases hauthenticated : key = "$authenticated"
  · simp only [hauthenticated, if_true] at hkept
    exact absurd hbody (Json.not_without_of_hasKeys (by simpa using hkept))
  · simp only [if_neg hauthenticated] at hkept hok ⊢
    by_cases hfts : key = "$fts"
    · obtain ⟨p, hp⟩ := hok { data := some [] } rfl
      rw [if_pos hfts] at hp
      cases hp
    · simp only [hfts, if_false, decide_false, Bool.false_or] at hkept hok ⊢
      exact compileLeaf_ne_of_without hkept hbody hok

/-! #### Leaves with a key that does not count -/

/-- An operand of an operator that has a key that does not count. -/
theorem exists_without_op {field op : String} {operand : Json} (hauth : op ≠ "$auth")
    (hdata : op ≠ "$data") (hkept : bodyKept (.object [(op, operand)]) = false) :
    ∃ operand', Without operand operand' ∧
      (∀ ctx, compileOp field op operand' ctx = compileOp field op operand ctx) ∧
      ∀ ctx : PolicyCtx, ctx.data.isSome = true → ∃ p, compileOp field op operand ctx = .ok p := by
  cases hop : LeafOp.ofName op with
  | none =>
    rw [bodyKept.eq_def] at hkept
    simp [Json.Map.containsKey, hauth, hdata, hop] at hkept
  | some o =>
    rw [bodyKept_op hauth hdata hop] at hkept
    -- the operators that compare with one operand share an argument
    have hcompare : (∀ neg, o ≠ .inSet neg) → (∀ neg, o ≠ .isNull neg) →
        operandKept operand = false → ∃ operand', Without operand operand' ∧
          (∀ ctx, compileOp field op operand' ctx = compileOp field op operand ctx) ∧
          ∀ ctx : PolicyCtx, ctx.data.isSome = true →
            ∃ p, compileOp field op operand ctx = .ok p := by
      intro hset hnull hkept
      obtain ⟨text, htext⟩ := compileOp_eq_comparison field hop hset hnull
      obtain ⟨operand', hw, heq⟩ := exists_without_operand hkept
      rw [operandKept, Bool.or_eq_false_iff, Bool.or_eq_false_iff] at hkept
      simp only [htext]
      exact ⟨operand', hw, fun ctx => comparison_congr (heq ctx),
        fun ctx hctx => comparison_ok_iff.mpr ((resolveOperand_ok_iff hctx).mpr hkept.1.1)⟩
    cases o with
    | cmp c => exact hcompare (fun _ h => by cases h) (fun _ h => by cases h) hkept
    | like => exact hcompare (fun _ h => by cases h) (fun _ h => by cases h) hkept
    | isNull neg =>
      obtain ⟨operand', hw⟩ := Json.hasKeys_iff.mp (by simpa using hkept)
      refine ⟨operand', hw, fun ctx => ?_, fun ctx _ => ?_⟩
      · rw [compileOp, compileOp, hop]
      · rw [compileOp, hop]
        exact ⟨_, rfl⟩
    | inSet neg =>
      cases operand with
      | array arr =>
        simp only [Bool.or_eq_false_iff, List.any_eq_false, Bool.not_eq_true] at hkept
        obtain ⟨hrefused, hall⟩ := hkept
        -- one element of the set has a key that its value does not need
        obtain ⟨x, hx, hkept⟩ := List.all_eq_false.mp hall
        obtain ⟨y, hxy, heq⟩ := exists_without_operand (Bool.not_eq_true _ |>.mp hkept)
        obtain ⟨xs, ys, rfl⟩ := List.append_of_mem hx
        refine ⟨_, .inElem xs ys hxy, fun ctx => ?_, fun ctx hctx => ?_⟩
        · rw [compileOp_set hop, compileOp_set hop, resolveOperands_congr (heq ctx)]
        · obtain ⟨vs, hvs⟩ := exists_resolved hctx hrefused
          rw [compileOp_set hop, hvs]
          exact ⟨_, rfl⟩
      | _ => cases hkept

/-- A body with a key that does not count. -/
theorem exists_without_body {field : String} {body : Json}
    (hvalid : validateField schema field = .ok ()) (hkept : bodyKept body = false) :
    ∃ body', Without body body' ∧
      (∀ ctx, compileLeaf schema field body' ctx = compileLeaf schema field body ctx) ∧
      ∀ ctx : PolicyCtx, ctx.data.isSome = true →
        ∃ p, compileLeaf schema field body ctx = .ok p := by
  cases body with
  | object o =>
    by_cases href : Json.Map.containsKey o "$auth" = true ∨ Json.Map.containsKey o "$data" = true
    · rw [bodyKept_reference href, Bool.or_eq_false_iff] at hkept
      obtain ⟨hrefused, hkept⟩ := hkept
      suffices h : ∃ o', Without (.object o) (.object o') ∧
          (Json.Map.containsKey o' "$auth" = true ∨ Json.Map.containsKey o' "$data" = true) ∧
          ∀ ctx, resolveOperand (.object o') ctx = resolveOperand (.object o) ctx by
        obtain ⟨o', hw, href', heq⟩ := h
        refine ⟨_, hw, fun ctx => ?_, fun ctx hctx => ?_⟩
        · rw [compileLeaf_eq_comparison fun _ h => Json.object.inj h ▸ href',
            compileLeaf_eq_comparison fun _ h => Json.object.inj h ▸ href, hvalid, Except.ok_bind,
            Except.ok_bind, comparison_congr (heq ctx)]
        · rw [compileLeaf_eq_comparison fun _ h => Json.object.inj h ▸ href, hvalid, Except.ok_bind]
          exact comparison_ok_iff.mpr ((resolveOperand_ok_iff hctx).mpr hrefused)
      by_cases hlength : o.length = 1
      · -- a reference to the row that is none, with keys in its value
        obtain ⟨⟨k, v⟩, rfl⟩ := List.length_eq_one_iff.mp hlength
        have hkeys : v.hasKeys = true := by simpa using hkept
        obtain ⟨w, hw⟩ := Json.hasKeys_iff.mp hkeys
        have hstr : v.asStr = none ∧ w.asStr = none := by
          obtain ⟨_, _, rfl, rfl⟩ | ⟨_, _, rfl, rfl⟩ := hw.shape <;> exact ⟨rfl, rfl⟩
        have hauth : ∀ x, k = "$data" → Json.Map.get [(k, x)] "$auth" = none := by
          rintro x rfl
          rfl
        have hk : k = "$data" := by
          simp only [Json.Map.containsKey, List.any_cons, List.any_nil, Bool.or_false,
            beq_iff_eq] at href
          refine href.resolve_left fun hk => ?_
          have hv := refused_eq_false_iff.mp hrefused _ rfl v (by rw [Json.Map.get_cons, if_pos hk])
          rw [hstr.1] at hv
          cases hv
        refine ⟨_, .inMember [] [] k hw, ?_, fun ctx => ?_⟩
        · exact .inr (by simp [Json.Map.containsKey, hk])
        · refine resolveOperand_congr (hauth v hk) (hauth w hk) ?_
          rw [Json.Map.get_cons, List.nil_append, Json.Map.get_cons, if_pos hk, if_pos hk]
          exact hstr.2.trans hstr.1.symm
      · exact exists_without_reference hrefused href hlength
    · obtain _ | ⟨⟨op, operand⟩, _ | _⟩ := o
      · cases hkept
      · simp only [Json.Map.containsKey, List.any_cons, List.any_nil, Bool.or_false,
          beq_iff_eq, not_or] at href
        obtain ⟨operand', hw, heq, hok⟩ := exists_without_op href.1 href.2 hkept
        refine ⟨_, .inMember [] [] op hw, fun ctx => ?_, fun ctx hctx => ?_⟩
        · rw [List.nil_append, compileLeaf_op href.1 href.2, compileLeaf_op href.1 href.2, heq]
        · rw [compileLeaf_op href.1 href.2, hvalid]
          exact hok ctx hctx
      · rw [bodyKept.eq_def] at hkept
        simp [not_or.mp href] at hkept
  | array xs =>
    obtain ⟨w, hw⟩ := Json.hasKeys_iff.mp (show Json.hasKeys (.array xs) = true by
      simpa [bodyKept] using hkept)
    obtain ⟨xs₁, x, y, xs₂, -, rfl, -⟩ := hw.of_array
    refine ⟨_, hw, fun ctx => rfl, fun ctx _ => ?_⟩
    rw [compileLeaf_eq_comparison (fun _ h => by cases h), hvalid]
    exact ⟨_, rfl⟩
  | _ => cases hkept

/-- A leaf with a key that does not count compiles to the same condition without it. -/
theorem exists_without_of_not_kept {kvs : Json.Map} (hkept : leafKept kvs = false) :
    ∃ key body body' schema, kvs = [(key, body)] ∧ Without body body' ∧
      (∀ ctx, compileLeafNode schema ctx [(key, body')]
        = compileLeafNode schema ctx [(key, body)]) ∧
      ∀ ctx : PolicyCtx, ctx.data.isSome = true →
        ∃ p, compileLeafNode schema ctx [(key, body)] = .ok p := by
  obtain _ | ⟨⟨key, body⟩, _ | _⟩ := kvs
  · cases hkept
  · -- a collection with the one column
    let schema : CollectionSchema := { name := "", fields := [{ name := key, sqlType := "" }] }
    suffices h : ∃ body', Without body body' ∧
        (∀ ctx, compileLeafNode schema ctx [(key, body')]
          = compileLeafNode schema ctx [(key, body)]) ∧
        ∀ ctx : PolicyCtx, ctx.data.isSome = true →
          ∃ p, compileLeafNode schema ctx [(key, body)] = .ok p by
      obtain ⟨body', hbody, heq, hok⟩ := h
      exact ⟨key, body, body', schema, rfl, hbody, heq, hok⟩
    unfold leafKept at hkept
    unfold compileLeafNode
    by_cases hauthenticated : key = "$authenticated"
    · simp only [hauthenticated, if_true] at hkept ⊢
      obtain ⟨w, hw⟩ := Json.hasKeys_iff.mp (by simpa using hkept)
      refine ⟨w, hw, fun ctx => ?_, fun ctx _ => ⟨_, rfl⟩⟩
      obtain ⟨_, _, rfl, rfl⟩ | ⟨_, _, rfl, rfl⟩ := hw.shape <;> rfl
    · simp only [if_neg hauthenticated, Bool.or_eq_false_iff, decide_eq_false_iff_not] at hkept ⊢
      simp only [if_neg hkept.1]
      have hvalid : validateField schema key = .ok () := by simp [validateField, schema]
      exact exists_without_body hvalid hkept.2
  · cases hkept

/-! #### Clauses that lose a key -/

theorem comparison_ok_of_data {text : String} {operand : Json} {p : Compiled} {ctx' : PolicyCtx}
    (h : comparison text operand ctx = .ok p) (hdata : ctx'.data.isSome = true) :
    ∃ q, comparison text operand ctx' = .ok q := by
  obtain ⟨v, hv⟩ := comparison_ok_iff.mp ⟨p, h⟩
  exact comparison_ok_iff.mpr ((resolveOperand_ok_iff hdata).mpr (not_refused_of_ok hv))

theorem compileOp_ok_of_data {field op : String} {operand : Json} {p : Compiled} {ctx' : PolicyCtx}
    (h : compileOp field op operand ctx = .ok p) (hdata : ctx'.data.isSome = true) :
    ∃ q, compileOp field op operand ctx' = .ok q := by
  obtain ⟨o, hop⟩ := compileOp_of_name h
  have hcompare : (∀ neg, o ≠ .inSet neg) → (∀ neg, o ≠ .isNull neg) →
      ∃ q, compileOp field op operand ctx' = .ok q := by
    intro hset hnull
    obtain ⟨text, htext⟩ := compileOp_eq_comparison field hop hset hnull
    rw [htext] at h ⊢
    exact comparison_ok_of_data h hdata
  cases o with
  | cmp c => exact hcompare (fun _ h => by cases h) (fun _ h => by cases h)
  | like => exact hcompare (fun _ h => by cases h) (fun _ h => by cases h)
  | isNull neg =>
    rw [compileOp, hop]
    exact ⟨_, rfl⟩
  | inSet neg =>
    cases operand with
    | array arr =>
      cases arr with
      | nil =>
        rw [compileOp, hop]
        exact ⟨_, rfl⟩
      | cons x xs =>
        rw [← List.nil_append (x :: xs), compileOp_set hop] at h ⊢
        obtain ⟨vs, hvs, -⟩ := Except.bind_eq_ok_iff.mp h
        obtain ⟨vs', hvs'⟩ := exists_resolved hdata fun z hz => by
          obtain ⟨v, hv⟩ := resolveOperands_ok hvs z hz
          exact not_refused_of_ok hv
        rw [hvs']
        exact ⟨_, rfl⟩
    | _ =>
      rw [compileOp, hop] at h
      cases h

/-- A leaf that compiles for one caller compiles for every caller that comes with a row. -/
theorem compileLeafNode_ok_of_data {obj : Json.Map} {p : Compiled} {ctx' : PolicyCtx}
    (h : compileLeafNode schema ctx obj = .ok p) (hdata : ctx'.data.isSome = true) :
    ∃ q, compileLeafNode schema ctx' obj = .ok q := by
  obtain ⟨key, body, rfl⟩ := compileLeafNode_single h
  unfold compileLeafNode at h ⊢
  by_cases hauthenticated : key = "$authenticated"
  · simp only [hauthenticated, if_true]
    exact ⟨_, rfl⟩
  · simp only [if_neg hauthenticated] at h ⊢
    by_cases hfts : key = "$fts"
    · rw [if_pos hfts] at h
      cases h
    · rw [if_neg hfts] at h ⊢
      have hcompare : (∀ o, body = .object o →
          Json.Map.containsKey o "$auth" = true ∨ Json.Map.containsKey o "$data" = true) →
          ∃ q, compileLeaf schema key body ctx' = .ok q := by
        intro hbody
        rw [compileLeaf_eq_comparison hbody] at h ⊢
        obtain ⟨_, hvalid, h⟩ := Except.bind_eq_ok_iff.mp h
        rw [hvalid]
        exact comparison_ok_of_data h hdata
      cases body with
      | object o =>
        obtain href | ⟨op, operand, rfl, hauth, hdata'⟩ := compileLeaf_members h
        · exact hcompare fun _ ho => Json.object.inj ho ▸ href
        · rw [compileLeaf_op hauth hdata'] at h ⊢
          obtain ⟨_, hvalid, h⟩ := Except.bind_eq_ok_iff.mp h
          rw [hvalid]
          exact compileOp_ok_of_data h hdata
      | _ => exact hcompare fun _ ho => by cases ho

variable {fromStr : String → Option Json}

theorem compilePolicyUsing_leaf (obj : Json.Map) :
    compilePolicyUsing schema (.leaf obj) ctx = compileLeafNode schema ctx obj := by
  rw [compilePolicyUsing, compileNode_eq, FilterAst.compileWith, if_neg (by decide)]

theorem condition_object {kvs : Json.Map} {n : FilterAst}
    (hn : FilterAst.ofJson (.object kvs) = some n) :
    condition fromStr schema (.object kvs) ctx = (compilePolicyUsing schema n ctx).toOption := by
  have hparse : parseFilterValue fromStr (.object kvs)
      = (FilterAst.ofJson (.object kvs)).elim (Except.error filterShapeHint) Except.ok := rfl
  rw [condition, hparse, hn]
  rfl

/-- Of a clause without stray keys, the keys count when those of its leaves do. -/
theorem keysCount_iff {kvs : Json.Map} (hstray : FilterAst.noStrayKeys (.object kvs) = true) :
    KeysCount fromStr (.object kvs) ↔ FilterAst.leavesKept leafKept (.object kvs) = true := by
  constructor
  · intro h
    refine Bool.not_eq_false _ |>.mp fun hkept => ?_
    obtain ⟨obj, hsub, hbool, hleaf⟩ :=
      (FilterAst.exists_leaf_of_not_kept (.object kvs)).1 rfl hstray hkept
    obtain ⟨key, body, body', schema, rfl, hbody, heq, hok⟩ := exists_without_of_not_kept hleaf
    obtain ⟨p, hp⟩ := hok { data := some [] } rfl
    have hbool' := (FilterAst.isBooleanNode_of_without (k := key) hbody).trans hbool
    have hsame : ∀ ctx, condition fromStr schema (.object [(key, body')]) ctx
        = condition fromStr schema (.object [(key, body)]) ctx := by
      intro ctx
      rw [condition_object (FilterAst.ofJson_leaf hbool), compilePolicyUsing_leaf,
        condition_object (FilterAst.ofJson_leaf hbool'), compilePolicyUsing_leaf, heq]
    obtain ⟨ctx, hne⟩ := h _ hsub _ (.inMember [] [] key hbody) schema { data := some [] } p (by
      rw [condition_object (FilterAst.ofJson_leaf hbool), compilePolicyUsing_leaf, hp]
      rfl)
    exact hne (hsame ctx)
  · intro hkept u hsub w hw schema ctx p hu
    obtain ⟨hstray, hkept⟩ := FilterAst.kept_of_subfilter hsub hstray hkept
    have htree := FilterAst.isTree_of_subfilter hsub rfl
    obtain ⟨o, o', rfl, rfl⟩ | ⟨_, _, rfl, -⟩ := hw.shape
    · obtain ⟨n, hn⟩ := Option.isSome_iff_exists.mp (FilterAst.ofJson_isSome (.object o))
      obtain ⟨n', hn'⟩ := Option.isSome_iff_exists.mp (FilterAst.ofJson_isSome (.object o'))
      rw [condition_object hn, Except.toOption_eq_some_iff, compilePolicyUsing,
        compileNode_eq] at hu
      have hleaf : ∀ obj c p, compileLeafNode schema c obj = .ok p → ∀ c' : PolicyCtx,
          c'.data.isSome = true → ∃ q, compileLeafNode schema c' obj = .ok q :=
        fun _ _ _ h _ hdata => compileLeafNode_ok_of_data h hdata
      -- what compiles in one context compiles in every context with a row
      have hok := FilterAst.compileWith_ok_of_good _ hleaf n hu
      have hrow : ∃ ctx : PolicyCtx, ctx.data.isSome = true := ⟨{ data := some [] }, rfl⟩
      obtain ⟨ctx', hdata, hne⟩ := (FilterAst.compileWith_ne_of_without hrow
        (fun _ _ _ h => compileLeafNode_single h)
        (fun key body body' hleaf hbody hok => compileLeafNode_ne_of_without hleaf hbody hok)
        (.object o)).1 _ hw hstray hkept 0 n n' hn hn' hok
      refine ⟨ctx', fun heq => hne ?_⟩
      obtain ⟨q, hq⟩ := hok ctx' hdata
      rw [condition_object hn, condition_object hn', compilePolicyUsing, compilePolicyUsing,
        compileNode_eq, compileNode_eq, hq] at heq
      rw [hq]
      exact Except.toOption_eq_some_iff.mp heq
    · cases htree

end Policy

/-! ### What is lost -/

/-- An object is parsed without loss as a filter or a clause. -/
def Lossless (fromStr : String → Option Json) (v : Json) : Prop :=
  ∀ ast, parseFilterValue fromStr v = .ok ast → ast.toJson = v

theorem lossless_iff (fromStr : String → Option Json) (kvs : Json.Map) :
    Lossless fromStr (.object kvs) ↔ FilterAst.noStrayKeys (.object kvs) = true := by
  obtain ⟨ast, hast, hparse⟩ := exists_parseFilterValue_object fromStr kvs
  rw [← (FilterAst.toJson_eq_iff (.object kvs)).1 ast hast]
  constructor
  · intro h
    exact h ast hparse
  · intro h ast' h'
    obtain rfl := Except.ok.inj (hparse.symm.trans h')
    exact h

/-- A filter object parses. It serializes to itself exactly when none of the objects in it that are
read as boolean nodes has a second member, and each of its keys counts, too, exactly when every key
of its leaves does. So it is with a clause of a policy, whose leaves are others. -/
theorem filter_loses_nothing_iff (fromStr : String → Option Json) (kvs : Json.Map) :
    (∃ ast, parseFilterValue fromStr (.object kvs) = .ok ast) ∧
    (Lossless fromStr (.object kvs) ↔ FilterAst.noStrayKeys (.object kvs) = true) ∧
    (Lossless fromStr (.object kvs) ∧ VectorFilter.KeysCount fromStr (.object kvs) ↔
      FilterAst.noStrayKeys (.object kvs) = true ∧
        FilterAst.leavesKept VectorFilter.leafKept (.object kvs) = true) ∧
    (Lossless fromStr (.object kvs) ∧ Policy.KeysCount fromStr (.object kvs) ↔
      FilterAst.noStrayKeys (.object kvs) = true ∧
        FilterAst.leavesKept Policy.leafKept (.object kvs) = true) := by
  obtain ⟨ast, -, hparse⟩ := exists_parseFilterValue_object fromStr kvs
  refine ⟨⟨ast, hparse⟩, lossless_iff fromStr kvs, ?_, ?_⟩
  · rw [lossless_iff]
    exact and_congr_right fun hstray => VectorFilter.keysCount_iff hstray
  · rw [lossless_iff]
    exact and_congr_right fun hstray => Policy.keysCount_iff hstray

/-- A condition written next to `"and"` is dropped in parsing, and one written next to a reference
in compiling. -/
theorem filter_drops_conditions :
    ¬ Lossless (fun _ => none) (.object
      [("and", .array [.object [("views", .object [("gte", .number (.posInt 10))])]]),
        ("status", .string "published")]) ∧
    ¬ Policy.KeysCount (fun _ => none) (.object
      [("owner", .object [("$auth", .string "id"), ("$ne", .string "x")])]) := by
  constructor
  · rw [lossless_iff]
    decide
  · rw [Policy.keysCount_iff (by decide)]
    decide

end Drust
