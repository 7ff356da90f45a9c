import Drust.Query.PolicyColumns

/-!
# The two policy evaluators

A row of a collection is seen by the compiled fragment as its columns (`Row.env`) and by
the in-memory evaluator as a JSON object (`Row.toMap`). This module relates the two
interpreters of a validated clause on such a row. The fragment's side is known already:
it admits the rows on which the clause's verdict is true (`admits_compiled_iff`). What is
left is that the evaluator computes that verdict.

The argument goes up the tree. An operand that passed validation resolves to a value of a
class that its column's values can be compared with (`resolveOperand_spec`); the two
comparisons then coincide (`valueCmp_operand`), hence the leaves (`evalLeaf_eq_denote`),
hence every nesting of `and`, `or` and `not` (`evalNode_eq_denote`).

One step is conditional. The evaluator compares an integer with a double after casting
the integer, while SQLite compares the two exactly, and above `2 ^ 53` the cast moves
integers. `CastAgrees` says that it does not move this one across this literal. The evaluator
does not come to every comparison of a clause (`Uncrossed`), and the two evaluators agree on
a row when none of those that it comes to is moved (`evalPolicy_agrees_uncrossed`). `LIKE`,
whose two implementations are not compared here, is left out.
-/

namespace Drust

open Sql Kleene

/-! ### Rows -/

/-- A value of a column that a policy can look at. -/
inductive Cell where
  | null
  | integer (i : Int64)
  | text (s : String)
  deriving DecidableEq

namespace Cell

/-- The value in the table. -/
def toValue : Cell → Value
  | .null => .null
  | .integer i => .integer i
  | .text s => .text s

/-- The value in the row's JSON object. -/
def toJson : Cell → Json
  | .null => .null
  | .integer i =>
    .number (if 0 ≤ i.toInt then .posInt (.ofNat i.toInt.toNat) else .negInt i)
  | .text s => .string s

/-- The value is `NULL` or of the column's storage class. -/
def Fits : Option StorageClass → Cell → Prop
  | _, .null => True
  | some .num, .integer _ => True
  | some .text, .text _ => True
  | _, _ => False

theorem Fits.integer_class {cls : Option StorageClass} {i : Int64}
    (h : (Cell.integer i).Fits cls) : cls = some .num := by
  cases cls with
  | none => exact h.elim
  | some k =>
    cases k with
    | num => rfl
    | text => exact h.elim

theorem Fits.text_class {cls : Option StorageClass} {s : String}
    (h : (Cell.text s).Fits cls) : cls = some .text := by
  cases cls with
  | none => exact h.elim
  | some k =>
    cases k with
    | num => exact h.elim
    | text => rfl

theorem asI64_toJson (i : Int64) :
    Json.Number.asI64 (if 0 ≤ i.toInt then .posInt (.ofNat i.toInt.toNat) else .negInt i)
      = some i := by
  have hlt := i.toInt_lt
  split
  · next h =>
    have hn : i.toInt.toNat < 2 ^ 63 := by omega
    have hu : (UInt64.ofNat i.toInt.toNat).toNat = i.toInt.toNat :=
      UInt64.toNat_ofNat_of_lt' (by show _ < 2 ^ 64; omega)
    rw [Json.Number.asI64, hu, if_pos hn]
    congr 1
    apply Int64.toInt_inj.mp
    rw [Int64.toInt_ofNat_of_lt hn]
    omega
  · rfl

/-- Reading the object gives back what is in the table. -/
@[simp] theorem jsonToValue_toJson (c : Cell) : jsonToValue c.toJson = c.toValue := by
  cases c with
  | null => rfl
  | integer i => rw [toJson, jsonToValue, asI64_toJson]; rfl
  | text s => rfl

end Cell

/-- A row of a collection: every column holds `NULL` or a value of its class. -/
structure Row (schema : CollectionSchema) where
  cell : String → Cell
  fits : ∀ f, (cell f).Fits (fieldClass schema f)

namespace Row

variable {schema : CollectionSchema}

/-- The row as a JSON object. -/
def toMap (r : Row schema) : Json.Map :=
  schema.columns.map (fun f => (f, (r.cell f).toJson))

/-- The row as a condition sees it. -/
def env (r : Row schema) (like : Value → Value → Tri) : Env where
  row f := if f ∈ schema.columns then some (r.cell f).toValue else none
  like := like

theorem get_map_of_mem {fs : List String} {g : String → Json} {f : String} (h : f ∈ fs) :
    Json.Map.get (fs.map (fun f => (f, g f))) f = some (g f) := by
  induction fs with
  | nil => simp at h
  | cons f' fs ih =>
    rw [List.map_cons, Json.Map.get_cons]
    by_cases hf : f' = f
    · rw [if_pos hf, hf]
    · rw [if_neg hf]
      exact ih ((List.mem_cons.mp h).resolve_left (fun h => hf h.symm))

theorem get_map_of_not_mem {fs : List String} {g : String → Json} {f : String} (h : f ∉ fs) :
    Json.Map.get (fs.map (fun f => (f, g f))) f = none := by
  induction fs with
  | nil => rfl
  | cons f' fs ih =>
    rw [List.mem_cons, not_or] at h
    rw [List.map_cons, Json.Map.get_cons, if_neg (fun hf => h.1 hf.symm)]
    exact ih h.2

/-- A column's member is its value. -/
theorem memberValue_toMap (r : Row schema) {f : String} (h : f ∈ schema.columns) :
    Policy.memberValue r.toMap f = (r.cell f).toValue := by
  rw [Policy.memberValue, toMap, get_map_of_mem h]
  exact Cell.jsonToValue_toJson _

/-- What is no column reads as `NULL`. -/
theorem memberValue_toMap_of_not_mem (r : Row schema) {f : String} (h : f ∉ schema.columns) :
    Policy.memberValue r.toMap f = .null := by
  rw [Policy.memberValue, toMap, get_map_of_not_mem h]

theorem env_row (r : Row schema) (like : Value → Value → Tri) {f : String}
    (h : f ∈ schema.columns) : (r.env like).row f = some (r.cell f).toValue :=
  if_pos h

theorem isSome_env (r : Row schema) (like : Value → Value → Tri) :
    ∀ f ∈ schema.columns, ((r.env like).row f).isSome := by
  intro f hf
  rw [r.env_row like hf]
  rfl

end Row

namespace Policy

variable {schema : CollectionSchema}

/-! ### Operands -/

/-- The values an operand of a class resolves to. -/
def OperandFits : Option StorageClass → Value → Prop
  | _, .null => True
  | some .num, .integer _ => True
  | some .num, .real _ => True
  | some .text, .text _ => True
  | _, _ => False

theorem operandFits_toValue {cls : Option StorageClass} {c : Cell} (h : c.Fits cls) :
    OperandFits cls c.toValue := by
  cases c with
  | null => simp [Cell.toValue, OperandFits]
  | integer i =>
    obtain rfl := h.integer_class
    trivial
  | text s =>
    obtain rfl := h.text_class
    trivial

theorem OperandFits.integer_class {cls : Option StorageClass} {y : Int64}
    (h : OperandFits cls (.integer y)) : cls = some .num := by
  cases cls with
  | none => exact h.elim
  | some k =>
    cases k with
    | num => rfl
    | text => exact h.elim

theorem OperandFits.real_class {cls : Option StorageClass} {y : Binary64}
    (h : OperandFits cls (.real y)) : cls = some .num := by
  cases cls with
  | none => exact h.elim
  | some k =>
    cases k with
    | num => rfl
    | text => exact h.elim

theorem OperandFits.text_class {cls : Option StorageClass} {s : String}
    (h : OperandFits cls (.text s)) : cls = some .text := by
  cases cls with
  | none => exact h.elim
  | some k =>
    cases k with
    | num => exact h.elim
    | text => rfl

theorem operandFits_authValue (ctx : PolicyCtx) : OperandFits (some .text) (authValue ctx) := by
  rw [authValue]
  split <;> trivial

/-- A literal resolves to a value of its class. -/
theorem operandFits_literal (v : Json) : OperandFits (literalClass v) (jsonToValue v) := by
  cases v with
  | number n =>
    rw [jsonToValue]
    split <;> trivial
  | _ => trivial

/-- A clause that was validated in the context `probe` may be used in the context `ctx`:
a clause validated with no row refers to none, and one validated with a row meets a row
of the collection. -/
def Serves (schema : CollectionSchema) (probe ctx : PolicyCtx) : Prop :=
  probe.data = none ∨ ∃ r : Row schema, ctx.data = some r.toMap

/-- An operand that resolved under validation resolves, to the value the evaluator gives
it, and that value is of the operand's class. -/
theorem resolveOperand_spec {probe ctx : PolicyCtx} (hctx : Serves schema probe ctx)
    {operand : Json} {v₀ : Value} (h : resolveOperand operand probe = .ok v₀) :
    resolveOperand operand ctx = .ok (resolveEvalOperand operand ctx) ∧
      OperandFits (operandClass schema operand) (resolveEvalOperand operand ctx) ∧
      (∀ y, resolveEvalOperand operand ctx = .real y →
        ∃ n, operand = .number n ∧ n.asI64 = none ∧ y = n.asF64) := by
  cases operand with
  | object o =>
    cases hauth : Json.Map.get o "$auth" with
    | some k =>
      have hid : k.asStr = some "id" := by
        by_contra hne
        simp [resolveOperand, hauth, hne] at h
      have hkey : Json.Map.containsKey o "$auth" = true :=
        (Json.Map.containsKey_iff o "$auth").mpr ⟨k, hauth⟩
      have heval : resolveEvalOperand (.object o) ctx = authValue ctx := by
        simp [resolveEvalOperand, hauth, hid]
      refine ⟨by simp [resolveOperand, hauth, hid, heval], ?_, ?_⟩
      · rw [heval, operandClass, hkey]
        exact operandFits_authValue ctx
      · intro y hy
        rw [heval, authValue] at hy
        split at hy <;> cases hy
    | none =>
      have hkey : Json.Map.containsKey o "$auth" = false := by
        rw [Json.Map.containsKey_eq_isSome, hauth]
        rfl
      cases hdata : (Json.Map.get o "$data").bind Json.asStr with
      | none =>
        have heval : resolveEvalOperand (.object o) ctx = .null := by
          simp [resolveEvalOperand, hauth, hdata, jsonToValue]
        refine ⟨by simp [resolveOperand, hauth, hdata, heval, jsonToValue], ?_, ?_⟩
        · rw [heval]
          trivial
        · rw [heval]
          intro y hy
          cases hy
      | some f =>
        -- the reference was dereferenced under validation, so there is a row now
        have hprobe : probe.data ≠ none := by
          intro hnone
          simp [resolveOperand, hauth, hdata, hnone] at h
        obtain ⟨r, hr⟩ := hctx.resolve_left hprobe
        have heval : resolveEvalOperand (.object o) ctx = memberValue r.toMap f := by
          simp [resolveEvalOperand, hauth, hdata, hr]
        have hclass : operandClass schema (.object o) = fieldClass schema f := by
          simp [operandClass, hkey, hdata]
        refine ⟨by simp [resolveOperand, hauth, hdata, hr, heval], ?_, ?_⟩
        · rw [heval, hclass]
          by_cases hf : f ∈ schema.columns
          · rw [r.memberValue_toMap hf]
            exact operandFits_toValue (r.fits f)
          · rw [r.memberValue_toMap_of_not_mem hf]
            trivial
        · intro y hy
          rw [heval] at hy
          by_cases hf : f ∈ schema.columns
          · rw [r.memberValue_toMap hf] at hy
            cases hcell : r.cell f <;> rw [hcell] at hy <;> cases hy
          · rw [r.memberValue_toMap_of_not_mem hf] at hy
            cases hy
  | number n =>
    refine ⟨rfl, operandFits_literal (.number n), fun y hy => ⟨n, rfl, ?_⟩⟩
    change jsonToValue (.number n) = .real y at hy
    rw [jsonToValue] at hy
    split at hy
    · cases hy
    · next hn => exact ⟨hn, (Value.real.inj hy).symm⟩
  | bool b => exact ⟨rfl, operandFits_literal (.bool b), fun y hy => by cases hy⟩
  | _ => exact ⟨rfl, trivial, fun y hy => by cases hy⟩

/-- Casting the integer of the cell to a double does not move it across the literal. -/
def CastAgrees (c : Cell) (n : Json.Number) : Prop :=
  match c with
  | .integer x => n.asI64 = none →
      Binary64.cmp (.ofInt x.toInt (Json.Number.natAbs_int64_lt x)) n.asF64
        = Binary64.cmpInt x.toInt n.asF64
  | _ => True

/-- The two comparisons agree on operands of one class, the cast apart. -/
theorem valueCmp_eq_cmpValue {c : Cell} {v : Value} {cls ocls : Option StorageClass}
    (hc : c.Fits cls) (hv : OperandFits ocls v)
    (hcls : ∀ a b, ocls = some a → cls = some b → a = b)
    (hcast : ∀ x y, c = .integer x → v = .real y →
      Binary64.cmp (.ofInt x.toInt (Json.Number.natAbs_int64_lt x)) y = Binary64.cmpInt x.toInt y) :
    valueCmp c.toValue v = cmpValue c.toValue v := by
  cases c with
  | null => rfl
  | integer x =>
    cases v with
    | null => rfl
    | integer y => rfl
    -- the one comparison that casts
    | real y =>
      change some _ = some _
      rw [hcast x y rfl rfl]
    | text s =>
      -- values of different classes do not meet: the operands have been checked
      obtain rfl := hc.integer_class
      obtain rfl := hv.text_class
      cases hcls _ _ rfl rfl
    | blob b => simp [OperandFits] at hv
  | text s =>
    cases v with
    | null => rfl
    | text t => rfl
    | integer y =>
      obtain rfl := hc.text_class
      obtain rfl := hv.integer_class
      cases hcls _ _ rfl rfl
    | real y =>
      obtain rfl := hc.text_class
      obtain rfl := hv.real_class
      cases hcls _ _ rfl rfl
    | blob b => simp [OperandFits] at hv

theorem class_eq_of_checkOperandClass {f : String} {operand : Json}
    (h : checkOperandClass schema f operand = .ok ()) :
    ∀ a b, operandClass schema operand = some a → fieldClass schema f = some b → a = b := by
  intro a b ha hb
  by_contra hne
  simp [checkOperandClass, ha, hb, hne] at h

/-- A validated operand is compared alike by the two evaluators. -/
theorem valueCmp_operand (r : Row schema) {probe ctx : PolicyCtx}
    (hctx : Serves schema probe ctx) {f : String} {operand : Json} {v₀ : Value}
    (hres : resolveOperand operand probe = .ok v₀)
    (hcls : checkOperandClass schema f operand = .ok ())
    (hcast : ∀ n, operand = .number n → CastAgrees (r.cell f) n) :
    valueCmp (r.cell f).toValue (resolveEvalOperand operand ctx)
      = cmpValue (r.cell f).toValue (resolveEvalOperand operand ctx) := by
  obtain ⟨-, hfits, hreal⟩ := resolveOperand_spec hctx hres
  refine valueCmp_eq_cmpValue (r.fits f) hfits (class_eq_of_checkOperandClass hcls) ?_
  intro x y hx hy
  obtain ⟨n, rfl, hn, rfl⟩ := hreal y hy
  have := hcast n rfl
  rw [hx] at this
  exact this hn

/-! ### Leaves -/

/-- The operands an operator compares its column with. -/
def comparedWith : LeafOp → Json → List Json
  | .inSet _, operand => operand.asArray.getD []
  | .isNull _, _ => []
  | _, operand => [operand]

/-- The operator of a leaf body and the operands it compares with. -/
def bodyOp (body : Json) : Option (LeafOp × List Json) := do
  let (op, operand) ← leafParts body
  let o ← LeafOp.ofName op
  some (o, comparedWith o operand)

/-- None of the comparisons of the cell with the operands is crossed. They are made in order, up to
the first operand that is equal. -/
def ScanUncrossed (c : Cell) (ctx : PolicyCtx) : List Json → Prop
  | [] => True
  | v :: vs => (∀ n, v = .number n → CastAgrees c n) ∧
      (cmpValue c.toValue (resolveEvalOperand v ctx) = some .eq ∨ ScanUncrossed c ctx vs)

theorem evalCmp_eq_compareTri (c : CmpOp) {x v : Value} (h : valueCmp x v = cmpValue x v) :
    evalCmp c x v = compareTri c x v := by
  cases hv : cmpValue x v <;> simp only [evalCmp, compareTri, h, hv]

/-- The two scans of a set hit or miss together. -/
theorem any_eq_of_scanUncrossed {c : Cell} {ctx : PolicyCtx} {arr : List Json}
    (hcmp : ∀ v ∈ arr, (∀ n, v = .number n → CastAgrees c n) →
      valueCmp c.toValue (resolveEvalOperand v ctx) = cmpValue c.toValue (resolveEvalOperand v ctx))
    (hscan : ScanUncrossed c ctx arr) :
    (arr.map (fun v => resolveEvalOperand v ctx)).any (fun v => valueCmp c.toValue v == some .eq)
      = (arr.map (fun v => resolveEvalOperand v ctx)).any
          (fun v => cmpValue c.toValue v == some .eq) := by
  induction arr with
  | nil => rfl
  | cons v vs ih =>
    obtain ⟨hv, hvs⟩ := List.forall_mem_cons.mp hcmp
    obtain ⟨huncrossed, hrest⟩ := hscan
    rw [List.map_cons, List.any_cons, List.any_cons, hv huncrossed]
    obtain hhit | hrest := hrest
    · rw [hhit]
      rfl
    · rw [ih hvs hrest]

/-- A membership test whose scans hit or miss together. -/
theorem evalIn_eq_inTri (neg : Bool) {x : Value} {arr : List Json} {ctx : PolicyCtx}
    (hhit : (arr.map (fun v => resolveEvalOperand v ctx)).any (fun v => valueCmp x v == some .eq)
      = (arr.map (fun v => resolveEvalOperand v ctx)).any (fun v => cmpValue x v == some .eq)) :
    evalIn neg x (.array arr) ctx
      = let vs := arr.map (fun v => resolveEvalOperand v ctx)
        if neg then (inTri x vs).not else inTri x vs := by
  simp only [evalIn, inTri, hhit, List.isEmpty_map]
  split
  · -- the empty set: `IN` is false and `NOT IN` is true, whatever the column holds
    cases neg <;> rfl
  · split
    · cases neg <;> rfl
    · split <;> cases neg <;> rfl

theorem exists_resolveOperand_of_mem {probe : PolicyCtx} {operands : List Json} :
    ∀ {vs₀}, resolveOperands operands probe = .ok vs₀ →
      ∀ v ∈ operands, ∃ v₀, resolveOperand v probe = .ok v₀ := by
  induction operands with
  | nil => exact fun _ => by simp
  | cons v vs ih =>
    intro vs₀ h
    rw [resolveOperands] at h
    obtain ⟨x₀, hx₀, h⟩ := Except.bind_eq_ok_iff.mp h
    obtain ⟨xs₀, hxs₀, -⟩ := Except.bind_eq_ok_iff.mp h
    exact List.forall_mem_cons.mpr ⟨⟨x₀, hx₀⟩, ih hxs₀⟩

theorem checkOperandClass_of_each {f : String} {vs : List Json}
    (h : checkOperandClassEach schema f vs = .ok ()) :
    ∀ v ∈ vs, checkOperandClass schema f v = .ok () := by
  induction vs with
  | nil => simp
  | cons v vs ih =>
    obtain ⟨u, hv, hvs⟩ := Except.bind_eq_ok_iff.mp h
    exact List.forall_mem_cons.mpr ⟨hv, ih hvs⟩

/-- Validation checks every operand that a leaf compares its column with. -/
theorem checkOperandClass_of_leaf {f : String} {body : Json}
    (h : checkLeafOperands schema f body = .ok ()) {op : String} {operand : Json} {o : LeafOp}
    (hparts : leafParts body = some (op, operand)) (ho : LeafOp.ofName op = some o) :
    ∀ v ∈ comparedWith o operand, checkOperandClass schema f v = .ok () := by
  -- a body that is itself the operand is compared for equality
  have hshort : ∀ {b : Json}, some ("$eq", b) = some (op, operand) →
      checkOperandClass schema f b = .ok () →
      ∀ v ∈ comparedWith o operand, checkOperandClass schema f v = .ok () := by
    intro b hb hcheck
    obtain ⟨rfl, rfl⟩ := Prod.mk.inj (Option.some.inj hb)
    obtain rfl := Option.some.inj ho
    intro v hv
    obtain rfl := List.mem_singleton.mp hv
    exact hcheck
  cases body with
  | object kvs =>
    unfold leafParts at hparts
    unfold checkLeafOperands at h
    by_cases href : (Json.Map.containsKey kvs "$auth" || Json.Map.containsKey kvs "$data") = true
    · simp only [href, if_true] at hparts h
      exact hshort hparts h
    · simp only [href, Bool.false_eq_true, if_false] at hparts h
      match kvs, hparts with
      | [(op', operand')], hparts =>
        obtain ⟨rfl, rfl⟩ := Prod.mk.inj (Option.some.inj hparts)
        simp only [ofBare_bareName ho] at h
        cases o with
        | isNull neg => simp [comparedWith]
        | inSet neg =>
          cases operand' with
          | array arr => exact checkOperandClass_of_each h
          | _ => simp [comparedWith, Json.asArray]
        | cmp c => simpa [comparedWith] using h
        | like => simpa [comparedWith] using h
  | _ => exact hshort hparts h

/-- The operands of an operator that compiled under validation resolved there. -/
theorem exists_resolveOperand_of_compileOp {probe : PolicyCtx} {f op : String} {operand : Json}
    {c₀ : Compiled} (h : compileOp f op operand probe = .ok c₀) :
    ∃ o, LeafOp.ofName op = some o ∧
      ∀ v ∈ comparedWith o operand, ∃ v₀, resolveOperand v probe = .ok v₀ := by
  unfold compileOp at h
  cases ho : LeafOp.ofName op with
  | none => simp [ho] at h
  | some o =>
    refine ⟨o, rfl, ?_⟩
    simp only [ho] at h
    cases o with
    | isNull neg => simp [comparedWith]
    | cmp c =>
      obtain ⟨v₀, hv₀, -⟩ := Except.bind_eq_ok_iff.mp h
      simpa [comparedWith] using ⟨v₀, hv₀⟩
    | like =>
      obtain ⟨v₀, hv₀, -⟩ := Except.bind_eq_ok_iff.mp h
      simpa [comparedWith] using ⟨v₀, hv₀⟩
    | inSet neg =>
      cases operand with
      | array arr =>
        by_cases harr : arr = []
        · simp [harr, comparedWith, Json.asArray]
        · have hne : arr.isEmpty = false := by simpa using harr
          simp only [hne, Bool.false_eq_true, if_false] at h
          obtain ⟨vs₀, hvs₀, -⟩ := Except.bind_eq_ok_iff.mp h
          exact exists_resolveOperand_of_mem hvs₀
      | _ => cases h

section Leaf

variable (compiles : List Char → Bool) (r : Row schema) (like : Value → Value → Tri)
  {probe ctx : PolicyCtx} {f : String}

/-- The evaluator computes the verdict of a validated leaf whose comparisons are not crossed. -/
theorem evalLeaf_eq_denote (hctx : Serves schema probe ctx) {body : Json} {c₀ : Compiled}
    (hcomp : compileLeaf schema f body probe = .ok c₀)
    (hcls : checkLeafOperands schema f body = .ok ())
    (hlike : ∀ os, bodyOp body ≠ some (.like, os))
    (hscan : ∀ o os, bodyOp body = some (o, os) → ScanUncrossed (r.cell f) ctx os) :
    evalLeaf compiles f body r.toMap ctx = denoteLeaf (r.env like) f body ctx := by
  rw [compileLeaf_eq] at hcomp
  obtain ⟨u, hvalid, hcomp⟩ := Except.bind_eq_ok_iff.mp hcomp
  have hf := mem_columns_of_validateField hvalid
  rw [evalLeaf_eq]
  unfold denoteLeaf
  cases hparts : leafParts body with
  | none => simp [hparts] at hcomp
  | some parts =>
    obtain ⟨op, operand⟩ := parts
    simp only [hparts] at hcomp ⊢
    obtain ⟨o, ho, hres⟩ := exists_resolveOperand_of_compileOp hcomp
    have hbody : bodyOp body = some (o, comparedWith o operand) := by
      simp [bodyOp, hparts, ho]
    have hchecked := checkOperandClass_of_leaf hcls hparts ho
    -- each comparison that is come to is exact: its operand fits, and the cast moves nothing
    have hcmp : ∀ v ∈ comparedWith o operand, (∀ n, v = .number n → CastAgrees (r.cell f) n) →
        valueCmp (r.cell f).toValue (resolveEvalOperand v ctx)
          = cmpValue (r.cell f).toValue (resolveEvalOperand v ctx) := by
      intro v hv hcast
      obtain ⟨v₀, hv₀⟩ := hres v hv
      exact valueCmp_operand r hctx hv₀ (hchecked v hv) hcast
    have hscan := hscan o _ hbody
    rw [r.memberValue_toMap hf, r.env_row like hf]
    simp only [ho, Option.getD_some]
    unfold evalOp
    rw [ofBare_bareName ho]
    cases o with
    | like => exact absurd hbody (hlike _)
    | isNull neg => rfl
    | cmp c =>
      exact evalCmp_eq_compareTri c (hcmp operand (List.mem_singleton_self _) hscan.1)
    | inSet neg =>
      cases operand with
      | array arr => exact evalIn_eq_inTri neg (any_eq_of_scanUncrossed hcmp hscan)
      | _ => simp [compileOp, ho] at hcomp

end Leaf

/-! ### Trees -/

/-- A column that a policy may test. -/
def IsPolicyColumn (schema : CollectionSchema) (f : String) : Prop :=
  validateField schema f = .ok () ∧ f ≠ "$authenticated" ∧ f ≠ "$fts"

/-- No leaf of the tree uses `LIKE`. -/
def LikeFree (node : FilterAst) : Prop :=
  ∀ kb ∈ leaves node, ∀ os, bodyOp kb.2 ≠ some (.like, os)

section Uncrossed

variable (r : Row schema) (like : Value → Value → Tri) (ctx : PolicyCtx)

mutual

/-- None of the comparisons that the tree comes to on the row is crossed. -/
def Uncrossed : FilterAst → Prop
  | .and ns => UncrossedAnd ns
  | .or ns => UncrossedOr ns
  | .not n => Uncrossed n
  | .leaf obj => ∀ kb ∈ obj, kb.1 ≠ "$authenticated" → ∀ o os, bodyOp kb.2 = some (o, os) →
      ScanUncrossed (r.cell kb.1) ctx os

/-- What is behind a false operand is not come to. -/
def UncrossedAnd : List FilterAst → Prop
  | [] => True
  | n :: ns => Uncrossed n ∧ (denoteNode (r.env like) n ctx = .false ∨ UncrossedAnd ns)

/-- What is behind a true operand is not come to. -/
def UncrossedOr : List FilterAst → Prop
  | [] => True
  | n :: ns => Uncrossed n ∧ (denoteNode (r.env like) n ctx = .true ∨ UncrossedOr ns)

end

end Uncrossed

section Tree

variable (compiles : List Char → Bool) (r : Row schema) (like : Value → Value → Tri)
  {probe ctx : PolicyCtx}

/-- The evaluator computes the verdict of a node that compiled under validation, at any depth. -/
def NodeAgrees (probe ctx : PolicyCtx) (node : FilterAst) : Prop :=
  ∀ depth c₀, compileNode schema node probe depth = .ok c₀ →
    checkOperandClassesInner schema node false = .ok () → LikeFree node →
    Uncrossed r like ctx node →
    evalNode compiles node r.toMap ctx depth = denoteNode (r.env like) node ctx

/-- The loop of `and` computes the conjunction of the verdicts up to the first false one. -/
theorem evalAnd_eq_denote {ns : List FilterAst}
    (ih : ∀ n ∈ ns, NodeAgrees compiles r like probe ctx n) {depth : Nat} :
    ∀ {ps₀} {acc : Tri}, compileNodes schema ns probe depth = .ok ps₀ →
      checkOperandClassesAll schema ns false = .ok () → (∀ n ∈ ns, LikeFree n) →
      UncrossedAnd r like ctx ns → acc ≠ .false →
      evalAnd compiles ns r.toMap ctx depth acc
        = acc.and (.allOf (denoteNodes (r.env like) ns ctx)) := by
  induction ns with
  | nil =>
    intro _ acc _ _ _ _ _
    rw [evalAnd, denoteNodes, Tri.allOf_nil, Tri.and_true]
  | cons n ns ihns =>
    intro ps₀ acc hcomp hcls hlike huncrossed hacc
    rw [compileNodes] at hcomp
    obtain ⟨c₀, hn, hcomp⟩ := Except.bind_eq_ok_iff.mp hcomp
    obtain ⟨cs₀, hns, -⟩ := Except.bind_eq_ok_iff.mp hcomp
    rw [checkOperandClassesAll] at hcls
    obtain ⟨u, hcn, hcns⟩ := Except.bind_eq_ok_iff.mp hcls
    obtain ⟨ih₁, ih₂⟩ := List.forall_mem_cons.mp ih
    obtain ⟨hl₁, hl₂⟩ := List.forall_mem_cons.mp hlike
    obtain ⟨hu₁, hu₂⟩ := huncrossed
    rw [evalAnd, ih₁ depth c₀ hn hcn hl₁ hu₁, denoteNodes, Tri.allOf_cons]
    split
    -- a false part: the evaluation stops here, and the whole is false
    · next h => rw [h]; cases acc <;> rfl
    -- an unknown part is kept, and the evaluation goes on
    · next h =>
      have htail := hu₂.resolve_left (by rw [h]; decide)
      rw [h, ihns ih₂ hns hcns hl₂ htail (by decide), ← Tri.and_assoc]
      congr 1
      cases acc <;> first | rfl | exact absurd rfl hacc
    · next h =>
      have htail := hu₂.resolve_left (by rw [h]; decide)
      rw [h, ihns ih₂ hns hcns hl₂ htail hacc, ← Tri.and_assoc, Tri.and_true]

/-- The loop of `or` computes the disjunction of the verdicts up to the first true one. -/
theorem evalOr_eq_denote {ns : List FilterAst}
    (ih : ∀ n ∈ ns, NodeAgrees compiles r like probe ctx n) {depth : Nat} :
    ∀ {ps₀} {acc : Tri}, compileNodes schema ns probe depth = .ok ps₀ →
      checkOperandClassesAll schema ns false = .ok () → (∀ n ∈ ns, LikeFree n) →
      UncrossedOr r like ctx ns → acc ≠ .true →
      evalOr compiles ns r.toMap ctx depth acc
        = acc.or (.anyOf (denoteNodes (r.env like) ns ctx)) := by
  induction ns with
  | nil =>
    intro _ acc _ _ _ _ _
    rw [evalOr, denoteNodes, Tri.anyOf_nil, Tri.or_false]
  | cons n ns ihns =>
    intro ps₀ acc hcomp hcls hlike huncrossed hacc
    rw [compileNodes] at hcomp
    obtain ⟨c₀, hn, hcomp⟩ := Except.bind_eq_ok_iff.mp hcomp
    obtain ⟨cs₀, hns, -⟩ := Except.bind_eq_ok_iff.mp hcomp
    rw [checkOperandClassesAll] at hcls
    obtain ⟨u, hcn, hcns⟩ := Except.bind_eq_ok_iff.mp hcls
    obtain ⟨ih₁, ih₂⟩ := List.forall_mem_cons.mp ih
    obtain ⟨hl₁, hl₂⟩ := List.forall_mem_cons.mp hlike
    obtain ⟨hu₁, hu₂⟩ := huncrossed
    rw [evalOr, ih₁ depth c₀ hn hcn hl₁ hu₁, denoteNodes, Tri.anyOf_cons]
    split
    -- a true part: the evaluation stops here, and the whole is true
    · next h => rw [h]; cases acc <;> rfl
    -- an unknown part is kept, and the evaluation goes on
    · next h =>
      have htail := hu₂.resolve_left (by rw [h]; decide)
      rw [h, ihns ih₂ hns hcns hl₂ htail (by decide), ← Tri.or_assoc]
      congr 1
      cases acc <;> first | rfl | exact absurd rfl hacc
    · next h =>
      have htail := hu₂.resolve_left (by rw [h]; decide)
      rw [h, ihns ih₂ hns hcns hl₂ htail hacc, ← Tri.or_assoc, Tri.or_false]

/-- What is asked of the leaves of a boolean node is asked of its children. -/
theorem forall_leaves_child {P : String × Json → Prop} {ns : List FilterAst}
    (h : ∀ kb ∈ leaves.leavesAll ns, P kb) : ∀ n ∈ ns, ∀ kb ∈ leaves n, P kb :=
  fun _ hn kb hkb => h kb (mem_leavesAll hn hkb)

/-- By induction over the clause. The loops stop where `Uncrossed` asks no more. -/
theorem evalNode_eq_denote (hctx : Serves schema probe ctx) (node : FilterAst) :
    NodeAgrees compiles r like probe ctx node := by
  induction node using FilterAst.induct with
  | and ns ih =>
    intro depth c₀ hcomp hcls hlike huncrossed
    rw [compileNode.eq_def] at hcomp
    split at hcomp
    · cases hcomp
    · next hdepth =>
      rw [evalNode, if_neg hdepth, denoteNode]
      cases ns with
      | nil => rfl
      | cons n ns =>
        obtain ⟨ps₀, hps₀, -⟩ := Except.bind_eq_ok_iff.mp hcomp
        rw [evalAnd_eq_denote compiles r like ih hps₀ hcls (forall_leaves_child hlike) huncrossed
          (by decide), Tri.true_and]
  | or ns ih =>
    intro depth c₀ hcomp hcls hlike huncrossed
    rw [compileNode.eq_def] at hcomp
    split at hcomp
    · cases hcomp
    · next hdepth =>
      rw [evalNode, if_neg hdepth, denoteNode]
      cases ns with
      | nil => rfl
      | cons n ns =>
        obtain ⟨ps₀, hps₀, -⟩ := Except.bind_eq_ok_iff.mp hcomp
        rw [evalOr_eq_denote compiles r like ih hps₀ hcls (forall_leaves_child hlike) huncrossed
          (by decide), Tri.false_or]
  | not n ih =>
    intro depth c₀ hcomp hcls hlike huncrossed
    rw [compileNode.eq_def] at hcomp
    split at hcomp
    · cases hcomp
    · next hdepth =>
      obtain ⟨inner₀, hinner₀, -⟩ := Except.bind_eq_ok_iff.mp hcomp
      rw [evalNode, if_neg hdepth, ih (depth + 1) inner₀ hinner₀ hcls hlike huncrossed, denoteNode]
  | leaf obj =>
    intro depth c₀ hcomp hcls hlike huncrossed
    rw [compileNode.eq_def] at hcomp
    split at hcomp
    · cases hcomp
    · next hdepth =>
      rw [evalNode.eq_def, if_neg hdepth]
      obtain _ | ⟨⟨key, body⟩, _ | _⟩ := obj
      · cases hcomp
      · simp only at hcomp ⊢
        rw [denoteNode]
        by_cases hkey : key = "$authenticated"
        · rw [if_pos hkey, if_pos hkey]
        · by_cases hfts : key = "$fts"
          · simp [hfts] at hcomp
          · rw [if_neg hkey, if_neg hfts] at hcomp
            rw [if_neg hkey, if_neg hfts, if_neg hkey]
            rw [checkOperandClassesInner, if_neg hkey, if_neg hfts] at hcls
            have hmem : (key, body) ∈ leaves (.leaf [(key, body)]) := by simp [leaves, hkey]
            exact evalLeaf_eq_denote compiles r like hctx hcomp hcls (hlike _ hmem)
              (huncrossed _ List.mem_cons_self hkey)
      · cases hcomp

end Tree

/-! ### Clauses -/

/-- The context is one the clause of the policy is used in: a check sees the row that is
about to be written. -/
def UsedIn (schema : CollectionSchema) (policy : Policy) (clause : FilterAst)
    (ctx : PolicyCtx) : Prop :=
  policy.usingClause = some clause ∨
    (policy.checkClause = some clause ∧ ∃ r : Row schema, ctx.data = some r.toMap)

/-- What validation says of a clause: it compiles in a context that the one it is used in
serves, and its operands are of the classes of their columns. -/
theorem validatePolicy_spec {op : DmlVerb} {policy : Policy} {clause : FilterAst}
    {ctx : PolicyCtx} (h : validatePolicy schema op policy = .ok ())
    (hused : UsedIn schema policy clause ctx) :
    ∃ probe c₀, Serves schema probe ctx ∧ compilePolicyUsing schema clause probe = .ok c₀ ∧
      checkAstOperandClasses schema clause = .ok () := by
  unfold validatePolicy at h
  split at h
  · cases h
  · obtain ⟨u, husing, hcheck⟩ := Except.bind_eq_ok_iff.mp h
    obtain hclause | ⟨hclause, hrow⟩ := hused
    · rw [hclause] at husing
      obtain ⟨c₀, hc₀, hcls⟩ := Except.bind_eq_ok_iff.mp husing
      exact ⟨usingProbe, c₀, .inl rfl, hc₀, hcls⟩
    · rw [hclause] at hcheck
      obtain ⟨c₀, hc₀, hcls⟩ := Except.bind_eq_ok_iff.mp hcheck
      exact ⟨checkProbe schema, c₀, .inr hrow, hc₀, hcls⟩

/-- A clause that compiled under validation compiles where it is used. -/
theorem exists_compile_of_serves {probe ctx : PolicyCtx} (hctx : Serves schema probe ctx)
    {clause : FilterAst} {c₀ : Compiled} (h : compilePolicyUsing schema clause probe = .ok c₀) :
    ∃ p, compilePolicyUsing schema clause ctx = .ok p := by
  refine exists_compilePolicyUsing ?_ h (validateField_of_compilePolicyUsing h)
  intro hprobe
  obtain hnone | ⟨r, hr⟩ := hctx
  · rw [hnone] at hprobe
    cases hprobe
  · rw [hr]
    rfl

/-- The two evaluators agree on the clause: it compiles, and the row is admitted by the
fragment exactly when the evaluator admits it. -/
def Agree (compiles : List Char → Bool) (r : Row schema) (like : Value → Value → Tri)
    (clause : FilterAst) (ctx : PolicyCtx) : Prop :=
  ∃ sql binds, compilePolicyUsing schema clause ctx = .ok (sql, binds) ∧
    (evalPolicyWith compiles clause r.toMap ctx = true ↔ Admits (r.env like) sql binds)

/-- The clause `field op number`. -/
def numberClause (f name : String) (n : Json.Number) : FilterAst :=
  .leaf [(f, .object [(name, .number n)])]

/-- A comparison operator's name that asks for one of the three orders. -/
def orderName : Ordering → String
  | .eq => "$eq"
  | .lt => "$lt"
  | .gt => "$gt"

/-- The operator of that name. -/
def orderOp : Ordering → CmpOp
  | .eq => .eq
  | .lt => .lt
  | .gt => .gt

theorem ofName_orderName (o : Ordering) : LeafOp.ofName (orderName o) = some (.cmp (orderOp o)) := by
  cases o <;> rfl

theorem holds_orderOp_iff (o o' : Ordering) : (orderOp o).holds o' = true ↔ o' = o := by
  cases o <;> cases o' <;> decide

theorem containsKey_orderName (o : Ordering) (v : Json) :
    (Json.Map.containsKey [(orderName o, v)] "$auth" ||
      Json.Map.containsKey [(orderName o, v)] "$data") = false := by
  cases o <;> rfl

section NumberClause

variable {f : String} (n : Json.Number) (o : Ordering)

theorem compile_numberClause (hf : IsPolicyColumn schema f) (ctx : PolicyCtx) :
    compilePolicyUsing schema (numberClause f (orderName o) n) ctx
      = .ok (quoteIdent f ++ " " ++ (orderOp o).text ++ " ?", [jsonToValue (.number n)]) := by
  rw [compilePolicyUsing, numberClause, compileNode.eq_def]
  simp [maxFilterDepth, hf.2.1, hf.2.2, compileLeaf, hf.1, containsKey_orderName, compileOp,
    ofName_orderName, resolveOperand]

theorem validatePolicy_numberClause (hf : IsPolicyColumn schema f)
    (hnum : fieldClass schema f = some .num) :
    validatePolicy schema .update { usingClause := some (numberClause f (orderName o) n) }
      = .ok () := by
  have hcls : checkAstOperandClasses schema (numberClause f (orderName o) n) = .ok () := by
    simp [checkAstOperandClasses, numberClause, checkOperandClassesInner, hf.2.1, hf.2.2,
      checkLeafOperands, containsKey_orderName, ofBare_bareName (ofName_orderName o),
      checkOperandClass, operandClass, literalClass, hnum]
  simp [validatePolicy, validateClause, compile_numberClause n o hf, hcls]

theorem evalPolicy_numberClause (compiles : List Char → Bool) (hf : IsPolicyColumn schema f)
    (r : Row schema) (ctx : PolicyCtx) :
    evalPolicyWith compiles (numberClause f (orderName o) n) r.toMap ctx
      = (evalCmp (orderOp o) (r.cell f).toValue (jsonToValue (.number n)) == .true) := by
  rw [evalPolicyWith, numberClause, evalNode.eq_def]
  simp [maxFilterDepth, hf.2.1, hf.2.2, evalLeaf, containsKey_orderName, evalOp,
    ofBare_bareName (ofName_orderName o), r.memberValue_toMap (mem_columns_of_validateField hf.1),
    resolveEvalOperand]

theorem likeFree_numberClause : LikeFree (numberClause f (orderName o) n) := by
  intro kb hkb os
  obtain rfl := List.mem_singleton.mp (List.mem_of_mem_filter hkb)
  simp [bodyOp, leafParts, containsKey_orderName, ofName_orderName]

end NumberClause

/-- The clause that asks for the order which the cast produces tells the evaluators apart. -/
theorem exists_disagree_of_crossed (compiles : List Char → Bool) (r : Row schema)
    (like : Value → Value → Tri) {f : String} {n : Json.Number} (hf : IsPolicyColumn schema f)
    (hcrossed : ¬CastAgrees (r.cell f) n) :
    ∃ o, validatePolicy schema .update { usingClause := some (numberClause f (orderName o) n) }
        = .ok () ∧
      ¬Agree compiles r like (numberClause f (orderName o) n) {} := by
  unfold CastAgrees at hcrossed
  split at hcrossed
  · next x hcell =>
    obtain ⟨hn, hne⟩ := Classical.not_imp.mp hcrossed
    -- the operator that the casted comparison satisfies, and the exact one does not
    set o := Binary64.cmp (.ofInt x.toInt (Json.Number.natAbs_int64_lt x)) n.asF64 with ho
    have hvalue : jsonToValue (.number n) = .real n.asF64 := by
      rw [jsonToValue, hn]
    have hfits := r.fits f
    rw [hcell] at hfits
    refine ⟨o, validatePolicy_numberClause n o hf hfits.integer_class, ?_⟩
    rintro ⟨sql, binds, hcomp, hagree⟩
    rw [compile_numberClause n o hf] at hcomp
    obtain ⟨rfl, rfl⟩ := Prod.mk.inj (Except.ok.inj hcomp)
    have hmeans := means_cmp (orderOp o)
      (r.env_row like (mem_columns_of_validateField hf.1)) (jsonToValue (.number n))
    rw [hmeans.admits_iff, evalPolicy_numberClause n o compiles hf, hcell, hvalue] at hagree
    have heval : evalCmp (orderOp o) (.integer x) (.real n.asF64) = .true := by
      change Tri.ofBool ((orderOp o).holds o) = .true
      rw [Tri.ofBool_eq_true_iff, holds_orderOp_iff]
    have hsql := hagree.mp (by rw [beq_iff_eq]; exact heval)
    change Tri.ofBool ((orderOp o).holds (Binary64.cmpInt x.toInt n.asF64)) = .true at hsql
    rw [Tri.ofBool_eq_true_iff, holds_orderOp_iff] at hsql
    exact hne hsql.symm
  · exact absurd trivial hcrossed

/-- The two evaluators agree about every validated clause on every row, of all shapes and in every
context that the clause is used in, unless a comparison that is made crosses a double when it casts
an integer. Wherever an integer of the row does cross a double, the comparison of the two by itself
is a clause about which they disagree. -/
theorem evalPolicy_agrees_uncrossed (compiles : List Char → Bool) (r : Row schema)
    (like : Value → Value → Tri) :
    (∀ op policy clause ctx, validatePolicy schema op policy = .ok () →
      UsedIn schema policy clause ctx → LikeFree clause → Uncrossed r like ctx clause →
      Agree compiles r like clause ctx) ∧
    ∀ f n, IsPolicyColumn schema f → ¬CastAgrees (r.cell f) n →
      ∃ policy clause, validatePolicy schema .update policy = .ok () ∧
        UsedIn schema policy clause {} ∧ LikeFree clause ∧ ¬Agree compiles r like clause {} := by
  constructor
  · intro op policy clause ctx hvalid hused hlike huncrossed
    obtain ⟨probe, c₀, hserves, hcomp, hcls⟩ := validatePolicy_spec hvalid hused
    obtain ⟨p, hp⟩ := exists_compile_of_serves hserves hcomp
    have hverdict :=
      evalNode_eq_denote compiles r like hserves clause 0 c₀ hcomp hcls hlike huncrossed
    have hadmits := admits_compiled_iff (r.isSome_env like) hp
    refine ⟨p.1, p.2, hp, ?_⟩
    rw [hadmits, evalPolicyWith, beq_iff_eq, hverdict]
  · intro f n hf hcrossed
    obtain ⟨o, hvalid, hdisagree⟩ := exists_disagree_of_crossed compiles r like hf hcrossed
    exact ⟨_, _, hvalid, .inl rfl, likeFree_numberClause n o, hdisagree⟩

/-- A collection with one integer column. -/
def counterSchema : CollectionSchema :=
  { name := "events", fields := [⟨"n", "INTEGER"⟩] }

/-- A row just past the integers a double holds exactly. -/
def counterRow : Row counterSchema where
  cell f := if f = "n" then .integer 9007199254740993 else .null
  fits f := by
    by_cases h : f = "n"
    · subst h
      exact trivial
    · rw [if_neg h]
      cases fieldClass counterSchema f <;> trivial

/-- The double `9007199254740992.0`. -/
def counterLiteral : Json.Number :=
  .float (.ofInt 9007199254740992 (by decide))

/-- The double stands behind a false operand, and in a set behind the element that is equal. -/
def guardedClause : FilterAst :=
  .or [.and [.leaf [("$authenticated", .bool false)], numberClause "n" "$eq" counterLiteral],
    .not (.leaf [("n", .object [("$in", .array [.number (.posInt 9007199254740993),
      .number counterLiteral, .null])])])]

theorem evalPolicy_agrees_uncrossed_guarded :
    Agree (fun _ => true) counterRow (fun _ _ => .unknown) guardedClause
      { authId := some "u-1" } := by
  refine (evalPolicy_agrees_uncrossed (fun _ => true) counterRow (fun _ _ => .unknown)).1 .select
    { usingClause := some guardedClause } guardedClause _ (by decide +kernel) (.inl rfl) ?_ ?_
  · have hops : ∀ kb ∈ leaves guardedClause, (bodyOp kb.2).map Prod.fst ≠ some .like := by
      decide +kernel
    intro kb hkb os hlike
    exact hops kb hkb (by rw [hlike]; rfl)
  · refine ⟨⟨?_, .inl (by decide +kernel)⟩, .inr ⟨?_, .inr trivial⟩⟩
    · intro kb hkb hkey
      exact absurd (List.mem_singleton.mp hkb ▸ rfl) hkey
    · intro kb hkb _ o os hbody
      obtain rfl := List.mem_singleton.mp hkb
      obtain ⟨rfl, rfl⟩ := Prod.mk.inj (Option.some.inj hbody)
      refine ⟨?_, .inl (by decide +kernel)⟩
      intro n hn hasI64
      obtain rfl := Json.number.inj hn
      cases hasI64

/-- The evaluators part where an integer column meets a double: the row with `n` equal to
`9007199254740993` is admitted by the evaluator under `{"n":{"$eq":9007199254740992.0}}`,
and is not by the compiled fragment. -/
theorem evalPolicy_diverges :
    ¬ ∀ (schema : CollectionSchema) (r : Row schema) (like : Value → Value → Tri) (op : DmlVerb)
      (policy : Policy) (clause : FilterAst) (ctx : PolicyCtx),
      validatePolicy schema op policy = .ok () → UsedIn schema policy clause ctx →
      LikeFree clause → Agree (fun _ => true) r like clause ctx := by
  intro h
  obtain ⟨sql, binds, hcomp, hagree⟩ := h counterSchema counterRow (fun _ _ => .unknown) .select
    { usingClause := some (numberClause "n" "$eq" counterLiteral) }
    (numberClause "n" "$eq" counterLiteral) {} (by decide +kernel) (.inl rfl)
    (likeFree_numberClause counterLiteral .eq)
  have hsql : Except.ok (sql, binds) = Except.ok ("\"n\" = ?", [jsonToValue (.number counterLiteral)]) :=
    hcomp.symm.trans (by decide +kernel)
  obtain ⟨rfl, rfl⟩ := Prod.mk.inj (Except.ok.inj hsql)
  revert hagree
  decide +kernel

end Policy

end Drust
