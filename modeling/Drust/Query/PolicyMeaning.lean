import Drust.Lib.Result
import Drust.Query.Policy

/-!
# What a compiled policy means

A policy clause has a meaning of its own, a verdict in three-valued logic on the columns
of a row (`denoteNode`), which mentions neither the text of a fragment nor the order of
its binds. The compiler is correct against it: whenever a clause compiles, the emitted
text reads as one condition wherever it stands, takes exactly the emitted binds, and
evaluates to the clause's verdict (`means_compileNode`). Nothing is assumed of the row
but that it has the collection's columns, and nothing of the values in them.

Both evaluators find the operator and the operand of a leaf in their own way. They find
the same ones, `leafParts` (`compileLeaf_eq`, `evalLeaf_eq`).
-/

namespace Drust.Policy

open Sql Kleene

variable {schema : CollectionSchema}

/-! ### Leaves -/

/-- The operator and the operand of a leaf body. What is no operator object is compared
for equality. -/
def leafParts : Json → Option (String × Json)
  | .object o =>
    if Json.Map.containsKey o "$auth" || Json.Map.containsKey o "$data" then
      some ("$eq", .object o)
    else match o with
      | [(op, operand)] => some (op, operand)
      | _ => none
  | body => some ("$eq", body)

theorem compileLeaf_eq (f : String) (body : Json) (ctx : PolicyCtx) :
    compileLeaf schema f body ctx = validateField schema f >>= fun _ =>
      match leafParts body with
      | some (op, operand) => compileOp f op operand ctx
      | none => .error (.parse (.opObjectKeys f)) := by
  unfold compileLeaf leafParts
  congr 1
  funext u
  cases body with
  | object o =>
    by_cases href : (Json.Map.containsKey o "$auth" || Json.Map.containsKey o "$data") = true
    · simp only [href, if_true]
      rfl
    · simp only [href, Bool.false_eq_true, if_false]
      cases o with
      | nil => rfl
      | cons m ms => cases ms <;> rfl
  | _ => rfl

theorem evalLeaf_eq (compiles : List Char → Bool) (f : String) (body : Json) (row : Json.Map)
    (ctx : PolicyCtx) :
    evalLeaf compiles f body row ctx =
      match leafParts body with
      | some (op, operand) => evalOp compiles op (memberValue row f) operand ctx
      | none => .false := by
  unfold evalLeaf leafParts
  cases body with
  | object o =>
    by_cases href : (Json.Map.containsKey o "$auth" || Json.Map.containsKey o "$data") = true
    · simp only [href, if_true]
    · simp only [href, Bool.false_eq_true, if_false]
      cases o with
      | nil => rfl
      | cons m ms => cases ms <;> rfl
  | _ => rfl

/-- The evaluator knows every operator the compiler knows, as the same one. -/
theorem ofBare_bareName {op : String} {o : LeafOp} (h : LeafOp.ofName op = some o) :
    LeafOp.ofBare (bareName op) = some o := by
  unfold LeafOp.ofName at h
  split at h <;> first | (obtain rfl := Option.some.inj h; rfl) | cases h

/-- A compiled operand is bound as the value the evaluator gives it. -/
theorem resolveOperand_eq_eval {operand : Json} {ctx : PolicyCtx} {v : Value}
    (h : resolveOperand operand ctx = .ok v) : v = resolveEvalOperand operand ctx := by
  cases operand with
  | object o =>
    cases hauth : Json.Map.get o "$auth" with
    | some k =>
      have hid : k.asStr = some "id" := by
        by_contra hne
        simp [resolveOperand, hauth, hne] at h
      have heval : resolveEvalOperand (.object o) ctx = authValue ctx := by
        simp [resolveEvalOperand, hauth, hid]
      simp only [resolveOperand, hauth, hid, if_true] at h
      rw [heval, Except.ok.inj h]
    | none =>
      cases hdata : (Json.Map.get o "$data").bind Json.asStr with
      | none =>
        simp only [resolveOperand, hauth, hdata] at h
        simp [resolveEvalOperand, hauth, hdata, Except.ok.inj h]
      | some f =>
        cases hrow : ctx.data with
        | none => simp [resolveOperand, hauth, hdata, hrow] at h
        | some row =>
          simp only [resolveOperand, hauth, hdata, hrow] at h
          simp [resolveEvalOperand, hauth, hdata, hrow, Except.ok.inj h]
  | _ => exact (Except.ok.inj h).symm

theorem resolveOperands_eq_eval {ctx : PolicyCtx} {operands : List Json} :
    ∀ {vs}, resolveOperands operands ctx = .ok vs →
      vs = operands.map (fun v => resolveEvalOperand v ctx) := by
  induction operands with
  | nil =>
    intro vs h
    exact (Except.ok.inj h).symm
  | cons v operands ih =>
    intro vs h
    rw [resolveOperands] at h
    obtain ⟨x, hx, h⟩ := Except.bind_eq_ok_iff.mp h
    obtain ⟨xs, hxs, h⟩ := Except.bind_eq_ok_iff.mp h
    rw [← Except.ok.inj h, resolveOperand_eq_eval hx, ih hxs, List.map_cons]

/-- The verdict of an operator on the value `x` of a column. -/
def denoteOp (like : Value → Value → Tri) (x : Value) (o : LeafOp) (operand : Json)
    (ctx : PolicyCtx) : Tri :=
  match o with
  | .cmp c => compareTri c x (resolveEvalOperand operand ctx)
  | .like => like x (resolveEvalOperand operand ctx)
  | .isNull neg => .ofBool (x.isNull != neg)
  | .inSet neg =>
    let vs := (operand.asArray.getD []).map (fun v => resolveEvalOperand v ctx)
    if neg then (inTri x vs).not else inTri x vs

/-- The verdict of a leaf on a column. -/
def denoteLeaf (E : Env) (f : String) (body : Json) (ctx : PolicyCtx) : Tri :=
  match leafParts body with
  | some (op, operand) =>
    match LeafOp.ofName op with
    | some o => denoteOp E.like ((E.row f).getD .null) o operand ctx
    | none => .false
  | none => .false

/-- A field that passes validation is a column. -/
theorem mem_columns_of_validateField {f : String} (h : validateField schema f = .ok ()) :
    f ∈ schema.columns := by
  unfold validateField at h
  split at h
  · cases h
  · split at h
    · cases h
    · next hv =>
      rw [CollectionSchema.columns, List.mem_append, List.mem_map]
      simp only [Bool.and_eq_true, Bool.not_eq_true', decide_eq_false_iff_not, not_and,
        Bool.not_eq_false, List.any_eq_true, beq_iff_eq] at hv
      by_cases hs : f ∈ systemColumns
      · exact .inl hs
      · obtain ⟨x, hx, hname⟩ := hv hs
        exact .inr ⟨x, hx, hname⟩

section Compiled

variable {E : Env} {ctx : PolicyCtx}

theorem means_compileOp {f op : String} {operand : Json} {x : Value} {p : Compiled}
    (hx : E.row f = some x) (h : compileOp f op operand ctx = .ok p) :
    ∃ o, LeafOp.ofName op = some o ∧
      Emits E p (denoteOp E.like x o operand ctx) := by
  unfold compileOp at h
  cases ho : LeafOp.ofName op with
  | none => simp [ho] at h
  | some o =>
    refine ⟨o, rfl, ?_⟩
    simp only [ho] at h
    cases o with
    | cmp c =>
      obtain ⟨v, hv, h⟩ := Except.bind_eq_ok_iff.mp h
      rw [← Except.ok.inj h, resolveOperand_eq_eval hv]
      exact means_cmp c hx _
    | like =>
      obtain ⟨v, hv, h⟩ := Except.bind_eq_ok_iff.mp h
      rw [← Except.ok.inj h, resolveOperand_eq_eval hv]
      exact means_like hx _
    | isNull neg =>
      rw [← Except.ok.inj h]
      cases neg with
      | false => simpa [Emits, denoteOp] using means_isNull hx
      | true => simpa [Emits, denoteOp] using means_isNotNull hx
    | inSet neg =>
      cases operand with
      | array arr =>
        by_cases harr : arr = []
        · -- the empty set is a constant in the text, and so is its verdict
          subst harr
          have hp := Except.ok.inj h
          rw [← hp]
          cases neg with
          | false => exact means_false
          | true => exact means_true
        · have hne : arr.isEmpty = false := by simpa using harr
          simp only [hne, Bool.false_eq_true, if_false] at h
          obtain ⟨vs, hvs, h⟩ := Except.bind_eq_ok_iff.mp h
          have hvs' := resolveOperands_eq_eval hvs
          have hlen : arr.length = vs.length := by rw [hvs', List.length_map]
          rw [← Except.ok.inj h, hlen]
          have hvs_ne : vs ≠ [] := by
            rw [hvs']
            simpa using harr
          have hmeans := means_in neg hx hvs_ne
          rw [hvs'] at hmeans ⊢
          exact hmeans
      | _ => cases h

/-- A leaf that compiles names a column, and its text means the leaf's verdict. -/
theorem means_compileLeaf (hE : ∀ f ∈ schema.columns, (E.row f).isSome) {f : String}
    {body : Json} {p : Compiled} (h : compileLeaf schema f body ctx = .ok p) :
    Emits E p (denoteLeaf E f body ctx) := by
  rw [compileLeaf_eq] at h
  obtain ⟨u, hvalid, h⟩ := Except.bind_eq_ok_iff.mp h
  obtain ⟨x, hx⟩ := Option.isSome_iff_exists.mp (hE f (mem_columns_of_validateField hvalid))
  unfold denoteLeaf
  cases hparts : leafParts body with
  | none => simp [hparts] at h
  | some parts =>
    obtain ⟨op, operand⟩ := parts
    simp only [hparts] at h
    obtain ⟨o, ho, hmeans⟩ := means_compileOp hx h
    simp only [ho, hx, Option.getD_some]
    exact hmeans

end Compiled

/-! ### Trees -/

mutual

/-- The verdict of a clause. -/
def denoteNode (E : Env) (node : FilterAst) (ctx : PolicyCtx) : Tri :=
  match node with
  | .and ns => .allOf (denoteNodes E ns ctx)
  | .or ns => .anyOf (denoteNodes E ns ctx)
  | .not n => (denoteNode E n ctx).not
  | .leaf [(key, body)] =>
    if key = "$authenticated" then .ofBool (ctx.authId.isSome = body.asBool.getD true)
    else denoteLeaf E key body ctx
  | .leaf _ => .false

def denoteNodes (E : Env) (nodes : List FilterAst) (ctx : PolicyCtx) : List Tri :=
  match nodes with
  | [] => []
  | n :: ns => denoteNode E n ctx :: denoteNodes E ns ctx

end

/-- The leaves of a tree that look at a column: its name, and the body. -/
def leaves : FilterAst → List (String × Json)
  | .and ns => leavesAll ns
  | .or ns => leavesAll ns
  | .not n => leaves n
  | .leaf obj => obj.filter (fun kb => kb.1 != "$authenticated")
where
  leavesAll : List FilterAst → List (String × Json)
    | [] => []
    | n :: ns => leaves n ++ leavesAll ns

theorem mem_leavesAll {n : FilterAst} {ns : List FilterAst} (hn : n ∈ ns) {kb : String × Json}
    (h : kb ∈ leaves n) : kb ∈ leaves.leavesAll ns := by
  induction ns with
  | nil => simp at hn
  | cons m ns ih =>
    rw [leaves.leavesAll, List.mem_append]
    obtain rfl | hn := List.mem_cons.mp hn
    · exact .inl h
    · exact .inr (ih hn)

/-- The fragments of the children of a boolean node mean their verdicts. -/
theorem means_compileNodes {E : Env} {ctx : PolicyCtx} {depth : Nat} {ns : List FilterAst}
    (ih : ∀ n ∈ ns, ∀ p, compileNode schema n ctx depth = .ok p →
      Emits E p (denoteNode E n ctx)) :
    ∀ {parts}, compileNodes schema ns ctx depth = .ok parts →
      List.Forall₂ (Emits E) parts (denoteNodes E ns ctx) := by
  induction ns with
  | nil =>
    intro parts h
    obtain rfl := Except.ok.inj h
    exact .nil
  | cons n ns ihns =>
    intro parts h
    rw [compileNodes] at h
    obtain ⟨part, hpart, h⟩ := Except.bind_eq_ok_iff.mp h
    obtain ⟨rest, hrest, h⟩ := Except.bind_eq_ok_iff.mp h
    obtain rfl := Except.ok.inj h
    obtain ⟨ih₁, ih₂⟩ := List.forall_mem_cons.mp ih
    rw [denoteNodes]
    exact .cons (ih₁ part hpart) (ihns ih₂ hrest)

/-- The text and the binds of a clause that compiles mean its verdict. By induction over
the clause; the depth only decides whether it compiles. -/
theorem means_compileNode {E : Env} (hE : ∀ f ∈ schema.columns, (E.row f).isSome)
    {ctx : PolicyCtx} (node : FilterAst) :
    ∀ {depth p}, compileNode schema node ctx depth = .ok p →
      Emits E p (denoteNode E node ctx) := by
  induction node using FilterAst.induct with
  | and ns ih =>
    intro depth p h
    rw [compileNode.eq_def] at h
    split at h
    · cases h
    · cases ns with
      | nil =>
        rw [← Except.ok.inj h]
        exact means_true
      | cons n ns =>
        obtain ⟨parts, hparts, h⟩ := Except.bind_eq_ok_iff.mp h
        have hmeans := means_compileNodes (fun n hn p => ih n hn) hparts
        rw [← Except.ok.inj h, denoteNode]
        exact means_allOf hmeans (by simp [denoteNodes])
  | or ns ih =>
    intro depth p h
    rw [compileNode.eq_def] at h
    split at h
    · cases h
    · cases ns with
      | nil =>
        rw [← Except.ok.inj h]
        exact means_false
      | cons n ns =>
        obtain ⟨parts, hparts, h⟩ := Except.bind_eq_ok_iff.mp h
        have hmeans := means_compileNodes (fun n hn p => ih n hn) hparts
        rw [← Except.ok.inj h, denoteNode]
        exact means_anyOf hmeans (by simp [denoteNodes])
  | not n ih =>
    intro depth p h
    rw [compileNode.eq_def] at h
    split at h
    · cases h
    · obtain ⟨inner, hinner, h⟩ := Except.bind_eq_ok_iff.mp h
      rw [← Except.ok.inj h, denoteNode]
      exact (ih hinner).not.paren
  | leaf obj =>
    intro depth p h
    rw [compileNode.eq_def] at h
    split at h
    · cases h
    · match obj, h with
      | [(key, body)], h =>
        simp only at h
        rw [denoteNode]
        split at h
        · next hkey =>
          rw [if_pos hkey, ← Except.ok.inj h]
          by_cases hwant : ctx.authId.isSome = body.asBool.getD true
          · simpa [Emits, hwant, Tri.ofBool] using means_true
          · simpa [Emits, hwant, Tri.ofBool] using means_false
        · next hkey =>
          rw [if_neg hkey]
          split at h
          · cases h
          · exact means_compileLeaf hE h

/-- A row is admitted by a compiled clause when the clause's verdict on it is true. -/
theorem admits_compiled_iff {E : Env} (hE : ∀ f ∈ schema.columns, (E.row f).isSome)
    {ctx : PolicyCtx} {clause : FilterAst} {p : Compiled}
    (h : compilePolicyUsing schema clause ctx = .ok p) :
    Admits E p.1 p.2 ↔ denoteNode E clause ctx = .true :=
  Emits.admits_iff (means_compileNode hE clause h)

/-! ### The loops of the evaluator -/

/-- The loop of `and` computes the Kleene conjunction. Its accumulator is never false. -/
theorem evalAnd_eq (compiles : List Char → Bool) (ns : List FilterAst) (row : Json.Map)
    (ctx : PolicyCtx) (depth : Nat) {acc : Tri} (hacc : acc ≠ .false) :
    evalAnd compiles ns row ctx depth acc
      = acc.and (.allOf (ns.map (fun n => evalNode compiles n row ctx depth))) := by
  induction ns generalizing acc with
  | nil => rw [evalAnd, List.map_nil, Tri.allOf_nil, Tri.and_true]
  | cons n ns ih =>
    rw [evalAnd, List.map_cons, Tri.allOf_cons]
    split
    · next h => rw [h]; cases acc <;> rfl
    · next h =>
      rw [h, ih (by simp), ← Tri.and_assoc]
      congr 1
      cases acc <;> first | rfl | exact absurd rfl hacc
    · next h => rw [h, ih hacc, ← Tri.and_assoc, Tri.and_true]

/-- The loop of `or` computes the Kleene disjunction. Its accumulator is never true. -/
theorem evalOr_eq (compiles : List Char → Bool) (ns : List FilterAst) (row : Json.Map)
    (ctx : PolicyCtx) (depth : Nat) {acc : Tri} (hacc : acc ≠ .true) :
    evalOr compiles ns row ctx depth acc
      = acc.or (.anyOf (ns.map (fun n => evalNode compiles n row ctx depth))) := by
  induction ns generalizing acc with
  | nil => rw [evalOr, List.map_nil, Tri.anyOf_nil, Tri.or_false]
  | cons n ns ih =>
    rw [evalOr, List.map_cons, Tri.anyOf_cons]
    split
    · next h => rw [h]; cases acc <;> rfl
    · next h =>
      rw [h, ih (by simp), ← Tri.or_assoc]
      congr 1
      cases acc <;> first | rfl | exact absurd rfl hacc
    · next h => rw [h, ih hacc, ← Tri.or_assoc, Tri.or_false]

end Drust.Policy
