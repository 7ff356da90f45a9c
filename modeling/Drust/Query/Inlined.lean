import Drust.Lib.Sql.Inline
import Drust.Query.Compiles
import Drust.Query.PolicyMeaning

/-!
# Filters with their operands in place

What a filter and a policy clause say as conditions with values written out: every leaf holds
the values of its own operands, where the leaf has them (`inlineNode`). Nothing is said of
placeholders or of a vector of binds. A compiler emits the text of this condition with a
placeholder for each value, and pushes the values in the order of the placeholders
(`spells_compileNode`), so the two can be put together again.
-/

namespace Drust

open Sql

namespace VectorFilter

/-! ### Filters -/

/-- The token of a binary operator. -/
def opTok (sym : String) : Filled :=
  if sym = "LIKE" then .word sym else .sym sym

def inlineOp (field op : String) (operand : Json) : List Filled :=
  match sqlOp op with
  | some sym => comparison field (opTok sym) (jsonToValue operand)
  | none =>
    if op = "in" ∨ op = "nin" then
      match operand with
      | .array arr => setTest (op = "nin") field (arr.map jsonToValue)
      | _ => []
    else nullTest (op = "is_not_null") field

def inlineLeaf (field : String) (body : Json) : List Filled :=
  match body with
  | .object [(op, operand)] => inlineOp field op operand
  | .object _ => []
  | _ => comparison field (.sym "=") (jsonToValue body)

/-- The rows that the virtual table of an index finds for a query. -/
def matchQuery (head query : String) : List Filled :=
  [.ident "id", .word "IN", .sym "(", .word "SELECT", .word "rowid", .word "FROM", .ident head,
    .word "WHERE", .ident head, .word "MATCH", .value (.text query), .sym ")"]

/-- A column that contains a text. -/
def contains (query field : String) : List Filled :=
  [.ident field, .word "LIKE", .value (.text ("%" ++ likeEscape query ++ "%")), .word "ESCAPE",
    .str "\\"]

def inlineFts (schema : CollectionSchema) (body : Json) : List Filled :=
  match resolveFts schema body with
  | .ok (entry, query) =>
    if ftsUsesMatch entry query then matchQuery (ftsHeadName schema.name entry.name) query
    else connected "OR" (entry.fields.map (contains query))
  | .error _ => []

mutual

/-- A filter as a condition with its operands in place. -/
def inlineNode (schema : CollectionSchema) : FilterAst → List Filled
  | .and [] => truth true
  | .and (n :: ns) => connected "AND" (inlineNodes schema (n :: ns))
  | .or [] => truth false
  | .or (n :: ns) => connected "OR" (inlineNodes schema (n :: ns))
  | .not n => .sym "(" :: .word "NOT" :: inlineNode schema n ++ [.sym ")"]
  | .leaf [(key, body)] => if key = "$fts" then inlineFts schema body else inlineLeaf key body
  | .leaf _ => []

def inlineNodes (schema : CollectionSchema) : List FilterAst → List (List Filled)
  | [] => []
  | n :: ns => inlineNode schema n :: inlineNodes schema ns

end

theorem sqlOp_cases {op sym : String} (h : sqlOp op = some sym) :
    (∃ c : CmpOp, sym = c.text) ∨ sym = "LIKE" := by
  unfold sqlOp at h
  split at h
  · exact .inl ⟨.eq, (Option.some.inj h).symm⟩
  · exact .inl ⟨.ne, (Option.some.inj h).symm⟩
  · exact .inl ⟨.gt, (Option.some.inj h).symm⟩
  · exact .inl ⟨.ge, (Option.some.inj h).symm⟩
  · exact .inl ⟨.lt, (Option.some.inj h).symm⟩
  · exact .inl ⟨.le, (Option.some.inj h).symm⟩
  · exact .inr (Option.some.inj h).symm
  · cases h

theorem opTok_text (c : CmpOp) : opTok c.text = .sym c.text := by
  cases c <;> rfl

/-- A leaf is a test of its column. -/
theorem testTok_inlineLeaf (field : String) (body : Json) :
    ∀ f ∈ inlineLeaf field body, TestTok field f := by
  unfold inlineLeaf
  split
  · next op operand =>
    unfold inlineOp
    cases hop : sqlOp op with
    | some sym =>
      refine testTok_comparison ?_ _
      obtain ⟨c, rfl⟩ | rfl := sqlOp_cases hop
      · rw [opTok_text]
        exact testTok_cmpOp c
      · simp [opTok, TestTok]
    | none =>
      simp only
      split
      · cases operand with
        | array arr => exact testTok_setTest _ _
        | _ => exact List.forall_mem_nil _
      · exact testTok_nullTest _
  · exact List.forall_mem_nil _
  · exact testTok_comparison (testTok_cmpOp .eq) _

theorem inlineNodes_eq_map (schema : CollectionSchema) (ns : List FilterAst) :
    inlineNodes schema ns = ns.map (inlineNode schema) := by
  induction ns with
  | nil => rfl
  | cons n ns ih => rw [inlineNodes, ih, List.map_cons]

section Spells

variable {schema : CollectionSchema} {p : Compiled}

theorem lexes_opTok {op sym : String} (h : sqlOp op = some sym) :
    Lexes sym [(opTok sym).tok] ∧ (opTok sym).value? = none := by
  obtain ⟨c, rfl⟩ | rfl := sqlOp_cases h
  · rw [opTok_text]
    exact ⟨c.lexes_text, rfl⟩
  · exact ⟨lexes_LIKE, rfl⟩

theorem spells_compileOp {field op : String} {operand : Json}
    (h : compileOp field op operand = .ok p) : Spells p (inlineOp field op operand) := by
  unfold compileOp at h
  unfold inlineOp
  cases hop : sqlOp op with
  | some sym =>
    simp only [hop] at h
    rw [← Except.ok.inj h]
    exact spells_comparison field (opTok sym) (lexes_opTok hop).1 (lexes_opTok hop).2 _
  | none =>
    simp only [hop] at h ⊢
    split at h
    · next hin =>
      rw [if_pos hin]
      cases operand with
      | array arr =>
        -- an empty array leaves the column out, both here and in the text
        have hset := spells_setTest (op = "nin") field (arr.map jsonToValue)
        rw [List.isEmpty_map, List.length_map] at hset
        obtain rfl | rfl := hin <;> cases arr <;> (rw [← Except.ok.inj h]; exact hset)
      | _ => cases h
    · next hin =>
      rw [if_neg hin]
      split at h
      · next hnull =>
        have htest := spells_nullTest (op = "is_not_null") field
        obtain rfl | rfl := hnull <;> (rw [← Except.ok.inj h]; exact htest)
      · cases h

theorem spells_compileLeaf {field : String} {body : Json} (h : compileLeaf field body = .ok p) :
    Spells p (inlineLeaf field body) := by
  -- what is no operator object is compared for equality
  have hshort : ∀ v, Spells (quoteIdent field ++ " = ?", [v]) (comparison field (.sym "=") v) := by
    intro v
    have heq := spells_comparison field (.sym "=") (CmpOp.lexes_text .eq) rfl v
    simp only [String.append_assoc] at heq
    exact heq
  cases body with
  | object obj =>
    match obj, h with
    | [], h => cases h
    | [(op, operand)], h => exact spells_compileOp h
    | _ :: _ :: _, h => cases h
  | _ =>
    rw [← Except.ok.inj h]
    exact hshort _

theorem spells_matchQuery (head query : String) :
    Spells ("\"id\" IN (SELECT rowid FROM " ++ quoteIdent head ++ " WHERE " ++ quoteIdent head ++
      " MATCH ?)", [.text query]) (matchQuery head query) := by
  have hwhere := (spells_ident head).between " WHERE " [.word "WHERE"] rfl (fun _ => rfl) rfl
    (spells_ident head)
  have hmatch := hwhere.between " MATCH " [.word "MATCH"] rfl (fun _ => rfl) rfl
    (spells_value (.text query))
  have hbody := (Spells.after "SELECT rowid FROM " [.word "SELECT", .word "rowid", .word "FROM"]
    (fun _ => rfl) rfl hmatch).paren
  have hall := ((spells_ident "id").join (spells_word lexes_IN)).join hbody
  simp only [String.append_assoc] at hall ⊢
  exact hall

/-- The `LIKE`s over the columns of an index. -/
theorem spells_contains (query field : String) :
    Spells (quoteIdent field ++ " LIKE ? ESCAPE '\\'", [.text ("%" ++ likeEscape query ++ "%")])
      (contains query field) := by
  -- the quoted backslash ends where a token has to end
  have hescape : Lexes "'\\'" [.str "\\"] := by
    intro rest hrest
    change lexFrom (.strEnd ['\\']) rest = _
    exact lexFrom_of_endTok rfl (by rintro c (rfl | rfl | rfl) <;> rfl) hrest
  have hslash : Spells ("'\\'", []) [.str "\\"] := spells_text hescape rfl
  have hlike := (spells_comparison field (.word "LIKE") lexes_LIKE rfl
    (.text ("%" ++ likeEscape query ++ "%"))).between " ESCAPE " [.word "ESCAPE"] rfl
    (fun _ => rfl) rfl hslash
  simp only [String.append_assoc] at hlike ⊢
  exact hlike

theorem spells_compileFts {body : Json} (h : compileFts schema body = .ok p) :
    Spells p (inlineFts schema body) := by
  unfold compileFts at h
  obtain ⟨⟨entry, query⟩, hresolve, h⟩ := Except.bind_eq_ok_iff.mp h
  simp only [inlineFts, hresolve]
  simp only at h
  split at h
  · next hmatch =>
    rw [if_pos hmatch, ← Except.ok.inj h]
    exact spells_matchQuery _ query
  · next hmatch =>
    rw [if_neg hmatch, ← Except.ok.inj h]
    have hors := spells_connected lexes_OR
      (forall₂_map entry.fields (spells_contains query))
    rw [List.map_map, List.flatMap_map, ← List.map_eq_flatMap] at hors
    exact hors

/-- The conditions of the children of a boolean node. -/
theorem spells_compileNodes {ns : List FilterAst} {depth : Nat}
    (ih : ∀ n ∈ ns, ∀ p, compileNode schema n depth = .ok p → Spells p (inlineNode schema n)) :
    ∀ {parts}, compileNodes schema ns depth = .ok parts →
      List.Forall₂ Spells parts (inlineNodes schema ns) := by
  induction ns with
  | nil =>
    intro parts h
    obtain rfl := Except.ok.inj h
    exact .nil
  | cons n ns ihns =>
    intro parts h
    rw [compileNodes] at h
    obtain ⟨part, hpart, h⟩ := Except.bind_eq_ok_iff.mp h
    obtain ⟨rest, hrest, h⟩ := Except.bind_eq_ok_iff.mp h
    obtain rfl := Except.ok.inj h
    obtain ⟨ih₁, ih₂⟩ := List.forall_mem_cons.mp ih
    rw [inlineNodes]
    exact .cons (ih₁ part hpart) (ihns ih₂ hrest)

/-- The children of a boolean node, joined by its keyword. -/
theorem spells_connective {kw : String} (hkw : Lexes kw [.word kw]) {ns : List FilterAst}
    {depth : Nat}
    (ih : ∀ n ∈ ns, ∀ p, compileNode schema n depth = .ok p → Spells p (inlineNode schema n))
    (h : (compileNodes schema ns depth >>= fun parts =>
      .ok ("(" ++ join (" " ++ kw ++ " ") (parts.map Prod.fst) ++ ")", parts.flatMap Prod.snd))
        = .ok p) : Spells p (connected kw (inlineNodes schema ns)) := by
  obtain ⟨parts, hparts, h⟩ := Except.bind_eq_ok_iff.mp h
  have hnodes := spells_compileNodes ih hparts
  rw [← Except.ok.inj h]
  exact spells_connected hkw hnodes

/-- A filter that compiles reads the condition with its operands in place. By induction over
the tree; the depth only decides whether it compiles. -/
theorem spells_compileNode (n : FilterAst) :
    ∀ {depth p}, compileNode schema n depth = .ok p → Spells p (inlineNode schema n) := by
  induction n using FilterAst.induct with
  | and ns ih =>
    intro depth p h
    rw [compileNode.eq_def] at h
    split at h
    · cases h
    · cases ns with
      | nil =>
        rw [← Except.ok.inj h]
        exact spells_truth true
      | cons n ns =>
        rw [inlineNode]
        exact spells_connective lexes_AND (fun n hn p => ih n hn) h
  | or ns ih =>
    intro depth p h
    rw [compileNode.eq_def] at h
    split at h
    · cases h
    · cases ns with
      | nil =>
        rw [← Except.ok.inj h]
        exact spells_truth false
      | cons n ns =>
        rw [inlineNode]
        exact spells_connective lexes_OR (fun n hn p => ih n hn) h
  | not n ih =>
    intro depth p h
    rw [compileNode.eq_def] at h
    split at h
    · cases h
    · obtain ⟨inner, hinner, h⟩ := Except.bind_eq_ok_iff.mp h
      rw [← Except.ok.inj h, inlineNode]
      have hnot := (ih hinner).not
      rw [← String.append_assoc] at hnot
      exact hnot
  | leaf obj =>
    intro depth p h
    rw [compileNode.eq_def] at h
    split at h
    · cases h
    · obtain _ | ⟨⟨key, body⟩, _ | _⟩ := obj
      · cases h
      · simp only at h
        rw [inlineNode]
        split at h
        · next hkey =>
          rw [if_pos hkey]
          exact spells_compileFts h
        · next hkey =>
          rw [if_neg hkey]
          obtain ⟨u, -, h⟩ := Except.bind_eq_ok_iff.mp h
          exact spells_compileLeaf h
      · cases h

end Spells

end VectorFilter

namespace Policy

/-! ### Policy clauses -/

/-- An operator with the values that its operand resolves to. -/
def inlineOp (field : String) (o : LeafOp) (operand : Json) (ctx : PolicyCtx) : List Filled :=
  match o with
  | .cmp c => comparison field (.sym c.text) (resolveEvalOperand operand ctx)
  | .like => comparison field (.word "LIKE") (resolveEvalOperand operand ctx)
  | .isNull neg => nullTest neg field
  | .inSet neg =>
    match operand with
    | .array arr => setTest neg field (arr.map fun v => resolveEvalOperand v ctx)
    | _ => []

def inlineLeaf (field : String) (body : Json) (ctx : PolicyCtx) : List Filled :=
  match leafParts body with
  | some (op, operand) =>
    match LeafOp.ofName op with
    | some o => inlineOp field o operand ctx
    | none => []
  | none => []

mutual

/-- A clause as a condition with its operands in place. -/
def inlineNode (ctx : PolicyCtx) : FilterAst → List Filled
  | .and [] => truth true
  | .and (n :: ns) => connected "AND" (inlineNodes ctx (n :: ns))
  | .or [] => truth false
  | .or (n :: ns) => connected "OR" (inlineNodes ctx (n :: ns))
  | .not n => .sym "(" :: .word "NOT" :: inlineNode ctx n ++ [.sym ")"]
  | .leaf [(key, body)] =>
    if key = "$authenticated" then truth (ctx.authId.isSome = body.asBool.getD true)
    else inlineLeaf key body ctx
  | .leaf _ => []

def inlineNodes (ctx : PolicyCtx) : List FilterAst → List (List Filled)
  | [] => []
  | n :: ns => inlineNode ctx n :: inlineNodes ctx ns

end

/-- A leaf is a test of its column. -/
theorem testTok_inlineLeaf (field : String) (body : Json) (ctx : PolicyCtx) :
    ∀ f ∈ inlineLeaf field body ctx, TestTok field f := by
  unfold inlineLeaf
  split
  · next op operand _ =>
    split
    · next o _ =>
      cases o with
      | cmp c => exact testTok_comparison (testTok_cmpOp c) _
      | like => exact testTok_comparison (by simp [TestTok]) _
      | isNull neg => exact testTok_nullTest neg
      | inSet neg =>
        cases operand with
        | array arr => exact testTok_setTest neg _
        | _ => exact List.forall_mem_nil _
    · exact List.forall_mem_nil _
  · exact List.forall_mem_nil _

theorem inlineNodes_eq_map (ctx : PolicyCtx) (ns : List FilterAst) :
    inlineNodes ctx ns = ns.map (inlineNode ctx) := by
  induction ns with
  | nil => rfl
  | cons n ns ih => rw [inlineNodes, ih, List.map_cons]

section Spells

variable {schema : CollectionSchema} {ctx : PolicyCtx} {p : Compiled}

theorem spells_compileOp {field op : String} {operand : Json}
    (h : compileOp field op operand ctx = .ok p) :
    ∃ o, LeafOp.ofName op = some o ∧ Spells p (inlineOp field o operand ctx) := by
  unfold compileOp at h
  cases ho : LeafOp.ofName op with
  | none => simp [ho] at h
  | some o =>
    refine ⟨o, rfl, ?_⟩
    simp only [ho] at h
    cases o with
    | cmp c =>
      obtain ⟨v, hv, h⟩ := Except.bind_eq_ok_iff.mp h
      rw [← Except.ok.inj h, resolveOperand_eq_eval hv]
      exact spells_comparison field (.sym c.text) c.lexes_text rfl _
    | like =>
      obtain ⟨v, hv, h⟩ := Except.bind_eq_ok_iff.mp h
      rw [← Except.ok.inj h, resolveOperand_eq_eval hv]
      exact spells_comparison field (.word "LIKE") lexes_LIKE rfl _
    | isNull neg =>
      rw [← Except.ok.inj h]
      exact spells_nullTest neg field
    | inSet neg =>
      cases operand with
      | array arr =>
        have hset := spells_setTest neg field (arr.map fun v => resolveEvalOperand v ctx)
        rw [List.isEmpty_map, List.length_map] at hset
        cases arr with
        | nil =>
          rw [← Except.ok.inj h]
          exact hset
        | cons v arr =>
          obtain ⟨vs, hvs, h⟩ := Except.bind_eq_ok_iff.mp h
          rw [← Except.ok.inj h, resolveOperands_eq_eval hvs]
          exact hset
      | _ => cases h

theorem spells_compileLeaf {field : String} {body : Json}
    (h : compileLeaf schema field body ctx = .ok p) : Spells p (inlineLeaf field body ctx) := by
  rw [compileLeaf_eq] at h
  obtain ⟨u, -, h⟩ := Except.bind_eq_ok_iff.mp h
  unfold inlineLeaf
  cases hparts : leafParts body with
  | none => simp [hparts] at h
  | some parts =>
    obtain ⟨op, operand⟩ := parts
    simp only [hparts] at h
    obtain ⟨o, ho, hspells⟩ := spells_compileOp h
    simp only [ho]
    exact hspells

theorem spells_compileNodes {ns : List FilterAst} {depth : Nat}
    (ih : ∀ n ∈ ns, ∀ p, compileNode schema n ctx depth = .ok p → Spells p (inlineNode ctx n)) :
    ∀ {parts}, compileNodes schema ns ctx depth = .ok parts →
      List.Forall₂ Spells parts (inlineNodes ctx ns) := by
  induction ns with
  | nil =>
    intro parts h
    obtain rfl := Except.ok.inj h
    exact .nil
  | cons n ns ihns =>
    intro parts h
    rw [compileNodes] at h
    obtain ⟨part, hpart, h⟩ := Except.bind_eq_ok_iff.mp h
    obtain ⟨rest, hrest, h⟩ := Except.bind_eq_ok_iff.mp h
    obtain rfl := Except.ok.inj h
    obtain ⟨ih₁, ih₂⟩ := List.forall_mem_cons.mp ih
    rw [inlineNodes]
    exact .cons (ih₁ part hpart) (ihns ih₂ hrest)

/-- The children of a boolean node, joined by its keyword. -/
theorem spells_connective {kw : String} (hkw : Lexes kw [.word kw]) {ns : List FilterAst}
    {depth : Nat}
    (ih : ∀ n ∈ ns, ∀ p, compileNode schema n ctx depth = .ok p → Spells p (inlineNode ctx n))
    (h : (compileNodes schema ns ctx depth >>= fun parts =>
      .ok ("(" ++ join (" " ++ kw ++ " ") (parts.map Prod.fst) ++ ")", parts.flatMap Prod.snd))
        = .ok p) : Spells p (connected kw (inlineNodes ctx ns)) := by
  obtain ⟨parts, hparts, h⟩ := Except.bind_eq_ok_iff.mp h
  have hnodes := spells_compileNodes ih hparts
  rw [← Except.ok.inj h]
  exact spells_connected hkw hnodes

/-- A clause that compiles reads the condition with its operands in place. -/
theorem spells_compileNode (n : FilterAst) :
    ∀ {depth p}, compileNode schema n ctx depth = .ok p → Spells p (inlineNode ctx n) := by
  induction n using FilterAst.induct with
  | and ns ih =>
    intro depth p h
    rw [compileNode.eq_def] at h
    split at h
    · cases h
    · cases ns with
      | nil =>
        rw [← Except.ok.inj h]
        exact spells_truth true
      | cons n ns =>
        rw [inlineNode]
        exact spells_connective lexes_AND (fun n hn p => ih n hn) h
  | or ns ih =>
    intro depth p h
    rw [compileNode.eq_def] at h
    split at h
    · cases h
    · cases ns with
      | nil =>
        rw [← Except.ok.inj h]
        exact spells_truth false
      | cons n ns =>
        rw [inlineNode]
        exact spells_connective lexes_OR (fun n hn p => ih n hn) h
  | not n ih =>
    intro depth p h
    rw [compileNode.eq_def] at h
    split at h
    · cases h
    · obtain ⟨inner, hinner, h⟩ := Except.bind_eq_ok_iff.mp h
      rw [← Except.ok.inj h, inlineNode]
      exact (ih hinner).not
  | leaf obj =>
    intro depth p h
    rw [compileNode.eq_def] at h
    split at h
    · cases h
    · obtain _ | ⟨⟨key, body⟩, _ | _⟩ := obj
      · cases h
      · simp only at h
        rw [inlineNode]
        split at h
        · next hkey =>
          -- decided when the clause is compiled, so a constant of the text
          have htruth := spells_truth (ctx.authId.isSome = body.asBool.getD true)
          simp only [decide_eq_true_eq] at htruth
          rw [if_pos hkey, ← Except.ok.inj h]
          exact htruth
        · next hkey =>
          rw [if_neg hkey]
          split at h
          · cases h
          · exact spells_compileLeaf h
      · cases h

end Spells

end Policy

end Drust
