import Drust.Query.PolicyMeaning

/-!
# The columns of a policy

The columns that a policy clause names: the one that a leaf looks at, and those that an
operand refers to by `$data`. Whether a clause compiles depends on the schema through the
first kind only (`exists_compilePolicyUsing`), and what the evaluator says of a row depends on
nothing but the named columns (`evalPolicy_congr`).
-/

namespace Drust.Policy

open Sql Kleene

variable {schema schema' : CollectionSchema}

/-- The column that an operand refers to. The caller's id goes first. -/
def dataRef : Json → List String
  | .object o =>
    if (Json.Map.get o "$auth").bind Json.asStr = some "id" then []
    else ((Json.Map.get o "$data").bind Json.asStr).toList
  | _ => []

/-- The columns that the operand of a leaf refers to, itself or in its elements. -/
def bodyRefs (body : Json) : List String :=
  match leafParts body with
  | some (_, operand) => dataRef operand ++ (operand.asArray.getD []).flatMap dataRef
  | none => []

/-- The `$data` references of a clause. -/
def dataRefs (node : FilterAst) : List String :=
  (leaves node).flatMap fun kb => bodyRefs kb.2

/-- The columns that a clause names. -/
def namedColumns (node : FilterAst) : List String :=
  (leaves node).map Prod.fst ++ dataRefs node

/-! ### Compiling under another schema -/

section Compile

variable {probe ctx : PolicyCtx}

/-- Resolving an operand asks of the context only whether there is a row. -/
theorem exists_resolveOperand (hdata : probe.data.isSome → ctx.data.isSome) {operand : Json}
    {v : Value} (h : resolveOperand operand probe = .ok v) :
    ∃ v', resolveOperand operand ctx = .ok v' := by
  cases operand with
  | object o =>
    rw [resolveOperand] at h ⊢
    split at h
    · split at h
      · next hid => exact ⟨_, if_pos hid⟩
      · cases h
    · split at h
      · next f _ =>
        split at h
        · next row hrow =>
          obtain ⟨row', hrow'⟩ := Option.isSome_iff_exists.mp (hdata (by rw [hrow]; rfl))
          rw [hrow']
          exact ⟨_, rfl⟩
        · cases h
      · exact ⟨_, rfl⟩
  | _ => exact ⟨_, rfl⟩

theorem exists_resolveOperands (hdata : probe.data.isSome → ctx.data.isSome) :
    ∀ {operands : List Json} {vs : List Value}, resolveOperands operands probe = .ok vs →
      ∃ vs', resolveOperands operands ctx = .ok vs' := by
  intro operands
  induction operands with
  | nil => exact fun _ => ⟨_, rfl⟩
  | cons v operands ih =>
    intro vs h
    rw [resolveOperands] at h
    obtain ⟨x, hx, h⟩ := Except.bind_eq_ok_iff.mp h
    obtain ⟨xs, hxs, -⟩ := Except.bind_eq_ok_iff.mp h
    obtain ⟨x', hx'⟩ := exists_resolveOperand hdata hx
    obtain ⟨xs', hxs'⟩ := ih hxs
    rw [resolveOperands, hx', hxs']
    exact ⟨_, rfl⟩

theorem exists_compileOp (hdata : probe.data.isSome → ctx.data.isSome) {f op : String}
    {operand : Json} {p : Compiled} (h : compileOp f op operand probe = .ok p) :
    ∃ p', compileOp f op operand ctx = .ok p' := by
  unfold compileOp at h ⊢
  cases ho : LeafOp.ofName op with
  | none => simp [ho] at h
  | some o =>
    simp only [ho] at h ⊢
    cases o with
    | isNull neg => exact ⟨_, rfl⟩
    | cmp c =>
      obtain ⟨v, hv, -⟩ := Except.bind_eq_ok_iff.mp h
      obtain ⟨v', hv'⟩ := exists_resolveOperand hdata hv
      exact ⟨_, Except.bind_eq_ok_iff.mpr ⟨v', hv', rfl⟩⟩
    | like =>
      obtain ⟨v, hv, -⟩ := Except.bind_eq_ok_iff.mp h
      obtain ⟨v', hv'⟩ := exists_resolveOperand hdata hv
      exact ⟨_, Except.bind_eq_ok_iff.mpr ⟨v', hv', rfl⟩⟩
    | inSet neg =>
      cases operand with
      | array arr =>
        simp only at h ⊢
        by_cases hempty : arr.isEmpty
        · exact ⟨_, if_pos hempty⟩
        · rw [if_neg hempty] at h ⊢
          obtain ⟨vs, hvs, -⟩ := Except.bind_eq_ok_iff.mp h
          obtain ⟨vs', hvs'⟩ := exists_resolveOperands hdata hvs
          exact ⟨_, Except.bind_eq_ok_iff.mpr ⟨vs', hvs', rfl⟩⟩
      | _ => cases h

/-- A leaf that compiles looks at a column of the schema, and compiles under every schema
that has it. -/
theorem exists_compileLeaf (hdata : probe.data.isSome → ctx.data.isSome) {f : String} {body : Json}
    {p : Compiled} (h : compileLeaf schema f body probe = .ok p) :
    validateField schema f = .ok () ∧
      (validateField schema' f = .ok () → ∃ p', compileLeaf schema' f body ctx = .ok p') := by
  rw [compileLeaf_eq] at h
  obtain ⟨u, hvalid, h⟩ := Except.bind_eq_ok_iff.mp h
  refine ⟨hvalid, fun hvalid' => ?_⟩
  rw [compileLeaf_eq, hvalid']
  show ∃ p', (match leafParts body with
    | some (op, operand) => compileOp f op operand ctx
    | none => .error (.parse (.opObjectKeys f))) = .ok p'
  cases hparts : leafParts body with
  | none =>
    rw [hparts] at h
    cases h
  | some parts =>
    rw [hparts] at h
    exact exists_compileOp hdata h

/-- The two halves of the transfer for one node, at every depth. -/
def Transfers (schema schema' : CollectionSchema) (probe ctx : PolicyCtx) (node : FilterAst) :
    Prop :=
  ∀ {depth p}, compileNode schema node probe depth = .ok p →
    (∀ kb ∈ leaves node, validateField schema kb.1 = .ok ()) ∧
      ((∀ kb ∈ leaves node, validateField schema' kb.1 = .ok ()) →
        ∃ p', compileNode schema' node ctx depth = .ok p')

theorem transfers_nodes {ns : List FilterAst}
    (ih : ∀ n ∈ ns, Transfers schema schema' probe ctx n) {depth : Nat} :
    ∀ {ps}, compileNodes schema ns probe depth = .ok ps →
      (∀ kb ∈ leaves.leavesAll ns, validateField schema kb.1 = .ok ()) ∧
        ((∀ kb ∈ leaves.leavesAll ns, validateField schema' kb.1 = .ok ()) →
          ∃ ps', compileNodes schema' ns ctx depth = .ok ps') := by
  induction ns with
  | nil => exact fun _ => ⟨fun kb hkb => (nomatch hkb), fun _ => ⟨_, rfl⟩⟩
  | cons n ns ihns =>
    intro ps h
    rw [compileNodes] at h
    obtain ⟨p, hp, h⟩ := Except.bind_eq_ok_iff.mp h
    obtain ⟨rest, hrest, -⟩ := Except.bind_eq_ok_iff.mp h
    obtain ⟨ih₁, ih₂⟩ := List.forall_mem_cons.mp ih
    obtain ⟨hvalid, htransfer⟩ := ih₁ hp
    obtain ⟨hvalids, htransfers⟩ := ihns ih₂ hrest
    rw [leaves.leavesAll]
    simp only [List.mem_append, or_imp, forall_and]
    refine ⟨⟨hvalid, hvalids⟩, fun hschema' => ?_⟩
    obtain ⟨p', hp'⟩ := htransfer hschema'.1
    obtain ⟨rest', hrest'⟩ := htransfers hschema'.2
    rw [compileNodes, hp', hrest']
    exact ⟨_, rfl⟩

/-- A clause that compiles looks at columns of the schema only, and compiles under every
schema that has these. By induction over the clause. -/
theorem transfers_node (hdata : probe.data.isSome → ctx.data.isSome) (node : FilterAst) :
    Transfers schema schema' probe ctx node := by
  induction node using FilterAst.induct with
  | and ns ih =>
    intro depth p h
    rw [compileNode.eq_def] at h ⊢
    split at h
    · cases h
    · next hdepth =>
      cases ns with
      | nil => exact ⟨List.forall_mem_nil _, fun _ => ⟨_, if_neg hdepth⟩⟩
      | cons n ns =>
        obtain ⟨parts, hparts, -⟩ := Except.bind_eq_ok_iff.mp h
        obtain ⟨hvalid, htransfer⟩ := transfers_nodes ih hparts
        refine ⟨hvalid, fun hschema' => ?_⟩
        obtain ⟨parts', hparts'⟩ := htransfer hschema'
        rw [if_neg hdepth]
        exact ⟨_, Except.bind_eq_ok_iff.mpr ⟨parts', hparts', rfl⟩⟩
  | or ns ih =>
    intro depth p h
    rw [compileNode.eq_def] at h ⊢
    split at h
    · cases h
    · next hdepth =>
      cases ns with
      | nil => exact ⟨List.forall_mem_nil _, fun _ => ⟨_, if_neg hdepth⟩⟩
      | cons n ns =>
        obtain ⟨parts, hparts, -⟩ := Except.bind_eq_ok_iff.mp h
        obtain ⟨hvalid, htransfer⟩ := transfers_nodes ih hparts
        refine ⟨hvalid, fun hschema' => ?_⟩
        obtain ⟨parts', hparts'⟩ := htransfer hschema'
        rw [if_neg hdepth]
        exact ⟨_, Except.bind_eq_ok_iff.mpr ⟨parts', hparts', rfl⟩⟩
  | not n ih =>
    intro depth p h
    rw [compileNode.eq_def] at h ⊢
    split at h
    · cases h
    · next hdepth =>
      obtain ⟨inner, hinner, -⟩ := Except.bind_eq_ok_iff.mp h
      obtain ⟨hvalid, htransfer⟩ := ih hinner
      refine ⟨hvalid, fun hschema' => ?_⟩
      obtain ⟨inner', hinner'⟩ := htransfer hschema'
      rw [if_neg hdepth]
      exact ⟨_, Except.bind_eq_ok_iff.mpr ⟨inner', hinner', rfl⟩⟩
  | leaf obj =>
    intro depth p h
    rw [compileNode.eq_def] at h ⊢
    split at h
    · cases h
    · next hdepth =>
      rw [if_neg hdepth]
      -- a leaf that compiles has one member
      obtain _ | ⟨⟨key, body⟩, _ | _⟩ := obj
      · cases h
      · simp only at h ⊢
        split at h
        · next hkey =>
          subst hkey
          exact ⟨fun kb hkb => by simp [leaves] at hkb, fun _ => ⟨_, rfl⟩⟩
        · next hkey =>
          have hleaves : leaves (.leaf [(key, body)]) = [(key, body)] := by simp [leaves, hkey]
          split at h
          · cases h
          · next hfts =>
            obtain ⟨hvalid, htransfer⟩ := exists_compileLeaf hdata h
            rw [hleaves, List.forall_mem_singleton, List.forall_mem_singleton]
            simp only [hkey, hfts, if_false]
            exact ⟨hvalid, htransfer⟩
      · cases h

/-- A clause that compiles looks at columns of the schema only. -/
theorem validateField_of_compilePolicyUsing {clause : FilterAst} {p : Compiled}
    (h : compilePolicyUsing schema clause probe = .ok p) :
    ∀ kb ∈ leaves clause, validateField schema kb.1 = .ok () := by
  have htransfers : Transfers schema schema probe probe clause := transfers_node id clause
  exact (htransfers h).1

/-- It compiles under every schema that has these, in every context with a row if it was
compiled with one. -/
theorem exists_compilePolicyUsing (hdata : probe.data.isSome → ctx.data.isSome)
    {clause : FilterAst} {p : Compiled} (h : compilePolicyUsing schema clause probe = .ok p)
    (hvalid : ∀ kb ∈ leaves clause, validateField schema' kb.1 = .ok ()) :
    ∃ p', compilePolicyUsing schema' clause ctx = .ok p' :=
  (transfers_node hdata clause h).2 hvalid

end Compile

/-! ### Evaluating on another row -/

section Eval

variable {compiles : List Char → Bool} {row row' : Json.Map} {ctx ctx' : PolicyCtx}

/-- Two contexts that an operand cannot tell apart: they have the same caller, and rows that
agree on some columns. -/
structure AgreeOn (ks : List String) (row row' : Json.Map) (ctx ctx' : PolicyCtx) : Prop where
  auth : ctx.authId = ctx'.authId
  row : ∀ k ∈ ks, memberValue row k = memberValue row' k
  data : ∀ k ∈ ks, ctx.data.map (memberValue · k) = ctx'.data.map (memberValue · k)

theorem AgreeOn.mono {ks ks' : List String} (h : AgreeOn ks row row' ctx ctx') (hks : ks' ⊆ ks) :
    AgreeOn ks' row row' ctx ctx' :=
  ⟨h.auth, fun k hk => h.row k (hks hk), fun k hk => h.data k (hks hk)⟩

theorem authValue_congr (h : ctx.authId = ctx'.authId) : authValue ctx = authValue ctx' := by
  rw [authValue, authValue, h]

theorem resolveEvalOperand_congr {operand : Json}
    (h : AgreeOn (dataRef operand) row row' ctx ctx') :
    resolveEvalOperand operand ctx = resolveEvalOperand operand ctx' := by
  cases operand with
  | object o =>
    rw [resolveEvalOperand, resolveEvalOperand]
    split
    · exact authValue_congr h.auth
    · next hauth =>
      cases href : (Json.Map.get o "$data").bind Json.asStr with
      | none => rfl
      | some f =>
        have hmem : f ∈ dataRef (.object o) := by simp [dataRef, hauth, href]
        have hdata := h.data f hmem
        cases hctx : ctx.data <;> cases hctx' : ctx'.data <;> simp_all
  | _ => rfl

theorem evalOp_congr {op : String} {operand : Json} {lhs : Value}
    (h : AgreeOn (dataRef operand ++ (operand.asArray.getD []).flatMap dataRef) row row' ctx ctx') :
    evalOp compiles op lhs operand ctx = evalOp compiles op lhs operand ctx' := by
  have hrhs : resolveEvalOperand operand ctx = resolveEvalOperand operand ctx' :=
    resolveEvalOperand_congr (h.mono (List.subset_append_left _ _))
  have hin : ∀ neg, evalIn neg lhs operand ctx = evalIn neg lhs operand ctx' := by
    intro neg
    cases operand with
    | array arr =>
      have helems : arr.map (fun v => resolveEvalOperand v ctx)
          = arr.map (fun v => resolveEvalOperand v ctx') := by
        refine List.map_congr_left fun v hv => resolveEvalOperand_congr (h.mono ?_)
        intro k hk
        exact List.mem_append_right _ (List.mem_flatMap.mpr ⟨v, hv, hk⟩)
      rw [evalIn, evalIn, helems]
    | _ => rfl
  simp only [evalOp, hrhs, hin]

theorem evalLeaf_congr {f : String} {body : Json}
    (h : AgreeOn (f :: bodyRefs body) row row' ctx ctx') :
    evalLeaf compiles f body row ctx = evalLeaf compiles f body row' ctx' := by
  rw [evalLeaf_eq, evalLeaf_eq, h.row f List.mem_cons_self]
  have hrefs := h.mono (List.subset_cons_self f _)
  rw [bodyRefs] at hrefs
  cases hparts : leafParts body with
  | none => rfl
  | some parts =>
    rw [hparts] at hrefs
    exact evalOp_congr hrefs

theorem namedColumns_child {n : FilterAst} {ns : List FilterAst} (hn : n ∈ ns) :
    namedColumns n ⊆ (leaves.leavesAll ns).map Prod.fst ++
      (leaves.leavesAll ns).flatMap fun kb => bodyRefs kb.2 := by
  intro k hk
  obtain hk | hk := List.mem_append.mp hk
  · obtain ⟨kb, hkb, rfl⟩ := List.mem_map.mp hk
    exact List.mem_append_left _ (List.mem_map_of_mem (mem_leavesAll hn hkb))
  · obtain ⟨kb, hkb, hk⟩ := List.mem_flatMap.mp hk
    exact List.mem_append_right _ (List.mem_flatMap.mpr ⟨kb, mem_leavesAll hn hkb, hk⟩)

theorem evalNode_congr (node : FilterAst) :
    ∀ {depth : Nat}, AgreeOn (namedColumns node) row row' ctx ctx' →
      evalNode compiles node row ctx depth = evalNode compiles node row' ctx' depth := by
  induction node using FilterAst.induct with
  | and ns ih =>
    intro depth h
    have hmap : ns.map (fun n => evalNode compiles n row ctx (depth + 1))
        = ns.map (fun n => evalNode compiles n row' ctx' (depth + 1)) :=
      List.map_congr_left fun n hn => ih n hn (h.mono (namedColumns_child hn))
    rw [evalNode, evalNode, evalAnd_eq _ _ _ _ _ (by simp),
      evalAnd_eq _ _ _ _ _ (by simp), hmap]
  | or ns ih =>
    intro depth h
    have hmap : ns.map (fun n => evalNode compiles n row ctx (depth + 1))
        = ns.map (fun n => evalNode compiles n row' ctx' (depth + 1)) :=
      List.map_congr_left fun n hn => ih n hn (h.mono (namedColumns_child hn))
    rw [evalNode, evalNode, evalOr_eq _ _ _ _ _ (by simp),
      evalOr_eq _ _ _ _ _ (by simp), hmap]
  | not n ih =>
    intro depth h
    rw [evalNode, evalNode, ih h]
  | leaf obj =>
    intro depth h
    obtain _ | ⟨⟨key, body⟩, _ | _⟩ := obj
    · rfl
    · rw [evalNode, evalNode]
      split
      · rfl
      · split
        · rw [h.auth]
        · next hkey =>
          have hleaf : evalLeaf compiles key body row ctx = evalLeaf compiles key body row' ctx' := by
            refine evalLeaf_congr (h.mono ?_)
            simp [namedColumns, dataRefs, leaves, hkey]
          rw [hleaf]
    · rfl

/-- The evaluator reads nothing of a row but the columns that the clause names. -/
theorem evalPolicy_congr {clause : FilterAst} (h : AgreeOn (namedColumns clause) row row' ctx ctx') :
    evalPolicy clause row ctx = evalPolicy clause row' ctx' := by
  rw [evalPolicy, evalPolicy, evalPolicyWith, evalPolicyWith, evalNode_congr clause h]

end Eval

end Drust.Policy
