import Drust.Query.Compiles
import Drust.Rpc.TemplateBinding

/-!
# Templates with a full-text search

A template is validated with one dummy for each parameter, all of them of the declared types. A
call may leave a parameter `null`, and a caller may have no id. Where a site is compared with a
column that makes no difference, since every scalar is bound alike. The members of a full-text
operand are not bound before they are read: they have to be strings. So a template answers every
call that its arguments allow exactly when no member of a full-text operand is a site
(`answers_iff_ftsLiteral`).
-/

namespace Drust.QueryTemplate

open Sql VectorFilter

/-! ### Calls -/

/-- The statements of a call: the template filled, with the owner and policy clauses of the
caller and the page of the request. -/
def callStatements (schema : CollectionSchema) (tpl : QueryTemplate) (args : Json.Map)
    (authId : Option String) (owner : Option (String × String)) (policyClause : Option Compiled)
    (page perPage : Option UInt32) : Except TemplateError ListSql := do
  let filter ← fillFilter tpl args authId
  match ListBuilder.buildStructuredListSql schema
      { tpl.listRequest filter with page := page, perPage := perPage } owner policyClause with
  | .ok r => .ok r
  | .error e => .error (.badShape (.doesNotCompile e))

/-- No call fails that has accepted arguments and a page in range, whoever the caller is. -/
def Answers (schema : CollectionSchema) (tpl : QueryTemplate) (specs : List ParamSpec) : Prop :=
  ∀ body args, resolveArgs specs body = .ok args →
    ∀ authId owner policyClause page perPage w, ListBuilder.pageWindow page perPage = .ok w →
      ∃ r, callStatements schema tpl args authId owner policyClause page perPage = .ok r

/-! ### Sites in full-text operands -/

/-- The value is no site. -/
def isLiteral : Json → Bool
  | .object obj => !isSite obj
  | _ => true

/-- No member of the operand is a site. -/
def literalMembers : Json → Bool
  | .object obj => obj.all (fun kv => isLiteral kv.2)
  | _ => true

mutual

/-- No member of a full-text operand of the tree is a site. -/
def ftsLiteral : FilterAst → Bool
  | .and ns => ftsLiteralAll ns
  | .or ns => ftsLiteralAll ns
  | .not n => ftsLiteral n
  | .leaf [(key, body)] => if key = "$fts" then literalMembers body else true
  | .leaf _ => true

def ftsLiteralAll : List FilterAst → Bool
  | [] => true
  | n :: ns => ftsLiteral n && ftsLiteralAll ns

end

/-- No member of a full-text operand of the template is a site. -/
def ftsLiteralTemplate (tpl : QueryTemplate) : Bool :=
  ((tpl.filter.bind ofTemplate).map ftsLiteral).getD true

theorem ftsLiteralAll_iff {ns : List FilterAst} :
    ftsLiteralAll ns = true ↔ ∀ n ∈ ns, ftsLiteral n = true := by
  induction ns with
  | nil => exact iff_of_true rfl (List.forall_mem_nil _)
  | cons n ns ih => rw [ftsLiteralAll, Bool.and_eq_true, ih, List.forall_mem_cons]

theorem fillLeavesAll_eq_map (σ : Json.Map → Json) (ns : List FilterAst) :
    fillLeavesAll σ ns = ns.map (fillLeaves σ) := by
  induction ns with
  | nil => rfl
  | cons n ns ih => rw [fillLeavesAll, ih, List.map_cons]

/-! ### What a filled full-text operand resolves to -/

section Fill

variable {schema : CollectionSchema} {σ σ' : Json.Map → Json}

theorem get_fillMembers (σ : Json.Map → Json) (kvs : Json.Map) (k : String) :
    Json.Map.get (fillMembers σ kvs) k = (Json.Map.get kvs k).map (fill σ) := by
  induction kvs with
  | nil => rfl
  | cons kv kvs ih =>
    obtain ⟨k', v⟩ := kv
    rw [fillMembers, Json.Map.get_cons, Json.Map.get_cons, ih]
    split <;> rfl

theorem length_fillMembers (σ : Json.Map → Json) (kvs : Json.Map) :
    (fillMembers σ kvs).length = kvs.length := by
  rw [fillMembers_eq_map, List.length_map]

/-- A literal that is filled to a string is that string. -/
theorem eq_string_of_fill {v : Json} {s : String} (hv : isLiteral v = true)
    (h : fill σ v = .string s) : v = .string s := by
  cases v with
  | object obj =>
    rw [isLiteral, Bool.not_eq_true'] at hv
    rw [fill, if_neg (by simp [hv])] at h
    cases h
  | array xs => cases h
  | _ => exact h

theorem isLiteral_of_mem {obj : Json.Map} {k : String} {v : Json}
    (h : literalMembers (.object obj) = true) (hget : Json.Map.get obj k = some v) :
    isLiteral v = true :=
  List.all_eq_true.mp h _ (Json.Map.mem_of_get hget)

/-- A filled operand that resolves is an object, and its two members are filled to strings. -/
theorem resolveFts_fill_iff (hσ : ∀ obj, (σ obj).isCompound = false) {body : Json}
    {entry : FtsIndex} {query : String} :
    resolveFts schema (fill σ body) = .ok (entry, query) ↔
      ∃ obj index, body = .object obj ∧ isSite obj = false ∧
        (Json.Map.get obj "index").map (fill σ) = some (.string index) ∧
        (Json.Map.get obj "query").map (fill σ) = some (.string query) ∧ obj.length = 2 ∧
        schema.ftsIndexes.find? (fun i => i.name == index) = some entry := by
  rw [resolveFts_eq_ok_iff]
  constructor
  · rintro ⟨filled, index, hfilled, hindex, hquery, hlength, hfind⟩
    cases body with
    | object obj =>
      rw [fill] at hfilled
      split at hfilled
      · -- a site is filled with a scalar
        have hscalar := hσ obj
        rw [hfilled] at hscalar
        cases hscalar
      · next hsite =>
        obtain rfl := Json.object.inj hfilled
        rw [get_fillMembers] at hindex hquery
        rw [length_fillMembers] at hlength
        exact ⟨obj, index, rfl, by simpa using hsite, hindex, hquery, hlength, hfind⟩
    | _ => cases hfilled
  · rintro ⟨obj, index, rfl, hsite, hindex, hquery, hlength, hfind⟩
    refine ⟨fillMembers σ obj, index, ?_, ?_, ?_, ?_, hfind⟩
    · rw [fill, if_neg (by simp [hsite])]
    · rw [get_fillMembers, hindex]
    · rw [get_fillMembers, hquery]
    · rw [length_fillMembers, hlength]

/-- A literal member is filled alike by every call. -/
theorem map_fill_of_literal {obj : Json.Map} (hobj : literalMembers (.object obj) = true)
    {k s : String} (h : (Json.Map.get obj k).map (fill σ) = some (.string s)) :
    (Json.Map.get obj k).map (fill σ') = some (.string s) := by
  obtain ⟨v, hget, hv⟩ := Option.map_eq_some_iff.mp h
  obtain rfl := eq_string_of_fill (isLiteral_of_mem hobj hget) hv
  rw [hget]
  rfl

/-- An operand without sites among its members resolves alike in every call. -/
theorem resolveFts_fill (hσ : ∀ obj, (σ obj).isCompound = false)
    (hσ' : ∀ obj, (σ' obj).isCompound = false) {body : Json} {entry : FtsIndex} {query : String}
    (hbody : literalMembers body = true)
    (h : resolveFts schema (fill σ body) = .ok (entry, query)) :
    resolveFts schema (fill σ' body) = .ok (entry, query) := by
  obtain ⟨obj, index, rfl, hsite, hindex, hquery, hlength, hfind⟩ := (resolveFts_fill_iff hσ).mp h
  exact (resolveFts_fill_iff hσ').mpr ⟨obj, index, rfl, hsite, map_fill_of_literal hbody hindex,
    map_fill_of_literal hbody hquery, hlength, hfind⟩

/-- What a call without an id does that leaves every argument `null`. -/
def nulls : Json.Map → Json := fun _ => .null

theorem isLiteral_of_nulls {v : Json} {s : String} (h : fill nulls v = .string s) :
    isLiteral v = true := by
  cases v with
  | object obj =>
    rw [fill] at h
    split at h <;> cases h
  | _ => rfl

/-- An object of two members has no others than two that are found in it. -/
theorem eq_or_eq_of_length_two {obj : Json.Map} {k k' : String} {v w : Json} (hne : k ≠ k')
    (hlength : obj.length = 2) (hv : Json.Map.get obj k = some v)
    (hw : Json.Map.get obj k' = some w) : ∀ kv ∈ obj, kv.2 = v ∨ kv.2 = w := by
  obtain ⟨⟨k₁, v₁⟩, ⟨k₂, v₂⟩, rfl⟩ := List.length_eq_two.mp hlength
  rw [Json.Map.get_cons, Json.Map.get_cons, Json.Map.get_nil] at hv hw
  grind

/-- An operand that resolves when all of its sites are `null` has none among its members. -/
theorem literalMembers_of_resolveFts {body : Json} {entry : FtsIndex} {query : String}
    (h : resolveFts schema (fill nulls body) = .ok (entry, query)) : literalMembers body = true := by
  obtain ⟨obj, index, rfl, -, hindex, hquery, hlength, -⟩ := (resolveFts_fill_iff fun _ => rfl).mp h
  obtain ⟨v, hv, hfillv⟩ := Option.map_eq_some_iff.mp hindex
  obtain ⟨w, hw, hfillw⟩ := Option.map_eq_some_iff.mp hquery
  rw [literalMembers, List.all_eq_true]
  intro kv hkv
  obtain hval | hval := eq_or_eq_of_length_two (by decide) hlength hv hw kv hkv
  · rw [hval]
    exact isLiteral_of_nulls hfillv
  · rw [hval]
    exact isLiteral_of_nulls hfillw

/-! ### Which filled trees compile -/

theorem compiles_fill_leaf_iff {obj : Json.Map} {depth : Nat} :
    Compiles schema (fillLeaves σ (.leaf obj)) depth ↔
      depth < maxFilterDepth ∧
        ∃ key body, obj = [(key, body)] ∧ LeafCompiles schema key (fill σ body) := by
  rw [fillLeaves, compiles_leaf_iff]
  refine and_congr_right fun _ => ?_
  constructor
  · rintro ⟨key, filled, hfilled, hleaf⟩
    rw [fillMembers_eq_map] at hfilled
    obtain ⟨⟨k, body⟩, rfl, hkv⟩ := List.map_eq_singleton_iff.mp hfilled
    obtain ⟨rfl, rfl⟩ := Prod.mk.inj hkv
    exact ⟨k, body, rfl, hleaf⟩
  · rintro ⟨key, body, rfl, hleaf⟩
    exact ⟨key, fill σ body, rfl, hleaf⟩

theorem compiles_fill_and_iff {ns : List FilterAst} {depth : Nat} :
    Compiles schema (fillLeaves σ (.and ns)) depth ↔
      depth < maxFilterDepth ∧ ∀ n ∈ ns, Compiles schema (fillLeaves σ n) (depth + 1) := by
  rw [fillLeaves, compiles_and_iff, fillLeavesAll_eq_map, List.forall_mem_map]

theorem compiles_fill_or_iff {ns : List FilterAst} {depth : Nat} :
    Compiles schema (fillLeaves σ (.or ns)) depth ↔
      depth < maxFilterDepth ∧ ∀ n ∈ ns, Compiles schema (fillLeaves σ n) (depth + 1) := by
  rw [fillLeaves, compiles_or_iff, fillLeavesAll_eq_map, List.forall_mem_map]

theorem compiles_fill_not_iff {n : FilterAst} {depth : Nat} :
    Compiles schema (fillLeaves σ (.not n)) depth ↔
      depth < maxFilterDepth ∧ Compiles schema (fillLeaves σ n) (depth + 1) := by
  rw [fillLeaves, compiles_not_iff]

/-- A tree that compiles in one call compiles in every other, when no member of a full-text
operand is a site. By induction over the tree. -/
theorem compiles_fill (hσ : ∀ obj, (σ obj).isCompound = false)
    (hσ' : ∀ obj, (σ' obj).isCompound = false) (t : FilterAst) :
    ftsLiteral t = true → ∀ {depth},
      Compiles schema (fillLeaves σ t) depth → Compiles schema (fillLeaves σ' t) depth := by
  induction t using FilterAst.induct with
  | and ns ih =>
    intro hliteral depth h
    obtain ⟨hdepth, hns⟩ := compiles_fill_and_iff.mp h
    have hliterals := ftsLiteralAll_iff.mp hliteral
    exact compiles_fill_and_iff.mpr ⟨hdepth, fun n hn => ih n hn (hliterals n hn) (hns n hn)⟩
  | or ns ih =>
    intro hliteral depth h
    obtain ⟨hdepth, hns⟩ := compiles_fill_or_iff.mp h
    have hliterals := ftsLiteralAll_iff.mp hliteral
    exact compiles_fill_or_iff.mpr ⟨hdepth, fun n hn => ih n hn (hliterals n hn) (hns n hn)⟩
  | not n ih =>
    intro hliteral depth h
    obtain ⟨hdepth, hn⟩ := compiles_fill_not_iff.mp h
    exact compiles_fill_not_iff.mpr ⟨hdepth, ih hliteral hn⟩
  | leaf obj =>
    intro hliteral depth h
    obtain ⟨hdepth, key, body, rfl, hleaf⟩ := compiles_fill_leaf_iff.mp h
    refine compiles_fill_leaf_iff.mpr ⟨hdepth, key, body, rfl, ?_⟩
    unfold LeafCompiles at hleaf ⊢
    rw [ftsLiteral] at hliteral
    -- the operand of a search is read before it is bound, any other one is only bound
    split at hleaf
    · next hkey =>
      rw [if_pos hkey] at hliteral ⊢
      obtain ⟨entry, query, hresolve⟩ := hleaf
      exact ⟨entry, query, resolveFts_fill hσ hσ' hliteral hresolve⟩
    · next hkey =>
      rw [if_neg hkey]
      obtain ⟨hvalid, p, hp⟩ := hleaf
      exact ⟨hvalid, _, compileLeaf_fill hσ hσ' hp⟩

/-- A tree that compiles with all of its sites `null` has none among the members of a full-text
operand. -/
theorem ftsLiteral_of_compiles (t : FilterAst) :
    ∀ {depth}, Compiles schema (fillLeaves nulls t) depth → ftsLiteral t = true := by
  induction t using FilterAst.induct with
  | and ns ih =>
    intro depth h
    obtain ⟨-, hns⟩ := compiles_fill_and_iff.mp h
    exact ftsLiteralAll_iff.mpr fun n hn => ih n hn (hns n hn)
  | or ns ih =>
    intro depth h
    obtain ⟨-, hns⟩ := compiles_fill_or_iff.mp h
    exact ftsLiteralAll_iff.mpr fun n hn => ih n hn (hns n hn)
  | not n ih =>
    intro depth h
    exact ih (compiles_fill_not_iff.mp h).2
  | leaf obj =>
    intro depth h
    obtain ⟨-, key, body, rfl, hleaf⟩ := compiles_fill_leaf_iff.mp h
    rw [LeafCompiles] at hleaf
    rw [ftsLiteral]
    split at hleaf
    · next hkey =>
      obtain ⟨entry, query, hresolve⟩ := hleaf
      rw [if_pos hkey]
      exact literalMembers_of_resolveFts hresolve
    · next hkey => rw [if_neg hkey]

end Fill

/-! ### Statements -/

section Statements

variable {schema : CollectionSchema} {tpl : QueryTemplate} {specs : List ParamSpec}

theorem buildWhereClause_ok_iff {filter : Option FilterAst} (owner : Option (String × String))
    (policyClause : Option Compiled) :
    (∃ c, ListBuilder.buildWhereClause schema filter owner policyClause = .ok c) ↔
      ∀ ast, filter = some ast → Compiles schema ast 0 := by
  unfold ListBuilder.buildWhereClause
  constructor
  · rintro ⟨c, h⟩ ast rfl
    obtain ⟨user, huser, -⟩ := Except.bind_eq_ok_iff.mp h
    rw [ListBuilder.filterClause] at huser
    cases hcompile : VectorFilter.compile schema ast with
    | error e => simp [hcompile] at huser
    | ok p => exact ⟨p, hcompile⟩
  · intro h
    cases filter with
    | none => exact ⟨_, rfl⟩
    | some ast =>
      obtain ⟨p, hp⟩ := h ast rfl
      have hclause : ListBuilder.filterClause schema (some ast) = .ok [("(" ++ p.1 ++ ")", p.2)] := by
        rw [ListBuilder.filterClause, VectorFilter.compile, hp]
      rw [hclause]
      exact ⟨_, rfl⟩

/-- The statements are built when each of their parts is. -/
theorem buildStructuredListSql_ok_iff {req : ListRequest} {owner : Option (String × String)}
    {policyClause : Option Compiled} :
    (∃ r, ListBuilder.buildStructuredListSql schema req owner policyClause = .ok r) ↔
      (∃ cols, ListBuilder.projection schema req.select = .ok cols) ∧
        (∀ ast, req.filter = some ast → Compiles schema ast 0) ∧
        (∃ order, ListBuilder.orderBy schema req.sort = .ok order) ∧
        ∃ w, ListBuilder.pageWindow req.page req.perPage = .ok w := by
  rw [← buildWhereClause_ok_iff owner policyClause]
  unfold ListBuilder.buildStructuredListSql
  constructor
  · rintro ⟨r, h⟩
    obtain ⟨cols, hcols, h⟩ := Except.bind_eq_ok_iff.mp h
    obtain ⟨c, hc, h⟩ := Except.bind_eq_ok_iff.mp h
    obtain ⟨order, horder, h⟩ := Except.bind_eq_ok_iff.mp h
    obtain ⟨w, hw, -⟩ := Except.bind_eq_ok_iff.mp h
    exact ⟨⟨cols, hcols⟩, ⟨c, hc⟩, ⟨order, horder⟩, w, hw⟩
  · rintro ⟨⟨cols, hcols⟩, ⟨c, hc⟩, ⟨order, horder⟩, w, hw⟩
    rw [hcols, hc, horder, hw]
    exact ⟨_, rfl⟩

/-- A call succeeds when its filter can be filled and its statements are built. -/
theorem callStatements_ok_iff {args : Json.Map} {authId : Option String}
    {owner : Option (String × String)} {policyClause : Option Compiled} {page perPage : Option UInt32} :
    (∃ r, callStatements schema tpl args authId owner policyClause page perPage = .ok r) ↔
      ∃ filter, fillFilter tpl args authId = .ok filter ∧
        (∃ cols, ListBuilder.projection schema tpl.select = .ok cols) ∧
        (∀ ast, filter = some ast → Compiles schema ast 0) ∧
        (∃ order, ListBuilder.orderBy schema tpl.sort = .ok order) ∧
        ∃ w, ListBuilder.pageWindow page perPage = .ok w := by
  constructor
  · rintro ⟨r, h⟩
    obtain ⟨filter, hfilter, h⟩ := Except.bind_eq_ok_iff.mp h
    refine ⟨filter, hfilter, ?_⟩
    split at h
    · next r' hbuild => exact buildStructuredListSql_ok_iff.mp ⟨r', hbuild⟩
    · cases h
  · rintro ⟨filter, hfilter, hparts⟩
    have hbuild : ∃ r, ListBuilder.buildStructuredListSql schema
        { tpl.listRequest filter with page := page, perPage := perPage } owner policyClause = .ok r :=
      buildStructuredListSql_ok_iff.mpr hparts
    obtain ⟨r, hr⟩ := hbuild
    refine ⟨r, Except.bind_eq_ok_iff.mpr ⟨filter, hfilter, ?_⟩⟩
    rw [hr]

/-! ### The call that leaves everything open -/

/-- Every parameter, `null`. -/
def nullArgs (specs : List ParamSpec) : Json.Map :=
  (specs.map ParamSpec.name).dedup.map fun name => (name, .null)

theorem get_nullArgs {spec : ParamSpec} (h : spec ∈ specs) :
    Json.Map.get (nullArgs specs) spec.name = some .null := by
  have hmem : spec.name ∈ (specs.map ParamSpec.name).dedup :=
    List.mem_dedup.mpr (List.mem_map_of_mem h)
  unfold nullArgs
  generalize (specs.map ParamSpec.name).dedup = names at hmem
  induction names with
  | nil => cases hmem
  | cons name names ih =>
    rw [List.map_cons, Json.Map.get_cons]
    split
    · rfl
    · next hne => exact ih ((List.mem_cons.mp hmem).resolve_left (Ne.symm hne))

theorem eq_null_of_get_nullArgs {k : String} {v : Json}
    (h : Json.Map.get (nullArgs specs) k = some v) : v = .null := by
  obtain ⟨name, -, hkv⟩ := List.mem_map.mp (Json.Map.mem_of_get h)
  exact (Prod.mk.inj hkv).2.symm

/-- An explicit `null` is accepted for every parameter. -/
theorem resolveArgs_nullArgs (specs : List ParamSpec) :
    resolveArgs specs (nullArgs specs) = .ok (nullArgs specs) := by
  -- the type checks let every `null` through
  have htypes : ∀ ss ⊆ specs, checkTypes ss (nullArgs specs) = .ok () := by
    intro ss
    induction ss with
    | nil => exact fun _ => rfl
    | cons spec ss ih =>
      intro hss
      obtain ⟨hspec, hss⟩ := List.cons_subset.mp hss
      rw [checkTypes, Params.argumentOf, get_nullArgs hspec]
      exact ih hss
  -- a default does not replace an argument that is given
  have hdefaults : ∀ ss ⊆ specs, applyDefaults ss (nullArgs specs) = nullArgs specs := by
    intro ss
    induction ss with
    | nil => exact fun _ => rfl
    | cons spec ss ih =>
      intro hss
      obtain ⟨hspec, hss⟩ := List.cons_subset.mp hss
      have hkey : (nullArgs specs).containsKey spec.name = true :=
        (Json.Map.containsKey_iff _ _).mpr ⟨_, get_nullArgs hspec⟩
      rw [applyDefaults, List.foldl_cons]
      simp only [hkey, if_true]
      split <;> exact ih hss
  -- every argument has a parameter, and none is compound
  have hcheck : checkArgs specs (nullArgs specs) = .ok () := by
    have hknown : (nullArgs specs).find? (fun kv => !specs.any (fun p => p.name == kv.1)) = none := by
      rw [List.find?_eq_none]
      intro kv hkv
      obtain ⟨name, hname, rfl⟩ := List.mem_map.mp hkv
      obtain ⟨spec, hspec, rfl⟩ := List.mem_map.mp (List.mem_dedup.mp hname)
      simpa using ⟨spec, hspec, rfl⟩
    have hscalar : (nullArgs specs).find? (fun kv => kv.2.isCompound) = none := by
      rw [List.find?_eq_none]
      intro kv hkv
      obtain ⟨name, -, rfl⟩ := List.mem_map.mp hkv
      exact Bool.false_ne_true
    rw [checkArgs, hknown]
    simp only [hscalar]
    exact htypes specs (List.Subset.refl _)
  rw [resolveArgs, hcheck, Except.ok_bind, hdefaults specs (List.Subset.refl _)]

/-- Without an id every site is `null` then. -/
theorem siteValue_nullArgs (specs : List ParamSpec) : siteValue (nullArgs specs) none = nulls := by
  funext obj
  unfold siteValue nulls
  split
  · next name _ =>
    cases hvalue : name.asStr.bind (Json.Map.get (nullArgs specs)) with
    | none => rfl
    | some v =>
      obtain ⟨n, -, hget⟩ := Option.bind_eq_some_iff.mp hvalue
      rw [eq_null_of_get_nullArgs hget]
      rfl
  · rfl

/-! ### Which templates answer -/

/-- A validated template answers every call that its arguments allow, exactly when no member of
a full-text operand is a site. -/
theorem answers_iff_ftsLiteral (hvalid : validateTemplate schema tpl specs = .ok ()) :
    Answers schema tpl specs ↔ ftsLiteralTemplate tpl = true := by
  obtain ⟨hdefaults, dry, hdry⟩ := validateTemplate_ok hvalid
  have hdummies := (allScalar_dummies specs).scalars
  obtain ⟨filter, hfilter, hcols, hcompiles, horder, -⟩ := callStatements_ok_iff.mp ⟨dry, hdry⟩
  unfold ftsLiteralTemplate
  cases hf : tpl.filter with
  | none =>
    -- without a filter nothing is filled
    refine ⟨fun _ => rfl, fun _ body args _ authId owner policyClause page perPage w hw => ?_⟩
    have hfill : fillFilter tpl args authId = .ok none := by rw [fillFilter, hf]
    exact callStatements_ok_iff.mpr ⟨none, hfill, hcols, by simp, horder, w, hw⟩
  | some f =>
    obtain ⟨t, ht, rfl, -⟩ := fillFilter_eq hf hdummies hdummies none hfilter
    rw [Option.bind_some, ht]
    constructor
    · intro hanswers
      -- a caller without an id leaves every argument open
      have hnull := resolveArgs_nullArgs specs
      have hargs := (allScalar_resolveArgs hdefaults hnull).scalars
      obtain ⟨filter, hcall, -, hcompiles', -, -⟩ := callStatements_ok_iff.mp
        (hanswers _ _ hnull none none none none none _ rfl)
      obtain ⟨t', ht', -, hfill⟩ := fillFilter_eq hf hdummies hargs none hfilter
      obtain rfl := Option.some.inj (ht.symm.trans ht')
      obtain rfl := Except.ok.inj (hfill.symm.trans hcall)
      rw [siteValue_nullArgs] at hcompiles'
      exact ftsLiteral_of_compiles t (hcompiles' _ rfl)
    · intro hliteral body args hbody authId owner policyClause page perPage w hw
      -- the dry run has compiled the same tree, filled with the dummies
      have hargs := (allScalar_resolveArgs hdefaults hbody).scalars
      obtain ⟨t', ht', -, hfill⟩ := fillFilter_eq hf hdummies hargs authId hfilter
      obtain rfl := Option.some.inj (ht.symm.trans ht')
      refine callStatements_ok_iff.mpr ⟨_, hfill, hcols, ?_, horder, w, hw⟩
      rintro ast ⟨⟩
      exact compiles_fill (isCompound_siteValue hdummies _) (isCompound_siteValue hargs authId) t
        hliteral (hcompiles _ rfl)

end Statements

/-- Notes, with a full-text index. -/
def notesSchema : CollectionSchema where
  name := "notes"
  fields := [⟨"title", "TEXT"⟩, ⟨"author", "TEXT"⟩, ⟨"score", "INTEGER"⟩]
  ftsIndexes := [⟨"main", ["title"], "trigram"⟩]

/-- A search of the caller's notes with sites beside the operand, `{"and":[{"$fts":{"index":"main",
"query":"lean"}},{"author":{"$auth":"id"}},{"score":{"gte":{"$param":"min"}}}]}`. -/
def ownNotes : QueryTemplate where
  collection := "notes"
  filter := some (.object [("and", .array [
    .object [("$fts", .object [("index", .string "main"), ("query", .string "lean")])],
    .object [("author", .object [("$auth", .string "id")])],
    .object [("score", .object [("gte", .object [("$param", .string "min")])])]])])

/-- A search for an argument, `{"$fts":{"index":"main","query":{"$param":"q"}}}`. -/
def searchNotes : QueryTemplate where
  collection := "notes"
  filter := some (.object [("$fts", .object [("index", .string "main"),
    ("query", .object [("$param", .string "q")])])])

def querySpec : ParamSpec where
  name := "q"
  ty := .text

theorem answers_iff_ftsLiteral_notes :
    Answers notesSchema ownNotes [minSpec] ∧ ¬ Answers notesSchema searchNotes [querySpec] := by
  have hown : validateTemplate notesSchema ownNotes [minSpec] = .ok () := by decide +kernel
  have hsearch : validateTemplate notesSchema searchNotes [querySpec] = .ok () := by decide +kernel
  refine ⟨(answers_iff_ftsLiteral hown).mpr (by decide +kernel), fun h => ?_⟩
  exact absurd ((answers_iff_ftsLiteral hsearch).mp h) (by decide +kernel)

/-- A validated search fails on the caller's account: it accepts a `null` for its query, which is
no query. -/
theorem validated_search_fails :
    ¬ ∀ (schema : CollectionSchema) (tpl : QueryTemplate) (specs : List ParamSpec) (t : FilterAst),
      validateTemplate schema tpl specs = .ok () → tpl.filter.bind ofTemplate = some t →
      ftsFree t = false → Answers schema tpl specs := by
  intro h
  have hanswers := h notesSchema searchNotes [querySpec]
    (.leaf [("$fts", .object [("index", .string "main"),
      ("query", .object [("$param", .string "q")])])]) (by decide +kernel) rfl (by decide)
  obtain ⟨r, hr⟩ := hanswers [("q", .null)] [("q", .null)] rfl (some "u1") none none none none _ rfl
  have herror : callStatements notesSchema searchNotes [("q", .null)] (some "u1") none none none none
      = .error (.badShape (.doesNotCompile (.filter (.parse .ftsShape)))) := by decide +kernel
  rw [herror] at hr
  cases hr

end Drust.QueryTemplate
