import Drust.Query.Confined

/-!
# Placeholders and binds

The statements of a list request and of an aggregate request come as text with placeholders and
one vector of binds, pushed by the filter, the owner clause and the policy clause in turn. Here
each statement is also given with its values in place, every value written where its leaf stands
(`inlineList`, `inlineCount`, `inlineAggregate`). A statement that is built is that one: its
placeholders are as many as its binds, and the i-th bind is the operand of the leaf with the i-th
placeholder. Apart from the values it is made of fixed keywords and marks, of decimals, and of
quoted names that are known (`Name`).
-/

namespace Drust

open Sql

namespace ListBuilder

/-! ### Statements with their values in place -/

def inlineProjection (schema : CollectionSchema) (select : Option (List String)) : List Filled :=
  match select with
  | none =>
    let cols := (schema.fields.filter (fun f => !isVectorField schema f.name)).map Field.name
    if cols.isEmpty then [.sym "*"] else nameList cols
  | some cols =>
    let filtered := cols.filter (fun c => !isVectorField schema c)
    if filtered.isEmpty then [.ident "id"] else nameList filtered

def inlineOrder (field dir : String) : List Filled :=
  [.word "ORDER", .word "BY", .ident field, .word dir]

def inlinePage (limit offset : Nat) : List Filled :=
  [.word "LIMIT", .num (toString limit), .word "OFFSET", .num (toString offset)]

/-- The field and the direction of an order. -/
def sortWords (sort : Option SortSpec) : String × String :=
  match sort with
  | none => ("created_at", "DESC")
  | some s => (s.field, toAsciiUppercase s.dir)

def pageLimit (perPage : Option UInt32) : Nat :=
  (perPage.map UInt32.toNat).getD defaultPerPage

def pageOffset (page perPage : Option UInt32) : Nat :=
  ((page.map UInt32.toNat).getD 1 - 1) * pageLimit perPage

/-- The list statement. -/
def inlineList (schema : CollectionSchema) (req : ListRequest) (owner : Option (String × String))
    (policy : Option PolicyFragment) : List Filled :=
  .word "SELECT" :: inlineProjection schema req.select ++ .word "FROM" :: .ident schema.name ::
    inlineWhere (inlineConditions schema req.filter owner policy) ++
    inlineOrder (sortWords req.sort).1 (sortWords req.sort).2 ++
    inlinePage (pageLimit req.perPage) (pageOffset req.page req.perPage)

/-- The count statement. -/
def inlineCount (schema : CollectionSchema) (req : ListRequest) (owner : Option (String × String))
    (policy : Option PolicyFragment) : List Filled :=
  .word "SELECT" :: .word "COUNT" :: .sym "(" :: .sym "*" :: .sym ")" :: .word "FROM" ::
    .ident schema.name :: inlineWhere (inlineConditions schema req.filter owner policy)

/-- The name of a metric that is given none. -/
def defaultName (op : String) (field : Option String) : String :=
  match field with
  | none => op
  | some f => op ++ "_" ++ f

def metricName (m : AggregateMetric) : String :=
  m.aliasName.getD (defaultName (toAsciiLowercase m.op) m.field)

def inlineMetric (m : AggregateMetric) : List Filled :=
  [.word (toAsciiUppercase (toAsciiLowercase m.op)), .sym "(",
    (m.field.map Filled.ident).getD (.sym "*"), .sym ")", .word "AS", .ident (metricName m)]

def inlineGroupBy (names : List String) : List Filled :=
  if names.isEmpty then [] else .word "GROUP" :: .word "BY" :: nameList names

def inlineAggregateOrder (sort : Option SortSpec) : List Filled :=
  match sort with
  | none => []
  | some s => inlineOrder s.field (toAsciiUppercase s.dir)

/-- The aggregate statement. -/
def inlineAggregate (schema : CollectionSchema) (req : AggregateRequest)
    (owner : Option (String × String)) (policy : Option PolicyFragment) : List Filled :=
  let groupCols := req.groupBy.getD []
  .word "SELECT" ::
    sepBy (.sym ",") (groupCols.map (fun c => [.ident c]) ++ req.metrics.map inlineMetric) ++
    .word "FROM" :: .ident schema.name ::
    inlineWhere (inlineConditions schema req.filter owner policy) ++ inlineGroupBy groupCols ++
    inlineAggregateOrder req.sort ++
    inlinePage (pageLimit req.perPage) (pageOffset req.page req.perPage)

/-! ### What a statement is made of -/

/-- The name of a result: one that is given has to be an identifier, and the default is made of
the operation and the column. -/
def ResultName (schema : CollectionSchema) (m : AggregateMetric) (name : String) : Prop :=
  match m.aliasName with
  | some a => name = a ∧ validAlias a = true
  | none => name = "count" ∨ ∃ op ∈ aggOps, ∃ f ∈ schema.columns, name = op ++ "_" ++ f

/-- A statement whose values stand at their operands. -/
structure Placed (c : Compiled) (fs : List Filled) (names : String → Prop) (numbers : List Nat) :
    Prop where
  inPlace : inline (lex c.1) c.2 = some fs
  count : (lex c.1).count .param = c.2.length
  confined : ∀ f ∈ fs, Confined names numbers f

/-! ### The list -/

section List

variable {schema : CollectionSchema} {names : String → Prop} {numbers : List Nat}

theorem mem_columns_of_fieldExists {name : String}
    (hexists : (fieldExists schema name || systemColumns.contains name) = true)
    (hvector : isVectorField schema name = false) : name ∈ schema.columns := by
  simp only [fieldExists, hvector, Bool.or_false, Bool.or_eq_true, List.any_eq_true, beq_iff_eq,
    List.contains_iff_mem] at hexists
  obtain (⟨f, hf, rfl⟩ | hsystem) | hsystem := hexists
  · exact List.mem_append_right _ (List.mem_map_of_mem hf)
  · exact List.mem_append_left _ hsystem
  · exact List.mem_append_left _ hsystem

theorem spells_projection {select : Option (List String)} {cols : String}
    (h : projection schema select = .ok cols) :
    Spells (cols, []) (inlineProjection schema select) := by
  cases select with
  | none =>
    -- vectors are left out, and a table of nothing else is selected whole
    rw [← Except.ok.inj h, projectionDefault, inlineProjection]
    simp only [List.isEmpty_map]
    split
    · exact spells_text (fun _ _ => rfl) rfl
    · have hlist := spells_nameList
        ((schema.fields.filter fun f => !isVectorField schema f.name).map Field.name)
      rw [List.map_map] at hlist
      exact hlist
  | some cols =>
    rw [projection] at h
    split at h
    · cases h
    · rw [← Except.ok.inj h, inlineProjection]
      -- a selection of vectors only falls back to the id
      simp only [List.isEmpty_map]
      split
      · exact spells_ident "id"
      · exact spells_nameList _

theorem confined_projection (hcolumns : ∀ name ∈ schema.columns, names name)
    {select : Option (List String)} {cols : String} (h : projection schema select = .ok cols) :
    ∀ f ∈ inlineProjection schema select, Confined names numbers f := by
  cases select with
  | none =>
    rw [inlineProjection]
    split
    · exact List.forall_mem_singleton.mpr (by simp [Confined, marks])
    · refine confined_nameList fun name hname => hcolumns name ?_
      obtain ⟨f, hf, rfl⟩ := List.mem_map.mp hname
      exact List.mem_append_right _ (List.mem_map_of_mem (List.mem_of_mem_filter hf))
  | some cols =>
    rw [projection] at h
    split at h
    · cases h
    · next hfind =>
      rw [inlineProjection]
      split
      · exact List.forall_mem_singleton.mpr
          (hcolumns "id" (by simp [CollectionSchema.columns, systemColumns]))
      · refine confined_nameList fun name hname => hcolumns name ?_
        -- the check looked at every name of the selection, and the filter dropped the vectors
        obtain ⟨hmem, hvector⟩ := List.mem_filter.mp hname
        have hexists := List.find?_eq_none.mp hfind name hmem
        simp only [Bool.not_eq_true', Bool.not_eq_false] at hexists hvector
        exact mem_columns_of_fieldExists (by rw [hexists]; rfl) hvector

theorem toAsciiUppercase_asc {dir : String} (h : dir = "asc" ∨ dir = "ASC") :
    toAsciiUppercase dir = "ASC" := by
  obtain rfl | rfl := h <;> rfl

theorem toAsciiUppercase_desc {dir : String} (h : dir = "desc" ∨ dir = "DESC") :
    toAsciiUppercase dir = "DESC" := by
  obtain rfl | rfl := h <;> rfl

/-- An order has one of the two directions. -/
theorem orderBy_eq_ok {sort : Option SortSpec} {field dir : String}
    (h : orderBy schema sort = .ok (field, dir)) :
    sortWords sort = (field, dir) ∧ (dir = "ASC" ∨ dir = "DESC") ∧ field ∈ schema.columns := by
  cases sort with
  | none =>
    obtain ⟨rfl, rfl⟩ := Prod.mk.inj (Except.ok.inj h)
    exact ⟨rfl, .inr rfl, by simp [CollectionSchema.columns, systemColumns]⟩
  | some s =>
    rw [orderBy] at h
    split at h
    · cases h
    · next hexists =>
      split at h
      · cases h
      · next hvector =>
        simp only [Bool.not_eq_true', Bool.not_eq_false] at hexists hvector
        have hcolumn := mem_columns_of_fieldExists hexists (by simpa using hvector)
        split at h
        · next hdir =>
          obtain ⟨rfl, rfl⟩ := Prod.mk.inj (Except.ok.inj h)
          have hwords : sortWords (some s) = (s.field, "ASC") := by
            rw [sortWords, toAsciiUppercase_asc hdir]
          exact ⟨hwords, .inl rfl, hcolumn⟩
        · split at h
          · next hdir =>
            obtain ⟨rfl, rfl⟩ := Prod.mk.inj (Except.ok.inj h)
            have hwords : sortWords (some s) = (s.field, "DESC") := by
              rw [sortWords, toAsciiUppercase_desc hdir]
            exact ⟨hwords, .inr rfl, hcolumn⟩
          · cases h

theorem pageWindow_eq_ok {page perPage : Option UInt32} {limit offset : Nat}
    (h : pageWindow page perPage = .ok (limit, offset)) :
    limit = pageLimit perPage ∧ offset = pageOffset page perPage := by
  rw [pageWindow] at h
  split at h
  · cases h
  · obtain ⟨rfl, rfl⟩ := Prod.mk.inj (Except.ok.inj h)
    exact ⟨rfl, rfl⟩

theorem lexes_direction {dir : String} (h : dir = "ASC" ∨ dir = "DESC") :
    Lexes dir [.word dir] := by
  obtain rfl | rfl := h
  · exact lexes_word (c := 'A') (w := ['S', 'C']) rfl rfl
  · exact lexes_word (c := 'D') (w := ['E', 'S', 'C']) rfl rfl

section Behind

variable {c : Compiled} {fs : List Filled}

/-- An order behind a statement. -/
theorem spells_withOrder (h : Spells c fs) (field : String) {dir : String}
    (hdir : dir = "ASC" ∨ dir = "DESC") :
    Spells (c.1 ++ " ORDER BY " ++ quoteIdent field ++ " " ++ dir, c.2)
      (fs ++ inlineOrder field dir) := by
  have horder := h.between " ORDER BY " [.word "ORDER", .word "BY"] rfl (fun _ => rfl) rfl
    ((spells_ident field).join (spells_word (lexes_direction hdir)))
  simp only [String.append_assoc, List.append_assoc, List.append_nil] at horder ⊢
  exact horder

/-- A page behind a statement. -/
theorem spells_withPage (h : Spells c fs) (limit offset : Nat) :
    Spells (c.1 ++ " LIMIT " ++ toString limit ++ " OFFSET " ++ toString offset, c.2)
      (fs ++ inlinePage limit offset) := by
  have hlimit := h.between " LIMIT " [.word "LIMIT"] rfl (fun _ => rfl) rfl (spells_decimal limit)
  have hpage := hlimit.between " OFFSET " [.word "OFFSET"] rfl (fun _ => rfl) rfl
    (spells_decimal offset)
  simp only [List.append_assoc, List.append_nil] at hpage
  exact hpage

end Behind

/-- What is selected, and the table. -/
theorem spells_select {cols : String} {fs : List Filled} (h : Spells (cols, []) fs)
    (table : String) :
    Spells ("SELECT " ++ cols ++ " FROM " ++ quoteIdent table, [])
      (.word "SELECT" :: fs ++ [.word "FROM", .ident table]) := by
  have hselect := Spells.after "SELECT " [.word "SELECT"] (fun _ => rfl) rfl
    (h.between " FROM " [.word "FROM"] rfl (fun _ => rfl) rfl (spells_ident table))
  simp only [String.append_assoc, List.append_assoc] at hselect ⊢
  exact hselect

theorem confined_order {field dir : String} (hfield : names field) (h : dir = "ASC" ∨ dir = "DESC") :
    ∀ f ∈ inlineOrder field dir, Confined names numbers f := by
  have hdir : dir ∈ keywords := by obtain rfl | rfl := h <;> simp [keywords]
  simp only [inlineOrder, List.forall_mem_cons]
  exact ⟨confined_keyword (by simp [keywords]), confined_keyword (by simp [keywords]), hfield,
    hdir, List.forall_mem_nil _⟩

theorem confined_page {limit offset : Nat} (hlimit : limit ∈ numbers) (hoffset : offset ∈ numbers) :
    ∀ f ∈ inlinePage limit offset, Confined names numbers f := by
  simp only [inlinePage, List.forall_mem_cons]
  exact ⟨confined_keyword (by simp [keywords]), .inr (.inr ⟨limit, hlimit, rfl⟩),
    confined_keyword (by simp [keywords]), .inr (.inr ⟨offset, hoffset, rfl⟩),
    List.forall_mem_nil _⟩

theorem Placed.of_spells {c : Compiled} {fs : List Filled} (h : Spells c fs)
    (hconfined : ∀ f ∈ fs, Confined names numbers f) : Placed c fs names numbers :=
  ⟨h.inline_eq, count_param_of_inline h.inline_eq, hconfined⟩

variable {owner : Option (String × String)} {policy : Option PolicyFragment} {results : Set String}

/-- Both statements of a list request have their values at their operands. -/
theorem placed_list {req : ListRequest} {out : ListSql}
    (h : buildStructuredListSql schema req owner (policy.map PolicyFragment.sql) = .ok out) :
    Placed (out.listSql, out.binds) (inlineList schema req owner policy)
        (Name schema owner policy results)
        [pageLimit req.perPage, pageOffset req.page req.perPage] ∧
      Placed (out.countSql, out.binds) (inlineCount schema req owner policy)
        (Name schema owner policy results) [] := by
  unfold buildStructuredListSql at h
  obtain ⟨cols, hcols, h⟩ := Except.bind_eq_ok_iff.mp h
  obtain ⟨⟨whereClause, binds⟩, hwhere, h⟩ := Except.bind_eq_ok_iff.mp h
  obtain ⟨⟨field, dir⟩, horder, h⟩ := Except.bind_eq_ok_iff.mp h
  obtain ⟨⟨limit, offset⟩, hpage, h⟩ := Except.bind_eq_ok_iff.mp h
  obtain ⟨hsort, hdir, hfield⟩ := orderBy_eq_ok horder
  obtain ⟨rfl, rfl⟩ := pageWindow_eq_ok hpage
  obtain ⟨hspells, hdelimited⟩ := spells_buildWhereClause hwhere
  rw [← Except.ok.inj h]
  -- the list spells its statement, then its words; the count likewise
  refine ⟨Placed.of_spells ?_ ?_, Placed.of_spells ?_ ?_⟩
  · have hselect := (spells_select (spells_projection hcols) schema.name).append hspells hdelimited
    have hlist := spells_withPage (spells_withOrder hselect field hdir)
      (pageLimit req.perPage) (pageOffset req.page req.perPage)
    rw [inlineList, hsort]
    simp only [List.append_assoc, List.cons_append, List.nil_append] at hlist ⊢
    exact hlist
  · rw [inlineList, hsort]
    simp only [List.forall_mem_append, List.forall_mem_cons]
    exact ⟨⟨⟨⟨confined_keyword (by simp [keywords]), confined_projection (fun _ h => .column h) hcols⟩,
      confined_keyword (by simp [keywords]), .table, confined_where hwhere⟩,
      confined_order (.column hfield) hdir⟩, confined_page (by simp) (by simp)⟩
  · have hcount := (Spells.after "SELECT COUNT(*) FROM "
      [.word "SELECT", .word "COUNT", .sym "(", .sym "*", .sym ")", .word "FROM"] (fun _ => rfl) rfl
      (spells_ident schema.name)).append hspells hdelimited
    exact hcount
  · have hmark : ∀ s ∈ ["(", "*", ")"], s ∈ marks := by simp [marks]
    simp only [inlineCount, List.forall_mem_cons]
    exact ⟨confined_keyword (by simp [keywords]), confined_keyword (by simp [keywords]),
      hmark "(" (by simp), hmark "*" (by simp), hmark ")" (by simp),
      confined_keyword (by simp [keywords]), .table, confined_where hwhere⟩

end List

/-! ### The aggregate -/

section Aggregate

variable {schema : CollectionSchema} {names : String → Prop} {numbers : List Nat}

/-- A metric that was checked. -/
structure KnownMetric (schema : CollectionSchema) (m : AggregateMetric) : Prop where
  op : toAsciiLowercase m.op ∈ aggOps
  field : ∀ f, m.field = some f → f ∈ schema.columns
  counts : m.field = none → toAsciiLowercase m.op = "count"
  aliasName : ∀ a, m.aliasName = some a → validAlias a = true

/-- The text of a metric. -/
def metricText (m : AggregateMetric) : String :=
  toAsciiUppercase (toAsciiLowercase m.op) ++ "(" ++ (m.field.map quoteIdent).getD "*" ++ ")" ++
    " AS " ++ quoteIdent (metricName m)

theorem mem_columns_of_validateAggField {f : String}
    (h : validateAggField schema f = .ok ()) : f ∈ schema.columns := by
  rw [validateAggField] at h
  split at h
  · cases h
  · next hexists =>
    split at h
    · cases h
    · next hvector =>
      simp only [Bool.not_eq_true', Bool.not_eq_false] at hexists
      exact mem_columns_of_fieldExists hexists (by simpa using hvector)

theorem groupColumn_eq_ok {c c' : String} (h : groupColumn schema c = .ok c') :
    c' = c ∧ c ∈ schema.columns := by
  rw [groupColumn] at h
  split at h
  · cases h
  · next hexists =>
    split at h
    · cases h
    · next hvector =>
      simp only [Bool.not_eq_true', Bool.not_eq_false] at hexists
      exact ⟨(Except.ok.inj h).symm, mem_columns_of_fieldExists hexists (by simpa using hvector)⟩

theorem groupColumns_eq_ok {groupBy : Option (List String)} {groupCols : List String}
    (h : groupColumns schema groupBy = .ok groupCols) :
    groupCols = groupBy.getD [] ∧ ∀ c ∈ groupCols, c ∈ schema.columns := by
  have hall := Except.mapM_eq_ok_iff.mp h
  generalize groupBy.getD [] = cs at hall ⊢
  clear h
  -- each column is passed on as it is, so by induction the list is
  induction hall with
  | nil => exact ⟨rfl, List.forall_mem_nil _⟩
  | cons hc _ ih =>
    obtain ⟨rfl, hcolumn⟩ := groupColumn_eq_ok hc
    obtain ⟨rfl, hcolumns⟩ := ih
    exact ⟨rfl, List.forall_mem_cons.mpr ⟨hcolumn, hcolumns⟩⟩

theorem metricExpr_eq_ok {op : String} {field : Option String} {expr default : String}
    (h : metricExpr schema op field = .ok (expr, default)) :
    expr = toAsciiUppercase op ++ "(" ++ (field.map quoteIdent).getD "*" ++ ")" ∧
      default = defaultName op field ∧ (∀ f, field = some f → f ∈ schema.columns) ∧
      (field = none → op = "count") := by
  have hcount : toAsciiUppercase "count" = "COUNT" := by decide
  unfold metricExpr at h
  split at h
  · next hop =>
    subst hop
    -- only a count does without a field
    cases field with
    | none =>
      obtain ⟨rfl, rfl⟩ := Prod.mk.inj (Except.ok.inj h)
      rw [hcount]
      exact ⟨rfl, rfl, fun f hf => (nomatch hf), fun _ => rfl⟩
    | some f =>
      obtain ⟨u, hvalid, h⟩ := Except.bind_eq_ok_iff.mp h
      obtain ⟨rfl, rfl⟩ := Prod.mk.inj (Except.ok.inj h)
      rw [hcount]
      refine ⟨rfl, rfl, ?_, fun hf => nomatch hf⟩
      rintro f' ⟨⟩
      exact mem_columns_of_validateAggField hvalid
  · cases field with
    | none => cases h
    | some f =>
      obtain ⟨u, hvalid, h⟩ := Except.bind_eq_ok_iff.mp h
      obtain ⟨rfl, rfl⟩ := Prod.mk.inj (Except.ok.inj h)
      refine ⟨rfl, ?_, ?_, fun hf => nomatch hf⟩
      · rfl
      · rintro f' ⟨⟩
        exact mem_columns_of_validateAggField hvalid

theorem metricAlias_eq_ok {aliasName : Option String} {default name : String}
    (h : metricAlias aliasName default = .ok name) :
    name = aliasName.getD default ∧ ∀ a, aliasName = some a → validAlias a = true := by
  cases aliasName with
  | none => exact ⟨(Except.ok.inj h).symm, fun a ha => nomatch ha⟩
  | some a =>
    rw [metricAlias] at h
    split at h
    · next hvalid =>
      refine ⟨(Except.ok.inj h).symm, ?_⟩
      rintro a' ⟨⟩
      exact hvalid
    · cases h

theorem selectMetric_eq_ok {m : AggregateMetric} {r : String × String}
    (h : selectMetric schema m = .ok r) : r = (metricText m, metricName m) ∧ KnownMetric schema m := by
  rw [selectMetric] at h
  split at h
  · cases h
  · next hop =>
    obtain ⟨⟨expr, default⟩, hexpr, h⟩ := Except.bind_eq_ok_iff.mp h
    obtain ⟨name, hname, h⟩ := Except.bind_eq_ok_iff.mp h
    obtain ⟨rfl, rfl, hfield, hcounts⟩ := metricExpr_eq_ok hexpr
    obtain ⟨rfl, halias⟩ := metricAlias_eq_ok hname
    refine ⟨(Except.ok.inj h).symm, ?_, hfield, hcounts, halias⟩
    simpa [isValidAggOp] using hop

theorem opens_op {op : String} (h : op ∈ aggOps) :
    Opens (toAsciiUppercase op ++ "(") [.word (toAsciiUppercase op), .sym "("] := by
  -- the five words are known, and each of them lexes to itself before its parenthesis
  have hupper : ∀ o ∈ aggOps, ∃ w ∈ ["COUNT", "SUM", "AVG", "MIN", "MAX"], toAsciiUppercase o = w := by
    decide
  obtain ⟨w, hw, hop⟩ := hupper op h
  rw [hop]
  simp only [List.mem_cons, List.not_mem_nil, or_false] at hw
  obtain rfl | rfl | rfl | rfl | rfl := hw <;> exact fun _ => rfl

theorem spells_metricText {m : AggregateMetric} (hm : KnownMetric schema m) :
    Spells (metricText m, []) (inlineMetric m) := by
  have harg : Spells ((m.field.map quoteIdent).getD "*", [])
      [(m.field.map Filled.ident).getD (.sym "*")] := by
    cases m.field with
    | none => exact spells_text (fun _ _ => rfl) rfl
    | some f => exact spells_ident f
  have hclose : Spells (")", []) [.sym ")"] := spells_text lexes_close rfl
  have hcall := Spells.after _ [.word _, .sym "("] (opens_op hm.op) rfl
    (harg.append hclose (Or.inr (Or.inr rfl)))
  have hmetric := hcall.between " AS " [.word "AS"] rfl (fun _ => rfl) rfl
    (spells_ident (metricName m))
  simp only [String.append_assoc] at hmetric
  rw [metricText]
  simp only [String.append_assoc]
  exact hmetric

theorem selectMetrics_eq_ok {ms : List AggregateMetric} {metrics : List (String × String)}
    (h : ms.mapM (selectMetric schema) = .ok metrics) :
    metrics = ms.map (fun m => (metricText m, metricName m)) ∧ ∀ m ∈ ms, KnownMetric schema m := by
  have hall := Except.mapM_eq_ok_iff.mp h
  clear h
  induction hall with
  | nil => exact ⟨rfl, List.forall_mem_nil _⟩
  | cons hm _ ih =>
    obtain ⟨rfl, hknown⟩ := selectMetric_eq_ok hm
    obtain ⟨rfl, hknowns⟩ := ih
    exact ⟨rfl, List.forall_mem_cons.mpr ⟨hknown, hknowns⟩⟩

/-- A metric that was checked has the name of a result. -/
theorem KnownMetric.resultName {m : AggregateMetric} (hm : KnownMetric schema m) :
    ResultName schema m (metricName m) := by
  unfold ResultName metricName
  cases halias : m.aliasName with
  | some a => exact ⟨rfl, hm.aliasName a halias⟩
  | none =>
    cases hfield : m.field with
    | none => exact .inl (hm.counts hfield)
    | some f => exact .inr ⟨_, hm.op, f, hm.field f hfield, rfl⟩

theorem confined_inlineMetric (hcolumns : ∀ name ∈ schema.columns, names name)
    {m : AggregateMetric} (hm : KnownMetric schema m) (hname : names (metricName m)) :
    ∀ f ∈ inlineMetric m, Confined names numbers f := by
  have hop : ∀ op ∈ aggOps, toAsciiUppercase op ∈ keywords := by decide
  have harg : Confined names numbers ((m.field.map Filled.ident).getD (.sym "*")) := by
    cases hfield : m.field with
    | none => exact (by decide : "*" ∈ marks)
    | some f => exact hcolumns f (hm.field f hfield)
  simp only [inlineMetric, List.forall_mem_cons]
  exact ⟨hop _ hm.op, (by decide : "(" ∈ marks), harg, (by decide : ")" ∈ marks),
    confined_keyword (by decide), hname, List.forall_mem_nil _⟩

/-- The select list. -/
theorem spells_selectList (groupCols : List String) {ms : List AggregateMetric}
    (hms : ∀ m ∈ ms, KnownMetric schema m) :
    Spells (join ", " (groupCols.map quoteIdent ++ ms.map metricText), [])
      (sepBy (.sym ",") (groupCols.map (fun c => [.ident c]) ++ ms.map inlineMetric)) := by
  have hmetrics : List.Forall₂ Spells (ms.map fun m => (metricText m, [])) (ms.map inlineMetric) := by
    rw [List.forall₂_map_left_iff, List.forall₂_map_right_iff, List.forall₂_same]
    exact fun m hm => spells_metricText (hms m hm)
  have hlist := spells_join_comma (List.rel_append (forall₂_map groupCols spells_ident) hmetrics)
  -- nothing of the select list is bound
  have hbinds : (groupCols.map (fun c => (quoteIdent c, ([] : List Value))) ++
      ms.map fun m => (metricText m, [])).flatMap Prod.snd = [] := by
    rw [List.flatMap_eq_nil_iff]
    intro c hc
    obtain hc | hc := List.mem_append.mp hc <;> (obtain ⟨x, -, rfl⟩ := List.mem_map.mp hc; rfl)
  rw [hbinds, List.map_append, List.map_map, List.map_map] at hlist
  exact hlist

theorem spells_groupBy (groupCols : List String) :
    Spells (if groupCols.isEmpty then "" else " GROUP BY " ++ join ", " (groupCols.map quoteIdent),
        []) (inlineGroupBy groupCols) ∧
      Delimited (if groupCols.isEmpty then "" else
        " GROUP BY " ++ join ", " (groupCols.map quoteIdent)).toList := by
  cases groupCols with
  | nil => exact ⟨spells_empty, trivial⟩
  | cons c cs =>
    refine ⟨?_, ?_⟩
    · exact Spells.after " GROUP BY " [.word "GROUP", .word "BY"] (fun _ => rfl) rfl
        (spells_nameList (c :: cs))
    · rw [if_neg (by simp), String.toList_append]
      exact Or.inl rfl

theorem confined_groupBy {groupCols : List String} (h : ∀ c ∈ groupCols, names c) :
    ∀ f ∈ inlineGroupBy groupCols, Confined names numbers f := by
  unfold inlineGroupBy
  split
  · exact List.forall_mem_nil _
  · simp only [List.forall_mem_cons]
    exact ⟨confined_keyword (by decide), confined_keyword (by decide), confined_nameList h⟩

theorem sortDirection_eq_ok {dir dir' : String} (h : sortDirection dir = .ok dir') :
    toAsciiUppercase dir = dir' ∧ (dir' = "ASC" ∨ dir' = "DESC") := by
  rw [sortDirection] at h
  split at h
  · next hdir =>
    obtain rfl := Except.ok.inj h
    exact ⟨toAsciiUppercase_asc hdir, .inl rfl⟩
  · split at h
    · next hdir =>
      obtain rfl := Except.ok.inj h
      exact ⟨toAsciiUppercase_desc hdir, .inr rfl⟩
    · cases h

/-- The order goes by one of the results. -/
theorem aggregateOrder_eq_ok {results : List String} {sort : Option SortSpec} {text : String}
    (h : aggregateOrder results sort = .ok text) (hresults : ∀ name ∈ results, names name) :
    (∀ {c : Compiled} {fs : List Filled}, Spells c fs →
      Spells (c.1 ++ text, c.2) (fs ++ inlineAggregateOrder sort)) ∧
      ∀ f ∈ inlineAggregateOrder sort, Confined names numbers f := by
  cases sort with
  | none =>
    rw [← Except.ok.inj h]
    refine ⟨fun {c fs} hc => ?_, List.forall_mem_nil _⟩
    rw [String.append_empty, inlineAggregateOrder, List.append_nil]
    exact hc
  | some s =>
    rw [aggregateOrder] at h
    split at h
    · cases h
    · next hknown =>
      have hfield : s.field ∈ results := by simpa using hknown
      obtain ⟨dir, hdir, h⟩ := Except.bind_eq_ok_iff.mp h
      obtain ⟨hupper, hdir⟩ := sortDirection_eq_ok hdir
      rw [← Except.ok.inj h, inlineAggregateOrder, hupper]
      refine ⟨fun hc => ?_, confined_order (hresults _ hfield) hdir⟩
      have horder := spells_withOrder hc s.field hdir
      simp only [String.append_assoc] at horder ⊢
      exact horder

variable {owner : Option (String × String)} {policy : Option PolicyFragment}

/-- The names of the results of a request. -/
def resultNames (schema : CollectionSchema) (req : AggregateRequest) : Set String :=
  {name | ∃ m ∈ req.metrics, ResultName schema m name}

/-- The statement of an aggregate request has its values at their operands. -/
theorem placed_aggregate {req : AggregateRequest} {c : Compiled}
    (h : buildAggregateSql schema req owner (policy.map PolicyFragment.sql) = .ok c) :
    Placed c (inlineAggregate schema req owner policy)
      (Name schema owner policy (resultNames schema req))
      [pageLimit req.perPage, pageOffset req.page req.perPage] := by
  unfold buildAggregateSql at h
  simp only at h
  split at h
  · cases h
  · obtain ⟨groupCols, hgroup, h⟩ := Except.bind_eq_ok_iff.mp h
    obtain ⟨metrics, hmetrics, h⟩ := Except.bind_eq_ok_iff.mp h
    obtain ⟨u, -, h⟩ := Except.bind_eq_ok_iff.mp h
    obtain ⟨⟨whereClause, binds⟩, hwhere, h⟩ := Except.bind_eq_ok_iff.mp h
    obtain ⟨order, horder, h⟩ := Except.bind_eq_ok_iff.mp h
    obtain ⟨⟨limit, offset⟩, hpage, h⟩ := Except.bind_eq_ok_iff.mp h
    obtain ⟨rfl, hcolumns⟩ := groupColumns_eq_ok hgroup
    obtain ⟨rfl, hknown⟩ := selectMetrics_eq_ok hmetrics
    obtain ⟨rfl, rfl⟩ := pageWindow_eq_ok (Except.mapError_eq_ok_iff.mp hpage)
    have hwhere := Except.mapError_eq_ok_iff.mp hwhere
    obtain ⟨hspells, hdelimited⟩ := spells_buildWhereClause hwhere
    obtain ⟨hgroupBy, hdelimitedGroup⟩ := spells_groupBy (req.groupBy.getD [])
    -- the names an order may go by are the columns of the groups and the results
    have hmetric : ∀ m ∈ req.metrics,
        Name schema owner policy (resultNames schema req) (metricName m) :=
      fun m hm => .result ⟨m, hm, (hknown m hm).resultName⟩
    have hresults : ∀ name ∈ req.groupBy.getD [] ++
        (req.metrics.map fun m => (metricText m, metricName m)).map Prod.snd,
        Name schema owner policy (resultNames schema req) name := by
      rw [List.forall_mem_append, List.map_map]
      refine ⟨fun c hc => .column (hcolumns c hc), fun name hname => ?_⟩
      obtain ⟨m, hm, rfl⟩ := List.mem_map.mp hname
      exact hmetric m hm
    obtain ⟨hordered, hconfined⟩ := aggregateOrder_eq_ok horder hresults
    rw [← Except.ok.inj h]
    refine Placed.of_spells ?_ ?_
    -- the clauses are spelled from the left to the right, each behind the ones before it
    · have hlist := spells_select (spells_selectList (req.groupBy.getD []) hknown) schema.name
      have hselect := (hlist.append hspells hdelimited).append hgroupBy hdelimitedGroup
      have hall := spells_withPage (hordered hselect) (pageLimit req.perPage)
        (pageOffset req.page req.perPage)
      rw [inlineAggregate]
      simp only [List.map_map, String.append_assoc, List.append_assoc, List.cons_append,
        List.nil_append, List.append_nil] at hall ⊢
      exact hall
    · rw [inlineAggregate]
      simp only [List.forall_mem_append, List.forall_mem_cons]
      have hlist : ∀ fs ∈ (req.groupBy.getD []).map (fun c => [.ident c]) ++
          req.metrics.map inlineMetric, ∀ f ∈ fs,
          Confined (Name schema owner policy (resultNames schema req)) [pageLimit req.perPage,
            pageOffset req.page req.perPage] f := by
        rw [List.forall_mem_append]
        refine ⟨fun fs hfs => ?_, fun fs hfs => ?_⟩
        · obtain ⟨c, hc, rfl⟩ := List.mem_map.mp hfs
          exact List.forall_mem_singleton.mpr (.column (hcolumns c hc))
        · obtain ⟨m, hm, rfl⟩ := List.mem_map.mp hfs
          exact confined_inlineMetric (fun _ h => .column h) (hknown m hm) (hmetric m hm)
      exact ⟨⟨⟨⟨⟨confined_keyword (by decide), confined_commas hlist⟩,
        confined_keyword (by decide), .table, confined_where hwhere⟩,
        confined_groupBy fun c hc => .column (hcolumns c hc)⟩, hconfined⟩,
        confined_page (by simp) (by simp)⟩

end Aggregate

/-! ### Every statement -/

/-- Whatever the schema, the request, the owner and the policy: a statement that is built has as
many placeholders as binds, the i-th bind belongs to the leaf of the i-th placeholder, and the
rest is fixed text, decimals and known names. -/
theorem statements_placed (schema : CollectionSchema) (owner : Option (String × String))
    (policy : Option PolicyFragment) :
    (∀ req out,
      buildStructuredListSql schema req owner (policy.map PolicyFragment.sql) = .ok out →
      Placed (out.listSql, out.binds) (inlineList schema req owner policy)
          (Name schema owner policy ∅)
          [pageLimit req.perPage, pageOffset req.page req.perPage] ∧
        Placed (out.countSql, out.binds) (inlineCount schema req owner policy)
          (Name schema owner policy ∅) []) ∧
    ∀ req c, buildAggregateSql schema req owner (policy.map PolicyFragment.sql) = .ok c →
      Placed c (inlineAggregate schema req owner policy)
        (Name schema owner policy (resultNames schema req))
        [pageLimit req.perPage, pageOffset req.page req.perPage] :=
  ⟨fun _ _ => placed_list, fun _ _ => placed_aggregate⟩

section Orders

/-- Orders with an owner, and a trigram index over the notes. -/
def ordersSchema : CollectionSchema where
  name := "orders"
  fields := [⟨"note", "TEXT"⟩, ⟨"total", "INTEGER"⟩, ⟨"buyer", "TEXT"⟩]
  ftsIndexes := [⟨"main", ["note"], "trigram"⟩]

/-- The policy: only the caller's own orders. -/
def ownOrders : PolicyFragment where
  schema := ordersSchema
  clause := .leaf [("buyer", .object [("$eq", .object [("$auth", .string "id")])])]
  ctx := { authId := some "u1" }
  sql := ("\"buyer\" = ?", [.text "u1"])
  compiled := by decide +kernel

/-- A query too short for the index, a range and an empty set. -/
def ordersFilter : FilterAst :=
  .and [.leaf [("$fts", .object [("index", .string "main"), ("query", .string "ab")])],
    .not (.leaf [("total", .object [("in", .array [.number (.posInt 1), .number (.posInt 2)])])]),
    .leaf [("note", .object [("in", .array [])])]]

/-- The `WHERE` clause of the filter, the owner clause and the policy. -/
def ordersWhere : String :=
  " WHERE (((\"note\" LIKE ? ESCAPE '\\') AND (NOT \"total\" IN (?, ?)) AND 1=0)) AND " ++
    "\"buyer\" = ? AND (\"buyer\" = ?)"

def ordersBinds : List Value :=
  [.text "%ab%", .integer 1, .integer 2, .text "u2", .text "u1"]

def ordersList : ListSql where
  listSql := "SELECT \"note\", \"total\", \"buyer\" FROM \"orders\"" ++ ordersWhere ++
    " ORDER BY \"created_at\" DESC LIMIT 20 OFFSET 0"
  countSql := "SELECT COUNT(*) FROM \"orders\"" ++ ordersWhere
  binds := ordersBinds

/-- The orders per buyer, and what each of them spent. -/
def spentPerBuyer : AggregateRequest where
  filter := some ordersFilter
  groupBy := some ["buyer"]
  metrics := [{ op := "SUM", field := some "total", aliasName := some "spent" }]
  sort := some { field := "spent" }

def spentSql : Compiled :=
  ("SELECT \"buyer\", SUM(\"total\") AS \"spent\" FROM \"orders\"" ++ ordersWhere ++
    " GROUP BY \"buyer\" ORDER BY \"spent\" DESC LIMIT 20 OFFSET 0", ordersBinds)

/-- A list and an aggregate of orders: five placeholders each, for the five binds. -/
theorem statements_placed_orders :
    ((lex ordersList.listSql).count .param = 5 ∧ (lex ordersList.countSql).count .param = 5) ∧
      inline (lex spentSql.1) spentSql.2 =
        some (inlineAggregate ordersSchema spentPerBuyer (some ("buyer", "u2")) (some ownOrders)) := by
  obtain ⟨hlist, haggregate⟩ := statements_placed ordersSchema (some ("buyer", "u2")) (some ownOrders)
  refine ⟨?_, ?_⟩
  · obtain ⟨hplaced, hcounted⟩ := hlist { filter := some ordersFilter } ordersList (by decide +kernel)
    exact ⟨hplaced.count, hcounted.count⟩
  · exact (haggregate spentPerBuyer spentSql (by decide +kernel)).inPlace

end Orders

/-- The name of the table, of a column, or one that a result may be given. -/
def PlainName (schema : CollectionSchema) (name : String) : Prop :=
  name = schema.name ∨ name ∈ schema.columns ∨ validAlias name = true

/-- Invoices with a column of a long name, and a full-text index. -/
def invoicesSchema : CollectionSchema where
  name := "invoices"
  fields := [⟨"note", "TEXT"⟩,
    ⟨"monthly_recurring_revenue_before_taxes_and_refunds_in_dollars", "INTEGER"⟩]
  ftsIndexes := [⟨"main", ["note"], "unicode61"⟩]

def taxSearch : ListRequest where
  filter := some (.leaf [("$fts", .object [("index", .string "main"), ("query", .string "tax")])])

def revenueCount : AggregateRequest where
  metrics := [⟨"count", some "monthly_recurring_revenue_before_taxes_and_refunds_in_dollars", none⟩]

/-- Other names come from a request too. A full-text operand chooses a virtual table by the name
of its index, and a default name goes over the 64 bytes that one that is given may have. -/
theorem names_beyond_columns_and_aliases :
    (¬ ∀ (schema : CollectionSchema) (req : ListRequest) (out : ListSql),
      buildStructuredListSql schema req none none = .ok out →
      ∀ name, .ident name ∈ lex out.countSql → PlainName schema name) ∧
    ¬ ∀ (schema : CollectionSchema) (req : AggregateRequest) (c : Compiled),
      buildAggregateSql schema req none none = .ok c →
      ∀ name, .ident name ∈ lex c.1 → PlainName schema name := by
  refine ⟨fun h => ?_, fun h => ?_⟩
  · have hbuild : (buildStructuredListSql invoicesSchema taxSearch none none).map ListSql.countSql =
        .ok ("SELECT COUNT(*) FROM \"invoices\" WHERE (\"id\" IN (SELECT rowid FROM " ++
          "\"_system_search_fts$invoices$main\" WHERE " ++
          "\"_system_search_fts$invoices$main\" MATCH ?))") := by decide +kernel
    cases hout : buildStructuredListSql invoicesSchema taxSearch none none with
    | error e => rw [hout] at hbuild; cases hbuild
    | ok out =>
      rw [hout] at hbuild
      have hname := h invoicesSchema taxSearch out hout "_system_search_fts$invoices$main"
        (by rw [Except.ok.inj hbuild]; decide +kernel)
      revert hname
      unfold PlainName
      decide
  · have hname := h invoicesSchema revenueCount
      ("SELECT COUNT(\"monthly_recurring_revenue_before_taxes_and_refunds_in_dollars\") AS " ++
        "\"count_monthly_recurring_revenue_before_taxes_and_refunds_in_dollars\" FROM \"invoices\"" ++
        " LIMIT 20 OFFSET 0", [])
      (by decide +kernel) "count_monthly_recurring_revenue_before_taxes_and_refunds_in_dollars"
      (by decide +kernel)
    revert hname
    unfold PlainName
    decide

end ListBuilder

end Drust
