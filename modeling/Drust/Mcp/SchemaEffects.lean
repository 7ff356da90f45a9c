import Drust.Mcp.CheckClause

/-!
# What the schema tools do

One inversion lemma for each operation: a successful call met the checks that stand before
the write, and leaves the tables and the rows of the catalog as said. An operation on one
collection leaves every other alone, which `Function.update` says of both views.

The rows that the operations leave are functions of the rows they find (`createdRow`,
`extendedRow`), so that what is proved of a column of the row does not look at the writes of
the others.
-/

namespace Drust.SchemaTools

open QueryTemplate (isProtectedCollection)

variable {env : Env} {c c' : Catalog} {coll : String}

/-! ### Reads that succeed -/

theorem database_eq_ok_iff {α : Type} {x : Except SqlError α} {a : α} :
    database x = .ok a ↔ x = .ok a := by
  cases x with
  | error e => exact iff_of_false (fun h => nomatch h) (fun h => nomatch h)
  | ok b => exact ⟨fun h => by rw [← Except.ok.inj h], fun h => by rw [← Except.ok.inj h]; rfl⟩

/-- A query for the row sees it, or else the columns have their defaults. -/
theorem queryRow_reading {α : Type} (q : Query) (get : CollectionMeta → α) :
    (queryRow env.reading q ((c.metas.lookup coll).map get)).toOption
      = (c.metas.lookup coll).map get := by
  cases c.metas.lookup coll <;> rfl

theorem readVectorFields_eq :
    readVectorFields env.reading c coll = .ok (c.row coll).vectorFields := by
  rw [readVectorFields, queryRow_reading, Catalog.row]
  cases c.metas.lookup coll <;> rfl

theorem readFieldDescriptions_eq :
    readFieldDescriptions env.reading c coll = .ok (parseTexts env.reading .fieldDescriptions
      .fieldDescription (c.row coll).fieldDescriptions) := by
  rw [readFieldDescriptions, queryRow_reading, Catalog.row]
  cases c.metas.lookup coll <;> rfl

theorem readFieldConstraints_eq :
    readFieldConstraints env.reading c coll
      = .ok (parseConstraints env.reading (c.row coll).fieldConstraints) := by
  rw [readFieldConstraints, queryRow_reading, Catalog.row]
  cases c.metas.lookup coll <;> rfl

theorem readAnonCaps_eq : readAnonCaps env.reading c coll = .ok (c.row coll).anonCaps := by
  rw [readAnonCaps, queryRow_reading, Catalog.row]
  cases c.metas.lookup coll <;> rfl

theorem readRealtimeEnabled_eq :
    readRealtimeEnabled env.reading c coll = .ok (c.row coll).realtimeEnabled := by
  rw [readRealtimeEnabled, queryRow_reading, Catalog.row]
  cases c.metas.lookup coll <;> rfl

theorem readOwnerField_eq : readOwnerField env.reading c coll
    = .ok ((c.row coll).ownerField, (c.row coll).readScope) := by
  rw [readOwnerField_eq_ok_iff, Catalog.row]
  refine ⟨rfl, ?_⟩
  cases c.metas.lookup coll <;> rfl

theorem readPolicies_eq : readPolicies env.reading c coll = .ok (c.row coll).policies := by
  rw [readPolicies, queryRow_reading, Catalog.row]
  cases c.metas.lookup coll <;> rfl

theorem lookup_parseTexts {outer : Blob} {entry : String → Blob} (m : StringMap String)
    (k : String) : (parseTexts env.reading outer entry m).lookup k = m.lookup k := by
  have hkept : (m.entries.filter fun e => !env.reading.malformed (entry e.1)) = m.entries :=
    List.filter_eq_self.mpr fun _ _ => rfl
  rw [parseTexts, hkept]
  exact AList.lookup_to_alist _

/-! ### The rows -/

/-- The row with one more description. -/
def describedRow (env : Env) (m : CollectionMeta) (field text : String) : CollectionMeta :=
  let map := parseTexts env.reading .fieldDescriptions .fieldDescription m.fieldDescriptions
  { m with fieldDescriptions := map.insert field text }

/-- The row with the constraints of one more field. -/
def constrainedRow (env : Env) (m : CollectionMeta) (field : String) (fc : FieldConstraints) :
    CollectionMeta :=
  let map := parseConstraints env.reading m.fieldConstraints
  { m with fieldConstraints := if fc.isEmpty then map.erase field else map.insert field fc }

def describedRows (env : Env) (descs : List (String × String)) (m : CollectionMeta) :
    CollectionMeta :=
  descs.foldl (fun m e => describedRow env m e.1 e.2) m

def constrainedRows (env : Env) (constraints : List (String × FieldConstraints))
    (m : CollectionMeta) : CollectionMeta :=
  constraints.foldl (fun m e => constrainedRow env m e.1 e.2) m

/-- The row of a new collection before its fields' entries are written. -/
def seededRow (env : Env) (fields : List FieldSpec) (collDesc : Option String)
    (m : CollectionMeta) : CollectionMeta :=
  { m with
    anonCaps := defaultAnonCaps
    realtimeEnabled := false
    auditEnabled := env.auditDefault
    vectorFields := if (vectorFieldsOf fields).isEmpty then m.vectorFields else vectorFieldsOf fields
    description := match collDesc with
      | some v => (some v).filter fun d => d != ""
      | none => m.description }

/-- The row of a new collection; `m` is what was there before. -/
def createdRow (env : Env) (fields : List FieldSpec) (collDesc : Option String)
    (descs : List (String × String)) (m : CollectionMeta) : CollectionMeta :=
  constrainedRows env (constraintsOf fields) (describedRows env descs (seededRow env fields collDesc m))

/-- The table of a new collection. -/
def newTable (name : String) (fields : List FieldSpec) (columns : List Column) : Table where
  columns := idColumn :: columns ++ [timestampColumn "created_at", timestampColumn "updated_at"]
  indices := autoIndices name fields

/-- The row of a collection with a new vector field. -/
def vectorRow (field : FieldSpec) (m : CollectionMeta) : CollectionMeta :=
  if field.sqlType = "vector" then
    { m with vectorFields :=
        (m.vectorFields.filter fun v => v.name != field.name) ++ vectorFieldsOf [field] }
  else m

/-- The row of a collection with a new field. -/
def extendedRow (env : Env) (field : FieldSpec) (desc : Option String) (m : CollectionMeta) :
    CollectionMeta :=
  constrainedRows env (constraintsOf [field])
    (describedRows env (desc.map fun text => (field.name, text)).toList (vectorRow field m))

/-! ### Writes to the row -/

theorem validatedDescription_ne {d : Option String} {v : String}
    (h : validatedDescription d = .ok (some v)) : v ≠ "" := by
  rw [validatedDescription] at h
  split at h
  · cases h
  · obtain ⟨w, -, h⟩ := Except.bind_eq_ok_iff.mp h
    have h := Except.ok.inj h
    split at h
    · cases h
    · next hne =>
      rw [← Option.some.inj h]
      exact hne

/-- A description is that of a field, and is not empty. -/
theorem mem_validatedFieldDescs {fields : List FieldSpec} :
    ∀ {descs}, validatedFieldDescs fields = .ok descs →
      ∀ e ∈ descs, e.2 ≠ "" ∧ e.1 ∈ fields.map FieldSpec.name := by
  induction fields with
  | nil =>
    intro descs h e he
    rw [← Except.ok.inj h] at he
    cases he
  | cons f fs ih =>
    intro descs h e he
    rw [validatedFieldDescs] at h
    obtain ⟨desc, hdesc, h⟩ := Except.bind_eq_ok_iff.mp h
    obtain ⟨rest, hrest, h⟩ := Except.bind_eq_ok_iff.mp h
    rw [← Except.ok.inj h] at he
    rw [List.map_cons]
    obtain he | he := List.mem_append.mp he
    · cases desc with
      | none => cases he
      | some v =>
        obtain rfl := List.mem_singleton.mp he
        exact ⟨validatedDescription_ne hdesc, List.mem_cons_self⟩
    · obtain ⟨hne, hmem⟩ := ih hrest e he
      exact ⟨hne, List.mem_cons_of_mem _ hmem⟩

theorem writeFieldDescription_effect {field text : String} (htext : text ≠ "")
    (h : c.writeFieldDescription coll env.reading field (some text) = .ok c') :
    c'.table = c.table ∧
      c'.row = Function.update c.row coll (describedRow env (c.row coll) field text) := by
  rw [Catalog.writeFieldDescription, readFieldDescriptions_eq, Except.ok_bind] at h
  have hfilter : (some text).filter (fun d => d != "") = some text := by simp [htext]
  simp only [hfilter] at h
  rw [← Except.ok.inj h]
  exact ⟨rfl, Catalog.row_upsertMeta⟩

theorem writeFieldConstraints_effect {field : String} {fc : FieldConstraints}
    (h : c.writeFieldConstraints coll env.reading field fc = .ok c') :
    c'.table = c.table ∧
      c'.row = Function.update c.row coll (constrainedRow env (c.row coll) field fc) := by
  rw [Catalog.writeFieldConstraints, readFieldConstraints_eq, Except.ok_bind] at h
  rw [← Except.ok.inj h]
  exact ⟨rfl, Catalog.row_upsertMeta⟩

theorem writeDescs_effect {descs : List (String × String)} (hdescs : ∀ e ∈ descs, e.2 ≠ "") :
    ∀ {c c' : Catalog}, writeDescs env.reading coll descs c = .ok c' →
      c'.table = c.table ∧
        c'.row = Function.update c.row coll (describedRows env descs (c.row coll)) := by
  induction descs with
  | nil =>
    intro c c' h
    obtain rfl := Except.ok.inj h
    exact ⟨rfl, (Function.update_eq_self coll _).symm⟩
  | cons e descs ih =>
    intro c c' h
    obtain ⟨hne, hdescs⟩ := List.forall_mem_cons.mp hdescs
    rw [writeDescs] at h
    obtain ⟨c₁, hc₁, h⟩ := Except.bind_eq_ok_iff.mp h
    obtain ⟨htable₁, hrow₁⟩ := writeFieldDescription_effect hne (database_eq_ok_iff.mp hc₁)
    obtain ⟨htable, hrow⟩ := ih hdescs h
    rw [htable, hrow, htable₁, hrow₁, Function.update_self, Function.update_idem]
    exact ⟨rfl, rfl⟩

theorem writeConstraints_effect {constraints : List (String × FieldConstraints)} :
    ∀ {c c' : Catalog}, writeConstraints env.reading coll constraints c = .ok c' →
      c'.table = c.table ∧
        c'.row = Function.update c.row coll (constrainedRows env constraints (c.row coll)) := by
  induction constraints with
  | nil =>
    intro c c' h
    obtain rfl := Except.ok.inj h
    exact ⟨rfl, (Function.update_eq_self coll _).symm⟩
  | cons e constraints ih =>
    intro c c' h
    rw [writeConstraints] at h
    obtain ⟨c₁, hc₁, h⟩ := Except.bind_eq_ok_iff.mp h
    obtain ⟨htable₁, hrow₁⟩ := writeFieldConstraints_effect (database_eq_ok_iff.mp hc₁)
    obtain ⟨htable, hrow⟩ := ih h
    rw [htable, hrow, htable₁, hrow₁, Function.update_self, Function.update_idem]
    exact ⟨rfl, rfl⟩

/-! ### Operations -/

theorem refuseIf_eq_ok_iff {p : Prop} [Decidable p] {e : ToolError} {u : Unit} :
    refuseIf p e = .ok u ↔ ¬ p := by
  rw [refuseIf]
  by_cases hp : p
  · simp [hp]
  · simp [hp]

theorem createTable_effect {name : String} {t : Table} (h : createTable c name t = .ok c') :
    c.table name = none ∧ t.columnNames.Nodup ∧
      c'.table = Function.update c.table name (some t) ∧ c'.row = c.row := by
  rw [createTable] at h
  split at h
  · cases h
  · next hnew =>
    rw [← Except.ok.inj h]
    simp only [Bool.or_eq_true, not_or, collectionExists, Option.not_isSome_iff_eq_none,
      Bool.not_eq_true', decide_eq_false_iff_not, not_not] at hnew
    exact ⟨hnew.1.1, hnew.1.2, Catalog.table_setTable, rfl⟩

theorem seedMeta_effect (name : String) (fields : List FieldSpec) (collDesc : Option String) :
    (seedMeta env name fields collDesc c).table = c.table ∧
      (seedMeta env name fields collDesc c).row
        = Function.update c.row name (seededRow env fields collDesc (c.row name)) := by
  unfold seedMeta seededRow
  cases collDesc <;> cases (vectorFieldsOf fields).isEmpty <;>
    exact ⟨rfl, by
      simp only [Catalog.writeAnonCaps, Catalog.writeRealtimeEnabled, Catalog.writeAuditEnabled,
        Catalog.writeVectorFields, Catalog.writeCollectionDescription, Catalog.row_upsertMeta,
        Function.update_self, Function.update_idem, Bool.false_eq_true, if_true, if_false]⟩

theorem createCollectionTx_effect {name : String} {fields : List FieldSpec}
    {description : Option String} (h : createCollectionTx env c name fields description = .ok c') :
    isProtectedCollection name = false ∧ c.table name = none ∧
      ∃ columns collDesc descs, columnExprs env fields = .ok columns ∧
        validatedFieldDescs fields = .ok descs ∧ (newTable name fields columns).columnNames.Nodup ∧
        c'.table = Function.update c.table name (some (newTable name fields columns)) ∧
        c'.row = Function.update c.row name (createdRow env fields collDesc descs (c.row name)) := by
  rw [createCollectionTx] at h
  obtain ⟨_, -, h⟩ := Except.bind_eq_ok_iff.mp h
  obtain ⟨_, hprotected, h⟩ := Except.bind_eq_ok_iff.mp h
  obtain ⟨collDesc, -, h⟩ := Except.bind_eq_ok_iff.mp h
  obtain ⟨descs, hdescs, h⟩ := Except.bind_eq_ok_iff.mp h
  obtain ⟨columns, hcolumns, h⟩ := Except.bind_eq_ok_iff.mp h
  obtain ⟨c₁, hc₁, h⟩ := Except.bind_eq_ok_iff.mp h
  obtain ⟨c₂, hc₂, h⟩ := Except.bind_eq_ok_iff.mp h
  obtain ⟨hnew, hnodup, htable₁, hrow₁⟩ := createTable_effect hc₁
  obtain ⟨htable₂, hrow₂⟩ := writeDescs_effect
    (fun e he => (mem_validatedFieldDescs hdescs e he).1) hc₂
  obtain ⟨htable, hrow⟩ := writeConstraints_effect h
  obtain ⟨hseedTable, hseedRow⟩ := seedMeta_effect name fields collDesc
  rw [hseedTable, htable₁] at htable₂
  rw [hseedRow, hrow₁, Function.update_self, Function.update_idem] at hrow₂
  refine ⟨Bool.eq_false_iff.mpr (refuseIf_eq_ok_iff.mp hprotected), hnew, columns, collDesc, descs,
    hcolumns, hdescs, hnodup, htable.trans htable₂, ?_⟩
  rw [hrow, hrow₂, Function.update_self, Function.update_idem]
  rfl

/-! The writes to the row leave the definitions alone. -/

theorem writeDescs_tables {descs : List (String × String)} :
    ∀ {c c' : Catalog}, writeDescs env.reading coll descs c = .ok c' → c'.tables = c.tables := by
  induction descs with
  | nil =>
    intro c c' h
    obtain rfl := Except.ok.inj h
    rfl
  | cons e descs ih =>
    intro c c' h
    obtain ⟨c₁, hc₁, h⟩ := Except.bind_eq_ok_iff.mp h
    obtain ⟨_, -, hwrite⟩ := Except.bind_eq_ok_iff.mp (database_eq_ok_iff.mp hc₁)
    rw [ih h, ← Except.ok.inj hwrite]
    rfl

theorem writeConstraints_tables {constraints : List (String × FieldConstraints)} :
    ∀ {c c' : Catalog}, writeConstraints env.reading coll constraints c = .ok c' →
      c'.tables = c.tables := by
  induction constraints with
  | nil =>
    intro c c' h
    obtain rfl := Except.ok.inj h
    rfl
  | cons e constraints ih =>
    intro c c' h
    obtain ⟨c₁, hc₁, h⟩ := Except.bind_eq_ok_iff.mp h
    obtain ⟨_, -, hwrite⟩ := Except.bind_eq_ok_iff.mp (database_eq_ok_iff.mp hc₁)
    rw [ih h, ← Except.ok.inj hwrite]
    rfl

theorem seedMeta_tables (name : String) (fields : List FieldSpec) (collDesc : Option String) :
    (seedMeta env name fields collDesc c).tables = c.tables := by
  unfold seedMeta
  cases collDesc <;> cases (vectorFieldsOf fields).isEmpty <;> rfl

/-- The definitions that a new collection leaves are those that were there, and its own. -/
theorem createCollectionTx_tables {name : String} {fields : List FieldSpec}
    {description : Option String} (h : createCollectionTx env c name fields description = .ok c') :
    ∃ columns, columnExprs env fields = .ok columns ∧
      c'.tables = c.tables.insert name (newTable name fields columns) := by
  rw [createCollectionTx] at h
  obtain ⟨_, -, h⟩ := Except.bind_eq_ok_iff.mp h
  obtain ⟨_, -, h⟩ := Except.bind_eq_ok_iff.mp h
  obtain ⟨collDesc, -, h⟩ := Except.bind_eq_ok_iff.mp h
  obtain ⟨descs, -, h⟩ := Except.bind_eq_ok_iff.mp h
  obtain ⟨columns, hcolumns, h⟩ := Except.bind_eq_ok_iff.mp h
  obtain ⟨c₁, hc₁, h⟩ := Except.bind_eq_ok_iff.mp h
  obtain ⟨c₂, hc₂, h⟩ := Except.bind_eq_ok_iff.mp h
  refine ⟨columns, hcolumns, ?_⟩
  rw [writeConstraints_tables h, writeDescs_tables hc₂, seedMeta_tables]
  rw [createTable] at hc₁
  split at hc₁
  · cases hc₁
  · rw [← Except.ok.inj hc₁]
    rfl

/-- A call whose references are there goes on to its transaction. -/
theorem createCollectionTx_of_withDesc {name : String} {fields : List FieldSpec}
    {description : Option String}
    (h : createCollectionWithDesc env c name fields description = .ok c') :
    createCollectionTx env c name fields description = .ok c' := by
  rw [createCollectionWithDesc] at h
  obtain ⟨_, hidentifier, h⟩ := Except.bind_eq_ok_iff.mp h
  obtain ⟨_, hprotected, h⟩ := Except.bind_eq_ok_iff.mp h
  obtain ⟨_, -, h⟩ := Except.bind_eq_ok_iff.mp h
  rw [createCollectionTx, hidentifier, Except.ok_bind, hprotected, Except.ok_bind]
  exact h

theorem createCollection_effect {name : String} {fields : List FieldSpec}
    {description : Option String}
    (h : createCollectionWithDesc env c name fields description = .ok c') :
    isProtectedCollection name = false ∧ c.table name = none ∧
      ∃ columns collDesc descs, columnExprs env fields = .ok columns ∧
        validatedFieldDescs fields = .ok descs ∧ (newTable name fields columns).columnNames.Nodup ∧
        c'.table = Function.update c.table name (some (newTable name fields columns)) ∧
        c'.row = Function.update c.row name (createdRow env fields collDesc descs (c.row name)) :=
  createCollectionTx_effect (createCollectionTx_of_withDesc h)

theorem addColumn_effect {name : String} {col : Column} {unique : Bool}
    (h : addColumn c name col unique = .ok c') :
    ∃ t, c.table name = some t ∧ col.name ∉ t.columnNames ∧
      c'.table = Function.update c.table name (some { t with columns := t.columns ++ [col] }) ∧
      c'.row = c.row := by
  rw [addColumn] at h
  split at h
  · cases h
  · next t ht =>
    simp only at h
    split at h
    · cases h
    · next hnew =>
      rw [← Except.ok.inj h]
      simp only [Bool.or_eq_true, not_or, decide_eq_true_eq] at hnew
      exact ⟨t, ht, hnew.1.2, Catalog.table_setTable, rfl⟩

theorem registerVector_effect {field : FieldSpec}
    (h : registerVector env coll field c = .ok c') :
    c'.table = c.table ∧ c'.row = Function.update c.row coll (vectorRow field (c.row coll)) := by
  rw [registerVector] at h
  rw [vectorRow]
  split at h
  · next hvector =>
    rw [readVectorFields_eq] at h
    rw [if_pos hvector, ← Except.ok.inj h]
    exact ⟨rfl, Catalog.row_upsertMeta⟩
  · next hvector =>
    rw [if_neg hvector, ← Except.ok.inj h]
    exact ⟨rfl, (Function.update_eq_self coll _).symm⟩

theorem addField_effect {field : FieldSpec} (h : addField env c coll field = .ok c') :
    ∃ t col desc, c.table coll = some t ∧ columnExpr env field = .ok col ∧
      validatedDescription field.description = .ok desc ∧ col.name ∉ t.columnNames ∧
      c'.table = Function.update c.table coll (some { t with columns := t.columns ++ [col] }) ∧
      c'.row = Function.update c.row coll (extendedRow env field desc (c.row coll)) := by
  rw [addField] at h
  obtain ⟨_, -, h⟩ := Except.bind_eq_ok_iff.mp h
  obtain ⟨_, -, h⟩ := Except.bind_eq_ok_iff.mp h
  obtain ⟨col, hcol, h⟩ := Except.bind_eq_ok_iff.mp h
  obtain ⟨desc, hdesc, h⟩ := Except.bind_eq_ok_iff.mp h
  obtain ⟨c₁, hc₁, h⟩ := Except.bind_eq_ok_iff.mp h
  obtain ⟨c₂, hc₂, h⟩ := Except.bind_eq_ok_iff.mp h
  obtain ⟨c₃, hc₃, h⟩ := Except.bind_eq_ok_iff.mp h
  obtain ⟨t, ht, hnew, htable₁, hrow₁⟩ := addColumn_effect hc₁
  obtain ⟨htable₂, hrow₂⟩ := registerVector_effect hc₂
  have hdescs : ∀ e ∈ (desc.map fun text => (field.name, text)).toList, e.2 ≠ "" := by
    intro e he
    cases desc with
    | none => cases he
    | some text =>
      obtain rfl := List.mem_singleton.mp he
      exact validatedDescription_ne hdesc
  obtain ⟨htable₃, hrow₃⟩ := writeDescs_effect hdescs hc₃
  obtain ⟨htable, hrow⟩ := writeConstraints_effect h
  refine ⟨t, col, desc, ht, hcol, hdesc, hnew, ?_, ?_⟩
  · rw [htable, htable₃, htable₂, htable₁]
  · rw [hrow, hrow₃, hrow₂, hrow₁]
    simp only [Function.update_self, Function.update_idem]
    rfl

theorem dropColumn_effect {name field : String} (h : dropColumn c name field = .ok c') :
    ∃ t, c.table name = some t ∧ c'.row = c.row ∧
      c'.table = Function.update c.table name
        (some { t with columns := t.columns.filter fun col => col.name != field }) := by
  rw [dropColumn] at h
  split at h
  · cases h
  · next t ht =>
    simp only at h
    split at h
    · cases h
    · rw [← Except.ok.inj h]
      exact ⟨t, ht, rfl, Catalog.table_setTable⟩

theorem dropField_effect {field : String} (h : dropField env c coll field = .ok c') :
    field ∉ systemColumns ∧ ∃ t, c.table coll = some t ∧ field ∈ t.columnNames ∧
      c'.table = Function.update c.table coll
        (some { t with columns := t.columns.filter fun col => col.name != field }) ∧
      c'.row = Function.update c.row coll { c.row coll with
        vectorFields := (c.row coll).vectorFields.filter fun v => v.name != field } := by
  rw [dropField] at h
  obtain ⟨_, -, h⟩ := Except.bind_eq_ok_iff.mp h
  obtain ⟨_, -, h⟩ := Except.bind_eq_ok_iff.mp h
  obtain ⟨_, hsystem, h⟩ := Except.bind_eq_ok_iff.mp h
  obtain ⟨_, hknown, h⟩ := Except.bind_eq_ok_iff.mp h
  obtain ⟨_, -, h⟩ := Except.bind_eq_ok_iff.mp h
  obtain ⟨_, -, h⟩ := Except.bind_eq_ok_iff.mp h
  obtain ⟨c₁, hc₁, h⟩ := Except.bind_eq_ok_iff.mp h
  obtain ⟨t, ht, hrow₁, htable₁⟩ := dropColumn_effect hc₁
  rw [readVectorFields_eq, hrow₁] at h
  have hfield : field ∈ t.columnNames := by
    have hknown := refuseIf_eq_ok_iff.mp hknown
    have hlookup : c.tables.lookup coll = some t := ht
    simpa [hlookup] using hknown
  refine ⟨refuseIf_eq_ok_iff.mp hsystem, t, ht, hfield, ?_⟩
  have h := Except.ok.inj h
  -- the list is written back only if something went
  split at h
  · rw [← h]
    exact ⟨htable₁, by rw [Catalog.writeVectorFields, Catalog.row_upsertMeta, hrow₁]⟩
  · next hlength =>
    rw [← h]
    have hkept : ((c.row coll).vectorFields.filter fun v => v.name != field)
        = (c.row coll).vectorFields :=
      List.filter_eq_self.mpr (List.length_filter_eq_length_iff.mp (not_not.mp hlength))
    refine ⟨htable₁, ?_⟩
    rw [hkept, hrow₁]
    exact (Function.update_eq_self coll _).symm

theorem dropCollection_effect {name : String} (h : dropCollection c name = .ok c') :
    c'.table = Function.update c.table name none ∧ c'.row = Function.update c.row name {} := by
  rw [dropCollection] at h
  obtain ⟨_, -, h⟩ := Except.bind_eq_ok_iff.mp h
  obtain ⟨_, -, h⟩ := Except.bind_eq_ok_iff.mp h
  obtain ⟨_, -, h⟩ := Except.bind_eq_ok_iff.mp h
  obtain ⟨_, -, h⟩ := Except.bind_eq_ok_iff.mp h
  rw [← Except.ok.inj h]
  exact ⟨Catalog.table_dropTable, Catalog.row_deleteCollectionMeta⟩

theorem setPolicy_effect {op : String} {usingJson checkJson : Option Json}
    (h : setPolicy env c coll op usingJson checkJson = .ok c') :
    isProtectedCollection coll = false ∧ ∃ verb policy t d, parseOp op = .ok verb ∧
      parseClause env "using" usingJson = .ok policy.usingClause ∧
      parseClause env "check" checkJson = .ok policy.checkClause ∧
      c.table coll = some t ∧ Describes env.reading c coll t d ∧
      Policy.validatePolicy d.schema verb policy = .ok () ∧ c'.table = c.table ∧
      c'.row = Function.update c.row coll { c.row coll with
        policies := (c.row coll).policies.set verb (some policy) } := by
  rw [setPolicy] at h
  obtain ⟨_, -, h⟩ := Except.bind_eq_ok_iff.mp h
  obtain ⟨_, hprotected, h⟩ := Except.bind_eq_ok_iff.mp h
  obtain ⟨verb, hverb, h⟩ := Except.bind_eq_ok_iff.mp h
  obtain ⟨usingClause, husing, h⟩ := Except.bind_eq_ok_iff.mp h
  obtain ⟨checkClause, hcheck, h⟩ := Except.bind_eq_ok_iff.mp h
  obtain ⟨described, hdescribed, h⟩ := Except.bind_eq_ok_iff.mp h
  refine ⟨Bool.eq_false_iff.mpr (refuseIf_eq_ok_iff.mp hprotected), verb,
    ⟨usingClause, checkClause⟩, ?_⟩
  cases described with
  | none => cases h
  | some d =>
    have hdescribe := database_eq_ok_iff.mp hdescribed
    obtain ⟨t, ht, hd⟩ := exists_table_of_describeCollection hdescribe
    refine ⟨t, d, hverb, husing, hcheck, ht, hd, ?_⟩
    simp only at h
    split at h
    · cases h
    · next hvalid =>
      rw [← Except.ok.inj h]
      exact ⟨hvalid, rfl, Catalog.row_upsertMeta⟩

theorem clearPolicy_effect {op : String} (h : clearPolicy c coll op = .ok c') :
    ∃ verb, c'.table = c.table ∧ c'.row = Function.update c.row coll { c.row coll with
      policies := (c.row coll).policies.set verb none } := by
  rw [clearPolicy] at h
  obtain ⟨_, -, h⟩ := Except.bind_eq_ok_iff.mp h
  obtain ⟨_, -, h⟩ := Except.bind_eq_ok_iff.mp h
  obtain ⟨verb, -, h⟩ := Except.bind_eq_ok_iff.mp h
  rw [← Except.ok.inj h]
  exact ⟨verb, rfl, Catalog.row_upsertMeta⟩

theorem mem_of_validateOwnerColumn {t : Table} {field : String}
    (h : validateOwnerColumn t field = .ok ()) : field ∈ t.columnNames := by
  rw [validateOwnerColumn] at h
  split at h
  · cases h
  · next hmem => exact not_not.mp hmem

/-- The owner field is cleared, or is set to a column of the collection. -/
theorem setOwnerField_effect {field : Option String} {readScope : String}
    (h : setOwnerField c coll field readScope = .ok c') :
    c'.table = c.table ∧ ∃ owner scope, c'.row = Function.update c.row coll { c.row coll with
      ownerField := owner, readScope := scope } ∧
      ∀ f, owner = some f → ∃ t, c.table coll = some t ∧ f ∈ t.columnNames := by
  rw [setOwnerField] at h
  split at h
  · rw [← Except.ok.inj h]
    exact ⟨rfl, none, none, Catalog.row_upsertMeta, fun f hf => nomatch hf⟩
  · next f _ =>
    split at h
    · cases h
    · split at h
      · cases h
      · next t ht =>
        obtain ⟨_, hvalid, h⟩ := Except.bind_eq_ok_iff.mp h
        rw [← Except.ok.inj h]
        refine ⟨rfl, some f, some readScope, Catalog.row_upsertMeta, ?_⟩
        rintro f' ⟨⟩
        exact ⟨t, ht, mem_of_validateOwnerColumn hvalid⟩

/-- The owner field is set to a column of the table that the database finds. -/
theorem setOwnerFieldHandler_effect {service : Bool} {field : String} {readScope : Option String}
    (h : setOwnerFieldHandler c service coll field readScope = .ok c') :
    c'.table = c.table ∧ ∃ scope, c'.row = Function.update c.row coll { c.row coll with
      ownerField := some field, readScope := scope } ∧
      ∃ t, findTable c coll = some t ∧ field ∈ t.columnNames := by
  rw [setOwnerFieldHandler] at h
  split at h
  · cases h
  · split at h
    · cases h
    · obtain ⟨_, hvalid, h⟩ := Except.bind_eq_ok_iff.mp h
      have hmem := mem_of_validateOwnerColumn hvalid
      rw [← Except.ok.inj h]
      refine ⟨rfl, _, Catalog.row_upsertMeta, ?_⟩
      cases hfind : findTable c coll with
      | none =>
        rw [hfind] at hmem
        cases hmem
      | some t =>
        rw [hfind] at hmem
        exact ⟨t, rfl, hmem⟩

theorem findTable_of_table {t : Table} (h : c.table coll = some t) : findTable c coll = some t := by
  rw [findTable, show c.tables.lookup coll = some t from h, Option.some_or]

theorem clearOwnerFieldHandler_effect {service : Bool}
    (h : clearOwnerFieldHandler c service coll = .ok c') :
    c'.table = c.table ∧ c'.row = Function.update c.row coll { c.row coll with
      ownerField := none, readScope := none } := by
  rw [clearOwnerFieldHandler] at h
  split at h
  · cases h
  · rw [← Except.ok.inj h]
    exact ⟨rfl, Catalog.row_upsertMeta⟩

theorem setRealtime_effect {enabled : Bool} (h : setRealtime c coll enabled = .ok c') :
    c'.table = c.table ∧
      c'.row = Function.update c.row coll { c.row coll with realtimeEnabled := enabled } := by
  rw [setRealtime] at h
  obtain ⟨_, -, h⟩ := Except.bind_eq_ok_iff.mp h
  obtain ⟨_, -, h⟩ := Except.bind_eq_ok_iff.mp h
  obtain ⟨_, -, h⟩ := Except.bind_eq_ok_iff.mp h
  rw [← Except.ok.inj h]
  exact ⟨rfl, Catalog.row_upsertMeta⟩

theorem exec_of_step {op : Op} (h : step env c op = some c') : exec env c op = .ok c' := by
  rw [step] at h
  cases hexec : exec env c op with
  | error e =>
    rw [hexec] at h
    cases h
  | ok c₁ =>
    rw [hexec] at h
    rw [Option.some.inj h]

/-! ### What a row keeps -/

section Rows

variable {fields : List FieldSpec} {field : FieldSpec} {m : CollectionMeta}

/-- What one write does not change, a list of writes does not change. -/
theorem foldl_frame {σ ε τ : Type} {write : σ → ε → σ} {get : σ → τ}
    (hframe : ∀ s e, get (write s e) = get s) (es : List ε) (s : σ) :
    get (es.foldl write s) = get s := by
  induction es generalizing s with
  | nil => rfl
  | cons e es ih => rw [List.foldl_cons, ih, hframe]

theorem describedRows_frame {τ : Type} (get : CollectionMeta → τ)
    (hdescs : ∀ m map, get { m with fieldDescriptions := map } = get m)
    (descs : List (String × String)) (m : CollectionMeta) :
    get (describedRows env descs m) = get m :=
  foldl_frame (fun m _ => hdescs m _) descs m

theorem constrainedRows_frame {τ : Type} (get : CollectionMeta → τ)
    (hconstraints : ∀ m map, get { m with fieldConstraints := map } = get m)
    (constraints : List (String × FieldConstraints)) (m : CollectionMeta) :
    get (constrainedRows env constraints m) = get m :=
  foldl_frame (fun m _ => hconstraints m _) constraints m

/-- What is neither a description nor constraints of a field is as the row was seeded. -/
theorem createdRow_frame {τ : Type} (get : CollectionMeta → τ)
    (hdescs : ∀ m map, get { m with fieldDescriptions := map } = get m)
    (hconstraints : ∀ m map, get { m with fieldConstraints := map } = get m)
    (fields : List FieldSpec) (collDesc : Option String) (descs : List (String × String))
    (m : CollectionMeta) :
    get (createdRow env fields collDesc descs m) = get (seededRow env fields collDesc m) := by
  rw [createdRow, constrainedRows_frame get hconstraints, describedRows_frame get hdescs]

theorem extendedRow_frame {τ : Type} (get : CollectionMeta → τ)
    (hdescs : ∀ m map, get { m with fieldDescriptions := map } = get m)
    (hconstraints : ∀ m map, get { m with fieldConstraints := map } = get m)
    (field : FieldSpec) (desc : Option String) (m : CollectionMeta) :
    get (extendedRow env field desc m) = get (vectorRow field m) := by
  rw [extendedRow, constrainedRows_frame get hconstraints, describedRows_frame get hdescs]

theorem vectorRow_frame {τ : Type} (get : CollectionMeta → τ)
    (hvectors : ∀ m vs, get { m with vectorFields := vs } = get m) (field : FieldSpec)
    (m : CollectionMeta) : get (vectorRow field m) = get m := by
  rw [vectorRow]
  split
  · exact hvectors _ _
  · rfl

/-- The only new vector field is that of the new field. -/
theorem mem_vectorRow {v : VectorField} (hv : v ∈ (vectorRow field m).vectorFields) :
    v ∈ m.vectorFields ∨ v.name = field.name := by
  rw [vectorRow] at hv
  split at hv
  · obtain hv | hv := List.mem_append.mp hv
    · exact .inl (List.mem_of_mem_filter hv)
    · obtain ⟨f, hf, rfl⟩ := List.mem_map.mp hv
      obtain rfl := List.mem_singleton.mp (List.mem_of_mem_filter hf)
      exact .inr rfl
  · exact .inl hv

/-- A new column takes no name away. -/
theorem mem_columnNames_append {t : Table} {k : String} (col : Column) (hk : k ∈ t.columnNames) :
    k ∈ Table.columnNames { t with columns := t.columns ++ [col] } := by
  rw [Table.columnNames, List.map_append]
  exact List.mem_append_left _ hk

/-- A column that is dropped takes its own name only. -/
theorem mem_columnNames_filter {t : Table} {k field : String} (hk : k ∈ t.columnNames)
    (hne : k ≠ field) : k ∈ Table.columnNames
      { t with columns := t.columns.filter fun col => col.name != field } := by
  obtain ⟨col, hcol, rfl⟩ := List.mem_map.mp hk
  exact List.mem_map_of_mem (List.mem_filter.mpr ⟨hcol, by simpa using hne⟩)

theorem mem_newTable (name : String) (fields : List FieldSpec) (columns : List Column) :
    ∀ k ∈ systemColumns, k ∈ (newTable name fields columns).columnNames := by
  simp [systemColumns, newTable, Table.columnNames, idColumn, timestampColumn]

end Rows

/-! ### Descriptions -/

theorem names_of_describes {t : Table} {d : CollectionDescription}
    (h : Describes env.reading c coll t d) : d.schema.fields.map Field.name = t.columnNames := by
  obtain ⟨fkMap, descs, constraints, -, -, hfields⟩ := h.fields
  rw [CollectionDescription.schema, hfields, Table.columnNames]
  simp [describeField, Function.comp_def]

theorem vectorFields_of_describes {t : Table} {d : CollectionDescription}
    (h : Describes env.reading c coll t d) : d.vectorFields = (c.row coll).vectorFields := by
  have hread := h.vectorFields
  rw [readVectorFields_eq] at hread
  exact (Except.ok.inj hread).symm

end Drust.SchemaTools
