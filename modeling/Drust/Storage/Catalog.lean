import Mathlib.Data.List.AList
import Drust.Lib.Result
import Drust.Storage.Schema

/-!
# The catalog of a tenant

What a tenant's database says about its collections: the tables themselves, as SQLite
reports them, and the rows of `_system_collection_meta`, which hold everything that a table
definition cannot say. A collection without a row has the defaults of a new one.

The readers of this module are those of `describeCollection`. Each of them treats a failed
query and a text that does not parse in its own way, so they are written over a `Reading`:
which of the queries fail, which of the texts do not parse, and what a number looks like
once it has been printed and read again. A column that holds a JSON text is kept as the value
that was serialized into it.

The writers are upserts. An insert names the columns it writes and leaves the others at the
defaults of the table, which are those of `CollectionMeta`.
-/

namespace Drust

/-- The structured constraints of a field. -/
structure FieldConstraints where
  min : Option Binary64 := none
  max : Option Binary64 := none
  enumValues : Option (List String) := none
  maxLength : Option UInt32 := none
  deriving DecidableEq

def FieldConstraints.isEmpty (c : FieldConstraints) : Bool :=
  c.min.isNone && c.max.isNone && c.enumValues.isNone && c.maxLength.isNone

/-- The default of a column, as it stands in the table definition. -/
inductive ColumnDefault where
  | null
  | bool (b : Bool)
  | number (n : Json.Number)
  | text (s : String)
  /-- An expression of the allowlist, in parentheses. -/
  | sql (expr : String)

namespace SchemaTools

/-- What is compared with a column. -/
inductive Literal where
  | integer (i : Int64)
  | real (x : Binary64)
  | text (s : String)
  /-- The value `s` of an enumeration, which is read as an infinity or as no number. -/
  | nonFinite (s : String)
  deriving DecidableEq

/-- A part of the `CHECK` of a column. -/
inductive CheckPart where
  | atLeast (bound : Literal)
  | atMost (bound : Literal)
  | lengthAtMost (len : UInt32)
  | oneOf (values : List Literal)
  deriving DecidableEq

end SchemaTools

/-- A column of a table. -/
structure Column where
  name : String
  sqlType : String
  notNull : Bool := false
  pk : Bool := false
  defaultValue : Option ColumnDefault := none
  /-- The table whose `id` the column references. -/
  foreignKey : Option String := none
  /-- The parts of its `CHECK`. -/
  check : List SchemaTools.CheckPart := []

/-- An index of a table. One that SQLite makes for a `UNIQUE` column is named
`sqlite_autoindex_..`. -/
structure Index where
  name : String
  fields : List String
  unique : Bool

structure Table where
  columns : List Column
  indices : List Index := []
  rowCount : Nat := 0

def Table.columnNames (t : Table) : List String :=
  t.columns.map Column.name

/-- A map that is kept as a JSON object. -/
abbrev StringMap (α : Type) := AList (fun _ : String => α)

/-- A row of `_system_collection_meta`. -/
structure CollectionMeta where
  anonCaps : Finset DmlVerb := {.select}
  /-- `none` is `NULL`. -/
  userCaps : Option (Finset DmlVerb) := none
  ownerField : Option String := none
  readScope : Option String := none
  vectorFields : List VectorField := []
  ftsIndexes : List FtsIndex := []
  realtimeEnabled : Bool := true
  auditEnabled : Bool := true
  description : Option String := none
  fieldDescriptions : StringMap String := ∅
  indexDescriptions : StringMap String := ∅
  fieldConstraints : StringMap FieldConstraints := ∅
  /-- The four policy columns; `none` is `NULL`. -/
  policies : CollectionPolicies := {}

structure Catalog where
  tables : StringMap Table
  metas : StringMap CollectionMeta

/-! ### Reading -/

/-- The queries of `describeCollection`. -/
inductive Query where
  | present
  | foreignKeyList
  | fieldDescriptions
  | fieldConstraints
  | tableInfo
  | indexDescriptions
  | indexList
  | indexInfo (index : String)
  | rowCount
  | anonCaps
  | userCaps
  | ownerField
  | vectorFields
  | ftsIndexes
  | realtimeEnabled
  | auditEnabled
  | description
  | policies
  deriving DecidableEq

/-- The texts that it parses: the columns, and the members of an object that are decoded one
by one. -/
inductive Blob where
  | fieldDescriptions
  | fieldDescription (field : String)
  | fieldConstraints
  | fieldConstraint (field : String)
  | indexDescriptions
  | indexDescription (index : String)
  | anonCaps
  | userCaps
  | vectorFields
  | ftsIndexes
  | policy (op : DmlVerb)
  deriving DecidableEq

/-- How the reads of a call go. -/
structure Reading where
  /-- The query fails. -/
  fails : Query → Bool
  /-- The text does not parse. -/
  malformed : Blob → Bool
  /-- A number that was printed, read again. One that is out of range then fails the whole
  text. -/
  reread : Binary64 → Option Binary64

/-- Why a query has no result. -/
inductive SqlError where
  | queryReturnedNoRows
  | invalidColumnType
  | sqliteFailure
  deriving DecidableEq

def defaultAnonCaps : Finset DmlVerb := {.select}

def defaultUserCaps : Finset DmlVerb := {.select}

section Readers

variable (rd : Reading) (c : Catalog) (coll : String)

/-- A query for one row of the database, which is there or not. -/
def queryRow {α : Type} (q : Query) (row : Option α) : Except SqlError α :=
  if rd.fails q then .error .sqliteFailure
  else row.elim (.error .queryReturnedNoRows) .ok

/-- A query for all rows. -/
def queryAll {α : Type} (q : Query) (rows : α) : Except SqlError α :=
  if rd.fails q then .error .sqliteFailure else .ok rows

/-- A text with a list of verbs: all of it, or nothing. -/
def parseAnonCapsJson (blob : Blob) (stored : Finset DmlVerb) : Finset DmlVerb :=
  if rd.malformed blob then ∅ else stored

def readAnonCaps : Except SqlError (Finset DmlVerb) :=
  let row := (queryRow rd .anonCaps ((c.metas.lookup coll).map CollectionMeta.anonCaps)).toOption
  .ok ((row.map (parseAnonCapsJson rd .anonCaps)).getD defaultAnonCaps)

/-- A `NULL` is not a text, so the query fails on it. -/
def readUserCaps : Except SqlError (Finset DmlVerb) :=
  let row := (do
    let stored ← queryRow rd .userCaps ((c.metas.lookup coll).map CollectionMeta.userCaps)
    stored.elim (.error .invalidColumnType) .ok).toOption
  .ok ((row.map (parseAnonCapsJson rd .userCaps)).getD defaultUserCaps)

def readRealtimeEnabled : Except SqlError Bool :=
  let row := (queryRow rd .realtimeEnabled ((c.metas.lookup coll).map CollectionMeta.realtimeEnabled)).toOption
  .ok (row.getD true)

def readAuditEnabled : Except SqlError Bool :=
  let row := (queryRow rd .auditEnabled ((c.metas.lookup coll).map CollectionMeta.auditEnabled)).toOption
  .ok (row.getD true)

def readCollectionDescription : Except SqlError (Option String) :=
  match queryRow rd .description ((c.metas.lookup coll).map CollectionMeta.description) with
  | .ok v => .ok v
  | .error .queryReturnedNoRows => .ok none
  | .error e => .error e

/-- A map of texts: the members that are texts. -/
def parseTexts (outer : Blob) (entry : String → Blob) (m : StringMap String) : StringMap String :=
  if rd.malformed outer then ∅
  else (m.entries.filter fun e => !rd.malformed (entry e.1)).toAList

def readFieldDescriptions : Except SqlError (StringMap String) :=
  let raw := (queryRow rd .fieldDescriptions
    ((c.metas.lookup coll).map CollectionMeta.fieldDescriptions)).toOption
  .ok ((raw.map (parseTexts rd .fieldDescriptions .fieldDescription)).getD ∅)

def readIndexDescriptions : Except SqlError (StringMap String) :=
  let raw := (queryRow rd .indexDescriptions
    ((c.metas.lookup coll).map CollectionMeta.indexDescriptions)).toOption
  .ok ((raw.map (parseTexts rd .indexDescriptions .indexDescription)).getD ∅)

/-- The constraints once their bounds have been printed and read. -/
def rereadConstraints (fc : FieldConstraints) : Option FieldConstraints := do
  let min ← fc.min.mapM rd.reread
  let max ← fc.max.mapM rd.reread
  some { fc with min := min, max := max }

/-- Read every entry of a map of constraints; one number that cannot be read fails them all. -/
def rereadEntries : List (Sigma fun _ : String => FieldConstraints) →
    Option (List (Sigma fun _ : String => FieldConstraints))
  | [] => some []
  | e :: es => do
    let fc ← rereadConstraints rd e.2
    let rest ← rereadEntries es
    some (⟨e.1, fc⟩ :: rest)

/-- A map of constraints: the members that decode. -/
def parseConstraints (m : StringMap FieldConstraints) : StringMap FieldConstraints :=
  if rd.malformed .fieldConstraints then ∅
  else match rereadEntries rd m.entries with
    | none => ∅
    | some es => (es.filter fun e => !rd.malformed (.fieldConstraint e.1)).toAList

def readFieldConstraints : Except SqlError (StringMap FieldConstraints) :=
  let raw := (queryRow rd .fieldConstraints
    ((c.metas.lookup coll).map CollectionMeta.fieldConstraints)).toOption
  .ok ((raw.map (parseConstraints rd)).getD ∅)

def readOwnerField : Except SqlError (Option String × Option String) :=
  match queryRow rd .ownerField ((c.metas.lookup coll).map fun m => (m.ownerField, m.readScope)) with
  | .ok t => .ok t
  | .error .queryReturnedNoRows => .ok (none, none)
  | .error e => .error e

/-- Read the four policies. A failed query, a missing row, a `NULL` and a text that does not
parse all read as no policy. -/
def readPolicies : Except SqlError CollectionPolicies :=
  let row := (queryRow rd .policies ((c.metas.lookup coll).map CollectionMeta.policies)).toOption
  let parse (op : DmlVerb) (o : Option Policy) : Option Policy :=
    if rd.malformed (.policy op) then none else o
  let ps := row.getD {}
  .ok {
    select := parse .select ps.select
    insert := parse .insert ps.insert
    update := parse .update ps.update
    delete := parse .delete ps.delete }

def readVectorFields : Except SqlError (List VectorField) :=
  match (queryRow rd .vectorFields ((c.metas.lookup coll).map CollectionMeta.vectorFields)).toOption with
  | none => .ok []
  | some raw => .ok (if rd.malformed .vectorFields then [] else raw)

def readFtsIndexes : Except SqlError (List FtsIndex) :=
  match (queryRow rd .ftsIndexes ((c.metas.lookup coll).map CollectionMeta.ftsIndexes)).toOption with
  | none => .ok []
  | some raw => .ok (if rd.malformed .ftsIndexes then [] else raw)

end Readers

/-! ### Describing a collection -/

/-- A field with everything that is known of it. -/
structure FieldInfo extends Field where
  nullable : Bool
  pk : Bool
  defaultValue : Option ColumnDefault
  foreignKey : Option String
  description : Option String
  constraints : Option FieldConstraints

structure IndexInfo where
  name : String
  fields : List String
  unique : Bool
  description : Option String

/-- What `describeCollection` returns. -/
structure CollectionDescription where
  name : String
  fields : List FieldInfo
  indices : List IndexInfo
  rowCount : Nat
  anonCaps : Finset DmlVerb
  userCaps : Finset DmlVerb
  ownerField : Option String
  readScope : Option String
  vectorFields : List VectorField
  ftsIndexes : List FtsIndex
  realtimeEnabled : Bool
  auditEnabled : Bool
  description : Option String
  policies : CollectionPolicies

/-- The part of a description that the query layer reads. -/
def CollectionDescription.schema (d : CollectionDescription) : CollectionSchema where
  name := d.name
  fields := d.fields.map FieldInfo.toField
  anonCaps := d.anonCaps
  userCaps := d.userCaps
  ownerField := d.ownerField
  readScope := d.readScope
  vectorFields := d.vectorFields
  ftsIndexes := d.ftsIndexes
  policies := d.policies

/-- A row of `PRAGMA table_info`, completed from the maps that were read before. -/
def describeField (fkMap : List (String × String)) (descs : StringMap String)
    (constraints : StringMap FieldConstraints) (col : Column) : FieldInfo where
  name := col.name
  sqlType := col.sqlType
  nullable := !col.notNull
  pk := col.pk
  defaultValue := col.defaultValue
  foreignKey := fkMap.lookup col.name
  description := descs.lookup col.name
  constraints := constraints.lookup col.name

/-- Describe the indexes one after the other, without those that SQLite makes itself. -/
def describeIndices (rd : Reading) (descs : StringMap String) :
    List Index → Except SqlError (List IndexInfo)
  | [] => .ok []
  | i :: is =>
    if "sqlite_autoindex".toList.isPrefixOf i.name.toList then describeIndices rd descs is
    else do
      let fields ← queryAll rd (.indexInfo i.name) i.fields
      let rest ← describeIndices rd descs is
      .ok ({ name := i.name, fields, unique := i.unique, description := descs.lookup i.name } :: rest)

def describeCollection (rd : Reading) (c : Catalog) (name : String) :
    Except SqlError (Option CollectionDescription) := do
  let table ← queryAll rd .present (c.tables.lookup name)
  match table with
  | none => .ok none
  | some t =>
    let fkMap ← queryAll rd .foreignKeyList
      (t.columns.filterMap fun col => col.foreignKey.map fun target => (col.name, target))
    let fieldDescs ← readFieldDescriptions rd c name
    let fieldConstraints ← readFieldConstraints rd c name
    let columns ← queryAll rd .tableInfo t.columns
    let fields := columns.map (describeField fkMap fieldDescs fieldConstraints)
    let indexDescs ← readIndexDescriptions rd c name
    let idxRows ← queryAll rd .indexList t.indices
    let indices ← describeIndices rd indexDescs idxRows
    let rowCount ← queryAll rd .rowCount t.rowCount
    let anonCaps ← readAnonCaps rd c name
    let userCaps ← readUserCaps rd c name
    let (ownerField, readScope) ← readOwnerField rd c name
    let vectorFields ← readVectorFields rd c name
    let ftsIndexes ← readFtsIndexes rd c name
    let realtimeEnabled ← readRealtimeEnabled rd c name
    let auditEnabled ← readAuditEnabled rd c name
    let description ← readCollectionDescription rd c name
    let policies ← readPolicies rd c name
    .ok (some {
      name, fields, indices, rowCount, anonCaps, userCaps, ownerField, readScope, vectorFields,
      ftsIndexes, realtimeEnabled, auditEnabled, description, policies })

/-! ### What a description says -/

section Describes

variable {rd : Reading} {c : Catalog} {coll : String} {t : Table}

theorem queryAll_eq_ok_iff {α : Type} {q : Query} {rows r : α} :
    queryAll rd q rows = .ok r ↔ rd.fails q = false ∧ r = rows := by
  rw [queryAll]
  cases rd.fails q with
  | true => simp
  | false => simp [eq_comm]

/-- The queries whose failure is passed on to the caller. -/
def passedOn (t : Table) : List Query :=
  [.present, .foreignKeyList, .tableInfo, .indexList, .rowCount, .ownerField, .description] ++
    (t.indices.filter fun i => !"sqlite_autoindex".toList.isPrefixOf i.name.toList).map
      fun i => .indexInfo i.name

theorem readOwnerField_eq_ok_iff {r : Option String × Option String} :
    readOwnerField rd c coll = .ok r ↔ rd.fails .ownerField = false ∧
      r = (((c.metas.lookup coll).map fun m => (m.ownerField, m.readScope)).getD (none, none)) := by
  rw [readOwnerField, queryRow]
  cases rd.fails .ownerField with
  | true => simp
  | false => cases c.metas.lookup coll <;> simp [eq_comm]

theorem readCollectionDescription_eq_ok_iff {r : Option String} :
    readCollectionDescription rd c coll = .ok r ↔ rd.fails .description = false ∧
      r = (c.metas.lookup coll).bind CollectionMeta.description := by
  rw [readCollectionDescription, queryRow]
  cases rd.fails .description with
  | true => simp
  | false => cases c.metas.lookup coll <;> simp [eq_comm]

theorem exists_describeIndices_iff {descs : StringMap String} {is : List Index} :
    (∃ r, describeIndices rd descs is = .ok r) ↔
      ∀ i ∈ is, "sqlite_autoindex".toList.isPrefixOf i.name.toList = false →
        rd.fails (.indexInfo i.name) = false := by
  induction is with
  | nil => simp [describeIndices]
  | cons i is ih =>
    rw [describeIndices, List.forall_mem_cons, ← ih]
    by_cases hauto : "sqlite_autoindex".toList.isPrefixOf i.name.toList
    · simp only [hauto, if_true, Bool.true_eq_false, false_implies, true_and]
    · simp only [hauto, Bool.false_eq_true, if_false, Except.bind_eq_ok_iff, queryAll_eq_ok_iff,
        true_implies]
      constructor
      · rintro ⟨r, fields, ⟨hfails, -⟩, rest, hrest, -⟩
        exact ⟨hfails, rest, hrest⟩
      · rintro ⟨hfails, rest, hrest⟩
        exact ⟨_, i.fields, ⟨hfails, rfl⟩, rest, hrest, rfl⟩

/-- What a description of a table says. -/
structure Describes (rd : Reading) (c : Catalog) (coll : String) (t : Table)
    (d : CollectionDescription) : Prop where
  name : d.name = coll
  fields : ∃ fkMap descs constraints, readFieldDescriptions rd c coll = .ok descs ∧
    readFieldConstraints rd c coll = .ok constraints ∧
    d.fields = t.columns.map (describeField fkMap descs constraints)
  anonCaps : readAnonCaps rd c coll = .ok d.anonCaps
  userCaps : readUserCaps rd c coll = .ok d.userCaps
  ownerField : readOwnerField rd c coll = .ok (d.ownerField, d.readScope)
  vectorFields : readVectorFields rd c coll = .ok d.vectorFields
  realtimeEnabled : readRealtimeEnabled rd c coll = .ok d.realtimeEnabled
  policies : readPolicies rd c coll = .ok d.policies

/-- A call that returns has described the table, and none of the queries failed whose failure
is passed on. -/
theorem describes_of_describeCollection (ht : c.tables.lookup coll = some t)
    {r : Option CollectionDescription} (h : describeCollection rd c coll = .ok r) :
    (∀ q ∈ passedOn t, rd.fails q = false) ∧ ∃ d, r = some d ∧ Describes rd c coll t d := by
  rw [describeCollection, ht] at h
  obtain ⟨_, hexists, h⟩ := Except.bind_eq_ok_iff.mp h
  obtain ⟨hpresent, rfl⟩ := queryAll_eq_ok_iff.mp hexists
  obtain ⟨fkMap, hfk, h⟩ := Except.bind_eq_ok_iff.mp h
  obtain ⟨descs, hdescs, h⟩ := Except.bind_eq_ok_iff.mp h
  obtain ⟨constraints, hconstraints, h⟩ := Except.bind_eq_ok_iff.mp h
  obtain ⟨columns, hcolumns, h⟩ := Except.bind_eq_ok_iff.mp h
  obtain ⟨hinfo, rfl⟩ := queryAll_eq_ok_iff.mp hcolumns
  obtain ⟨indexDescs, -, h⟩ := Except.bind_eq_ok_iff.mp h
  obtain ⟨idxRows, hidx, h⟩ := Except.bind_eq_ok_iff.mp h
  obtain ⟨hlist, rfl⟩ := queryAll_eq_ok_iff.mp hidx
  obtain ⟨indices, hindices, h⟩ := Except.bind_eq_ok_iff.mp h
  obtain ⟨rowCount, hrows, h⟩ := Except.bind_eq_ok_iff.mp h
  obtain ⟨anonCaps, hanon, h⟩ := Except.bind_eq_ok_iff.mp h
  obtain ⟨userCaps, huser, h⟩ := Except.bind_eq_ok_iff.mp h
  obtain ⟨⟨ownerField, readScope⟩, howner, h⟩ := Except.bind_eq_ok_iff.mp h
  obtain ⟨vectorFields, hvector, h⟩ := Except.bind_eq_ok_iff.mp h
  obtain ⟨ftsIndexes, -, h⟩ := Except.bind_eq_ok_iff.mp h
  obtain ⟨realtimeEnabled, hrealtime, h⟩ := Except.bind_eq_ok_iff.mp h
  obtain ⟨auditEnabled, -, h⟩ := Except.bind_eq_ok_iff.mp h
  obtain ⟨description, hdescription, h⟩ := Except.bind_eq_ok_iff.mp h
  obtain ⟨policies, hpolicies, h⟩ := Except.bind_eq_ok_iff.mp h
  obtain rfl := Except.ok.inj h
  refine ⟨?_, _, rfl, rfl, ⟨fkMap, descs, constraints, hdescs, hconstraints, rfl⟩, hanon, huser,
    howner, hvector, hrealtime, hpolicies⟩
  have hinfos := exists_describeIndices_iff.mp ⟨indices, hindices⟩
  simp only [passedOn, List.mem_append, List.mem_cons, List.not_mem_nil, or_false, List.mem_map,
    List.mem_filter, Bool.not_eq_true']
  rintro q ((rfl | rfl | rfl | rfl | rfl | rfl | rfl) | ⟨i, ⟨hi, hauto⟩, rfl⟩)
  · exact hpresent
  · exact (queryAll_eq_ok_iff.mp hfk).1
  · exact hinfo
  · exact hlist
  · exact (queryAll_eq_ok_iff.mp hrows).1
  · exact (readOwnerField_eq_ok_iff.mp howner).1
  · exact (readCollectionDescription_eq_ok_iff.mp hdescription).1
  · exact hinfos i hi hauto

/-- What is described exists. -/
theorem exists_table_of_describeCollection {d : CollectionDescription}
    (h : describeCollection rd c coll = .ok (some d)) :
    ∃ t, c.tables.lookup coll = some t ∧ Describes rd c coll t d := by
  cases ht : c.tables.lookup coll with
  | none =>
    rw [describeCollection, ht] at h
    obtain ⟨_, hexists, h⟩ := Except.bind_eq_ok_iff.mp h
    obtain ⟨-, rfl⟩ := queryAll_eq_ok_iff.mp hexists
    cases h
  | some t =>
    obtain ⟨-, d', hd', hdescribes⟩ := describes_of_describeCollection ht h
    obtain rfl := Option.some.inj hd'
    exact ⟨t, rfl, hdescribes⟩

/-- The call returns when none of these queries fails: every other failure is swallowed. -/
theorem exists_describeCollection (ht : c.tables.lookup coll = some t)
    (hq : ∀ q ∈ passedOn t, rd.fails q = false) :
    ∃ d, describeCollection rd c coll = .ok (some d) := by
  have hmem : ∀ q ∈ [Query.present, .foreignKeyList, .tableInfo, .indexList, .rowCount,
      .ownerField, .description], rd.fails q = false :=
    fun q hmem => hq q (List.mem_append_left _ hmem)
  simp only [List.forall_mem_cons] at hmem
  obtain ⟨hpresent, hfk, hinfo, hlist, hrows, howner, hdescription, -⟩ := hmem
  have hindices : ∀ descs, ∃ r, describeIndices rd descs t.indices = .ok r := by
    intro descs
    refine exists_describeIndices_iff.mpr fun i hi hauto => hq _ (List.mem_append_right _ ?_)
    exact List.mem_map_of_mem (List.mem_filter.mpr ⟨hi, by rw [hauto]; rfl⟩)
  have hquery : ∀ {α : Type} {q : Query} (rows : α), rd.fails q = false →
      queryAll rd q rows = .ok rows := fun rows hfails => queryAll_eq_ok_iff.mpr ⟨hfails, rfl⟩
  have hvector : ∃ r, readVectorFields rd c coll = .ok r := by
    rw [readVectorFields]
    split <;> exact ⟨_, rfl⟩
  have hfts : ∃ r, readFtsIndexes rd c coll = .ok r := by
    rw [readFtsIndexes]
    split <;> exact ⟨_, rfl⟩
  obtain ⟨vectorFields, hvector⟩ := hvector
  obtain ⟨ftsIndexes, hfts⟩ := hfts
  rw [describeCollection, hquery _ hpresent, ht]
  simp only [Except.ok_bind, hquery _ hfk, hquery _ hinfo, hquery _ hlist, hquery _ hrows,
    readFieldDescriptions, readFieldConstraints, readIndexDescriptions]
  obtain ⟨indices, hindices⟩ := hindices _
  rw [hindices, readOwnerField_eq_ok_iff.mpr ⟨howner, rfl⟩,
    readCollectionDescription_eq_ok_iff.mpr ⟨hdescription, rfl⟩, hvector, hfts]
  exact ⟨_, rfl⟩

end Describes

/-! ### Writing -/

def CollectionPolicies.set (ps : CollectionPolicies) (op : DmlVerb) (policy : Option Policy) :
    CollectionPolicies :=
  match op with
  | .select => { ps with select := policy }
  | .insert => { ps with insert := policy }
  | .update => { ps with update := policy }
  | .delete => { ps with delete := policy }

theorem CollectionPolicies.get_set (ps : CollectionPolicies) (op op' : DmlVerb)
    (policy : Option Policy) :
    (ps.set op policy).get op' = if op' = op then policy else ps.get op' := by
  cases op <;> cases op' <;> rfl

theorem CollectionPolicies.ext_get {ps qs : CollectionPolicies} (h : ∀ op, ps.get op = qs.get op) :
    ps = qs := by
  obtain ⟨s, i, u, d⟩ := ps
  obtain ⟨s', i', u', d'⟩ := qs
  obtain rfl : s = s' := h .select
  obtain rfl : i = i' := h .insert
  obtain rfl : u = u' := h .update
  obtain rfl : d = d' := h .delete
  rfl

namespace Catalog

variable (c : Catalog) (coll : String)

def setTable (t : Table) : Catalog :=
  { c with tables := c.tables.insert coll t }

def dropTable : Catalog :=
  { c with tables := c.tables.erase coll }

/-- Insert a row with some columns set, or set them in the row that is there. -/
def upsertMeta (set : CollectionMeta → CollectionMeta) : Catalog :=
  { c with metas := c.metas.insert coll (set ((c.metas.lookup coll).getD {})) }

def writeAnonCaps (caps : Finset DmlVerb) : Catalog :=
  c.upsertMeta coll fun m => { m with anonCaps := caps }

def writeRealtimeEnabled (enabled : Bool) : Catalog :=
  c.upsertMeta coll fun m => { m with realtimeEnabled := enabled }

def writeAuditEnabled (enabled : Bool) : Catalog :=
  c.upsertMeta coll fun m => { m with auditEnabled := enabled }

def setOwnerField (field readScope : Option String) : Catalog :=
  c.upsertMeta coll fun m => { m with ownerField := field, readScope := readScope }

def writeVectorFields (fields : List VectorField) : Catalog :=
  c.upsertMeta coll fun m => { m with vectorFields := fields }

/-- An empty description clears the column. -/
def writeCollectionDescription (description : Option String) : Catalog :=
  c.upsertMeta coll fun m => { m with description := description.filter fun d => d != "" }

/-- The descriptions are read, changed and written back as a whole. -/
def writeFieldDescription (rd : Reading) (field : String) (description : Option String) :
    Except SqlError Catalog := do
  let map ← readFieldDescriptions rd c coll
  let map := match description.filter fun d => d != "" with
    | some text => map.insert field text
    | none => map.erase field
  .ok (c.upsertMeta coll fun m => { m with fieldDescriptions := map })

/-- The constraints are read, changed and written back as a whole. -/
def writeFieldConstraints (rd : Reading) (field : String) (constraints : FieldConstraints) :
    Except SqlError Catalog := do
  let map ← readFieldConstraints rd c coll
  let map := if constraints.isEmpty then map.erase field else map.insert field constraints
  .ok (c.upsertMeta coll fun m => { m with fieldConstraints := map })

/-- Set one of the four policy columns; `none` is `NULL`. -/
def writePolicy (op : DmlVerb) (policy : Option Policy) : Catalog :=
  c.upsertMeta coll fun m => { m with policies := m.policies.set op policy }

def deleteCollectionMeta : Catalog :=
  { c with metas := c.metas.erase coll }

/-! ### Two views of the catalog -/

def table : Option Table :=
  c.tables.lookup coll

/-- The row of a collection. A missing row reads as a new one. -/
def row : CollectionMeta :=
  (c.metas.lookup coll).getD {}

variable {c coll}

theorem table_setTable {t : Table} :
    (c.setTable coll t).table = Function.update c.table coll (some t) := by
  funext coll'
  obtain rfl | hne := eq_or_ne coll' coll
  · rw [Function.update_self]
    exact AList.lookup_insert _
  · rw [Function.update_of_ne hne]
    exact AList.lookup_insert_ne hne

theorem table_dropTable : (c.dropTable coll).table = Function.update c.table coll none := by
  funext coll'
  obtain rfl | hne := eq_or_ne coll' coll
  · rw [Function.update_self]
    exact AList.lookup_erase _ _
  · rw [Function.update_of_ne hne]
    exact AList.lookup_erase_ne hne

theorem row_upsertMeta {set : CollectionMeta → CollectionMeta} :
    (c.upsertMeta coll set).row = Function.update c.row coll (set (c.row coll)) := by
  funext coll'
  obtain rfl | hne := eq_or_ne coll' coll
  · rw [Function.update_self, row, upsertMeta, AList.lookup_insert]
    rfl
  · rw [Function.update_of_ne hne, row, upsertMeta, AList.lookup_insert_ne hne]
    rfl

theorem row_deleteCollectionMeta :
    (c.deleteCollectionMeta coll).row = Function.update c.row coll {} := by
  funext coll'
  obtain rfl | hne := eq_or_ne coll' coll
  · rw [Function.update_self, row, deleteCollectionMeta, AList.lookup_erase]
    rfl
  · rw [Function.update_of_ne hne, row, deleteCollectionMeta, AList.lookup_erase_ne hne]
    rfl

end Catalog

end Drust
