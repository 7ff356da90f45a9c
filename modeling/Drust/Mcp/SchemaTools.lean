import Drust.Lib.Transition
import Drust.Rpc.QueryTemplate
import Drust.Storage.Catalog

/-!
# The schema tools

The operations of the service that change a collection's definition or the gates on its rows:
create, extend and drop a collection, set and clear its policies and its owner field. Each
takes the catalog and returns the catalog it leaves, or the error the caller gets; a sequence
of successful calls is a run of `step`. The owner field has a second way in, the HTTP routes,
which do not check what the tool checks.

A table definition is text in the source. Here it is the list of its columns, and the text of
a `CHECK` is kept as the list of its parts, with the literals that are compared with the column.
A number of an enumeration that is not finite is printed as a bare word, which the database
reads as the name of a column.

What the database refuses because of the rows of a table (a new column that the rows there
violate) and what the guards refuse because of a stored procedure is left out: it only makes
fewer runs possible. So is what a tool answers, which is a description of the collection it
leaves.
-/

namespace Drust

open QueryTemplate (isProtectedCollection)

namespace SchemaTools

/-- Why a tool refuses. -/
inductive ToolError where
  /-- "invalid identifier: ..". -/
  | invalidIdentifier (s : String)
  /-- "PROTECTED_COLLECTION: ..", "refusing to .. system collection ..". -/
  | protectedCollection (name : String)
  /-- "foreign_key references unknown collection(s): ..". -/
  | unknownForeignKeys (targets : List String)
  /-- "DESCRIPTION_TOO_LONG: ..". -/
  | descriptionTooLong
  /-- "DESCRIPTION_INVALID: ..". -/
  | descriptionInvalid
  /-- "unsupported sql_type: ..". -/
  | unsupportedType (t : String)
  /-- "vector field .. requires `dim` (1..=4096)". -/
  | dimRequired (field : String)
  /-- "vector field .. has dim=.., must be 1..=4096". -/
  | dimRange (field : String) (dim : UInt32)
  /-- "default.sql must be a string". -/
  | defaultSqlNotString
  /-- "SQL default expression not in allowlist: ..". -/
  | defaultNotAllowed (expr : String)
  /-- "default must be a literal or ..". -/
  | defaultNotLiteral
  /-- "field ..: min (..) > max (..) — no value can satisfy the CHECK". -/
  | minAboveMax (field : String)
  /-- "field ..: max_length must be >= 1". -/
  | maxLengthZero (field : String)
  /-- "field ..: enum has .. values (max 256)". -/
  | enumTooMany (field : String) (count : Nat)
  /-- "field ..: enum value contains a NUL byte". -/
  | enumNul (field : String)
  /-- "field ..: enum value exceeds 256 bytes". -/
  | enumTooLong (field : String)
  /-- "field ..: enum value .. is not an integer (.. column)". -/
  | enumNotInteger (field value sqlType : String)
  /-- "enum_values must be non-empty for field ..". -/
  | enumEmpty (field : String)
  /-- "enum value .. not numeric for ..". -/
  | enumNotNumeric (field value : String)
  /-- "cannot drop system column ..". -/
  | systemColumn (field : String)
  /-- "unknown collection or field: ..". -/
  | unknownField (collection field : String)
  /-- "FTS_FIELD_INDEXED: drop index .. first". -/
  | ftsFieldIndexed (index : String)
  /-- "unknown collection: ..". -/
  | unknownCollection (name : String)
  /-- "cannot drop collection ..: foreign-key references from ..". -/
  | referenced (name : String) (referrers : List (String × String))
  /-- "invalid op ..: must be select|insert|update|delete". -/
  | invalidOp (op : String)
  /-- "invalid `..` filter: ..". -/
  | invalidFilter (label msg : String)
  /-- "POLICY_INVALID: ..". -/
  | policyInvalid (why : PolicyError)
  /-- "INVALID_READ_SCOPE: ..". -/
  | invalidReadScope
  /-- "COLLECTION_NOT_FOUND: ..". -/
  | collectionNotFound (name : String)
  /-- "OWNER_FIELD_INVALID_COLUMN". -/
  | ownerFieldInvalidColumn
  /-- "OWNER_FIELD_NOT_FK". -/
  | ownerFieldNotFk
  /-- "SERVICE_ONLY", "service key required". -/
  | serviceOnly
  /-- An error of the database, passed on as it is. -/
  | database (why : SqlError)

/-- A check that stands before the rest of a call. -/
def refuseIf (p : Prop) [Decidable p] (e : ToolError) : Except ToolError Unit :=
  if p then .error e else .ok ()

/-- What the tools take from outside the catalog. -/
structure Env where
  /-- The parser of JSON text. -/
  fromStr : String → Option Json
  /-- The parser of floating-point numbers; the inner `none` is an infinity or no number. -/
  parseF64 : String → Option (Option Binary64)
  /-- A number that was printed as JSON and read again; `none` when it is out of range. -/
  reread : Binary64 → Option Binary64
  /-- Whether new collections keep a history. -/
  auditDefault : Bool

/-- The tools' own reads succeed. -/
def Env.reading (env : Env) : Reading where
  fails _ := false
  malformed _ := false
  reread := env.reread

/-! ### Fields -/

/-- A field as a caller asks for it. -/
structure FieldSpec where
  name : String
  sqlType : String
  nullable : Bool := true
  unique : Bool := false
  defaultValue : Option Json := none
  foreignKey : Option String := none
  dim : Option UInt32 := none
  description : Option String := none
  min : Option Binary64 := none
  max : Option Binary64 := none
  enumValues : Option (List String) := none
  maxLength : Option UInt32 := none

def FieldSpec.constraints (f : FieldSpec) : FieldConstraints where
  min := f.min
  max := f.max
  enumValues := f.enumValues
  maxLength := f.maxLength

def sqlDefaultAllowlist : List String :=
  ["datetime('now')", "date('now')", "time('now')", "CURRENT_TIMESTAMP", "CURRENT_DATE",
    "CURRENT_TIME"]

def typeToSqlite : String → Except ToolError String
  | "text" | "datetime" | "json" => .ok "TEXT"
  | "integer" | "boolean" => .ok "INTEGER"
  | "real" => .ok "REAL"
  | "vector" => .ok "BLOB"
  | other => .error (.unsupportedType other)

def isAsciiLowercase (c : Char) : Bool :=
  'a' ≤ c && c ≤ 'z'

def identifier (s : String) : Except ToolError Unit :=
  let ok := match s.toList with
    | [] => false
    | c :: cs => (isAsciiLowercase c || c == '_') &&
      (c :: cs).all fun c => isAsciiLowercase c || c.isDigit || c == '_'
  if ok then .ok () else .error (.invalidIdentifier s)

/-- The text without white space at its ends. -/
def trim (s : String) : String :=
  .ofList ((s.toList.dropWhile VectorFilter.isWhitespace).reverse.dropWhile
    VectorFilter.isWhitespace).reverse

/-- One value of an enumeration. A fraction is no value of an integer column. -/
def checkEnumValue (env : Env) (f : FieldSpec) (v : String) : Except ToolError Unit :=
  let intStorage := f.sqlType == "integer" || f.sqlType == "boolean"
  let integral : Option Binary64 → Bool
    | some n => n.scaled % (Binary64.one : Int) = 0
    | none => false
  if '\x00' ∈ v.toList then .error (.enumNul f.name)
  else if 256 < v.utf8ByteSize then .error (.enumTooLong f.name)
  else if intStorage && (env.parseF64 v).any (fun n => !integral n) then
    .error (.enumNotInteger f.name v f.sqlType)
  else .ok ()

/-- Check the values of an enumeration, in order. -/
def eachValue (check : String → Except ToolError Unit) : List String → Except ToolError Unit
  | [] => .ok ()
  | v :: vs => do
    check v
    eachValue check vs

/-- The bounds must leave a value. -/
def checkBounds (f : FieldSpec) : Except ToolError Unit :=
  match f.min, f.max with
  | some min, some max => refuseIf (Binary64.cmp min max = .gt) (.minAboveMax f.name)
  | _, _ => .ok ()

/-! ### The `CHECK` of a field -/

/-- What is printed for a number that is not finite. -/
inductive Special where
  | inf
  | negInf
  | nan
  deriving DecidableEq

/-- The number that a text is read as, given that it is not finite. -/
def Special.ofText (v : String) : Special :=
  let unsigned := match v.toList with
    | '-' :: cs | '+' :: cs | cs => cs
  if unsigned.head? = some 'n' ∨ unsigned.head? = some 'N' then .nan
  else if v.toList.head? = some '-' then .negInf
  else .inf

/-- The column that it names, in the letters of an identifier. -/
def Special.column : Special → String
  | .inf | .negInf => "inf"
  | .nan => "nan"

def Literal.column : Literal → Option String
  | .nonFinite v => some (Special.ofText v).column
  | _ => none

def CheckPart.literals : CheckPart → List Literal
  | .atLeast bound | .atMost bound => [bound]
  | .lengthAtMost _ => []
  | .oneOf values => values

/-- The columns that the bare words of a check name. -/
def bareColumns (check : List CheckPart) : List String :=
  check.flatMap fun p => p.literals.filterMap Literal.column

def IsIntegral (n : Binary64) : Prop :=
  n.scaled % (Binary64.one : Int) = 0

instance (n : Binary64) : Decidable (IsIntegral n) :=
  inferInstanceAs (Decidable (_ = _))

/-- The integer nearest to a number, within the range. -/
def clamp (m : Int) : Int64 :=
  if m < Int64.minValue.toInt then Int64.minValue
  else if Int64.maxValue.toInt < m then Int64.maxValue
  else Int64.ofInt m

/-- The cast `as i64` of a number that is an integer. -/
def asInt64 (n : Binary64) : Int64 :=
  clamp (n.scaled / (Binary64.one : Int))

def renderNum (n : Binary64) : Literal :=
  if IsIntegral n then .integer (asInt64 n) else .real n

def FieldSpec.numeric (f : FieldSpec) : Bool :=
  f.sqlType == "integer" || f.sqlType == "real" || f.sqlType == "boolean"

/-- A value of an enumeration as a literal. -/
def enumLiteral (env : Env) (f : FieldSpec) (v : String) : Except ToolError Literal :=
  if f.numeric then
    match env.parseF64 v with
    | none => .error (.enumNotNumeric f.name v)
    | some none => .ok (.nonFinite v)
    | some (some n) => .ok (renderNum n)
  else .ok (.text v)

def enumLiterals (env : Env) (f : FieldSpec) : List String → Except ToolError (List Literal)
  | [] => .ok []
  | v :: vs => do
    let l ← enumLiteral env f v
    let ls ← enumLiterals env f vs
    .ok (l :: ls)

def enumPart (env : Env) (f : FieldSpec) : Except ToolError (List CheckPart) :=
  match f.enumValues with
  | none => .ok []
  | some vals => do
    refuseIf (256 < vals.length) (.enumTooMany f.name vals.length)
    eachValue (checkEnumValue env f) vals
    refuseIf vals.isEmpty (.enumEmpty f.name)
    let ls ← enumLiterals env f vals
    .ok [.oneOf ls]

/-- Compile the constraints of a field into the parts of its `CHECK`, in the order in which they are
written. -/
def checkParts (env : Env) (f : FieldSpec) : Except ToolError (List CheckPart) := do
  checkBounds f
  refuseIf (f.maxLength = some 0) (.maxLengthZero f.name)
  let enum ← enumPart env f
  .ok ((f.min.map fun min => CheckPart.atLeast (renderNum min)).toList ++
    (f.max.map fun max => CheckPart.atMost (renderNum max)).toList ++
    (f.maxLength.map CheckPart.lengthAtMost).toList ++ enum)

/-- The default of a field: a literal, or an expression of the allowlist. -/
def defaultLiteral : Json → Except ToolError ColumnDefault
  | .null => .ok .null
  | .bool b => .ok (.bool b)
  | .number n => .ok (.number n)
  | .string s => .ok (.text s)
  | .object [("sql", v)] =>
    match v.asStr with
    | none => .error .defaultSqlNotString
    | some raw =>
      let expr := trim raw
      if expr ∈ sqlDefaultAllowlist then .ok (.sql expr) else .error (.defaultNotAllowed expr)
  | _ => .error .defaultNotLiteral

/-- A vector field says its dimension. -/
def checkDim (f : FieldSpec) : Except ToolError Unit :=
  if f.sqlType = "vector" then
    match f.dim with
    | none => .error (.dimRequired f.name)
    | some dim => if dim = 0 ∨ 4096 < dim then .error (.dimRange f.name dim) else .ok ()
  else .ok ()

/-- What is there, checked or translated. -/
def whenPresent {α β : Type} (f : α → Except ToolError β) : Option α → Except ToolError (Option β)
  | none => .ok none
  | some a => do
    let b ← f a
    .ok (some b)

/-- The definition of a column. -/
def columnExpr (env : Env) (f : FieldSpec) : Except ToolError Column := do
  identifier f.name
  let ty ← typeToSqlite f.sqlType
  checkDim f
  let default ← whenPresent defaultLiteral f.defaultValue
  let check ← checkParts env f
  let _ ← whenPresent identifier f.foreignKey
  .ok {
    name := f.name
    sqlType := ty
    notNull := !f.nullable
    defaultValue := default
    foreignKey := f.foreignKey
    check := check }

/-- The definitions of the columns, in order. -/
def columnExprs (env : Env) : List FieldSpec → Except ToolError (List Column)
  | [] => .ok []
  | f :: fs => do
    let col ← columnExpr env f
    let cols ← columnExprs env fs
    .ok (col :: cols)

def checkDescription (raw : String) : Except ToolError String :=
  let trimmed := trim raw
  if 2048 < trimmed.utf8ByteSize then .error .descriptionTooLong
  else if '\x00' ∈ trimmed.toList then .error .descriptionInvalid
  else .ok trimmed

/-- A description that is worth keeping. -/
def validatedDescription (description : Option String) : Except ToolError (Option String) :=
  match description.filter fun d => d != "" with
  | none => .ok none
  | some raw => do
    let v ← checkDescription raw
    .ok (if v = "" then none else some v)

/-- The descriptions of the fields that have one. -/
def validatedFieldDescs : List FieldSpec → Except ToolError (List (String × String))
  | [] => .ok []
  | f :: fs => do
    let desc ← validatedDescription f.description
    let rest ← validatedFieldDescs fs
    .ok ((desc.map fun v => (f.name, v)).toList ++ rest)

/-! ### The database -/

def collectionExists (c : Catalog) (name : String) : Bool :=
  (c.tables.lookup name).isSome

/-- An error of the database reaches the caller as it is. -/
def database {α : Type} : Except SqlError α → Except ToolError α
  | .ok a => .ok a
  | .error e => .error (.database e)

/-- The columns that the checks name are there. -/
def checksResolve (t : Table) : Bool :=
  t.columns.all fun col => (bareColumns col.check).all fun k => decide (k ∈ t.columnNames)

/-- `CREATE TABLE`: the name is new, and so is each column's. -/
def createTable (c : Catalog) (name : String) (t : Table) : Except ToolError Catalog :=
  if collectionExists c name || !decide t.columnNames.Nodup || !checksResolve t then
    .error (.database .sqliteFailure)
  else .ok (c.setTable name t)

/-- `ALTER TABLE .. ADD COLUMN`: the column is new. One with a `UNIQUE` cannot be added. -/
def addColumn (c : Catalog) (name : String) (col : Column) (unique : Bool) :
    Except ToolError Catalog :=
  match c.tables.lookup name with
  | none => .error (.database .sqliteFailure)
  | some t =>
    let t' := { t with columns := t.columns ++ [col] }
    if unique || decide (col.name ∈ t.columnNames) || !checksResolve t' then
      .error (.database .sqliteFailure)
    else .ok (c.setTable name t')

/-- `ALTER TABLE .. DROP COLUMN`: the `CHECK` and the reference of the column go with it. A
column of the primary key or of an index cannot be dropped, and neither can one that another
`CHECK` names. -/
def dropColumn (c : Catalog) (name field : String) : Except ToolError Catalog :=
  match c.tables.lookup name with
  | none => .error (.database .sqliteFailure)
  | some t =>
    let t' := { t with columns := t.columns.filter fun col => col.name != field }
    if t.columns.any (fun col => col.name == field && col.pk) ||
        t.indices.any (fun i => i.fields.contains field) || !checksResolve t' then
      .error (.database .sqliteFailure)
    else .ok (c.setTable name t')

/-- The columns that the tools give to every collection. -/
def idColumn : Column where
  name := "id"
  sqlType := "INTEGER"
  pk := true

def timestampColumn (name : String) : Column where
  name := name
  sqlType := "TEXT"
  notNull := true
  defaultValue := some (.sql "datetime('now')")

/-- The indexes behind the `UNIQUE` fields of a new table. -/
def autoIndices (name : String) (fields : List FieldSpec) : List Index :=
  (fields.filter FieldSpec.unique).zipIdx.map fun (f, i) =>
    { name := "sqlite_autoindex_" ++ name ++ "_" ++ toString (i + 1)
      fields := [f.name]
      unique := true }

/-- The fields of the other collections that reference one. -/
def findFkReferrers (c : Catalog) (target : String) : List (String × String) :=
  (c.tables.entries.filter fun e => e.1 != target).flatMap fun e =>
    (e.2.columns.filter fun col => col.foreignKey == some target).map fun col => (e.1, col.name)

/-! ### Collections -/

/-- Write the descriptions of the fields, one after the other. -/
def writeDescs (rd : Reading) (coll : String) : List (String × String) → Catalog →
    Except ToolError Catalog
  | [], c => .ok c
  | (field, text) :: rest, c => do
    let c ← database (c.writeFieldDescription coll rd field (some text))
    writeDescs rd coll rest c

/-- Write the constraints of the fields, one after the other. -/
def writeConstraints (rd : Reading) (coll : String) : List (String × FieldConstraints) →
    Catalog → Except ToolError Catalog
  | [], c => .ok c
  | (field, fc) :: rest, c => do
    let c ← database (c.writeFieldConstraints coll rd field fc)
    writeConstraints rd coll rest c

/-- The vector fields among the fields. The dimension has been checked before. -/
def vectorFieldsOf (fields : List FieldSpec) : List VectorField :=
  (fields.filter fun f => f.sqlType == "vector").map fun f =>
    { name := f.name, dim := f.dim.getD 0 }

/-- The constraints of the fields that have some. -/
def constraintsOf (fields : List FieldSpec) : List (String × FieldConstraints) :=
  fields.filterMap fun f =>
    if f.constraints.isEmpty then none else some (f.name, f.constraints)

/-- The first columns of a new collection's row: it starts without broadcasts. -/
def seedMeta (env : Env) (name : String) (fields : List FieldSpec) (collDesc : Option String)
    (c : Catalog) : Catalog :=
  let c := c.writeAnonCaps name defaultAnonCaps
  let c := c.writeRealtimeEnabled name false
  let c := c.writeAuditEnabled name env.auditDefault
  let c := if (vectorFieldsOf fields).isEmpty then c
    else c.writeVectorFields name (vectorFieldsOf fields)
  match collDesc with
  | some v => c.writeCollectionDescription name (some v)
  | none => c

def createCollectionWithDesc (env : Env) (c : Catalog) (name : String) (fields : List FieldSpec)
    (description : Option String) : Except ToolError Catalog := do
  identifier name
  refuseIf (isProtectedCollection name) (.protectedCollection name)
  let fkTargets := fields.filterMap FieldSpec.foreignKey
  -- a collection may reference itself
  refuseIf (!fkTargets.all fun t => t == name || collectionExists c t)
    (.unknownForeignKeys fkTargets)
  let collDesc ← validatedDescription description
  let fieldDescs ← validatedFieldDescs fields
  let columns ← columnExprs env fields
  -- all of what follows is one transaction
  let c ← createTable c name {
    columns := idColumn :: columns ++ [timestampColumn "created_at", timestampColumn "updated_at"]
    indices := autoIndices name fields }
  let c ← writeDescs env.reading name fieldDescs (seedMeta env name fields collDesc c)
  writeConstraints env.reading name (constraintsOf fields) c

/-- The same without the check of the references, which is made on a reader before the rest. -/
def createCollectionTx (env : Env) (c : Catalog) (name : String) (fields : List FieldSpec)
    (description : Option String) : Except ToolError Catalog := do
  identifier name
  refuseIf (isProtectedCollection name) (.protectedCollection name)
  let collDesc ← validatedDescription description
  let fieldDescs ← validatedFieldDescs fields
  let columns ← columnExprs env fields
  let c ← createTable c name {
    columns := idColumn :: columns ++ [timestampColumn "created_at", timestampColumn "updated_at"]
    indices := autoIndices name fields }
  let c ← writeDescs env.reading name fieldDescs (seedMeta env name fields collDesc c)
  writeConstraints env.reading name (constraintsOf fields) c

/-- Register a new vector field, in place of one of its name. -/
def registerVector (env : Env) (collection : String) (field : FieldSpec) (c : Catalog) :
    Except ToolError Catalog :=
  if field.sqlType = "vector" then do
    let existing ← database (readVectorFields env.reading c collection)
    .ok (c.writeVectorFields collection
      ((existing.filter fun v => v.name != field.name) ++ vectorFieldsOf [field]))
  else .ok c

/-- The steps after the first are writes of their own; each is made where it has something to
write. -/
def addField (env : Env) (c : Catalog) (collection : String) (field : FieldSpec) :
    Except ToolError Catalog := do
  identifier collection
  refuseIf (field.foreignKey.any fun target => !collectionExists c target)
    (.unknownForeignKeys field.foreignKey.toList)
  let col ← columnExpr env field
  let desc ← validatedDescription field.description
  let c ← addColumn c collection col field.unique
  let c ← registerVector env collection field c
  let c ← writeDescs env.reading collection (desc.map fun text => (field.name, text)).toList c
  writeConstraints env.reading collection (constraintsOf [field]) c

/-- An index that covers the field has to go first. -/
def checkFtsIndexes (field : String) (ftsIndexes : List FtsIndex) : Except ToolError Unit :=
  match ftsIndexes.find? fun i => i.fields.contains field with
  | some i => .error (.ftsFieldIndexed i.name)
  | none => .ok ()

def dropField (env : Env) (c : Catalog) (collection field : String) :
    Except ToolError Catalog := do
  identifier collection
  identifier field
  refuseIf (field ∈ systemColumns) (.systemColumn field)
  refuseIf (!(c.tables.lookup collection).any fun t => decide (field ∈ t.columnNames))
    (.unknownField collection field)
  let ftsIndexes ← database (readFtsIndexes env.reading c collection)
  checkFtsIndexes field ftsIndexes
  let c ← dropColumn c collection field
  let existing ← database (readVectorFields env.reading c collection)
  let kept := existing.filter fun v => v.name != field
  .ok (if kept.length ≠ existing.length then c.writeVectorFields collection kept else c)

def dropCollection (c : Catalog) (name : String) : Except ToolError Catalog := do
  identifier name
  refuseIf (isProtectedCollection name) (.protectedCollection name)
  refuseIf (!collectionExists c name) (.unknownCollection name)
  let referrers := findFkReferrers c name
  refuseIf (!referrers.isEmpty) (.referenced name referrers)
  .ok ((c.dropTable name).deleteCollectionMeta name)

/-! ### Gates -/

def parseOp : String → Except ToolError DmlVerb
  | "select" => .ok .select
  | "insert" => .ok .insert
  | "update" => .ok .update
  | "delete" => .ok .delete
  | other => .error (.invalidOp other)

def parseClause (env : Env) (label : String) : Option Json → Except ToolError (Option FilterAst)
  | none => .ok none
  | some v =>
    match parseFilterValue env.fromStr v with
    | .ok ast => .ok (some ast)
    | .error msg => .error (.invalidFilter label msg)

def setPolicy (env : Env) (c : Catalog) (collection op : String) (usingClause check : Option Json) :
    Except ToolError Catalog := do
  identifier collection
  refuseIf (isProtectedCollection collection) (.protectedCollection collection)
  let verb ← parseOp op
  let usingClause ← parseClause env "using" usingClause
  let checkClause ← parseClause env "check" check
  let policy : Policy := { usingClause, checkClause }
  let described ← database (describeCollection env.reading c collection)
  match described with
  | none => .error (.unknownCollection collection)
  | some d =>
    match Policy.validatePolicy d.schema verb policy with
    | .error why => .error (.policyInvalid why)
    | .ok () => .ok (c.writePolicy collection verb (some policy))

def clearPolicy (c : Catalog) (collection op : String) : Except ToolError Catalog := do
  identifier collection
  refuseIf (isProtectedCollection collection) (.protectedCollection collection)
  let verb ← parseOp op
  .ok (c.writePolicy collection verb none)

/-- The owner field references the users. -/
def validateOwnerColumn (t : Table) (field : String) : Except ToolError Unit :=
  if field ∉ t.columnNames then .error .ownerFieldInvalidColumn
  else if t.columns.any fun col => col.name == field && col.foreignKey == some "_system_users" then
    .ok ()
  else .error .ownerFieldNotFk

/-- Set the owner field, or clear it when none is given. -/
def setOwnerField (c : Catalog) (collection : String) (field : Option String)
    (readScope : String) : Except ToolError Catalog :=
  match (field.map trim).filter fun f => f != "" with
  | none => .ok (c.setOwnerField collection none none)
  | some field =>
    if readScope ≠ "own" ∧ readScope ≠ "all" then .error .invalidReadScope
    else match c.tables.lookup collection with
      | none => .error (.collectionNotFound collection)
      | some t => do
        validateOwnerColumn t field
        .ok (c.setOwnerField collection (some field) (some readScope))

/-- The table that the database finds under a name, whatever the case of its letters. -/
def findTable (c : Catalog) (name : String) : Option Table :=
  let fold (s : String) := s.toList.map Char.toLower
  (c.tables.lookup name).or
    ((c.tables.entries.find? fun e => fold e.1 == fold name).map Sigma.snd)

/-- `PUT /collections/{coll}/owner-field`. The collection is the text in the path, and the field is
not trimmed. The validation runs on a reader before the write, and asks the database only for the
columns and the references of the table that it finds. -/
def setOwnerFieldHandler (c : Catalog) (service : Bool) (collection field : String)
    (readScope : Option String) : Except ToolError Catalog :=
  let readScope := readScope.getD "own"
  if !service then .error .serviceOnly
  else if readScope ≠ "own" ∧ readScope ≠ "all" then .error .invalidReadScope
  else do
    validateOwnerColumn ((findTable c collection).getD { columns := [] }) field
    .ok (c.setOwnerField collection (some field) (some readScope))

/-- `DELETE /collections/{coll}/owner-field`. -/
def clearOwnerFieldHandler (c : Catalog) (service : Bool) (collection : String) :
    Except ToolError Catalog :=
  if !service then .error .serviceOnly
  else .ok (c.setOwnerField collection none none)

/-- Set what an anonymous caller may do. -/
def setAnonCaps (c : Catalog) (collection : String) (caps : Finset DmlVerb) :
    Except ToolError Catalog := do
  identifier collection
  refuseIf (isProtectedCollection collection) (.protectedCollection collection)
  refuseIf (!collectionExists c collection) (.collectionNotFound collection)
  .ok (c.writeAnonCaps collection caps)

/-- Turn the broadcasts of a collection on or off. -/
def setRealtime (c : Catalog) (collection : String) (enabled : Bool) :
    Except ToolError Catalog := do
  identifier collection
  refuseIf (isProtectedCollection collection) (.protectedCollection collection)
  refuseIf (!collectionExists c collection) (.unknownCollection collection)
  .ok (c.writeRealtimeEnabled collection enabled)

/-! ### Sequences of operations -/

inductive Op where
  | createCollection (name : String) (fields : List FieldSpec) (description : Option String)
  | addField (collection : String) (field : FieldSpec)
  | dropField (collection field : String)
  | dropCollection (name : String)
  | setPolicy (collection op : String) (usingClause check : Option Json)
  | clearPolicy (collection op : String)
  | setOwnerField (collection : String) (field : Option String) (readScope : String)
  | putOwnerField (service : Bool) (collection field : String) (readScope : Option String)
  | deleteOwnerField (service : Bool) (collection : String)

def exec (env : Env) (c : Catalog) : Op → Except ToolError Catalog
  | .createCollection name fields description => createCollectionWithDesc env c name fields description
  | .addField collection field => addField env c collection field
  | .dropField collection field => dropField env c collection field
  | .dropCollection name => dropCollection c name
  | .setPolicy collection op usingClause check => setPolicy env c collection op usingClause check
  | .clearPolicy collection op => clearPolicy c collection op
  | .setOwnerField collection field readScope => setOwnerField c collection field readScope
  | .putOwnerField service collection field readScope =>
    setOwnerFieldHandler c service collection field readScope
  | .deleteOwnerField service collection => clearOwnerFieldHandler c service collection

/-- A successful operation. -/
def step (env : Env) (c : Catalog) (op : Op) : Option Catalog :=
  (exec env c op).toOption

/-- The tables that a tenant starts with. Their names are reserved, and none of their columns
has a `CHECK`. -/
structure SystemTables where
  tables : StringMap Table
  nodup : ∀ name t, tables.lookup name = some t → t.columnNames.Nodup
  reserved : ∀ name t, tables.lookup name = some t → isProtectedCollection name = true
  unchecked : ∀ name t, tables.lookup name = some t → ∀ col ∈ t.columns, col.check = []

/-- A new tenant has no collection of its own, and nothing is stored about any. -/
def init (sys : SystemTables) : Catalog where
  tables := sys.tables
  metas := ∅

/-! ### A small tenant -/

/-- The table of the users. -/
def usersTable : Table where
  columns := [{ name := "id", sqlType := "TEXT", pk := true }]

theorem lookup_usersTable {name : String} {t : Table}
    (h : (AList.singleton "_system_users" usersTable : StringMap Table).lookup name = some t) :
    name = "_system_users" ∧ t = usersTable := by
  obtain rfl | hne := eq_or_ne name "_system_users"
  · exact ⟨rfl, (Option.some.inj h).symm⟩
  · simp [AList.lookup, AList.singleton, List.dlookup, Ne.symm hne] at h

/-- A tenant with no other table than that of its users. -/
def users : SystemTables where
  tables := AList.singleton "_system_users" usersTable
  nodup := by
    intro name t h
    obtain ⟨-, rfl⟩ := lookup_usersTable h
    decide
  reserved := by
    intro name t h
    obtain ⟨rfl, -⟩ := lookup_usersTable h
    decide
  unchecked := by
    intro name t h
    obtain ⟨-, rfl⟩ := lookup_usersTable h
    decide

/-- An environment in which numbers survive, and nothing is sent as a text. -/
def plainEnv : Env where
  fromStr _ := none
  parseF64 _ := none
  reread := some
  auditDefault := true

end SchemaTools

end Drust
