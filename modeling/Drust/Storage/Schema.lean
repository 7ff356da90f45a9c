import Drust.Query.FilterAst

/-!
# Collections

The schema of a collection as the query layer sees it: its declared fields with the SQL
type of each column, its vector fields, its full-text indexes, and the per-collection
access configuration (capabilities, owner field, row-level policies) that is read with it.

A column's coarse storage class (`columnClass`) is read off its SQL type by substring,
the way SQLite derives an affinity. The three system columns `id`, `created_at` and
`updated_at` are always there and are classified by name (`fieldClass`).
-/

namespace Drust

/-- The operations a policy or a capability is about. -/
inductive DmlVerb where
  | select
  | insert
  | update
  | delete
  deriving DecidableEq, Repr

/-- A declared column. -/
structure Field where
  name : String
  sqlType : String
  deriving DecidableEq, Repr

/-- A vector column, kept outside the table proper. -/
structure VectorField where
  name : String
  dim : UInt32
  deriving DecidableEq, Repr

/-- A full-text index over some columns. -/
structure FtsIndex where
  name : String
  fields : List String
  tokenizer : String
  deriving DecidableEq, Repr

/-- The policy of one operation: which existing rows it may touch, and which new row it
may leave. -/
structure Policy where
  usingClause : Option FilterAst := none
  checkClause : Option FilterAst := none

/-- The policies of a collection, one per operation. -/
structure CollectionPolicies where
  select : Option Policy := none
  insert : Option Policy := none
  update : Option Policy := none
  delete : Option Policy := none

/-- The policy of an operation. -/
def CollectionPolicies.get (ps : CollectionPolicies) : DmlVerb → Option Policy
  | .select => ps.select
  | .insert => ps.insert
  | .update => ps.update
  | .delete => ps.delete

/-- What the query layer knows of a collection. -/
structure CollectionSchema where
  name : String
  fields : List Field
  anonCaps : Finset DmlVerb := {.select}
  userCaps : Finset DmlVerb := {.select}
  ownerField : Option String := none
  readScope : Option String := none
  vectorFields : List VectorField := []
  ftsIndexes : List FtsIndex := []
  policies : CollectionPolicies := {}

/-! ### Storage classes -/

/-- The two classes whose values are never compared with one another. -/
inductive StorageClass where
  | num
  | text
  deriving DecidableEq, Repr

/-- Whether a text occurs in another. -/
def occursIn (needle hay : String) : Bool :=
  decide (needle.toList <:+: hay.toList)

/-- The text with its ASCII letters in upper case. -/
def toAsciiUppercase (s : String) : String :=
  .ofList (s.toList.map Char.toUpper)

/-- The class of a column's declared type; a blob has none. -/
def columnClass (sqlType : String) : Option StorageClass :=
  let t := toAsciiUppercase sqlType
  if occursIn "INT" t || occursIn "REAL" t || occursIn "FLOA" t || occursIn "DOUB" t then some .num
  else if occursIn "CHAR" t || occursIn "TEXT" t || occursIn "CLOB" t then some .text
  else none

/-- The class of a column by name, the system columns included. -/
def fieldClass (schema : CollectionSchema) (field : String) : Option StorageClass :=
  match field with
  | "id" => some .num
  | "created_at" => some .text
  | "updated_at" => some .text
  | _ => (schema.fields.find? (fun f => f.name == field)).bind (fun f => columnClass f.sqlType)

/-- The columns every collection has. -/
def systemColumns : List String := ["id", "created_at", "updated_at"]

/-- The columns of a collection that hold a scalar. -/
def CollectionSchema.columns (schema : CollectionSchema) : List String :=
  systemColumns ++ schema.fields.map Field.name

/-- The virtual table behind a full-text index. -/
def ftsHeadName (coll index : String) : String :=
  "_system_search_fts$" ++ coll ++ "$" ++ index

end Drust
