import Drust.Mcp.SchemaTools
import Drust.Rpc.Prepare

/-!
# Full-text indexes

An index over text fields of a collection is a virtual table (its head) that keeps no copy of
the rows, and three triggers on the collection that keep it in step. Everything is validated
on a reader (`checkFtsIndex`). The head, the triggers, the first build and the entry of the
registry are one later transaction (`createFtsTx`).
-/

namespace Drust

namespace FtsTools

open SchemaTools (identifier ToolError)
open QueryTemplate (isProtectedCollection)

inductive FtsError where
  | tool (why : ToolError)
  /-- "no such collection: ..". -/
  | noSuchCollection
  /-- `FTS_NAME_RESERVED`. -/
  | nameReserved
  /-- "FTS_FIELD_INVALID: fields must be non-empty". -/
  | noFields
  /-- `FTS_TOKENIZER_INVALID`. -/
  | tokenizerInvalid (tokenizer : String)
  /-- `FTS_INDEX_EXISTS`. -/
  | indexExists (name : String)
  /-- "FTS_FIELD_INVALID: duplicate field .. in index spec". -/
  | duplicateField (field : String)
  /-- "FTS_FIELD_INVALID: .. is a system column". -/
  | systemColumn (field : String)
  /-- "FTS_FIELD_INVALID: field .. does not exist on ..". -/
  | unknownField (field : String)
  /-- "FTS_FIELD_INVALID: field .. is a vector field, not TEXT". -/
  | vectorField (field : String)
  /-- "FTS_FIELD_INVALID: field .. has type ..; only TEXT fields can be fts-indexed". -/
  | notText (field sqlType : String)
  | database (why : SqlError)

def allowedTokenizers : List String := ["trigram", "unicode61"]

/-- The endings that the module and the triggers use. -/
def reservedSuffixes : List String :=
  ["_data", "_idx", "_docsize", "_config", "_content", "_ai", "_ad", "_au"]

def endsWith (suffix s : String) : Bool :=
  suffix.toList.isSuffixOf s.toList

def validateFtsIndexName (name : String) : Except FtsError Unit := do
  (identifier name).mapError .tool
  if reservedSuffixes.any (fun s => endsWith s name) then .error .nameReserved else .ok ()

/-- Letters compare without their case. -/
def isTextType (sqlType : String) : Bool :=
  Prepare.toAsciiLowercase sqlType == "text".toList

/-- The checks of the fields, in order. `seen` has the fields before. -/
def checkFtsFields (d : CollectionDescription) : List String → List String → Except FtsError Unit
  | _, [] => .ok ()
  | seen, f :: fs =>
    if f ∈ seen then .error (.duplicateField f)
    else if f ∈ systemColumns then .error (.systemColumn f)
    else match d.fields.find? (fun field => field.name == f) with
      | none => .error (.unknownField f)
      | some field =>
        if d.vectorFields.any (fun v => v.name == f) then .error (.vectorField f)
        else if !isTextType field.sqlType then .error (.notText f field.sqlType)
        else checkFtsFields d (f :: seen) fs

/-- The checks of a new index. -/
def checkFtsIndex (rd : Reading) (c : Catalog) (coll name : String) (fields : List String)
    (tokenizer : Option String) : Except FtsError FtsIndex := do
  (identifier coll).mapError .tool
  if isProtectedCollection coll then .error .noSuchCollection
  else do
    validateFtsIndexName name
    if fields = [] then .error .noFields
    else
      let tok := tokenizer.getD "trigram"
      if tok ∉ allowedTokenizers then .error (.tokenizerInvalid tok)
      else do
        let described ← (describeCollection rd c coll).mapError .database
        match described with
        | none => .error .noSuchCollection
        | some d =>
          if d.ftsIndexes.any (fun i => i.name == name) then .error (.indexExists name)
          else do
            checkFtsFields d [] fields
            .ok { name := name, fields := fields, tokenizer := tok }

/-- The transaction. The head must be new, and the first build reads the indexed columns of
the collection. -/
def createFtsTx (rd : Reading) (db : TenantDb) (coll : String) (entry : FtsIndex) :
    Except SqlError TenantDb :=
  match db.catalog.tables.lookup coll with
  | none => .error .sqliteFailure
  | some t =>
    if db.heads.contains (coll, entry.name) || !entry.fields.all t.columnNames.contains then
      .error .sqliteFailure
    else do
      let list ← readFtsIndexes rd db.catalog coll
      .ok { db with
        catalog := db.catalog.upsertMeta coll fun m => { m with ftsIndexes := list ++ [entry] }
        heads := (coll, entry.name) :: db.heads }

end FtsTools

end Drust
