import Drust.Query.ListBuilder
import Drust.Query.Policy
import Drust.Rpc.ExecWrite
import Drust.Rpc.QueryTemplate
import Drust.Storage.Catalog
import Drust.Storage.RecordStore

/-!
# Records over REST

The handlers that create, update, delete and list the records of a collection. A handler first
decides on the caller with the cached description of the collection, and prepares the values
it is going to bind. The rest runs in one transaction, which is rolled back when it fails: the
quota, the known fields, the clause that a target has to satisfy, the statement itself, the
clause that the new image has to satisfy, and the row of the history.

One request reads the description several times, from the cache and from the database. Here all
of these readings return the same (`Site.description`).
-/

namespace Drust

open Sql RecordStore RecordHistory
open QueryTemplate (isProtectedCollection)
open ExecWrite (checkTenantQuota QuotaExceeded)

/-! ### Callers -/

inductive TokenRole where
  | anon
  | user
  | service
  deriving DecidableEq

/-- The role that comes with an identity. -/
def AuthCtx.role : AuthCtx → TokenRole
  | .anon => .anon
  | .service _ => .service
  | .user _ _ => .user

/-- The owner field opens an operation to a user when the owner clause restricts it. -/
def hasDmlCap (role : TokenRole) (verb : DmlVerb) (d : CollectionDescription) : Bool :=
  match role with
  | .service => true
  | .user =>
    d.ownerField.isSome && (verb != .select || d.readScope == some "own") ||
      decide (verb ∈ d.userCaps)
  | .anon => decide (verb ∈ d.anonCaps)

namespace RecordHistory

def AuditActor.fromAuthCtx : AuthCtx → AuditActor
  | .anon => { kind := "anon", id := none, hint := none }
  | .service adminId => { kind := "service", id := adminId.map toString, hint := none }
  | .user userId tokenHash =>
    { kind := "user", id := some userId,
      hint := if tokenHash = "" then none else some (String.ofList (tokenHash.toList.take 12)) }

/-- Write a row of the history, where the audit is on. -/
def capture (coll : String) (op : HistoryOp) (recordId : Int64) (old new : Option Json.Map)
    (actor : AuditActor) (auditEnabled : Bool) (db : Db) : Db :=
  let row : HistoryRow :=
    { collection := coll, recordId := recordId, op := op, oldJson := old.map .object,
      newJson := new.map .object, actor := actor }
  if auditEnabled then { db with history := db.history ++ [row] } else db

/-- The row before the change, if the caller may touch it. -/
def selectRowJsonOwner (columns vectorNames : List String) (db : Db) (id : Int64)
    (owner : Option (String × String)) : Option Json.Map :=
  (findTarget db id owner).map (materializeRow columns vectorNames)

end RecordHistory

namespace Records

/-! ### Vectors -/

inductive VectorCodecError where
  | dimMismatch (field : String) (expected : UInt32) (got : Nat)
  | notNumeric (field : String) (index : Nat)
  | notArray (field : String)
  deriving DecidableEq

section Vectors

-- `f32Bytes` is the conversion to single precision
variable (f32Bytes : Binary64 → List UInt8)

/-- The elements of an array. A JSON number is finite. -/
def packElements (field : String) (index : Nat) : List Json → Except VectorCodecError (List UInt8)
  | [] => .ok []
  | .number n :: rest => do
    let bytes ← packElements field (index + 1) rest
    .ok (f32Bytes n.asF64 ++ bytes)
  | _ :: _ => .error (.notNumeric field index)

def pack (field : String) (dim : UInt32) (v : Json) : Except VectorCodecError (List UInt8) :=
  match v.asArray with
  | none => .error (.notArray field)
  | some arr =>
    if arr.length ≠ dim.toNat then .error (.dimMismatch field dim arr.length)
    else packElements f32Bytes field 0 arr

/-- The bytes of the vectors among the values. -/
def preEncodeVectors (data : Json.Map) :
    List VectorField → Except VectorCodecError (List (String × List UInt8))
  | [] => .ok []
  | vf :: rest =>
    match data.get vf.name with
    | none => preEncodeVectors data rest
    | some v => do
      let bytes ← pack f32Bytes vf.name vf.dim v
      let out ← preEncodeVectors data rest
      .ok ((vf.name, bytes) :: out)

end Vectors

/-! ### Requests -/

/-- What a request finds besides the rows. -/
structure Site where
  coll : String
  /-- The description of the collection. -/
  description : Except SqlError (Option CollectionDescription)
  engine : Sqlite
  /-- The quota tier of the tenant. -/
  tier : Int
  now : String
  /-- The text of an array or an object. -/
  printJson : Json → String
  /-- The number that a text is. -/
  parseF64 : String → Option Binary64
  f32Bytes : Binary64 → List UInt8

/-- The body of a write. A parsed object has each key once. -/
structure DataBody where
  data : Json
  distinct : ∀ m : Json.Map, data = .object m → (m.map Prod.fst).Nodup

/-- The names of the columns. -/
def columnNames (d : CollectionDescription) : List String :=
  d.fields.map fun f => f.name

def vectorNames (d : CollectionDescription) : List String :=
  d.vectorFields.map VectorField.name

def jsonToSqlValue (printJson : Json → String) : Json → Value
  | .null => .null
  | .bool b => .integer (if b then 1 else 0)
  | .number n =>
    match n.asI64 with
    | some i => .integer i
    | none => .real n.asF64
  | .string s => .text s
  | v => .text (printJson v)

/-- The values as they are bound. -/
def bindValues (printJson : Json → String) (vectorBytes : List (String × List UInt8))
    (data : Json.Map) : List (String × Value) :=
  data.map fun kv =>
    (kv.1, match vectorBytes.lookup kv.1 with
      | some bytes => .blob bytes
      | none => jsonToSqlValue printJson kv.2)

/-- A key that is no column. -/
def unknownKey (d : CollectionDescription) (data : Json.Map) : Option String :=
  (data.map Prod.fst).find? fun k => !(columnNames d).contains k

/-- The owner that a write is restricted to. -/
def computeOwnerWriteFilter (ctx : AuthCtx) (d : CollectionDescription) :
    Option (String × String) :=
  match ctx, d.ownerField with
  | .user userId _, some field => some (field, userId)
  | _, _ => none

/-- A user's new row belongs to the user, whatever the body says. -/
def stampOwner (ctx : AuthCtx) (d : CollectionDescription) (data : Json.Map) : Json.Map :=
  match d.ownerField, ctx with
  | some field, .user userId _ => data.insert field (.string userId)
  | _, _ => data

/-- The body has a text for the field that is not empty. -/
def suppliesOwner (field : String) (data : Json.Map) : Bool :=
  match (data.get field).bind Json.asStr with
  | some s => s != ""
  | none => false

/-! ### The transaction -/

/-- What is wrong with the values of a write. -/
inductive InvalidInput where
  | unknownCollection (coll : String)
  | unknownField (field coll : String)
  /-- Code `OWNER_FIELD_REQUIRED`. -/
  | ownerFieldRequired (field coll : String)
  /-- Code `CHECK_CONSTRAINT_FAILED`: ".. must be >= ..". -/
  | belowMin (field : String) (min : Binary64)
  /-- ".. must be <= ..". -/
  | aboveMax (field : String) (max : Binary64)
  /-- ".. not in enum". -/
  | notInEnum (field : String)
  /-- ".. exceeds max_length ..". -/
  | exceedsMaxLength (field : String) (len : UInt32)
  /-- The `CHECK` of the table. -/
  | nativeCheck
  deriving DecidableEq

/-- Why a transaction is rolled back. -/
inductive TxError where
  | sqlite (why : SqlFailure)
  | describe (why : SqlError)
  | quotaExceeded (why : QuotaExceeded)
  | invalidQuery
  | invalidInput (why : InvalidInput)
  | queryReturnedNoRows
  /-- The new image fails the policy. -/
  | policyCheck

/-- Run a body, and commit what it leaves unless it fails. -/
def withWriterTx {α : Type} (db : Db) (body : Db → Except TxError (α × Db)) : Except TxError α × Db :=
  match body db with
  | .ok (a, db') => (.ok a, db')
  | .error e => (.error e, db)

section Transaction

variable (site : Site)

def execute {α : Type} (x : Except SqlFailure α) : Except TxError α :=
  x.mapError .sqlite

/-- Read the description again. -/
def describeInTx (missing : TxError) : Except TxError CollectionDescription :=
  match site.description with
  | .error e => .error (.describe e)
  | .ok none => .error missing
  | .ok (some d) => .ok d

def quotaGate (violation : Option QuotaExceeded) : Except TxError Unit :=
  match violation with
  | some q => .error (.quotaExceeded q)
  | none => .ok ()

/-- Refuse an update that both grew the tenant and left it over the cap. -/
def checkUpdateGrowth (before : Nat) (db : Db) : Except TxError Unit := do
  let after ← execute (site.engine.usage db)
  if after ≤ before then .ok () else quotaGate (checkTenantQuota after 0 site.tier)

/-- The clause of the policy on the new image. -/
def enforceCheck (check : Option FilterAst) (authId : Option String) (record : Json.Map) :
    Except TxError Unit :=
  match check with
  | none => .ok ()
  | some ast =>
    if Policy.evalPolicy ast record { authId := authId, data := some record } then .ok ()
    else .error .policyCheck

/-- The row satisfies the clause. -/
def usingPreflight (d : CollectionDescription) (db : Db) (id : Int64) :
    Option Compiled → Except TxError Bool
  | none => .ok true
  | some clause => execute (selectOne site.engine (columnNames d) db id clause)

end Transaction

/-! ### Writing -/

inductive RestError where
  /-- `404 NOT_FOUND`. -/
  | notFound (coll : String)
  /-- `500 DB_ERROR`. -/
  | dbError (why : SqlError)
  /-- `403 ANON_FORBIDDEN_OWNER_SCOPED`. -/
  | anonForbiddenOwnerScoped
  /-- `403 ANON_CAP_DENIED`. -/
  | anonCapDenied (role : TokenRole) (verb : DmlVerb) (coll : String)
  /-- `409 OWNER_FIELD_REQUIRED`. -/
  | ownerFieldRequired (coll field : String)
  /-- `400 TYPE_MISMATCH`. -/
  | typeMismatch (message : String)
  /-- `422`, with the code of the vector error. -/
  | vector (why : VectorCodecError)
  /-- `500 POLICY_COMPILE_ERROR`. -/
  | policyCompileError (why : PolicyError)
  /-- `507 TENANT_QUOTA_EXCEEDED`. -/
  | tenantQuotaExceeded (why : QuotaExceeded)
  /-- `403 POLICY_CHECK_FAILED`. -/
  | policyCheckFailed
  /-- `400 CHECK_CONSTRAINT_FAILED`. -/
  | checkConstraintFailed
  /-- `400 FIELD_NOT_FOUND`. -/
  | fieldNotFound
  /-- `404 no such record`. -/
  | noSuchRecord
  /-- `400`, with the text of the error. -/
  | badRequest (why : TxError)
  /-- `500`, with the text of the error. -/
  | internal (why : TxError)
  /-- The response of `map_list_error`. -/
  | list (why : ListError)
  /-- `400 FTS_QUERY_INVALID`. -/
  | ftsQueryInvalid (why : SqlFailure)
  /-- `500 DB_ERROR` of a list. -/
  | listDb (why : SqlFailure)

/-- The response to a failed insert or update. -/
def RestError.ofTx : TxError → RestError
  | .quotaExceeded q => .tenantQuotaExceeded q
  | .queryReturnedNoRows => .noSuchRecord
  | .policyCheck => .policyCheckFailed
  | .sqlite .check => .checkConstraintFailed
  | .invalidQuery => .fieldNotFound
  | e => .badRequest e

section Writing

variable (site : Site) (ctx : AuthCtx)

def requireWriteCap (verb : DmlVerb) : Except RestError CollectionDescription :=
  if isProtectedCollection site.coll then .error (.notFound site.coll)
  else match site.description with
    | .error e => .error (.dbError e)
    | .ok none => .error (.notFound site.coll)
    | .ok (some d) =>
      if ctx = .anon ∧ d.ownerField.isSome then .error .anonForbiddenOwnerScoped
      else if hasDmlCap ctx.role verb d then .ok d
      else .error (.anonCapDenied ctx.role verb site.coll)

/-- A service token says whose row it is. -/
def requireOwner (d : CollectionDescription) (data : Json) : Except RestError Unit :=
  match d.ownerField, ctx with
  | some field, .service _ =>
    match data with
    | .object m =>
      if suppliesOwner field m then .ok () else .error (.ownerFieldRequired site.coll field)
    | _ => .error (.ownerFieldRequired site.coll field)
  | _, _ => .ok ()

def requireObject : Json → Except RestError Json.Map
  | .object m => .ok m
  | _ => .error (.typeMismatch "data must be object")

/-- What the transaction of a write is given. -/
structure WritePlan where
  data : Json.Map
  vectorBytes : List (String × List UInt8)
  vectorNames : List String
  owner : Option (String × String) := none
  usingSql : Option Compiled := none
  check : Option FilterAst

def createPlan (body : DataBody) : Except RestError WritePlan := do
  let d ← requireWriteCap site ctx .insert
  requireOwner site ctx d body.data
  let data ← requireObject body.data
  let data := stampOwner ctx d data
  let bytes ← (preEncodeVectors site.f32Bytes data d.vectorFields).mapError .vector
  .ok { data := data, vectorBytes := bytes, vectorNames := vectorNames d,
        check := Policy.effectivePolicyCheck ctx d.schema .insert }

/-- The id in a record, or else that of the row. -/
def recordId (record : Json.Map) (row : RecordStore.Row) : Int64 :=
  match record.get "id" with
  | some (.number n) => n.asI64.getD row.id
  | _ => row.id

def createTx (p : WritePlan) (db : Db) : Except TxError ((Int64 × Json.Map) × Db) := do
  let usage ← execute (site.engine.usage db)
  quotaGate (checkTenantQuota usage 0 site.tier)
  let d ← describeInTx site .invalidQuery
  match unknownKey d p.data with
  | some _ => .error .invalidQuery
  | none =>
    let (row, db) ← execute
      (insertRow site.engine db (bindValues site.printJson p.vectorBytes p.data))
    let record := (rowToJson (columnNames d) row).filter fun kv => !p.vectorNames.contains kv.1
    let id := recordId record row
    enforceCheck p.check ctx.userId record
    .ok ((id, record),
      capture site.coll .insert id none (some record) (.fromAuthCtx ctx) d.auditEnabled db)

def createHandler (body : DataBody) (db : Db) : Except RestError (Int64 × Json.Map) × Db :=
  match createPlan site ctx body with
  | .error e => (.error e, db)
  | .ok p =>
    let out := withWriterTx db (createTx site ctx p)
    (out.1.mapError .ofTx, out.2)

/-- A user cannot give a row away. -/
def stripOwner (d : CollectionDescription) (data : Json.Map) : Json.Map :=
  match ctx, d.ownerField with
  | .user _ _, some field => AssocList.shiftRemove data field
  | _, _ => data

def updatePlan (body : DataBody) : Except RestError WritePlan := do
  let d ← requireWriteCap site ctx .update
  let usingSql ← (Policy.policyUsingSql ctx d.schema .update).mapError .policyCompileError
  let data ← requireObject body.data
  let data := stripOwner ctx d data
  if data.isEmpty then .error (.typeMismatch "data must have at least one field")
  else do
    let bytes ← (preEncodeVectors site.f32Bytes data d.vectorFields).mapError .vector
    .ok { data := data, vectorBytes := bytes, vectorNames := vectorNames d,
          owner := computeOwnerWriteFilter ctx d, usingSql := usingSql,
          check := Policy.effectivePolicyCheck ctx d.schema .update }

/-- The row before an update. -/
def preImage (d : CollectionDescription) (vectorNames : List String) (db : Db) (id : Int64)
    (owner : Option (String × String)) : Option Json.Map :=
  if d.auditEnabled then selectRowJsonOwner (columnNames d) vectorNames db id owner else none

def updateTx (id : Int64) (p : WritePlan) (db : Db) : Except TxError (Json.Map × Db) := do
  let before ← execute (site.engine.usage db)
  let d ← describeInTx site .invalidQuery
  match unknownKey d p.data with
  | some _ => .error .invalidQuery
  | none =>
    if !(← usingPreflight site d db id p.usingSql) then .error .queryReturnedNoRows
    else
      let old := preImage d p.vectorNames db id p.owner
      match ← execute (updateRow site.engine site.now db id p.owner
        (bindValues site.printJson p.vectorBytes p.data)) with
      | none => .error .queryReturnedNoRows
      | some (row, db) =>
        let record := (rowToJson (columnNames d) row).filter fun kv => !p.vectorNames.contains kv.1
        enforceCheck p.check ctx.userId record
        let db := capture site.coll .update id old (some record) (.fromAuthCtx ctx) d.auditEnabled db
        checkUpdateGrowth site before db
        .ok (record, db)

def updateHandler (id : Int64) (body : DataBody) (db : Db) : Except RestError Json.Map × Db :=
  match updatePlan site ctx body with
  | .error e => (.error e, db)
  | .ok p =>
    let out := withWriterTx db (updateTx site ctx id p)
    (out.1.mapError .ofTx, out.2)

/-- The number of rows that are deleted. -/
def deleteTx (d : CollectionDescription) (id : Int64) (owner : Option (String × String))
    (usingSql : Option Compiled) (db : Db) : Except TxError (Nat × Db) := do
  if !(← usingPreflight site d db id usingSql) then .ok (0, db)
  else
    let old := preImage d (vectorNames d) db id owner
    let (n, db) ← execute (deleteRow site.engine db id owner)
    if 0 < n then
      .ok (n, capture site.coll .delete id old none (.fromAuthCtx ctx) d.auditEnabled db)
    else .ok (n, db)

def deletePlan : Except RestError (CollectionDescription × Option Compiled) := do
  let d ← requireWriteCap site ctx .delete
  let usingSql ← (Policy.policyUsingSql ctx d.schema .delete).mapError .policyCompileError
  .ok (d, usingSql)

/-- Delete a record, without `dry_run`. -/
def deleteHandler (id : Int64) (db : Db) : Except RestError Unit × Db :=
  match deletePlan site ctx with
  | .error e => (.error e, db)
  | .ok (d, usingSql) =>
    match withWriterTx db (deleteTx site ctx d id (computeOwnerWriteFilter ctx d) usingSql) with
    | (.error e, db) => (.error (.internal e), db)
    | (.ok n, db) => if n = 0 then (.error .noSuchRecord, db) else (.ok (), db)

end Writing

/-! ### Listing -/

/-- Whether the grant of a stored query replaces the capabilities of the caller. -/
inductive CapMode where
  | collection
  | rpcGrant
  deriving DecidableEq

section Listing

variable (site : Site) (ctx : AuthCtx)

/-- The owner that a list is restricted to. A grant never opens a collection whose rows are
owned, unless the owner clause restricts it. -/
def readOwner (cap : CapMode) (d : CollectionDescription) :
    Except RestError (Option (String × String)) :=
  match ctx, d.ownerField with
  | .service _, _ => .ok none
  | .anon, some _ => .error .anonForbiddenOwnerScoped
  | .anon, none =>
    if cap = .collection ∧ .select ∉ d.anonCaps then
      .error (.anonCapDenied .anon .select site.coll)
    else .ok none
  | .user userId _, some field =>
    if d.readScope = some "own" then .ok (some (field, userId))
    else if .select ∉ d.userCaps then .error (.anonCapDenied .user .select site.coll)
    else .ok none
  | .user _ _, none =>
    if cap = .collection ∧ .select ∉ d.userCaps then
      .error (.anonCapDenied .user .select site.coll)
    else .ok none

def computeReadAuthInner (cap : CapMode) (d : CollectionDescription) :
    Except RestError (Option (String × String) × Option Compiled) := do
  let owner ← readOwner site ctx cap d
  let policyClause ← (Policy.policyUsingSql ctx d.schema .select).mapError .policyCompileError
  .ok (owner, policyClause)

structure ListPage where
  records : List Json.Map
  total : Int64
  page : UInt32
  perPage : UInt32

/-- A row of a result as an object. -/
def rowObject (row : List (String × Value)) : Json.Map :=
  row.foldl (fun obj nv => obj.insert nv.1 (valueJson nv.2)) []

/-- The records without their vectors. -/
def hideVectors (d : CollectionDescription) (rows : List (List (String × Value))) :
    List Json.Map :=
  rows.map fun row => (rowObject row).filter fun kv => !(vectorNames d).contains kv.1

/-- The first column of the first row. -/
def countResult : List (List (String × Value)) → Except SqlFailure Int64
  | ((_, .integer n) :: _) :: _ => .ok n
  | _ => .error .other

/-- Run the count statement. -/
def runCount (db : Db) (sql : ListSql) : Except SqlFailure Int64 := do
  let rows ← site.engine.select db sql.countSql sql.binds
  countResult rows

/-- Run the probes one after the other. -/
def probeFtsQueries (db : Db) : List VectorFilter.FtsProbe → Except SqlFailure Unit
  | [] => .ok ()
  | p :: ps => do
    let _ ← site.engine.select db p.sql [.text p.query]
    probeFtsQueries db ps

/-- The probes of a request. -/
def requestProbes (d : CollectionDescription) (req : ListRequest) : List VectorFilter.FtsProbe :=
  match req.filter with
  | some ast => VectorFilter.ftsProbes d.schema ast
  | none => []

def runStructuredListInner (cap : CapMode) (req : ListRequest) (db : Db) :
    Except RestError ListPage :=
  if isProtectedCollection site.coll then .error (.notFound site.coll)
  else match site.description with
    | .error e => .error (.dbError e)
    | .ok none => .error (.notFound site.coll)
    | .ok (some d) => do
      let (owner, policyClause) ← computeReadAuthInner site ctx cap d
      let sql ← (ListBuilder.buildStructuredListSql d.schema req owner policyClause).mapError .list
      (probeFtsQueries site db (requestProbes d req)).mapError .ftsQueryInvalid
      let rows ← (site.engine.select db sql.listSql sql.binds).mapError .listDb
      let total ← (runCount site db sql).mapError .listDb
      .ok { records := hideVectors d rows, total := total, page := req.page.getD 1,
            perPage := req.perPage.getD 20 }

def postList (req : ListRequest) (db : Db) : Except RestError ListPage :=
  if isProtectedCollection site.coll then .error (.notFound site.coll)
  else runStructuredListInner site ctx .collection req db

end Listing

end Records

end Drust
