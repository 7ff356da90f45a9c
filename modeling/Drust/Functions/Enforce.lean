import Drust.Tenant.Records

/-!
# The enforcement core of edge functions

The data plane that an edge function sees, under the identity of its caller. Its decisions are
written once more, and the statements are those of the MCP tools: these check the constraints of
the fields before the statement runs, read the description once more, and report a missing record
in their own way, which the core maps to one shape.
-/

namespace Drust.Enforce

open Sql RecordStore RecordHistory Records
open QueryTemplate (isProtectedCollection)
open ExecWrite (checkTenantQuota)

inductive EdgeError where
  /-- Code `NOT_FOUND`. -/
  | notFound (coll : String)
  | dbError (why : SqlError)
  /-- Code `ANON_FORBIDDEN_OWNER_SCOPED`. -/
  | anonForbiddenOwnerScoped
  /-- Code `ANON_CAP_DENIED`. -/
  | anonCapDenied (role : TokenRole) (verb : DmlVerb) (coll : String)
  /-- Code `OWNER_FIELD_REQUIRED`. -/
  | ownerFieldRequired (field : String)
  /-- Code `TYPE_MISMATCH`: "data must have at least one field". -/
  | typeMismatch
  /-- "data must be object". -/
  | dataMustBeObject
  /-- "data must have at least one field". -/
  | dataEmpty
  /-- Code `PROTECTED_COLLECTION`. -/
  | protectedCollection
  /-- "unknown collection: ..". -/
  | unknownCollection (coll : String)
  | vector (why : VectorCodecError)
  | policy (why : PolicyError)
  /-- Code `RECORD_NOT_FOUND`. -/
  | recordNotFound
  | tx (why : TxError)
  | list (why : ListError)
  | listDb (why : SqlFailure)

/-! ### Constraints -/

/-- A number, or a Boolean as the integer that it is stored as. -/
def asNum : Json → Option Binary64
  | .number n => some n.asF64
  | .bool b => some (Json.Number.asF64 (.posInt (if b then 1 else 0)))
  | _ => none

section Constraints

-- `parseF64` reads a text as a number
variable (parseF64 : String → Option Binary64)

def checkMin (field : String) (min : Option Binary64) (v : Json) : Except InvalidInput Unit :=
  match asNum v, min with
  | some n, some min => if Binary64.cmp n min = .lt then .error (.belowMin field min) else .ok ()
  | _, _ => .ok ()

def checkMax (field : String) (max : Option Binary64) (v : Json) : Except InvalidInput Unit :=
  match asNum v, max with
  | some n, some max => if Binary64.cmp n max = .gt then .error (.aboveMax field max) else .ok ()
  | _, _ => .ok ()

/-- A value of another shape than the column is left to the engine. -/
def inEnum (sqlType : String) (allowed : List String) (v : Json) : Bool :=
  if sqlType ∈ ["integer", "real", "boolean"] then
    match asNum v with
    | some n => allowed.any fun e => parseF64 e == some n
    | none => true
  else
    match v.asStr with
    | some s => allowed.contains s
    | none => true

def checkEnum (f : FieldInfo) (allowed : Option (List String)) (v : Json) :
    Except InvalidInput Unit :=
  match allowed with
  | some allowed => if inEnum parseF64 f.sqlType allowed v then .ok () else .error (.notInEnum f.name)
  | none => .ok ()

def checkLength (field : String) (maxLength : Option UInt32) (v : Json) :
    Except InvalidInput Unit :=
  match v.asStr, maxLength with
  | some s, some len =>
    if len < UInt32.ofNat s.length then .error (.exceedsMaxLength field len) else .ok ()
  | _, _ => .ok ()

def checkValue (f : FieldInfo) (c : FieldConstraints) (v : Json) : Except InvalidInput Unit := do
  checkMin f.name c.min v
  checkMax f.name c.max v
  checkEnum parseF64 f c.enumValues v
  checkLength f.name c.maxLength v

/-- The constraints of the fields that the values set. -/
def checkConstraints (data : Json.Map) : List FieldInfo → Except InvalidInput Unit
  | [] => .ok ()
  | f :: rest =>
    match f.constraints, data.get f.name with
    | some c, some v =>
      if v = .null then checkConstraints data rest
      else do
        checkValue parseF64 f c v
        checkConstraints data rest
    | _, _ => checkConstraints data rest

end Constraints

/-! ### The writers -/

section Writers

variable (site : Site)

/-- The first reading of a writer. -/
def describeOutside : Except EdgeError CollectionDescription :=
  match site.description with
  | .error e => .error (.dbError e)
  | .ok none => .error (.unknownCollection site.coll)
  | .ok (some d) => .ok d

def requireObject : Json → Except EdgeError Json.Map
  | .object m => .ok m
  | _ => .error .dataMustBeObject

/-- The fields and the constraints of the values. -/
def validateFields (d : CollectionDescription) (data : Json.Map) : Except TxError Unit :=
  match unknownKey d data with
  | some k => .error (.invalidInput (.unknownField k site.coll))
  | none => (checkConstraints site.parseF64 data d.fields).mapError .invalidInput

/-- A `CHECK` that fails is reported as an invalid input. -/
def mapCheckViolation {α : Type} : Except SqlFailure α → Except TxError α
  | .error .check => .error (.invalidInput .nativeCheck)
  | .error e => .error (.sqlite e)
  | .ok a => .ok a

structure EdgePlan where
  data : Json.Map
  vectorBytes : List (String × List UInt8)
  vectorNames : List String
  owner : Option (String × String) := none
  usingSql : Option Compiled := none
  check : Option FilterAst
  authId : Option String
  actor : AuditActor

/-- A row of an owned collection has an owner. -/
def requireOwnerInTx (d : CollectionDescription) (data : Json.Map) : Except TxError Unit :=
  match d.ownerField with
  | some field =>
    if suppliesOwner field data then .ok ()
    else .error (.invalidInput (.ownerFieldRequired field site.coll))
  | none => .ok ()

def insertRowInTx (d : CollectionDescription) (p : EdgePlan) (db : Db) :
    Except TxError ((Int64 × Json.Map) × Db) := do
  let usage ← execute (site.engine.usage db)
  quotaGate (checkTenantQuota usage 0 site.tier)
  requireOwnerInTx site d p.data
  validateFields site d p.data
  let (row, db) ← mapCheckViolation
    (insertRow site.engine db (bindValues site.printJson p.vectorBytes p.data))
  let record := materializeRow (columnNames d) p.vectorNames row
  let id := recordId record row
  enforceCheck p.check p.authId record
  .ok ((id, record), capture site.coll .insert id none (some record) p.actor d.auditEnabled db)

/-- The first part of a writer: the values and their vectors. -/
def prepare (data : Json) : Except EdgeError (Json.Map × CollectionDescription) := do
  if isProtectedCollection site.coll then .error .protectedCollection
  else do
    let m ← requireObject data
    let d ← describeOutside site
    .ok (m, d)

/-- What the transaction of an insertion is given. -/
def insertPlan (data : Json) (check : Option FilterAst) (authId : Option String)
    (actor : AuditActor) : Except EdgeError EdgePlan := do
  let (m, d) ← prepare site data
  let bytes ← (preEncodeVectors site.f32Bytes m d.vectorFields).mapError .vector
  .ok { data := m, vectorBytes := bytes, vectorNames := vectorNames d, check := check,
        authId := authId, actor := actor }

def insertInTx (p : EdgePlan) (db : Db) : Except TxError ((Int64 × Json.Map) × Db) := do
  let d ← describeInTx site (.invalidInput (.unknownCollection site.coll))
  insertRowInTx site d p db

def insertRecordChecked (data : Json) (check : Option FilterAst) (authId : Option String)
    (actor : AuditActor) (db : Db) : Except EdgeError (Int64 × Json.Map) × Db :=
  match insertPlan site data check authId actor with
  | .error e => (.error e, db)
  | .ok p =>
    let out := withWriterTx db (insertInTx site p)
    (out.1.mapError .tx, out.2)

def updateInTx (id : Int64) (p : EdgePlan) (db : Db) : Except TxError (Json.Map × Db) := do
  let before ← execute (site.engine.usage db)
  let d ← describeInTx site (.invalidInput (.unknownCollection site.coll))
  validateFields site d p.data
  if !(← usingPreflight site d db id p.usingSql) then .error .queryReturnedNoRows
  else
    let old := preImage d p.vectorNames db id p.owner
    match ← mapCheckViolation (updateRow site.engine site.now db id p.owner
      (bindValues site.printJson p.vectorBytes p.data)) with
    | none => .error .queryReturnedNoRows
    | some (row, db) =>
      let record := materializeRow (columnNames d) p.vectorNames row
      enforceCheck p.check p.authId record
      let db := capture site.coll .update id old (some record) p.actor d.auditEnabled db
      checkUpdateGrowth site before db
      .ok (record, db)

/-- What the transaction of an update is given. -/
def updatePlan (data : Json) (owner : Option (String × String)) (usingSql : Option Compiled)
    (check : Option FilterAst) (authId : Option String) (actor : AuditActor) :
    Except EdgeError EdgePlan := do
  let (m, d) ← prepare site data
  if m.isEmpty then .error .dataEmpty
  else do
    let bytes ← (preEncodeVectors site.f32Bytes m d.vectorFields).mapError .vector
    .ok { data := m, vectorBytes := bytes, vectorNames := vectorNames d, owner := owner,
          usingSql := usingSql, check := check, authId := authId, actor := actor }

def updateRecordChecked (id : Int64) (data : Json) (owner : Option (String × String))
    (usingSql : Option Compiled) (check : Option FilterAst) (authId : Option String)
    (actor : AuditActor) (db : Db) : Except EdgeError Json.Map × Db :=
  match updatePlan site data owner usingSql check authId actor with
  | .error e => (.error e, db)
  | .ok p =>
    let out := withWriterTx db (updateInTx site id p)
    (out.1.mapError .tx, out.2)

/-- The gate of the history and the vectors; a missing collection has neither. -/
def deleteProjection : Except TxError (Bool × List String × List String) :=
  match site.description with
  | .error e => .error (.describe e)
  | .ok none => .ok (false, [], [])
  | .ok (some d) => .ok (d.auditEnabled, columnNames d, vectorNames d)

def deleteInTx (id : Int64) (owner : Option (String × String)) (usingSql : Option Compiled)
    (actor : AuditActor) (db : Db) : Except TxError (Nat × Db) := do
  let (auditOn, columns, vectors) ← deleteProjection site
  let found ← match usingSql with
    | none => .ok true
    | some clause => execute (selectOne site.engine columns db id clause)
  if !found then .ok (0, db)
  else
    let old := if auditOn then selectRowJsonOwner columns vectors db id owner else none
    let (n, db) ← execute (deleteRow site.engine db id owner)
    if 0 < n then .ok (n, capture site.coll .delete id old none actor auditOn db)
    else .ok (n, db)

/-- Whether a record was deleted. -/
def deleteRecordFiltered (id : Int64) (owner : Option (String × String))
    (usingSql : Option Compiled) (actor : AuditActor) (db : Db) : Except EdgeError Bool × Db :=
  if isProtectedCollection site.coll then (.error .protectedCollection, db)
  else
    match withWriterTx db (deleteInTx site id owner usingSql actor) with
    | (.error e, db) => (.error (.tx e), db)
    | (.ok n, db) => (.ok (decide (n ≠ 0)), db)

end Writers

/-! ### The core -/

section Core

variable (site : Site) (ctx : AuthCtx)

def loadSchema : Except EdgeError CollectionDescription :=
  if isProtectedCollection site.coll then .error (.notFound site.coll)
  else match site.description with
    | .error e => .error (.dbError e)
    | .ok none => .error (.notFound site.coll)
    | .ok (some d) => .ok d

/-- The refusals that come before a write. -/
def gateWrite (verb : DmlVerb) : Except EdgeError CollectionDescription := do
  let d ← loadSchema site
  if ctx = .anon ∧ d.ownerField.isSome then .error .anonForbiddenOwnerScoped
  else if hasDmlCap ctx.role verb d then .ok d
  else .error (.anonCapDenied ctx.role verb site.coll)

/-- A service token says whose row it is; a user's row is the user's. -/
def settleOwner (d : CollectionDescription) (data : Json) : Except EdgeError Json :=
  match d.ownerField, ctx with
  | some field, .service _ =>
    match data with
    | .object m => if suppliesOwner field m then .ok data else .error (.ownerFieldRequired field)
    | _ => .error (.ownerFieldRequired field)
  | some field, .user userId _ =>
    match data with
    | .object m => .ok (.object (Json.Map.insert m field (.string userId)))
    | _ => .ok data
  | _, _ => .ok data

def insertDecision (body : DataBody) : Except EdgeError (CollectionDescription × Json) := do
  let d ← gateWrite site ctx .insert
  let data ← settleOwner ctx d body.data
  .ok (d, data)

def enforcedInsert (body : DataBody) (db : Db) : Except EdgeError (Int64 × Json.Map) × Db :=
  match insertDecision site ctx body with
  | .error e => (.error e, db)
  | .ok (d, data) =>
    insertRecordChecked site data (Policy.effectivePolicyCheck ctx d.schema .insert) ctx.userId
      (.fromAuthCtx ctx) db

/-- Take the owner out of a user's values. The last entry takes its place. -/
def stripOwner (d : CollectionDescription) (data : Json) : Json :=
  match ctx, d.ownerField with
  | .user _ _, some field =>
    match data with
    | .object m => .object (AssocList.swapRemove m field)
    | _ => data
  | _, _ => data

/-- The values are an object without a field. -/
def isEmptyObject : Json → Bool
  | .object m => m.isEmpty
  | _ => false

def updateDecision (body : DataBody) :
    Except EdgeError (CollectionDescription × Json × Option Compiled) := do
  let d ← gateWrite site ctx .update
  if isEmptyObject (stripOwner ctx d body.data) then .error .typeMismatch
  else do
    let usingSql ← (Policy.policyUsingSql ctx d.schema .update).mapError .policy
    .ok (d, stripOwner ctx d body.data, usingSql)

/-- A target that is not there is reported like a missing record of a deletion. -/
def normaliseNoRows {α : Type} : Except EdgeError α × Db → Except EdgeError α × Db
  | (.error (.tx .queryReturnedNoRows), db) => (.error .recordNotFound, db)
  | out => out

def enforcedUpdate (id : Int64) (body : DataBody) (db : Db) : Except EdgeError Json.Map × Db :=
  match updateDecision site ctx body with
  | .error e => (.error e, db)
  | .ok (d, data, usingSql) =>
    normaliseNoRows (updateRecordChecked site id data (computeOwnerWriteFilter ctx d) usingSql
      (Policy.effectivePolicyCheck ctx d.schema .update) ctx.userId (.fromAuthCtx ctx) db)

def deleteDecision : Except EdgeError (CollectionDescription × Option Compiled) := do
  let d ← gateWrite site ctx .delete
  let usingSql ← (Policy.policyUsingSql ctx d.schema .delete).mapError .policy
  .ok (d, usingSql)

def enforcedDelete (id : Int64) (db : Db) : Except EdgeError Unit × Db :=
  match deleteDecision site ctx with
  | .error e => (.error e, db)
  | .ok (d, usingSql) =>
    match deleteRecordFiltered site id (computeOwnerWriteFilter ctx d) usingSql (.fromAuthCtx ctx)
      db with
    | (.error e, db) => (.error e, db)
    | (.ok deleted, db) => if deleted then (.ok (), db) else (.error .recordNotFound, db)

/-- The owner that a list is restricted to. -/
def listOwner (d : CollectionDescription) : Except EdgeError (Option (String × String)) :=
  match ctx, d.ownerField, d.readScope with
  | .service _, _, _ => .ok none
  | .anon, some _, _ => .error .anonForbiddenOwnerScoped
  | .anon, none, _ =>
    if .select ∉ d.anonCaps then .error (.anonCapDenied .anon .select site.coll) else .ok none
  | .user userId _, some field, some "own" => .ok (some (field, userId))
  | .user _ _, some _, some _ =>
    if .select ∉ d.userCaps then .error (.anonCapDenied .user .select site.coll) else .ok none
  | .user _ _, _, _ =>
    if .select ∉ d.userCaps then .error (.anonCapDenied .user .select site.coll) else .ok none

def enforcedList (req : ListRequest) (db : Db) : Except EdgeError ListPage := do
  let d ← loadSchema site
  let owner ← listOwner site ctx d
  let policyClause ← (Policy.policyUsingSql ctx d.schema .select).mapError .policy
  let sql ← (ListBuilder.buildStructuredListSql d.schema req owner policyClause).mapError .list
  let rows ← (site.engine.select db sql.listSql sql.binds).mapError .listDb
  let total ← (runCount site db sql).mapError .listDb
  .ok { records := hideVectors d rows, total := total, page := req.page.getD 1,
        perPage := req.perPage.getD 20 }

end Core

end Drust.Enforce
