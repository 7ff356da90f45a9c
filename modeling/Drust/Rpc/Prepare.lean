import Drust.Rpc.ExecWrite
import Drust.Rpc.QueryTemplate
import Drust.Storage.Catalog

/-!
# Prepare-time checks of stored calls

Before a call with an SQL body is stored, each of its statements is compiled under an
authorizer that matches the mode of the call, and where anonymous callers may use it, under a
second one that records the tables that the statement touches. The same recording is done
again, for every stored call, when a collection gets an owner field or a policy: the body of
a stored call is never rewritten, so neither of them applies to it.

SQLite itself is a parameter (`Sqlite`). Its parser says which tables and columns a statement
names, and compiling the statement fails when one of them is not there. The compiler asks the
authorizer about each access that the statement names, and about those that triggers and
foreign keys add (`induced`). Collections are named in lower case, and `Statement` has the
names that way.

`TenantDb` is what these checks read of a tenant's database. The full-text indexes are those
that exist (`heads`), not those that the registry of a collection lists.
-/

namespace Drust

inductive RpcMode where
  | read
  | write
  deriving DecidableEq, Repr

inductive RpcKind where
  | sql
  | query
  deriving DecidableEq, Repr

/-- A row of `_system_rpc`. The parameters are kept as the text that was submitted. -/
structure RpcRow where
  name : String
  sql : String
  paramsJson : String
  anonCallable : Bool
  mode : RpcMode
  kind : RpcKind
  queryJson : Option String := none
  deriving DecidableEq, Repr

structure StoredRpc where
  name : String
  sql : String
  params : List ParamSpec
  anonCallable : Bool
  mode : RpcMode
  kind : RpcKind
  queryJson : Option String

structure TenantDb where
  catalog : Catalog
  /-- The full-text indexes, by collection and name. -/
  heads : List (String × String)
  /-- The stored calls, in the order of their names. -/
  rpcs : List RpcRow

namespace Prepare

open QueryTemplate (isProtectedCollection startsWith)

/-! ### Search tables -/

def searchPrefix : String := "_system_search_"

def ftsHeadName (coll index : String) : String :=
  "_system_search_fts$" ++ coll ++ "$" ++ index

/-- The tables that the module keeps for an index over the content of another table. -/
def shadowSuffixes : List String := ["_data", "_idx", "_docsize", "_config"]

/-- The search tables that exist: the heads, and the tables that the module keeps for them. -/
structure SearchTables where
  heads : List String
  internals : List String

def SearchTables.isHead (s : SearchTables) (table : String) : Bool :=
  s.heads.contains table

def SearchTables.isInternal (s : SearchTables) (table : String) : Bool :=
  s.internals.contains table

def snapshotSearchTables (heads : List (String × String)) : SearchTables :=
  let names := heads.map fun h => ftsHeadName h.1 h.2
  { heads := names
    internals := names.flatMap fun h => shadowSuffixes.map fun s => h ++ s }

/-! ### Authorizers -/

inductive AuthAction where
  | select
  | read (table : String)
  | insert (table : String)
  | update (table : String)
  | delete (table : String)
  | function
  | recursive
  | pragma (name : String)
  /-- Definitions, attached databases, transactions and the like. -/
  | other
  deriving DecidableEq, Repr

structure AuthContext where
  action : AuthAction
  /-- The innermost trigger that the access comes from. -/
  accessor : Option String := none
  deriving DecidableEq, Repr

inductive Authorization where
  | allow
  | deny
  | ignore
  deriving DecidableEq, Repr

/-- The table of an access to rows. -/
def AuthAction.table? : AuthAction → Option String
  | .read t | .insert t | .update t | .delete t => some t
  | _ => none

def authorizePragma (name : String) : Authorization :=
  if name ∈ ["table_info", "index_list", "index_info", "foreign_key_list", "table_xinfo"] then
    .allow
  else .ignore

/-- Deny a reserved table. -/
def authorizeTable (table : String) : Authorization :=
  if isProtectedCollection table then .deny else .allow

def readonlyAuthorizer (ctx : AuthContext) : Authorization :=
  match ctx.action with
  | .select | .function | .recursive => .allow
  | .read t => authorizeTable t
  | .pragma name => authorizePragma name
  | .insert _ | .update _ | .delete _ | .other => .deny

/-- A head is written by the triggers that keep it in step; what the module keeps for a head
is written by the module, and refused to SQL one layer down. -/
def authorizeWrite (search : SearchTables) (accessor : Option String) (table : String) :
    Authorization :=
  if search.isHead table then
    if accessor.any (startsWith searchPrefix) then .allow else .deny
  else if search.isInternal table then .allow
  else authorizeTable table

def writableAuthorizer (search : SearchTables) (ctx : AuthContext) : Authorization :=
  match ctx.action with
  | .select | .function | .recursive => .allow
  | .read t => if startsWith searchPrefix t then .allow else authorizeTable t
  | .pragma name => authorizePragma name
  | .insert t | .update t | .delete t => authorizeWrite search ctx.accessor t
  | .other => .deny

/-- The authorizer that records tables: reserved ones are neither recorded nor denied. -/
def capturingAuthorizer (mode : RpcMode) (ctx : AuthContext) : Authorization :=
  match ctx.action with
  | .select | .function | .recursive => .allow
  | .read _ => .allow
  | .pragma name => authorizePragma name
  | .insert _ | .update _ | .delete _ => if mode = .write then .allow else .deny
  | .other => .deny

/-! ### Compiling a statement -/

/-- A statement as it is parsed: the accesses that it names, and its columns by table. -/
structure Statement where
  accesses : List AuthAction
  columns : List (String × String) := []

/-- What names are resolved against. -/
structure SqlSchema where
  tables : StringMap Table
  heads : List (String × String)

def SqlSchema.hasTable (s : SqlSchema) (table : String) : Bool :=
  (s.tables.lookup table).isSome || (snapshotSearchTables s.heads).isHead table ||
    (snapshotSearchTables s.heads).isInternal table

/-- The column is there, or its table is none that the catalog knows the columns of. -/
def SqlSchema.hasColumn (s : SqlSchema) (column : String × String) : Bool :=
  (s.tables.lookup column.1).all fun t => t.columnNames.contains column.2

/-- The parsers and the compiler that the checks rely on. -/
structure Sqlite where
  complete : String → Bool
  parse : String → Except String Statement
  /-- The accesses that triggers and foreign keys add to a statement. -/
  induced : SqlSchema → Statement → List AuthContext
  parseParamsJson : String → Except String (List ParamSpec)
  parseTemplate : String → Option QueryTemplate

section Checks

variable (lite : Sqlite)

/-- The accesses that the compiler asks about. -/
def compile (schema : SqlSchema) (stmt : String) : Except String (List AuthContext) := do
  let st ← lite.parse stmt
  match (st.accesses.filterMap AuthAction.table?).find? (fun t => !schema.hasTable t) with
  | some t => .error ("no such table: " ++ t)
  | none =>
    match st.columns.find? (fun c => !schema.hasColumn c) with
    | some c => .error ("no such column: " ++ c.2)
    | none => .ok (st.accesses.map (fun a => { action := a }) ++ lite.induced schema st)

/-- Compile a statement under an authorizer. -/
def prepare (authorizer : AuthContext → Authorization) (schema : SqlSchema) (stmt : String) :
    Except String (List AuthContext) := do
  let asked ← compile lite schema stmt
  if asked.any (fun ctx => authorizer ctx = .deny) then .error "not authorized" else .ok asked

/-- Why a call is refused. -/
inductive PrepareError where
  /-- "rpc sql body is empty". -/
  | emptyBody
  /-- "rpc sql body has no statements". -/
  | noStatements
  /-- The body does not split, or SQLite refuses a statement. -/
  | sqlite (message : String)
  /-- "rpc scan failed: .." -/
  | scan (message : String)
  /-- "owner_field probe failed: .." -/
  | ownerFieldProbe
  /-- "RPC_ANON_OWNER_SCOPED: an anon-callable RPC over policy-protected collection '..' is
  refused". -/
  | policyProtected (table : String)
  /-- "RPC_ANON_OWNER_SCOPED: an anon-callable RPC over owner-scoped collection '..' must bind
  :user_id". -/
  | mustBindUserId (table ownerCol : String)
  /-- "RPC_ANON_OWNER_SCOPED: .. declares :user_id but its SQL does not constrain
  `.. = :user_id`". -/
  | doesNotConstrain (table ownerCol : String)
  /-- "RPC_ANON_OWNER_SCOPED: cannot make collection '..' owner-scoped while anon-callable RPC
  '..' references it without binding `.. = :user_id`". -/
  | cannotOwnerScope (collection rpc ownerField : String)
  /-- "RPC_ANON_OWNER_SCOPED: cannot attach an RLS policy to collection '..' while
  anon-callable RPC '..' references it". -/
  | cannotAttachPolicy (collection rpc : String)
  /-- "RPC_QUERY_GRANT_ACTIVE: cannot clear .. on '..' while anon-callable query RPC '..'
  targets it". -/
  | queryGrantActive (what collection rpc : String)
  deriving DecidableEq, Repr

def sqlError {α : Type} (x : Except String α) : Except PrepareError α :=
  x.mapError .sqlite

def splitSql (sql : String) : Except PrepareError (List String) :=
  (ExecWrite.splitStatements lite.complete sql).mapError fun e => .sqlite e.message

/-- Compile every statement under its authorizer; the first failure is the result. -/
def prepareAll (authorizer : AuthContext → Authorization) (schema : SqlSchema) :
    List String → Except PrepareError Unit
  | [] => .ok ()
  | stmt :: stmts => do
    let _ ← sqlError (prepare lite authorizer schema stmt)
    prepareAll authorizer schema stmts

def sqlSchema (db : TenantDb) : SqlSchema where
  tables := db.catalog.tables
  heads := db.heads

/-- The check of a body when a call is stored. -/
def validateRpcSql (db : TenantDb) (sql : String) (mode : RpcMode) : Except PrepareError Unit :=
  if (ExecWrite.trim sql.toList).isEmpty then .error .emptyBody
  else do
    let stmts ← splitSql lite sql
    if stmts.isEmpty then .error .noStatements
    else
      let authorizer := match mode with
        | .read => readonlyAuthorizer
        | .write => writableAuthorizer (snapshotSearchTables db.heads)
      prepareAll lite authorizer (sqlSchema db) stmts

def recordedTable (mode : RpcMode) : AuthAction → Option String
  | .read t => some t
  | .insert t | .update t | .delete t => if mode = .write then some t else none
  | _ => none

/-- The table that the capturing authorizer records for an access; reserved ones are left out. -/
def capturedTable (mode : RpcMode) (ctx : AuthContext) : Option String :=
  (recordedTable mode ctx.action).filter fun t =>
    !startsWith "sqlite_" t && !isProtectedCollection t

def captureTables (schema : SqlSchema) (mode : RpcMode) :
    List String → Except PrepareError (List String)
  | [] => .ok []
  | stmt :: stmts => do
    let asked ← sqlError (prepare lite (capturingAuthorizer mode) schema stmt)
    let rest ← captureTables schema mode stmts
    .ok (asked.filterMap (capturedTable mode) ++ rest)

/-- The user tables that a body touches. -/
def referencedUserTables (db : TenantDb) (sql : String) (mode : RpcMode) :
    Except PrepareError (List String) := do
  let stmts ← splitSql lite sql
  captureTables lite (sqlSchema db) mode stmts

/-! ### The text check of an owner predicate -/

def isAsciiAlphanumeric (c : Char) : Bool :=
  ('a' ≤ c && c ≤ 'z') || ('A' ≤ c && c ≤ 'Z') || ('0' ≤ c && c ≤ '9')

def toAsciiLowercase (s : String) : List Char :=
  s.toList.map fun c => if 'A' ≤ c ∧ c ≤ 'Z' then c.toLower else c

def isParamChar (c : Char) : Bool :=
  isAsciiAlphanumeric c || c == '_'

def isWordChar (c : Char) : Bool :=
  isAsciiAlphanumeric c || c == '_' || c == '.'

/-- The tokens of a body: words, named parameters and equality signs. Everything else is a
separator. -/
def tokens : Nat → List Char → List (List Char)
  | 0, _ => []
  | _, [] => []
  | fuel + 1, c :: cs =>
    if c = '=' then ['='] :: tokens fuel cs
    else if c = ':' then
      (':' :: cs.takeWhile isParamChar) :: tokens fuel (cs.dropWhile isParamChar)
    else if isWordChar c then
      (c :: cs.takeWhile isWordChar) :: tokens fuel (cs.dropWhile isWordChar)
    else tokens fuel cs

/-- The part of a word after its last dot. -/
def lastSegment (t : List Char) : List Char :=
  (t.reverse.takeWhile (· ≠ '.')).reverse

def isOwnerRef (owner t : List Char) : Bool :=
  t == owner || lastSegment t == owner

def isUserIdParam (t : List Char) : Bool :=
  t == ":user_id".toList

/-- Three tokens in a row compare the owner column with the parameter. -/
def windowsBind (owner : List Char) : List (List Char) → Bool
  | a :: b :: c :: rest =>
    (b == ['='] &&
      ((isOwnerRef owner a && isUserIdParam c) || (isUserIdParam a && isOwnerRef owner c))) ||
      windowsBind owner (b :: c :: rest)
  | _ => false

def sqlBindsOwnerToUserId (sql ownerCol : String) : Bool :=
  let lc := toAsciiLowercase sql
  windowsBind (toAsciiLowercase ownerCol) (tokens lc.length lc)

/-! ### The guards -/

section Guards

variable (rd : Reading) (db : TenantDb)

def collectionHasPolicy (coll : String) : Except SqlError Bool := do
  let p ← readPolicies rd db.catalog coll
  .ok (p.select.isSome || p.insert.isSome || p.update.isSome || p.delete.isSome)

def hasUserId (params : List ParamSpec) : Bool :=
  params.any fun p => p.name == "user_id"

/-- A table that a body touches: it has no policy, and where it has an owner field, the body
compares it with the caller. -/
def guardTable (sql : String) (params : List ParamSpec) (table : String) :
    Except PrepareError Unit := do
  let hasPolicy ← (collectionHasPolicy rd db table).mapError fun _ => .sqlite "policy probe failed"
  if hasPolicy then .error (.policyProtected table)
  else do
    let (ownerField, _) ← (readOwnerField rd db.catalog table).mapError fun _ => .ownerFieldProbe
    match ownerField with
    | none => .ok ()
    | some ownerCol =>
      if !hasUserId params then .error (.mustBindUserId table ownerCol)
      else if !sqlBindsOwnerToUserId sql ownerCol then .error (.doesNotConstrain table ownerCol)
      else .ok ()

def guardTables (sql : String) (params : List ParamSpec) : List String →
    Except PrepareError Unit
  | [] => .ok ()
  | t :: ts => do
    guardTable rd db sql params t
    guardTables sql params ts

/-- The guard of a call that is about to be stored. -/
def guardAnonOwnerScopedRpc (sql : String) (params : List ParamSpec) (anonCallable : Bool)
    (mode : RpcMode) : Except PrepareError Unit :=
  if !anonCallable then .ok ()
  else do
    let referenced ← referencedUserTables lite db sql mode
    guardTables rd db sql params referenced

/-- Decode a row. -/
def storedRpc (row : RpcRow) : Except String StoredRpc := do
  let params ← lite.parseParamsJson row.paramsJson
  .ok {
    name := row.name
    sql := row.sql
    params := params
    anonCallable := row.anonCallable
    mode := row.mode
    kind := row.kind
    queryJson := row.queryJson }

/-- All rows; one whose parameters do not parse fails the whole. -/
def registryList : List RpcRow → Except PrepareError (List StoredRpc)
  | [] => .ok []
  | row :: rows => do
    let rpc ← (storedRpc lite row).mapError .scan
    let rest ← registryList rows
    .ok (rpc :: rest)

/-- A stored call whose body is compared with a change of the configuration. -/
def StoredRpc.isAnonSql (rpc : StoredRpc) : Bool :=
  rpc.kind = .sql && rpc.anonCallable

/-- Go over the calls with an SQL body that anonymous callers may use. A body that no longer
compiles fails the whole. -/
def scanAnonRpcs (refuse : StoredRpc → List String → Option PrepareError) :
    List StoredRpc → Except PrepareError Unit
  | [] => .ok ()
  | rpc :: rpcs =>
    if StoredRpc.isAnonSql rpc then do
      let tables ← referencedUserTables lite db rpc.sql rpc.mode
      match refuse rpc tables with
      | some e => .error e
      | none => scanAnonRpcs refuse rpcs
    else scanAnonRpcs refuse rpcs

/-- The body of a call compares the column with the caller. -/
def bindsOwner (rpc : StoredRpc) (ownerField : String) : Bool :=
  hasUserId rpc.params && sqlBindsOwnerToUserId rpc.sql ownerField

/-- The guard of a collection that is about to get an owner field. -/
def guardOwnerScopeChangeAgainstAnonRpcs (collection newOwnerField : String) :
    Except PrepareError Unit := do
  let rpcs ← registryList lite db.rpcs
  scanAnonRpcs lite db (fun rpc tables =>
    if tables.contains collection && !bindsOwner rpc newOwnerField then
      some (.cannotOwnerScope collection rpc.name newOwnerField)
    else none) rpcs

/-- The guard of a collection that is about to get a policy. -/
def guardPolicyChangeAgainstAnonRpcs (collection : String) : Except PrepareError Unit := do
  let rpcs ← registryList lite db.rpcs
  scanAnonRpcs lite db (fun rpc tables =>
    if tables.contains collection then some (.cannotAttachPolicy collection rpc.name)
    else none) rpcs

/-- The collection of a stored query template; one that does not parse has none. -/
def templateCollection (rpc : StoredRpc) : Option String :=
  (rpc.queryJson.bind lite.parseTemplate).map QueryTemplate.collection

/-- The guard of a restriction that is about to be removed: the templates over the collection
that anonymous callers may use would show more rows. -/
def guardClearAgainstAnonQueryRpcs (collection what : String) : Except PrepareError Unit := do
  let rpcs ← registryList lite db.rpcs
  match rpcs.find? (fun rpc => rpc.kind = .query && rpc.anonCallable &&
      templateCollection lite rpc == some collection) with
  | some rpc => .error (.queryGrantActive what collection rpc.name)
  | none => .ok ()

/-- The guard of a select policy that is about to be removed. -/
def guardSelectPolicyClear (collection : String) (newSelectPolicyPresent : Bool) :
    Except PrepareError Unit :=
  if newSelectPolicyPresent then .ok ()
  else do
    let stored ← (readPolicies rd db.catalog collection).mapError fun _ =>
      .sqlite "policy probe failed"
    if stored.select.isNone then .ok ()
    else guardClearAgainstAnonQueryRpcs lite db collection "the select policy"

end Guards

end Checks

end Prepare

end Drust
