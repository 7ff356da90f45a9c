import Drust.Mcp.FtsTools
import Drust.Mcp.SchemaEffects
import Drust.Mgmt.RpcAdmin
import Drust.Tenant.PolicyRoutes

/-!
# What anonymous calls reach

The SQL of a stored call runs as it is written: no policy is applied to it, and no owner field.
Four guards are to keep anonymous callers from protected rows all the same. One looks at a
call that is about to be stored, one at a collection that is about to get an owner field, one
at a collection that is about to get a policy, and the fourth is the authorizer under which a
body is compiled when it is stored.

The operations of a tenant are interleaved at the points where the code lets go of the
database (`step`). The form checks a call on a reader and writes it in a later transaction.
A replacement of policies holds the writer from its guards to its last round, and each round
commits on its own, so that a reader sees the rounds one by one. What a schema tool checks on
a reader may not hold any more when it writes, so its write asks nothing of these checks.

What a call touches is not only what its statements name. A statement that writes has the
compiler read the parents that foreign keys refer to, and write the children that a deletion
cascades to, so that it depends on the definitions of the moment (`Touches`).

The guards do keep every anonymous call away from protected rows, on four conditions (`Kept`):
* an anonymous call in write mode names no search table: the authorizer of that mode lets it
  read them, and the guards look at no reserved name;
* the check of a call can read the policies that are stored;
* no collection that a call touches when it is written gets a policy or another owner field
  after its check;
* no change of the definitions makes a stored call touch a protected collection: none of the
  guards looks at the stored calls then, though a new collection may bring foreign keys.
-/

namespace Drust

namespace AnonReach

open Prepare PolicyRoutes RpcAdmin
open QueryTemplate (isProtectedCollection startsWith)
open SchemaTools (Env FieldSpec ToolError)

/-! ### The operations, from where they hold the writer -/

section Operations

variable (lite : Sqlite) (rd : Reading) (db : TenantDb)

/-- Set an owner field. -/
def setOwnerFieldHandler (coll field readScope : String) : Except PrepareError TenantDb := do
  guardOwnerScopeChangeAgainstAnonRpcs lite db coll field
  .ok { db with catalog := db.catalog.setOwnerField coll (some field) (some readScope) }

/-- Clear an owner field. -/
def clearOwnerFieldHandler (coll : String) : Except PrepareError TenantDb := do
  let (current, _) ← (readOwnerField rd db.catalog coll).mapError fun _ => .ownerFieldProbe
  if current.isSome then guardClearAgainstAnonQueryRpcs lite db coll "owner_field" else .ok ()
  .ok { db with catalog := db.catalog.setOwnerField coll none none }

/-- Drop a collection, with the indexes over it. Which fields reference it was read before. -/
def dropCollectionTx (name : String) : Except ToolError TenantDb := do
  SchemaTools.identifier name
  SchemaTools.refuseIf (isProtectedCollection name) (.protectedCollection name)
  SchemaTools.refuseIf (!SchemaTools.collectionExists db.catalog name)
    (.database .sqliteFailure)
  .ok { db with
    catalog := (db.catalog.dropTable name).deleteCollectionMeta name
    heads := db.heads.filter fun h => h.1 != name }

end Operations

/-! ### Interleavings -/

/-- A replacement of policies that holds the writer, with the rounds that are left. -/
structure PolicyClosure where
  coll : String
  schema : CollectionSchema
  body : PutPoliciesBody
  rest : List DmlVerb

/-- A call that has been checked and is not written yet, with what its check read. -/
structure PendingSave where
  form : RpcForm
  seen : TenantDb

structure State where
  db : TenantDb
  closure : Option PolicyClosure := none
  pending : List PendingSave := []

inductive Label where
  | saveCheck (rd : Reading) (form : RpcForm)
  /-- The write of one of the calls that have been checked. -/
  | saveWrite (i : Nat)
  | putPolicies (rd : Reading) (role : TokenRole) (coll : String) (body : PutPoliciesBody)
  /-- The next round of the replacement that holds the writer. -/
  | putRound (fails : Bool)
  | deletePolicy (rd : Reading) (fails : Bool) (role : TokenRole) (coll : String) (op : DmlVerb)
  | setOwnerField (coll field readScope : String)
  | clearOwnerField (rd : Reading) (coll : String)
  | createFtsIndex (rd : Reading) (coll : String) (entry : FtsIndex)
  | createCollection (name : String) (fields : List FieldSpec) (description : Option String)
  | dropCollection (name : String)

section Step

variable (lite : Sqlite) (env : Env)

/-- A step that takes the writer and lets it go. One that is refused changes nothing. -/
def withWriter {ε : Type} (s : State) (f : TenantDb → Except ε TenantDb) : Option State :=
  match s.closure, f s.db with
  | none, .ok db => some { s with db := db }
  | _, _ => none

def step (s : State) : Label → Option State
  | .saveCheck rd form =>
    match RpcAdmin.saveCheck lite rd s.db form with
    | .ok () => some { s with pending := s.pending ++ [{ form := form, seen := s.db }] }
    | .error _ => none
  | .saveWrite i =>
    match s.closure, s.pending[i]? with
    | none, some p =>
      match RpcAdmin.saveWrite lite s.db.rpcs p.form with
      | .ok rows => some { s with db := { s.db with rpcs := rows }, pending := s.pending.eraseIdx i }
      | .error _ => some { s with pending := s.pending.eraseIdx i }
    | _, _ => none
  | .putPolicies rd role coll body =>
    match s.closure, checkPut lite rd role s.db coll body with
    | none, .ok schema => some { s with closure := some ⟨coll, schema, body, order⟩ }
    | _, _ => none
  | .putRound fails =>
    match s.closure with
    | none => none
    | some ⟨_, _, _, []⟩ => some { s with closure := none }
    | some ⟨coll, schema, body, op :: ops⟩ =>
      match putLoop (fun _ => fails) schema coll body [op] s.db.catalog with
      | (.ok (), c) =>
        some { s with db := { s.db with catalog := c }, closure := some ⟨coll, schema, body, ops⟩ }
      | (.error _, c) => some { s with db := { s.db with catalog := c }, closure := none }
  | .deletePolicy rd fails role coll op =>
    withWriter s fun db =>
      match PolicyRoutes.deletePolicy lite rd (fun _ => fails) role db coll op with
      | (.ok (), db') => .ok db'
      | (.error e, _) => .error e
  | .setOwnerField coll field readScope =>
    withWriter s fun db => setOwnerFieldHandler lite db coll field readScope
  | .clearOwnerField rd coll => withWriter s fun db => clearOwnerFieldHandler lite rd db coll
  | .createFtsIndex rd coll entry => withWriter s fun db => FtsTools.createFtsTx rd db coll entry
  | .createCollection name fields description =>
    withWriter s fun db =>
      (SchemaTools.createCollectionTx env db.catalog name fields description).map fun c =>
        { db with catalog := c }
  | .dropCollection name => withWriter s fun db => dropCollectionTx db name

end Step

/-! ### What a call reaches -/

section Reach

variable (lite : Sqlite)

/-- A statement of the body names the table. -/
def Names (sql table : String) : Prop :=
  ∃ stmts, splitSql lite sql = .ok stmts ∧ ∃ stmt ∈ stmts, ∃ st, lite.parse stmt = .ok st ∧
    table ∈ st.accesses.filterMap AuthAction.table?

/-- The tables of the accesses that triggers and foreign keys add. -/
def inducedTables (schema : SqlSchema) (st : Statement) : List String :=
  (lite.induced schema st).filterMap fun ctx => ctx.action.table?

/-- The tables that a statement reads or writes. -/
def touchedTables (schema : SqlSchema) (st : Statement) : List String :=
  st.accesses.filterMap AuthAction.table? ++ inducedTables lite schema st

/-- A statement of the body reads or writes the table. -/
def Touches (schema : SqlSchema) (sql table : String) : Prop :=
  ∃ stmts, splitSql lite sql = .ok stmts ∧ ∃ stmt ∈ stmts, ∃ st, lite.parse stmt = .ok st ∧
    table ∈ touchedTables lite schema st

/-- The collection has a stored policy. -/
def hasPolicy (c : Catalog) (coll : String) : Bool :=
  attaching (c.row coll).policies

/-- The collection has a stored policy or an owner field. -/
def Protected (c : Catalog) (coll : String) : Prop :=
  hasPolicy c coll = true ∨ (c.row coll).ownerField.isSome = true

/-- A collection got a policy, or another owner field. -/
def Tightened (old new : Catalog) (coll : String) : Prop :=
  (hasPolicy old coll = false ∧ hasPolicy new coll = true) ∨
    ∃ f, (new.row coll).ownerField = some f ∧ (old.row coll).ownerField ≠ some f

/-- Each collection that the body touches is one that it touched before, with no policy and no
other owner field since, or it is not protected. -/
def NothingNew (old new : TenantDb) (sql : String) : Prop :=
  ∀ t, isProtectedCollection t = false → Touches lite (sqlSchema new) sql t →
    (Touches lite (sqlSchema old) sql t ∧ ¬ Tightened old.catalog new.catalog t) ∨
      ¬ Protected new.catalog t

/-- The stored calls of anonymous callers stay as they are under other definitions. -/
def Redefinable (s : State) (new : TenantDb) : Prop :=
  ∀ row ∈ s.db.rpcs, RpcRow.isAnonSql row = true → NothingNew lite s.db new row.sql

/-- The reads of a check find the policies that are stored. -/
def ReadsPolicies (rd : Reading) : Prop :=
  rd.fails .policies = false ∧ ∀ op, rd.malformed (.policy op) = false

/-- What the guards rely on, step by step. -/
def Kept (env : Env) (s : State) : Label → Prop
  | .saveCheck rd form => form.anonCallable = true → ReadsPolicies rd ∧
      (form.mode = .write → ∀ t, Names lite form.sql t → startsWith searchPrefix t = false)
  | .saveWrite i => ∀ p, s.pending[i]? = some p → p.form.anonCallable = true →
      NothingNew lite p.seen s.db p.form.sql
  | .createFtsIndex _ coll entry =>
      Redefinable lite s { s.db with heads := (coll, entry.name) :: s.db.heads }
  | .createCollection name fields _ => ∀ columns, SchemaTools.columnExprs env fields = .ok columns →
      Redefinable lite s { s.db with catalog := { s.db.catalog with
        tables := s.db.catalog.tables.insert name (SchemaTools.newTable name fields columns) } }
  | .dropCollection name => Redefinable lite s { s.db with
      catalog := s.db.catalog.dropTable name
      heads := s.db.heads.filter fun h => h.1 != name }
  | _ => True

end Reach

/-! ### What the checks see of a body -/

section Checks

variable {lite : Sqlite} {rd : Reading} {db : TenantDb}

/-- The accesses that the compiler asks about, of a statement that compiles. -/
theorem compile_eq_ok {schema : SqlSchema} {stmt : String} {asked : List AuthContext}
    {st : Statement} (h : compile lite schema stmt = .ok asked)
    (hparse : lite.parse stmt = .ok st) :
    asked = st.accesses.map (fun a => { action := a }) ++ lite.induced schema st := by
  rw [compile, hparse, Except.ok_bind] at h
  split at h
  · cases h
  · split at h
    · cases h
    · exact (Except.ok.inj h).symm

/-- The compiler asks about every table that the statement touches. -/
theorem exists_asked_of_touched {schema : SqlSchema} {stmt t : String} {asked : List AuthContext}
    {st : Statement} (h : compile lite schema stmt = .ok asked)
    (hparse : lite.parse stmt = .ok st) (ht : t ∈ touchedTables lite schema st) :
    ∃ ctx ∈ asked, ctx.action.table? = some t := by
  rw [compile_eq_ok h hparse]
  obtain hnamed | hinduced := List.mem_append.mp ht
  · obtain ⟨a, ha, hat⟩ := List.mem_filterMap.mp hnamed
    exact ⟨{ action := a }, List.mem_append_left _ (List.mem_map_of_mem ha), hat⟩
  · obtain ⟨ctx, hctx, hat⟩ := List.mem_filterMap.mp hinduced
    exact ⟨ctx, List.mem_append_right _ hctx, hat⟩

/-- A call that anonymous callers may use keeps away from protected rows: its body names no
search table, and no collection that it touches has a policy, or an owner field that it does not
compare with the caller. -/
structure Guarded (lite : Sqlite) (db : TenantDb) (row : RpcRow) : Prop where
  unsearched : ∀ t, Names lite row.sql t → startsWith searchPrefix t = false
  untouched : ∀ t, isProtectedCollection t = false → Touches lite (sqlSchema db) row.sql t →
    hasPolicy db.catalog t = false ∧
      ∀ f, (db.catalog.row t).ownerField = some f → BindsOwner lite row f

theorem Guarded.of_nothingNew {db' : TenantDb} {row : RpcRow} (h : Guarded lite db row)
    (hnew : NothingNew lite db db' row.sql) : Guarded lite db' row := by
  refine ⟨h.unsearched, fun t hfree ht => ?_⟩
  obtain ⟨hold, hkept⟩ | hfree := hnew t hfree ht
  · obtain ⟨hpolicy, howner⟩ := h.untouched t hfree hold
    refine ⟨Bool.eq_false_iff.mpr fun hset => hkept (.inl ⟨hpolicy, hset⟩), fun f hf => ?_⟩
    exact howner f (not_not.mp fun hne => hkept (.inr ⟨f, hf, hne⟩))
  · refine ⟨Bool.eq_false_iff.mpr fun hset => hfree (.inl hset), fun f hf => ?_⟩
    exact absurd (.inr (Option.isSome_of_eq_some hf)) hfree

/-- Under the same definitions, a change that protects nothing. -/
theorem Guarded.of_not_tightened {db' : TenantDb} {row : RpcRow} (h : Guarded lite db row)
    (hschema : sqlSchema db' = sqlSchema db)
    (hkept : ∀ t, Touches lite (sqlSchema db) row.sql t →
      ¬ Tightened db.catalog db'.catalog t) : Guarded lite db' row := by
  refine h.of_nothingNew fun t _ ht => .inl ?_
  rw [hschema] at ht
  exact ⟨ht, hkept t ht⟩

/-- What is stored under the names of calls plays no part. -/
theorem Guarded.of_rpcs {row : RpcRow} (h : Guarded lite db row) (rpcs : List RpcRow) :
    Guarded lite { db with rpcs := rpcs } row :=
  ⟨h.unsearched, h.untouched⟩

/-! #### Reserved names -/

theorem isPrefixOf_map_toLower {p s : List Char} (hp : p.map Char.toLower = p)
    (h : p.isPrefixOf s = true) : p.isPrefixOf (s.map Char.toLower) = true := by
  rw [List.isPrefixOf_iff_prefix] at h ⊢
  have hmap := h.map Char.toLower
  rw [hp] at hmap
  exact hmap

/-- A name that begins with a reserved prefix is reserved. -/
theorem isProtected_of_startsWith {p t : String} (hp : p.toList.map Char.toLower = p.toList)
    (hreserved : "_system_".toList.isPrefixOf p.toList = true ∨
      "sqlite_".toList.isPrefixOf p.toList = true) (h : startsWith p t = true) :
    isProtectedCollection t = true := by
  have hlower := isPrefixOf_map_toLower hp h
  simp only [isProtectedCollection, startsWith, String.toList_ofList, Bool.or_eq_true,
    List.isPrefixOf_iff_prefix] at hlower hreserved ⊢
  exact hreserved.imp (fun hs => hs.trans hlower) (fun hs => hs.trans hlower)

theorem isProtected_of_search {t : String} (h : startsWith searchPrefix t = true) :
    isProtectedCollection t = true :=
  isProtected_of_startsWith (by decide +kernel) (.inl (by decide +kernel)) h

/-- The authorizer of a mode. -/
def modeAuthorizer (db : TenantDb) : RpcMode → AuthContext → Authorization
  | .read => readonlyAuthorizer
  | .write => writableAuthorizer (snapshotSearchTables db.heads)

theorem prepareAll_eq_ok {authorizer : AuthContext → Authorization} {schema : SqlSchema}
    {stmts : List String} (h : prepareAll lite authorizer schema stmts = .ok ()) :
    ∀ stmt ∈ stmts, ∃ asked, prepare lite authorizer schema stmt = .ok asked := by
  induction stmts with
  | nil => exact fun stmt hstmt => absurd hstmt List.not_mem_nil
  | cons stmt stmts ih =>
    obtain ⟨asked, hasked, h⟩ := Except.bind_eq_ok_iff.mp h
    exact List.forall_mem_cons.mpr ⟨⟨asked, sqlError_eq_ok_iff.mp hasked⟩, ih h⟩

theorem validateRpcSql_eq_ok {sql : String} {mode : RpcMode}
    (h : validateRpcSql lite db sql mode = .ok ()) :
    ∃ stmts, splitSql lite sql = .ok stmts ∧ ∀ stmt ∈ stmts, ∃ asked,
      prepare lite (modeAuthorizer db mode) (sqlSchema db) stmt = .ok asked := by
  unfold validateRpcSql at h
  split at h
  · cases h
  · obtain ⟨stmts, hsplit, h⟩ := Except.bind_eq_ok_iff.mp h
    refine ⟨stmts, hsplit, ?_⟩
    split at h
    · cases h
    · cases mode with
      | read => exact prepareAll_eq_ok h
      | write => exact prepareAll_eq_ok h

theorem authorizeTable_ne_deny {t : String} (h : authorizeTable t ≠ .deny) :
    isProtectedCollection t = false := by
  rw [authorizeTable] at h
  split at h
  · exact absurd rfl h
  · next hfree => exact Bool.eq_false_iff.mpr hfree

/-- A statement that may only read names no reserved table. -/
theorem unreserved_of_readonly {a : AuthAction} {t : String}
    (hallowed : readonlyAuthorizer { action := a } ≠ .deny) (ht : a.table? = some t) :
    isProtectedCollection t = false := by
  cases a with
  | read t' =>
    obtain rfl := Option.some.inj ht
    exact authorizeTable_ne_deny hallowed
  | insert t' => exact absurd rfl hallowed
  | update t' => exact absurd rfl hallowed
  | delete t' => exact absurd rfl hallowed
  | _ => cases ht

theorem unsearched_of_validated {sql t : String} (h : validateRpcSql lite db sql .read = .ok ())
    (hnames : Names lite sql t) : startsWith searchPrefix t = false := by
  obtain ⟨stmts, hsplit, hall⟩ := validateRpcSql_eq_ok h
  obtain ⟨stmts', hsplit', stmt, hstmt, st, hparse, ht⟩ := hnames
  rw [hsplit] at hsplit'
  obtain rfl := Except.ok.inj hsplit'
  obtain ⟨asked, hprepare⟩ := hall stmt hstmt
  obtain ⟨hcompile, hallowed⟩ := prepare_eq_ok hprepare
  obtain ⟨a, ha, hat⟩ := List.mem_filterMap.mp ht
  have hasked : ({ action := a } : AuthContext) ∈ asked := by
    rw [compile_eq_ok hcompile hparse]
    exact List.mem_append_left _ (List.mem_map_of_mem ha)
  refine Bool.eq_false_iff.mpr fun hsearch => ?_
  have hfree := unreserved_of_readonly (hallowed _ hasked) hat
  rw [isProtected_of_search hsearch] at hfree
  cases hfree

/-! #### What the guards record -/

theorem captureTables_eq_ok {schema : SqlSchema} {mode : RpcMode} {stmts : List String} :
    ∀ {tables : List String}, captureTables lite schema mode stmts = .ok tables →
      ∀ stmt ∈ stmts, ∃ asked, prepare lite (capturingAuthorizer mode) schema stmt = .ok asked := by
  induction stmts with
  | nil => exact fun _ stmt hstmt => absurd hstmt List.not_mem_nil
  | cons stmt stmts ih =>
    intro tables h
    obtain ⟨asked, hasked, h⟩ := Except.bind_eq_ok_iff.mp h
    obtain ⟨rest, hrest, -⟩ := Except.bind_eq_ok_iff.mp h
    exact List.forall_mem_cons.mpr ⟨⟨asked, sqlError_eq_ok_iff.mp hasked⟩, ih hrest⟩

/-- An access to a table that is not reserved is recorded, or it is a write in read mode. -/
theorem capturedTable_eq {mode : RpcMode} {ctx : AuthContext} {t : String}
    (hallowed : capturingAuthorizer mode ctx ≠ .deny) (ht : ctx.action.table? = some t)
    (hfree : isProtectedCollection t = false) : capturedTable mode ctx = some t := by
  -- a name of SQLite is a reserved one, and `t` is free
  have hsqlite : startsWith "sqlite_" t = false := by
    refine Bool.eq_false_iff.mpr fun hprefix => ?_
    have hreserved := isProtected_of_startsWith (by decide +kernel) (.inr (by decide +kernel)) hprefix
    rw [hfree] at hreserved
    cases hreserved
  have hrecorded : recordedTable mode ctx.action = some t := by
    unfold capturingAuthorizer at hallowed
    cases haction : ctx.action with
    | read t' =>
      rw [haction] at ht
      exact ht
    | insert t' | update t' | delete t' =>
      rw [haction] at ht hallowed
      cases mode with
      | read => exact absurd rfl hallowed
      | write => exact ht
    | _ =>
      rw [haction] at ht
      cases ht
  -- the scan keeps what is recorded unless it is reserved
  rw [capturedTable, hrecorded, Option.filter_some, hsqlite, hfree]
  rfl

/-- Of a body that compiles, the guards see every table that it touches, except reserved
ones. -/
theorem references_of_touches {row : RpcRow} {t : String} (h : Compiles lite db row)
    (htouches : Touches lite (sqlSchema db) row.sql t) (hfree : isProtectedCollection t = false) :
    References lite db row t := by
  obtain ⟨tables, htables⟩ := h
  obtain ⟨stmts, hsplit, hcapture⟩ := Except.bind_eq_ok_iff.mp htables
  obtain ⟨stmts', hsplit', stmt, hstmt, st, hparse, ht⟩ := htouches
  rw [hsplit] at hsplit'
  obtain rfl := Except.ok.inj hsplit'
  obtain ⟨asked, hprepare⟩ := captureTables_eq_ok hcapture stmt hstmt
  obtain ⟨hcompile, hallowed⟩ := prepare_eq_ok hprepare
  obtain ⟨ctx, hctx, hat⟩ := exists_asked_of_touched hcompile hparse ht
  refine ⟨stmts, hsplit, stmt, hstmt, asked, hcompile, List.mem_filterMap.mpr ⟨ctx, hctx, ?_⟩⟩
  exact capturedTable_eq (hallowed ctx hctx) hat hfree

theorem readPolicies_of_reads (hreads : ReadsPolicies rd) (c : Catalog) (coll : String) :
    readPolicies rd c coll = .ok (c.row coll).policies := by
  unfold readPolicies queryRow
  simp only [hreads.1, hreads.2, Bool.false_eq_true, if_false]
  unfold Catalog.row
  cases c.metas.lookup coll with
  | none => rfl
  | some m => rfl

theorem readOwnerField_ownerField {c : Catalog} {coll : String} {owner scope : Option String}
    (h : readOwnerField rd c coll = .ok (owner, scope)) : owner = (c.row coll).ownerField := by
  obtain ⟨-, hpair⟩ := readOwnerField_eq_ok_iff.mp h
  rw [Catalog.row]
  cases hlookup : c.metas.lookup coll with
  | none =>
    rw [hlookup] at hpair
    exact congrArg Prod.fst hpair
  | some m =>
    rw [hlookup] at hpair
    exact congrArg Prod.fst hpair

/-- The guard lets a table pass that has no policy, and whose owner field the body compares
with the caller. -/
theorem guardTable_eq_ok {sql t : String} {params : List ParamSpec} (hreads : ReadsPolicies rd)
    (h : guardTable rd db sql params t = .ok ()) :
    hasPolicy db.catalog t = false ∧ ∀ f, (db.catalog.row t).ownerField = some f →
      hasUserId params = true ∧ sqlBindsOwnerToUserId sql f = true := by
  obtain ⟨has, hhas, h⟩ := Except.bind_eq_ok_iff.mp h
  rw [Except.mapError_eq_ok_iff, collectionHasPolicy, readPolicies_of_reads hreads,
    Except.ok_bind, Except.ok.injEq] at hhas
  rw [hasPolicy, attaching, hhas]
  split at h
  · cases h
  · next hnone =>
    refine ⟨Bool.eq_false_iff.mpr hnone, ?_⟩
    -- the policy is looked for first, the owner field only when there is none
    obtain ⟨⟨owner, scope⟩, howner, h⟩ := Except.bind_eq_ok_iff.mp h
    have hstored : owner = (db.catalog.row t).ownerField :=
      readOwnerField_ownerField (Except.mapError_eq_ok_iff.mp howner)
    intro f hf
    rw [hf] at hstored
    simp only [hstored] at h
    split at h
    · cases h
    · next huser =>
      split at h
      · cases h
      · next hbinds => exact ⟨by simpa using huser, by simpa using hbinds⟩

theorem guardTables_eq_ok {sql : String} {params : List ParamSpec} {tables : List String}
    (h : guardTables rd db sql params tables = .ok ()) :
    ∀ t ∈ tables, guardTable rd db sql params t = .ok () := by
  induction tables with
  | nil => exact fun t ht => absurd ht List.not_mem_nil
  | cons t ts ih =>
    obtain ⟨_, ht, h⟩ := Except.bind_eq_ok_iff.mp h
    exact List.forall_mem_cons.mpr ⟨ht, ih h⟩

/-- A request that attaches a policy has passed its guard. -/
theorem checkPut_attaching {role : TokenRole} {coll : String} {body : PutPoliciesBody}
    {schema : CollectionSchema} (h : checkPut lite rd role db coll body = .ok schema)
    (hattaching : attaching body = true) :
    isProtectedCollection coll = false ∧ guardPolicyChangeAgainstAnonRpcs lite db coll = .ok () := by
  unfold checkPut at h
  split at h
  · cases h
  · split at h
    · cases h
    · next hfree =>
      refine ⟨Bool.eq_false_iff.mpr hfree, ?_⟩
      obtain ⟨described, -, h⟩ := Except.bind_eq_ok_iff.mp h
      cases described with
      | none => cases h
      | some d =>
        obtain ⟨_, hguard, -⟩ := Except.bind_eq_ok_iff.mp h
        exact Except.mapError_eq_ok_iff.mp hguard

/-- A call for anonymous callers that passes the check of the form keeps away from protected
rows, as they are protected at the time of the check. -/
theorem saveCheck_guarded {form : RpcForm} (h : saveCheck lite rd db form = .ok ())
    (hanon : form.anonCallable = true) (hreads : ReadsPolicies rd)
    (hsearch : form.mode = .write → ∀ t, Names lite form.sql t → startsWith searchPrefix t = false) :
    Guarded lite db form.row := by
  unfold saveCheck at h
  split at h
  · cases h
  · obtain ⟨params, hparams, h⟩ := Except.bind_eq_ok_iff.mp h
    obtain ⟨_, hvalid, h⟩ := Except.bind_eq_ok_iff.mp h
    have hguard := Except.mapError_eq_ok_iff.mp h
    rw [guardAnonOwnerScopedRpc, hanon, if_neg (by simp)] at hguard
    obtain ⟨tables, htables, hguard⟩ := Except.bind_eq_ok_iff.mp hguard
    constructor
    · -- the authorizer of read mode lets no statement name a reserved table
      intro t ht
      cases hmode : form.mode with
      | read =>
        rw [hmode] at hvalid
        exact unsearched_of_validated (Except.mapError_eq_ok_iff.mp hvalid) ht
      | write => exact hsearch hmode t ht
    · -- the guard looks at every other table that the body touches
      intro t hfree ht
      have hrefs : References lite db form.row t :=
        references_of_touches ⟨tables, htables⟩ ht hfree
      have hrow : referencedUserTables lite db form.row.sql form.row.mode = .ok tables := htables
      have hmem : t ∈ tables := (references_iff_mem hrow t).mp hrefs
      obtain ⟨hpolicy, howner⟩ := guardTable_eq_ok hreads (guardTables_eq_ok hguard t hmem)
      exact ⟨hpolicy, fun f hf => ⟨params, Except.mapError_eq_ok_iff.mp hparams, howner f hf⟩⟩

end Checks

/-! ### Steps that protect nothing -/

section Frames

variable {lite : Sqlite} {c c' : Catalog} {coll : String}

theorem not_tightened_self (c : Catalog) (t : String) : ¬ Tightened c c t := by
  rintro (⟨hold, hnew⟩ | ⟨f, hnew, hold⟩)
  · rw [hold] at hnew
    cases hnew
  · exact hold hnew

/-- A write to one row that adds no policy and no owner field. -/
theorem not_tightened_of_row {m : CollectionMeta} (hrow : c'.row = Function.update c.row coll m)
    (hpolicies : attaching m.policies = true → attaching (c.row coll).policies = true)
    (howner : ∀ f, m.ownerField = some f → (c.row coll).ownerField = some f) (t : String) :
    ¬ Tightened c c' t := by
  unfold Tightened hasPolicy
  rw [hrow]
  obtain rfl | hne := eq_or_ne t coll
  · rw [Function.update_self]
    rintro (⟨hold, hnew⟩ | ⟨f, hnew, hold⟩)
    · rw [hpolicies hnew] at hold
      cases hold
    · exact hold (howner f hnew)
  · rw [Function.update_of_ne hne]
    rintro (⟨hold, hnew⟩ | ⟨f, hnew, hold⟩)
    · rw [hold] at hnew
      cases hnew
    · exact hold hnew

/-- A write to one row does not concern another. -/
theorem not_tightened_of_ne {m : CollectionMeta} {t : String}
    (hrow : c'.row = Function.update c.row coll m) (hne : t ≠ coll) : ¬ Tightened c c' t := by
  unfold Tightened hasPolicy
  rw [hrow, Function.update_of_ne hne]
  rintro (⟨hold, hnew⟩ | ⟨f, hnew, hold⟩)
  · rw [hold] at hnew
    cases hnew
  · exact hold hnew

theorem attaching_iff {ps : CollectionPolicies} :
    attaching ps = true ↔ ∃ op, (ps.get op).isSome = true := by
  unfold attaching
  rw [Bool.or_eq_true, Bool.or_eq_true, Bool.or_eq_true]
  constructor
  · rintro (((h | h) | h) | h)
    · exact ⟨.select, h⟩
    · exact ⟨.insert, h⟩
    · exact ⟨.update, h⟩
    · exact ⟨.delete, h⟩
  · rintro ⟨op, h⟩
    cases op with
    | select => exact .inl (.inl (.inl h))
    | insert => exact .inl (.inl (.inr h))
    | update => exact .inl (.inr h)
    | delete => exact .inr h

theorem attaching_of_set_none {ps : CollectionPolicies} {op : DmlVerb}
    (h : attaching (ps.set op none) = true) : attaching ps = true := by
  obtain ⟨op', hop'⟩ := attaching_iff.mp h
  rw [CollectionPolicies.get_set] at hop'
  split at hop'
  · cases hop'
  · exact attaching_iff.mpr ⟨op', hop'⟩

theorem get_of_not_attaching {ps : CollectionPolicies} (h : attaching ps = false) (op : DmlVerb) :
    ps.get op = none := by
  rw [← Option.not_isSome_iff_eq_none]
  intro hop
  rw [attaching_iff.mpr ⟨op, hop⟩] at h
  cases h

/-- Clearing a policy. -/
theorem not_tightened_clear (op : DmlVerb) (t : String) :
    ¬ Tightened c (c.writePolicy coll op none) t :=
  not_tightened_of_row Catalog.row_upsertMeta (fun h => attaching_of_set_none h) (fun _ h => h) t

theorem not_tightened_create {env : Env} {name : String} {fields : List FieldSpec}
    {description : Option String}
    (h : SchemaTools.createCollectionTx env c name fields description = .ok c') (t : String) :
    ¬ Tightened c c' t := by
  obtain ⟨-, -, columns, collDesc, descs, -, -, -, -, hrow⟩ := SchemaTools.createCollectionTx_effect h
  have hpolicies : (SchemaTools.createdRow env fields collDesc descs (c.row name)).policies
      = (c.row name).policies :=
    SchemaTools.createdRow_frame CollectionMeta.policies (fun _ _ => rfl) (fun _ _ => rfl) ..
  have howner : (SchemaTools.createdRow env fields collDesc descs (c.row name)).ownerField
      = (c.row name).ownerField :=
    SchemaTools.createdRow_frame CollectionMeta.ownerField (fun _ _ => rfl) (fun _ _ => rfl) ..
  refine not_tightened_of_row hrow (fun hnew => ?_) (fun f hf => ?_) t
  · rw [hpolicies] at hnew
    exact hnew
  · rw [howner] at hf
    exact hf

/-- The definitions of the tables play no part. -/
theorem not_tightened_of_tables {tables : StringMap Table} {t : String}
    (h : ¬ Tightened c c' t) : ¬ Tightened { c with tables := tables } c' t :=
  h

/-- Dropping the row of a collection. -/
theorem not_tightened_drop (t : String) : ¬ Tightened c (c.deleteCollectionMeta coll) t := by
  refine not_tightened_of_row Catalog.row_deleteCollectionMeta (fun h => ?_) (fun f hf => ?_) t
  · cases h
  · cases hf

end Frames

/-! ### The invariant -/

section Invariant

variable {lite : Sqlite} {env : Env} {s s' : State}

structure Inv (lite : Sqlite) (s : State) : Prop where
  rows : ∀ row ∈ s.db.rpcs, RpcRow.isAnonSql row = true → Guarded lite s.db row
  /-- A call that waits for its write was guarded when it was checked. -/
  pending : ∀ p ∈ s.pending, p.form.anonCallable = true → Guarded lite p.seen p.form.row
  /-- While policies are being attached, no anonymous call touches the collection. -/
  closure : ∀ cl, s.closure = some cl → attaching cl.body = true →
    ∀ row ∈ s.db.rpcs, RpcRow.isAnonSql row = true →
      ¬ Touches lite (sqlSchema s.db) row.sql cl.coll

theorem withWriter_eq_some {ε : Type} {f : TenantDb → Except ε TenantDb}
    (h : withWriter s f = some s') :
    ∃ db, s.closure = none ∧ f s.db = .ok db ∧ s' = { s with db := db } := by
  unfold withWriter at h
  split at h
  · next db hclosure hdb => exact ⟨db, hclosure, hdb, (Option.some.inj h).symm⟩
  · cases h

/-- A step of the writer that stores no call. -/
theorem Inv.withWriter {ε : Type} {f : TenantDb → Except ε TenantDb} (hI : Inv lite s)
    (h : withWriter s f = some s') (hrpcs : ∀ db, f s.db = .ok db → db.rpcs = s.db.rpcs)
    (hguarded : ∀ db, f s.db = .ok db → ∀ row ∈ s.db.rpcs, RpcRow.isAnonSql row = true →
      Guarded lite s.db row → Guarded lite db row) : Inv lite s' := by
  obtain ⟨db, hclosure, hdb, rfl⟩ := withWriter_eq_some h
  refine ⟨fun row hrow hanon => ?_, hI.pending, fun cl hcl => ?_⟩
  · replace hrow : row ∈ s.db.rpcs := hrpcs db hdb ▸ hrow
    exact hguarded db hdb row hrow hanon (hI.rows row hrow hanon)
  · rw [hclosure] at hcl
    cases hcl

/-- One that leaves the definitions alone and protects nothing. -/
theorem Inv.withWriter_of_not_tightened {ε : Type} {f : TenantDb → Except ε TenantDb}
    (hI : Inv lite s) (h : AnonReach.withWriter s f = some s')
    (hf : ∀ db, f s.db = .ok db → db.rpcs = s.db.rpcs ∧ sqlSchema db = sqlSchema s.db ∧
      ∀ t, ¬ Tightened s.db.catalog db.catalog t) : Inv lite s' := by
  refine hI.withWriter h (fun db hdb => (hf db hdb).1) fun db hdb row _ _ hguarded => ?_
  obtain ⟨-, hschema, hkept⟩ := hf db hdb
  exact hguarded.of_not_tightened hschema fun t _ => hkept t

/-- One that changes the definitions as the stored calls allow, and protects nothing. -/
theorem Inv.withWriter_of_redefinable {ε : Type} {f : TenantDb → Except ε TenantDb}
    (hI : Inv lite s) (h : AnonReach.withWriter s f = some s')
    (hf : ∀ db, f s.db = .ok db → db.rpcs = s.db.rpcs ∧ ∃ new, Redefinable lite s new ∧
      sqlSchema db = sqlSchema new ∧ ∀ t, ¬ Tightened new.catalog db.catalog t) : Inv lite s' := by
  refine hI.withWriter h (fun db hdb => (hf db hdb).1) fun db hdb row hrow hanon hguarded => ?_
  obtain ⟨-, new, hnew, hschema, hkept⟩ := hf db hdb
  exact (hguarded.of_nothingNew (hnew row hrow hanon)).of_not_tightened hschema fun t _ => hkept t

theorem Guarded.congr {db : TenantDb} {row row' : RpcRow} (h : Guarded lite db row)
    (hsql : row'.sql = row.sql) (hparams : row'.paramsJson = row.paramsJson) :
    Guarded lite db row' := by
  refine ⟨fun t ht => h.unsearched t (hsql ▸ ht), fun t hfree ht => ?_⟩
  rw [hsql] at ht
  obtain ⟨hpolicy, howner⟩ := h.untouched t hfree ht
  refine ⟨hpolicy, fun f hf => ?_⟩
  obtain ⟨params, hparse, huser, hbinds⟩ := howner f hf
  exact ⟨params, hparams ▸ hparse, huser, hsql ▸ hbinds⟩

theorem Inv.saveCheck (hI : Inv lite s) {rd : Reading} {form : RpcForm}
    (hkept : Kept lite env s (.saveCheck rd form)) (h : step lite env s (.saveCheck rd form) = some s') :
    Inv lite s' := by
  rw [step] at h
  split at h
  · next hcheck =>
    obtain rfl := Option.some.inj h
    refine ⟨hI.rows, fun p hp hanon => ?_, hI.closure⟩
    obtain hp | hp := List.mem_append.mp hp
    · exact hI.pending p hp hanon
    · obtain rfl := List.mem_singleton.mp hp
      obtain ⟨hreads, hsearch⟩ := hkept hanon
      exact saveCheck_guarded hcheck hanon hreads hsearch
  · cases h

theorem Inv.saveWrite (hI : Inv lite s) {i : Nat} (hkept : Kept lite env s (.saveWrite i))
    (h : step lite env s (.saveWrite i) = some s') : Inv lite s' := by
  rw [step] at h
  split at h
  · next p hclosure hp =>
    -- the save that is written is no longer pending, and no other one is touched
    have hpending : ∀ q ∈ s.pending.eraseIdx i, q ∈ s.pending :=
      fun q hq => List.mem_of_mem_eraseIdx hq
    split at h
    · next rows hrows =>
      obtain rfl := Option.some.inj h
      refine ⟨fun row hrow hanon => ?_, fun q hq => hI.pending q (hpending q hq), fun cl hcl => ?_⟩
      · obtain hold | ⟨hsql, hparams, hcallable, -⟩ := mem_saveWrite hrows hrow
        · exact (hI.rows row hold hanon).of_rpcs rows
        · -- what was checked still holds: no collection that the body touches got protected
          have hform : p.form.anonCallable = true := by
            rw [← hcallable]
            exact (Bool.and_eq_true_iff.mp hanon).2
          have hseen := hI.pending p (List.mem_of_getElem? hp) hform
          have hnow := hseen.of_nothingNew (hkept p hp hform)
          exact (hnow.congr hsql hparams).of_rpcs rows
      · replace hcl : s.closure = some cl := hcl
        rw [hclosure] at hcl
        cases hcl
    · obtain rfl := Option.some.inj h
      exact ⟨hI.rows, fun q hq => hI.pending q (hpending q hq), hI.closure⟩
  · cases h

/-- The guard of the policies has seen every anonymous call. -/
theorem Inv.putPolicies (hI : Inv lite s) {rd : Reading} {role : TokenRole} {coll : String}
    {body : PutPoliciesBody} (h : step lite env s (.putPolicies rd role coll body) = some s') :
    Inv lite s' := by
  rw [step] at h
  split at h
  · next schema hclosure hcheck =>
    obtain rfl := Option.some.inj h
    refine ⟨hI.rows, hI.pending, ?_⟩
    rintro _ ⟨⟩ hattaching row hrow hanon htouches
    obtain ⟨hfree, hguard⟩ := checkPut_attaching hcheck hattaching
    obtain ⟨hsound, hcause⟩ := (guardPolicyChange_eq_ok_iff coll).mp hguard
    exact hcause ⟨row, hrow, hanon,
      references_of_touches (hsound.compiles row hrow hanon) htouches hfree⟩
  · cases h

/-- A round writes the policy of its operation, or nothing. -/
theorem putLoop_single (fails : DmlVerb → Bool) (schema : CollectionSchema) (coll : String)
    (body : PutPoliciesBody) (op : DmlVerb) (c : Catalog) :
    (putLoop fails schema coll body [op] c).2 = c ∨
      (putLoop fails schema coll body [op] c).2 = c.writePolicy coll op (body.get op) := by
  rw [putLoop]
  split
  · exact .inl rfl
  · split
    · exact .inl rfl
    · exact .inr rfl

theorem putLoop_tables (fails : DmlVerb → Bool) (schema : CollectionSchema) (coll : String)
    (body : PutPoliciesBody) (op : DmlVerb) (c : Catalog) :
    (putLoop fails schema coll body [op] c).2.tables = c.tables := by
  obtain hsame | hwritten := putLoop_single fails schema coll body op c
  · rw [hsame]
  · rw [hwritten]
    rfl

/-- A round tightens nothing that an anonymous call touches. -/
theorem Inv.round (hI : Inv lite s) {cl : PolicyClosure} (hcl : s.closure = some cl)
    {fails : DmlVerb → Bool} {op : DmlVerb} {row : RpcRow} (hrow : row ∈ s.db.rpcs)
    (hanon : RpcRow.isAnonSql row = true) :
    Guarded lite { s.db with
      catalog := (putLoop fails cl.schema cl.coll cl.body [op] s.db.catalog).2 } row := by
  refine (hI.rows row hrow hanon).of_not_tightened ?_ fun t ht => ?_
  · rw [sqlSchema, putLoop_tables]
    rfl
  · obtain hsame | hwritten := putLoop_single fails cl.schema cl.coll cl.body op s.db.catalog
    · rw [hsame]
      exact not_tightened_self s.db.catalog t
    · rw [hwritten]
      cases hattaching : attaching cl.body with
      | true =>
        have hne : t ≠ cl.coll := by
          rintro rfl
          exact hI.closure cl hcl hattaching row hrow hanon ht
        exact not_tightened_of_ne Catalog.row_upsertMeta hne
      | false =>
        rw [get_of_not_attaching hattaching]
        exact not_tightened_clear op t

theorem Inv.putRound (hI : Inv lite s) {fails : Bool}
    (h : step lite env s (.putRound fails) = some s') : Inv lite s' := by
  rw [step] at h
  split at h
  · cases h
  · obtain rfl := Option.some.inj h
    exact ⟨hI.rows, hI.pending, fun cl hcl => nomatch hcl⟩
  · next coll schema body op ops hclosure =>
    have hround : ∀ row ∈ s.db.rpcs, RpcRow.isAnonSql row = true →
        Guarded lite { s.db with
          catalog := (putLoop (fun _ => fails) schema coll body [op] s.db.catalog).2 } row :=
      fun row hrow hanon => hI.round hclosure hrow hanon
    have htables := putLoop_tables (fun _ => fails) schema coll body op s.db.catalog
    split at h
    · next c hput =>
      obtain rfl := Option.some.inj h
      rw [hput] at hround htables
      refine ⟨hround, hI.pending, ?_⟩
      rintro _ ⟨⟩ hattaching
      -- the loop goes on, and what the closure knows of the stored calls is of the same tables
      have hschema : sqlSchema { s.db with catalog := c } = sqlSchema s.db :=
        congrArg (SqlSchema.mk · s.db.heads) htables
      rw [hschema]
      exact hI.closure ⟨coll, schema, body, op :: ops⟩ hclosure hattaching
    · next c hput =>
      obtain rfl := Option.some.inj h
      rw [hput] at hround
      exact ⟨hround, hI.pending, fun cl hcl => nomatch hcl⟩

/-- The guard of the owner field has seen every anonymous call. -/
theorem Inv.setOwnerField (hI : Inv lite s) {coll field readScope : String}
    (h : step lite env s (.setOwnerField coll field readScope) = some s') : Inv lite s' := by
  rw [AnonReach.step] at h
  refine hI.withWriter h (fun db hdb => ?_) (fun db hdb row hrow hanon hguarded => ?_)
  · obtain ⟨_, -, hdb⟩ := Except.bind_eq_ok_iff.mp hdb
    obtain rfl := Except.ok.inj hdb
    rfl
  · obtain ⟨_, hguard, hdb⟩ := Except.bind_eq_ok_iff.mp hdb
    obtain rfl := Except.ok.inj hdb
    -- the guard has scanned every stored call under the definitions of this moment
    obtain ⟨hsound, hcause⟩ := (guardOwnerScopeChange_eq_ok_iff coll field).mp hguard
    refine ⟨hguarded.unsearched, fun t hfree ht => ?_⟩
    obtain ⟨hpolicy, howner⟩ := hguarded.untouched t hfree ht
    have hrows : (s.db.catalog.setOwnerField coll (some field) (some readScope)).row
        = Function.update s.db.catalog.row coll { s.db.catalog.row coll with
          ownerField := some field, readScope := some readScope } := Catalog.row_upsertMeta
    obtain rfl | hne := eq_or_ne t coll
    · refine ⟨?_, fun f hf => ?_⟩
      · rw [hasPolicy, hrows, Function.update_self]
        exact hpolicy
      · -- the body is among those that the guard compiled
        rw [hrows, Function.update_self] at hf
        obtain rfl := Option.some.inj hf
        have hrefs := references_of_touches (hsound.compiles row hrow hanon) ht hfree
        exact not_not.mp fun hunbound => hcause ⟨row, hrow, hanon, hrefs, hunbound⟩
    · rw [hasPolicy, hrows, Function.update_of_ne hne]
      exact ⟨hpolicy, howner⟩

theorem deletePolicy_eq_ok {rd : Reading} {fails : DmlVerb → Bool} {role : TokenRole}
    {db db' : TenantDb} {coll : String} {op : DmlVerb}
    (h : PolicyRoutes.deletePolicy lite rd fails role db coll op = (.ok (), db')) :
    db' = { db with catalog := db.catalog.writePolicy coll op none } := by
  unfold PolicyRoutes.deletePolicy at h
  split at h
  · cases h
  · split at h
    · cases h
    · split at h
      · cases h
      · exact (Prod.mk.inj h).2.symm

theorem clearOwnerFieldHandler_eq_ok {rd : Reading} {db db' : TenantDb} {coll : String}
    (h : clearOwnerFieldHandler lite rd db coll = .ok db') :
    db' = { db with catalog := db.catalog.setOwnerField coll none none } := by
  obtain ⟨⟨current, scope⟩, -, h⟩ := Except.bind_eq_ok_iff.mp h
  simp only at h
  split at h
  · obtain ⟨_, -, h⟩ := Except.bind_eq_ok_iff.mp h
    exact (Except.ok.inj h).symm
  · exact (Except.ok.inj h).symm

theorem dropCollectionTx_eq_ok {db db' : TenantDb} {name : String}
    (h : dropCollectionTx db name = .ok db') :
    db' = { db with
      catalog := (db.catalog.dropTable name).deleteCollectionMeta name
      heads := db.heads.filter fun h => h.1 != name } := by
  obtain ⟨_, -, h⟩ := Except.bind_eq_ok_iff.mp h
  obtain ⟨_, -, h⟩ := Except.bind_eq_ok_iff.mp h
  obtain ⟨_, -, h⟩ := Except.bind_eq_ok_iff.mp h
  exact (Except.ok.inj h).symm

/-- Every step keeps the invariant that meets the conditions. -/
theorem Inv.step {l : Label} (hI : Inv lite s) (hkept : Kept lite env s l)
    (h : step lite env s l = some s') : Inv lite s' := by
  cases l with
  | saveCheck rd form => exact hI.saveCheck hkept h
  | saveWrite i => exact hI.saveWrite hkept h
  | putPolicies rd role coll body => exact hI.putPolicies h
  | putRound fails => exact hI.putRound h
  | setOwnerField coll field readScope => exact hI.setOwnerField h
  | deletePolicy rd fails role coll op =>
    rw [AnonReach.step] at h
    -- a policy less tightens nothing
    refine hI.withWriter_of_not_tightened h fun db hdb => ?_
    split at hdb
    · next db' hdelete =>
      obtain rfl := Except.ok.inj hdb
      obtain rfl := deletePolicy_eq_ok hdelete
      exact ⟨rfl, rfl, not_tightened_clear op⟩
    · cases hdb
  | clearOwnerField rd coll =>
    rw [AnonReach.step] at h
    -- an owner field less tightens nothing
    refine hI.withWriter_of_not_tightened h fun db hdb => ?_
    obtain rfl := clearOwnerFieldHandler_eq_ok hdb
    refine ⟨rfl, rfl, not_tightened_of_row Catalog.row_upsertMeta (fun h => h) fun f hf => ?_⟩
    cases hf
  | createFtsIndex rd coll entry =>
    rw [AnonReach.step] at h
    -- a new head changes the definitions, and what they add to a stored call is the condition
    refine hI.withWriter_of_redefinable h fun db hdb => ?_
    unfold FtsTools.createFtsTx at hdb
    split at hdb
    · cases hdb
    · split at hdb
      · cases hdb
      · obtain ⟨list, -, hdb⟩ := Except.bind_eq_ok_iff.mp hdb
        obtain rfl := Except.ok.inj hdb
        refine ⟨rfl, _, hkept, rfl, ?_⟩
        exact not_tightened_of_row Catalog.row_upsertMeta (fun h => h) fun _ hf => hf
  | createCollection name fields description =>
    rw [AnonReach.step] at h
    -- a new collection may be the child of another one by a foreign key
    refine hI.withWriter_of_redefinable h fun db hdb => ?_
    cases hcreate : SchemaTools.createCollectionTx env s.db.catalog name fields description with
    | error e =>
      rw [hcreate] at hdb
      cases hdb
    | ok c =>
      rw [hcreate] at hdb
      obtain rfl := Except.ok.inj hdb
      obtain ⟨columns, hcolumns, htables⟩ := SchemaTools.createCollectionTx_tables hcreate
      refine ⟨rfl, _, hkept columns hcolumns, ?_, fun t => ?_⟩
      · exact congrArg (SqlSchema.mk · s.db.heads) htables
      · exact not_tightened_of_tables (not_tightened_create hcreate t)
  | dropCollection name =>
    rw [AnonReach.step] at h
    -- its policies and its owner field go with the collection
    refine hI.withWriter_of_redefinable h fun db hdb => ?_
    obtain rfl := dropCollectionTx_eq_ok hdb
    exact ⟨rfl, _, hkept, rfl, not_tightened_drop⟩

theorem Inv.initial {s : State} (hrpcs : s.db.rpcs = []) (hclosure : s.closure = none)
    (hpending : s.pending = []) : Inv lite s where
  rows := by
    rw [hrpcs]
    exact fun row hrow => absurd hrow List.not_mem_nil
  pending := by
    rw [hpending]
    exact fun p hp => absurd hp List.not_mem_nil
  closure := by
    rw [hclosure]
    exact fun cl hcl => nomatch hcl

end Invariant

/-! ### No anonymous call reaches protected rows -/

/-- A tenant without stored calls. -/
def start (c : Catalog) (heads : List (String × String)) : State where
  db := { catalog := c, heads := heads, rpcs := [] }

/-- A tenant with two collections, the notes on posts. -/
def posts : Catalog where
  tables := (AList.singleton "posts" { columns := [{ name := "title", sqlType := "TEXT" },
      { name := "visibility", sqlType := "TEXT" }] }).insert "notes" {
    columns := [{ name := "post", sqlType := "INTEGER", foreignKey := some "posts" }] }
  metas := ∅

end AnonReach

end Drust
