import Drust.Rpc.Prepare

/-!
# Saving a call from the form

The form of the administration pages stores a call under its name: a new one is created, and
one that exists is updated. Both go through the same two parts. The checks run on a reader
(`saveCheck`), and the row is written later, in a transaction of the writer (`saveWrite`).
The transaction looks the name up again, and does not check the body again.

The form is that of a call with an SQL body. The kind of a stored call never changes.
-/

namespace Drust

namespace RpcAdmin

open Prepare

/-! ### The registry -/

inductive RegistryError where
  /-- "rpc not found: '..'". -/
  | notFound (name : String)
  /-- "rpc already exists: '..'". -/
  | alreadyExists (name : String)
  /-- "kind rule violated: rpc '..': kind=query requires a query_json template". -/
  | queryNeedsTemplate (name : String)
  /-- "kind rule violated: rpc '..': kind=query carries no sql body; its body is query_json". -/
  | queryCarriesSql (name : String)
  /-- "kind rule violated: rpc '..': kind=query is always mode=read". -/
  | queryIsRead (name : String)
  /-- "kind rule violated: rpc '..': kind=sql carries no query_json template; its body is
  sql". -/
  | sqlCarriesTemplate (name : String)
  deriving DecidableEq, Repr

/-- What each kind of row may have. `after` is the template that the row has once it is
written, and `set` the one that this write sets. -/
def checkKindRules (name : String) (kind : RpcKind) (sql : String) (mode : RpcMode)
    (after set : Option String) : Except RegistryError Unit :=
  match kind with
  | .query =>
    if after.isNone then .error (.queryNeedsTemplate name)
    else if sql ≠ "" then .error (.queryCarriesSql name)
    else if mode ≠ .read then .error (.queryIsRead name)
    else .ok ()
  | .sql => if set.isSome then .error (.sqlCarriesTemplate name) else .ok ()

/-- The rows with a new one at its place. -/
def insertRow (row : RpcRow) (rows : List RpcRow) : List RpcRow :=
  rows.takeWhile (fun r => r.name < row.name) ++ row :: rows.dropWhile (fun r => r.name < row.name)

def create (rows : List RpcRow) (row : RpcRow) : Except RegistryError (List RpcRow) := do
  checkKindRules row.name row.kind row.sql row.mode row.queryJson row.queryJson
  if rows.any (fun r => r.name == row.name) then .error (.alreadyExists row.name)
  else .ok (insertRow row rows)

/-- The columns that an update sets; `none` leaves one as it is. -/
structure RpcUpdate where
  sql : Option String := none
  paramsJson : Option String := none
  anonCallable : Option Bool := none
  mode : Option RpcMode := none
  queryJson : Option String := none

def RpcUpdate.apply (up : RpcUpdate) (row : RpcRow) : RpcRow :=
  { row with
    sql := up.sql.getD row.sql
    paramsJson := up.paramsJson.getD row.paramsJson
    anonCallable := up.anonCallable.getD row.anonCallable
    mode := up.mode.getD row.mode
    queryJson := up.queryJson <|> row.queryJson }

/-- A partial update is judged by the row that it makes. -/
def update (rows : List RpcRow) (name : String) (up : RpcUpdate) :
    Except RegistryError (List RpcRow) :=
  match rows.find? (fun r => r.name == name) with
  | none => .error (.notFound name)
  | some stored => do
    let row := up.apply stored
    checkKindRules name row.kind row.sql row.mode row.queryJson up.queryJson
    .ok (rows.map fun r => if r.name = name then up.apply r else r)

/-! ### The form -/

structure RpcForm where
  name : String
  sql : String
  paramsJson : String
  anonCallable : Bool
  mode : RpcMode
  queryJson : Option String := none
  deriving DecidableEq, Repr

/-- The row that a new call gets. -/
def RpcForm.row (form : RpcForm) : RpcRow where
  name := form.name
  sql := form.sql
  paramsJson := form.paramsJson
  anonCallable := form.anonCallable
  mode := form.mode
  kind := .sql
  queryJson := form.queryJson

inductive SaveError where
  /-- "RPC_KIND_INVALID: kind='sql' carries no `query` template; its body is sql". -/
  | carriesTemplate
  | params (message : String)
  | prepare (why : PrepareError)
  deriving DecidableEq, Repr

section Save

variable (lite : Sqlite) (rd : Reading)

/-- What is checked on a reader. -/
def saveCheck (db : TenantDb) (form : RpcForm) : Except SaveError Unit := do
  if form.queryJson.isSome then .error .carriesTemplate
  else do
    let params ← (lite.parseParamsJson form.paramsJson).mapError .params
    (validateRpcSql lite db form.sql form.mode).mapError .prepare
    (guardAnonOwnerScopedRpc lite rd db form.sql params form.anonCallable form.mode).mapError .prepare

/-- A row of the name is there, and its parameters parse. -/
def existsNow (rows : List RpcRow) (name : String) : Bool :=
  (rows.find? fun r => r.name == name).any fun r => (storedRpc lite r).isOk

/-- The later transaction: create the call, or update it. -/
def saveWrite (rows : List RpcRow) (form : RpcForm) : Except RegistryError (List RpcRow) :=
  if existsNow lite rows form.name then
    update rows form.name {
      sql := some form.sql
      paramsJson := some form.paramsJson
      anonCallable := some form.anonCallable
      mode := some form.mode
      queryJson := form.queryJson }
  else create rows form.row

variable {lite}

/-- A save changes no other call. The row that it writes has the body and the parameters of
the form, or is a row without SQL. -/
theorem mem_saveWrite {rows rows' : List RpcRow} {form : RpcForm} {row : RpcRow}
    (h : saveWrite lite rows form = .ok rows') (hrow : row ∈ rows') :
    row ∈ rows ∨ (row.sql = form.sql ∧ row.paramsJson = form.paramsJson ∧
      row.anonCallable = form.anonCallable ∧ row.mode = form.mode) := by
  rw [saveWrite] at h
  split at h
  · rw [update] at h
    split at h
    · cases h
    · obtain ⟨_, -, h⟩ := Except.bind_eq_ok_iff.mp h
      obtain rfl := Except.ok.inj h
      obtain ⟨r, hr, rfl⟩ := List.mem_map.mp hrow
      by_cases hname : r.name = form.name
      · rw [if_pos hname]
        exact .inr ⟨rfl, rfl, rfl, rfl⟩
      · rw [if_neg hname]
        exact .inl hr
  · obtain ⟨_, -, h⟩ := Except.bind_eq_ok_iff.mp h
    split at h
    · cases h
    · obtain rfl := Except.ok.inj h
      obtain hrow | hrow := List.mem_append.mp hrow
      · exact .inl (List.takeWhile_subset _ hrow)
      · obtain rfl | hrow := List.mem_cons.mp hrow
        · exact .inr ⟨rfl, rfl, rfl, rfl⟩
        · exact .inl (List.dropWhile_subset _ hrow)

end Save

end RpcAdmin

end Drust
