import Drust.Tenant.Records

/-!
# Creating a tenant

A tenant is a row of the meta database, two tokens, and a directory with its own database.
`makeTenantInner` makes all of them, one statement after the other on a connection that
commits each at once. The id of a tenant that was soft-deleted may be used again: the row that
is left of it, its tokens and its quota requests are deleted first.

Every statement and every step on the file system may fail (`Faults`). A statement that fails
changes nothing, and a step on the file system leaves what it leaves. The computation keeps
what was done before it failed, so it is one in `EStateM`.

`MetaDb` has the constraints of the tables as its fields: the keys, the unique hashes and the
references between the rows.
-/

namespace Drust

namespace Tenants

/-! ### The meta database -/

structure AdminRow where
  id : Int
  role : String
  tenantCapBonus : Int := 0
  deriving DecidableEq, Repr

/-- A row of `tenants`. -/
structure TenantRow where
  id : String
  name : String
  deletedAt : Option String := none
  quotaDbMb : Int := 500
  quotaRows : Int := 1000000
  ownerAdminId : Option Int := none
  deriving DecidableEq, Repr

/-- A row of `tokens`. -/
structure TokenRow where
  tenantId : String
  tokenHash : String
  plaintext : String
  label : String
  role : TokenRole
  revokedAt : Option String := none
  deriving DecidableEq

/-- A row of `quota_requests`. Its tenant need not exist. -/
structure QuotaRequest where
  tenantId : String
  requesterAdminId : Int
  requestedTier : Int
  deriving DecidableEq, Repr

@[ext]
structure MetaDb where
  admins : List AdminRow
  tenants : List TenantRow
  tokens : List TokenRow
  quotaRequests : List QuotaRequest
  tenantIds : (tenants.map TenantRow.id).Nodup
  tokenHashes : (tokens.map TokenRow.tokenHash).Nodup
  tokenTenants : ∀ tok ∈ tokens, ∃ row ∈ tenants, row.id = tok.tenantId

namespace MetaDb

variable (db : MetaDb)

/-- `DELETE FROM tokens WHERE tenant_id = ?1`. -/
def deleteTokens (id : String) : MetaDb :=
  { db with
    tokens := db.tokens.filter fun tok => tok.tenantId != id
    tokenHashes := db.tokenHashes.sublist (List.filter_sublist.map _)
    tokenTenants := fun tok htok => db.tokenTenants tok (List.mem_of_mem_filter htok) }

/-- `DELETE FROM quota_requests WHERE tenant_id = ?1`. -/
def deleteRequestsForTenant (id : String) : MetaDb :=
  { db with quotaRequests := db.quotaRequests.filter fun r => r.tenantId != id }

/-- `DELETE FROM tenants WHERE id = ?1`. A token that references the row forbids it. -/
def deleteTenant (id : String) : Option MetaDb :=
  if h : ∀ tok ∈ db.tokens, tok.tenantId ≠ id then
    some { db with
      tenants := db.tenants.filter fun row => row.id != id
      tenantIds := db.tenantIds.sublist (List.filter_sublist.map _)
      tokenTenants := by
        intro tok htok
        obtain ⟨row, hrow, hid⟩ := db.tokenTenants tok htok
        exact ⟨row, List.mem_filter.mpr ⟨hrow, by simpa [hid] using h tok htok⟩, hid⟩ }
  else none

/-- `INSERT INTO tenants`. The id is new, and the owner exists. -/
def insertTenant (row : TenantRow) : Option MetaDb :=
  if h : row.id ∉ db.tenants.map TenantRow.id ∧
      ∀ owner, row.ownerAdminId = some owner → owner ∈ db.admins.map AdminRow.id then
    some { db with
      tenants := db.tenants ++ [row]
      tenantIds := by
        rw [List.map_append, List.map_singleton, List.nodup_append_comm]
        exact List.nodup_cons.mpr ⟨h.1, db.tenantIds⟩
      tokenTenants := by
        intro tok htok
        obtain ⟨row', hrow', hid⟩ := db.tokenTenants tok htok
        exact ⟨row', List.mem_append_left _ hrow', hid⟩ }
  else none

/-- `INSERT INTO tokens`. The hash is new, and the tenant exists. -/
def insertToken (tok : TokenRow) : Option MetaDb :=
  if h : tok.tokenHash ∉ db.tokens.map TokenRow.tokenHash ∧
      ∃ row ∈ db.tenants, row.id = tok.tenantId then
    some { db with
      tokens := db.tokens ++ [tok]
      tokenHashes := by
        rw [List.map_append, List.map_singleton, List.nodup_append_comm]
        exact List.nodup_cons.mpr ⟨h.1, db.tokenHashes⟩
      tokenTenants := by
        intro tok' htok'
        obtain htok' | htok' := List.mem_append.mp htok'
        · exact db.tokenTenants tok' htok'
        · rw [List.mem_singleton.mp htok']
          exact h.2 }
  else none

end MetaDb

/-! ### The directory -/

/-- What is stored in `data.sqlite`. -/
structure TenantData where
  hasSystemTables : Bool := false
  /-- The root rule of the file policies: owner-scoped, public to read. -/
  rootPolicy : Option (Bool × Bool) := none
  /-- Everything else. -/
  rows : List String := []
  deriving DecidableEq, Repr

structure MetaJson where
  name : String
  createdAt : String
  quotaDbMb : Int
  quotaRows : Int
  deriving DecidableEq, Repr

/-- The directory of a tenant. -/
structure TenantDir where
  data : Option TenantData := none
  metaJson : Option MetaJson := none
  deriving DecidableEq, Repr

structure World where
  db : MetaDb
  /-- The directory of the id that is asked for. -/
  dir : Option TenantDir

/-- The steps that may fail. -/
inductive Step where
  | ownedTenantCount
  | lookupAdminCap
  | selectExisting
  | deleteTokens
  | deleteRequests
  | deleteTenant
  | removeDir
  | insertTenant
  | createDir
  /-- Open the database, set its pragmas and make its tables. -/
  | openWrite
  | seedRootPolicy
  | writeMetaJson
  | insertService
  | insertAnon
  deriving DecidableEq, Repr

structure Faults where
  fails : Step → Bool
  /-- What a step on the file system that fails leaves of the directory. -/
  leaves : Step → Option TenantDir

inductive TenantIdError where
  /-- "tenant id must be 1–52 characters, got ..". -/
  | badLength (len : Nat)
  /-- "tenant id must match [a-z0-9-]+". -/
  | badChars
  /-- "tenant id '..' is reserved". -/
  | reserved (id : String)
  deriving DecidableEq, Repr

inductive MakeError where
  /-- "TENANT_CAP_EXCEEDED: you own .. of .. allowed databases." -/
  | capExceeded (owned cap : Int)
  /-- "invalid tenant id: ..". -/
  | invalidTenantId (why : TenantIdError)
  /-- "tenant '..' already exists". -/
  | alreadyExists (id : String)
  /-- A statement or a step on the file system fails. -/
  | failed (step : Step)
  deriving DecidableEq, Repr

/-! ### The checks -/

def reservedTenantIds : List String := ["admin", "system", "root", "public"]

def isTenantIdChar (c : Char) : Bool :=
  ('a' ≤ c && c ≤ 'z') || ('0' ≤ c && c ≤ '9') || c == '-'

def validateTenantId (id : String) : Except TenantIdError Unit :=
  let len := id.utf8ByteSize
  if ¬ (1 ≤ len ∧ len ≤ 52) then .error (.badLength len)
  else if !id.toList.all isTenantIdChar then .error .badChars
  else if id ∈ reservedTenantIds then .error (.reserved id)
  else .ok ()

def seesAllTenants (role : String) : Bool :=
  role == "owner" || role == "admin"

inductive TenantAccess where
  | allow
  | deny
  deriving DecidableEq, Repr

def tenantAccessFor (seesAll : Bool) (caller : Int) (tenantOwner : Option Int) : TenantAccess :=
  if seesAll then .allow
  else match tenantOwner with
    | some o => if o = caller then .allow else .deny
    | none => .deny

/-- Addition of 64-bit integers that stops at the bounds. -/
def saturatingAdd (a b : Int) : Int :=
  max (-2 ^ 63) (min (2 ^ 63 - 1) (a + b))

def effectiveCap (default bonus : Int) : Int :=
  max (saturatingAdd default bonus) 0

def mayCreateTenant (role : String) (owned cap : Int) : Bool :=
  seesAllTenants role || decide (owned < cap)

def ownedTenantCount (db : MetaDb) (admin : Int) : Int :=
  db.tenants.countP fun row => row.ownerAdminId == some admin && row.deletedAt.isNone

def lookupAdminCap (default : Int) (db : MetaDb) (admin : Int) : Option (String × Int) :=
  (db.admins.find? fun a => a.id == admin).map fun a =>
    (a.role, effectiveCap default a.tenantCapBonus)

/-! ### The call -/

/-- What a call is given. The tokens come from the random source, and the time from the
clock. -/
structure MakeInput where
  id : String
  name : String
  quotaMb : Int
  quotaRows : Int
  ownerAdminId : Int
  serviceToken : String
  anonToken : String
  now : String

structure CreatedResp where
  id : String
  name : String
  createdAt : String
  quotaDbMb : Int
  quotaRows : Int
  anon : String
  service : String
  deriving DecidableEq, Repr

/-- What the rest of a call depends on: the id is free, or that of a soft-deleted tenant. -/
inductive Branch where
  | fresh
  | recycle
  deriving DecidableEq, Repr

abbrev M := EStateM MakeError World

section Call

variable (f : Faults) (defaultCap : Int) (hashToken : String → String)

/-- A step that fails or has a result. -/
def attempt {α : Type} (step : Step) (result : Option α) : Except MakeError α :=
  if f.fails step then .error (.failed step)
  else match result with
    | some a => .ok a
    | none => .error (.failed step)

/-- The reads and gates before the first write. -/
def checkTenant (w : World) (inp : MakeInput) : Except MakeError Branch := do
  let owned ← attempt f .ownedTenantCount (some (ownedTenantCount w.db inp.ownerAdminId))
  let found ← attempt f .lookupAdminCap (some (lookupAdminCap defaultCap w.db inp.ownerAdminId))
  let (role, cap) := found.getD ("member", 0)
  if !mayCreateTenant role owned cap then .error (.capExceeded owned cap)
  else match validateTenantId inp.id with
    | .error e => .error (.invalidTenantId e)
    | .ok () => do
      let existing ← attempt f .selectExisting (some (w.db.tenants.find? fun row => row.id == inp.id))
      match existing with
      | none => .ok .fresh
      | some row =>
        if row.deletedAt.isNone then .error (.alreadyExists inp.id)
        else if tenantAccessFor (seesAllTenants role) inp.ownerAdminId row.ownerAdminId = .deny then
          .error (.alreadyExists inp.id)
        else .ok .recycle

/-- A statement on the meta database. One that fails changes nothing. -/
def statement (step : Step) (run : MetaDb → Option MetaDb) : M Unit := fun w =>
  match attempt f step (run w.db) with
  | .ok db => .ok () { w with db := db }
  | .error e => .error e w

/-- A step on the directory. -/
def onDir (step : Step) (run : Option TenantDir → Option TenantDir) : M Unit := fun w =>
  if f.fails step then .error (.failed step) { w with dir := f.leaves step }
  else .ok () { w with dir := run w.dir }

/-- Remove what is left of the directory. That this fails is no error. -/
def removeDirAll : M Unit := fun w =>
  if w.dir.isNone then .ok () w
  else if f.fails .removeDir then .ok () { w with dir := f.leaves .removeDir }
  else .ok () { w with dir := none }

/-- Delete what is left of a soft-deleted tenant. -/
def purge (id : String) : M Unit := do
  statement f .deleteTokens fun db => some (db.deleteTokens id)
  statement f .deleteRequests fun db => some (db.deleteRequestsForTenant id)
  statement f .deleteTenant fun db => db.deleteTenant id
  removeDirAll f

def MakeInput.tenantRow (inp : MakeInput) : TenantRow where
  id := inp.id
  name := inp.name
  quotaDbMb := inp.quotaMb
  quotaRows := inp.quotaRows
  ownerAdminId := some inp.ownerAdminId

def MakeInput.serviceRow (inp : MakeInput) : TokenRow where
  tenantId := inp.id
  tokenHash := hashToken inp.serviceToken
  plaintext := inp.serviceToken
  label := "initial-service"
  role := .service

def MakeInput.anonRow (inp : MakeInput) : TokenRow where
  tenantId := inp.id
  tokenHash := hashToken inp.anonToken
  plaintext := inp.anonToken
  label := "initial-anon"
  role := .anon

def MakeInput.metaJson (inp : MakeInput) : MetaJson where
  name := inp.name
  createdAt := inp.now
  quotaDbMb := inp.quotaMb
  quotaRows := inp.quotaRows

/-- Open the database of the tenant, which makes the directory and the file where they are
missing. -/
def openWrite : M Unit := do
  onDir f .createDir fun dir => some (dir.getD {})
  onDir f .openWrite fun dir =>
    dir.map fun d => { d with data := some { d.data.getD {} with hasSystemTables := true } }

/-- The root rule, unless there is one. -/
def seedRootPolicy : M Unit :=
  onDir f .seedRootPolicy fun dir =>
    dir.map fun d => { d with
      data := d.data.map fun data => { data with rootPolicy := data.rootPolicy <|> some (false, true) } }

/-- The directory with its database and its `meta.json`. -/
def makeDir (inp : MakeInput) : M Unit := do
  openWrite f
  seedRootPolicy f
  onDir f .writeMetaJson fun dir => dir.map fun d => { d with metaJson := some inp.metaJson }

/-- The two keys, which are shown once. -/
def issueTokens (inp : MakeInput) : M CreatedResp := do
  statement f .insertService fun db => db.insertToken (inp.serviceRow hashToken)
  statement f .insertAnon fun db => db.insertToken (inp.anonRow hashToken)
  pure {
    id := inp.id
    name := inp.name
    createdAt := inp.now
    quotaDbMb := inp.quotaMb
    quotaRows := inp.quotaRows
    anon := inp.anonToken
    service := inp.serviceToken }

/-- The checks as the first part of the call. -/
def checked (inp : MakeInput) : M Branch := fun w =>
  match checkTenant f defaultCap w inp with
  | .ok branch => .ok branch w
  | .error e => .error e w

def makeTenantInner (inp : MakeInput) : M CreatedResp := do
  let branch ← checked f defaultCap inp
  match branch with
  | .fresh => pure ()
  | .recycle => purge f inp.id
  statement f .insertTenant fun db => db.insertTenant inp.tenantRow
  makeDir f inp
  issueTokens f hashToken inp

end Call

end Tenants

end Drust
