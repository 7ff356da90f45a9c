import Drust.Lib.RowTable
import Drust.Mgmt.Tenants

/-!
# The admins of a host and their tokens

The tables of the meta database that the team, the personal access tokens and the device login of
the command line use. Each has an integer primary key, and SQLite gives a row that is inserted the
key above the highest one. `AdminMeta` has the unique indexes and the references as its fields, and
a statement that would break one of them has no result.

An admin has at most one active token without a label, which is what `uniq_admin_tokens_active`
says. The tokens of the command line have a label, and there may be any number of them. The row of
an admin that is deleted takes its tokens with it (`ON DELETE CASCADE`), but `minted_token_id` of a
device code is no reference, and the codes stay.

Clocks count milliseconds, and a column that holds `datetime(..)` counts seconds.
-/

namespace Drust

namespace AdminPlane

/-- A row of `admins`. -/
structure Admin where
  username : String
  email : Option String := none
  role : String := "member"
  deriving DecidableEq, Repr

/-- A row of `_admin_tokens`. -/
structure AdminToken where
  adminId : Int
  tokenHash : String
  plaintext : Option String := none
  label : Option String := none
  expiresAt : Option Int := none
  revokedAt : Option Int := none
  deriving DecidableEq, Repr

/-- The entry of a token in `uniq_admin_tokens_active`. -/
def AdminToken.activePat (tok : AdminToken) : Option Int :=
  if tok.revokedAt.isNone && tok.label.isNone then some tok.adminId else none

inductive DeviceStatus where
  | pending
  | approved
  | redeemed
  | denied
  deriving DecidableEq, Repr

/-- A row of `_cli_device_codes`. -/
structure DeviceCode where
  deviceCodeHash : String
  userCode : String
  clientName : String
  status : DeviceStatus := .pending
  adminId : Option Int := none
  mintedTokenId : Option Int := none
  expiresAt : Int
  lastPolledAt : Option Int := none
  deriving DecidableEq, Repr

structure AdminMeta where
  admins : RowTable Admin
  adminTokens : RowTable AdminToken
  deviceCodes : RowTable DeviceCode
  usernames : admins.Unique (some ∘ Admin.username)
  emails : admins.Unique Admin.email
  tokenHashes : adminTokens.Unique (some ∘ AdminToken.tokenHash)
  activePats : adminTokens.Unique AdminToken.activePat
  tokenAdmins : ∀ tok ∈ adminTokens.rows, tok.adminId ∈ admins.ids
  deviceCodeHashes : deviceCodes.Unique (some ∘ DeviceCode.deviceCodeHash)
  userCodes : deviceCodes.Unique (some ∘ DeviceCode.userCode)

/-- `datetime('now')`. -/
def seconds (now : Int) : Int := now / 1000

def AdminToken.revoke (now : Int) (tok : AdminToken) : AdminToken :=
  { tok with revokedAt := some (seconds now) }

namespace AdminMeta

variable (db : AdminMeta)

/-! ### `admins` -/

/-- `INSERT INTO admins`. The name and the address are new. -/
def insertAdmin (a : Admin) : Option AdminMeta :=
  if h : (∀ k, (some ∘ Admin.username) a = some k →
        k ∉ db.admins.rows.filterMap (some ∘ Admin.username)) ∧
      (∀ k, a.email = some k → k ∉ db.admins.rows.filterMap Admin.email) then
    some { db with
      admins := db.admins.insert a
      usernames := db.usernames.insert h.1
      emails := db.emails.insert h.2
      tokenAdmins := by
        intro tok htok
        rw [RowTable.ids_insert]
        exact List.mem_append_left _ (db.tokenAdmins tok htok) }
  else none

/-- `UPDATE admins SET role = ?1 WHERE id = ?2`. -/
def setRole (role : String) (id : Int) : AdminMeta :=
  { db with
    admins := db.admins.update (fun i _ => i == id) fun a => { a with role := role }
    usernames := db.usernames.update fun _ => Or.inl rfl
    emails := db.emails.update fun _ => Or.inl rfl
    tokenAdmins := by
      intro tok htok
      rw [RowTable.ids_update]
      exact db.tokenAdmins tok htok }

/-- `DELETE FROM admins WHERE id = ?1`, and the tokens of the admin. -/
def deleteAdmin (id : Int) : AdminMeta :=
  { db with
    admins := db.admins.delete fun i _ => i == id
    adminTokens := db.adminTokens.delete fun _ tok => tok.adminId == id
    usernames := db.usernames.delete
    emails := db.emails.delete
    tokenHashes := db.tokenHashes.delete
    activePats := db.activePats.delete
    tokenAdmins := by
      intro tok htok
      obtain ⟨i, htok⟩ := RowTable.mem_rows.mp htok
      obtain ⟨htok, hother⟩ := RowTable.mem_entries_delete.mp htok
      obtain ⟨a, ha⟩ := RowTable.mem_ids.mp (db.tokenAdmins tok (RowTable.mem_rows.mpr ⟨i, htok⟩))
      exact RowTable.mem_ids.mpr ⟨a, RowTable.mem_entries_delete.mpr ⟨ha, hother⟩⟩ }

/-! ### `_admin_tokens` -/

/-- `INSERT INTO _admin_tokens`. The admin exists, the hash is new, and a token without a label is
the only active one. -/
def insertToken (tok : AdminToken) : Option AdminMeta :=
  if h : ((∀ k, (some ∘ AdminToken.tokenHash) tok = some k →
        k ∉ db.adminTokens.rows.filterMap (some ∘ AdminToken.tokenHash)) ∧
      (∀ k, tok.activePat = some k → k ∉ db.adminTokens.rows.filterMap AdminToken.activePat)) ∧
      tok.adminId ∈ db.admins.ids then
    some { db with
      adminTokens := db.adminTokens.insert tok
      tokenHashes := db.tokenHashes.insert h.1.1
      activePats := db.activePats.insert h.1.2
      tokenAdmins := by
        intro tok' htok'
        rw [RowTable.rows_insert] at htok'
        obtain htok' | htok' := List.mem_append.mp htok'
        · exact db.tokenAdmins tok' htok'
        · rw [List.mem_singleton.mp htok']
          exact h.2 }
  else none

/-- `UPDATE _admin_tokens SET revoked_at = datetime('now') WHERE ..`. -/
def revokeTokens (p : Int → AdminToken → Bool) (now : Int) : AdminMeta :=
  { db with
    adminTokens := db.adminTokens.update p (AdminToken.revoke now)
    tokenHashes := db.tokenHashes.update fun _ => Or.inl rfl
    activePats := db.activePats.update fun _ => Or.inr rfl
    tokenAdmins := by
      intro tok htok
      obtain ⟨i, htok⟩ := RowTable.mem_rows.mp htok
      obtain ⟨tok', htok', rfl⟩ := RowTable.mem_entries_update.mp htok
      have hadmin := db.tokenAdmins tok' (RowTable.mem_rows.mpr ⟨i, htok'⟩)
      split
      · exact hadmin
      · exact hadmin }

/-! ### `_cli_device_codes` -/

/-- `INSERT INTO _cli_device_codes`. Both codes are new. -/
def insertDevice (d : DeviceCode) : Option AdminMeta :=
  if h : (∀ k, (some ∘ DeviceCode.deviceCodeHash) d = some k →
        k ∉ db.deviceCodes.rows.filterMap (some ∘ DeviceCode.deviceCodeHash)) ∧
      (∀ k, (some ∘ DeviceCode.userCode) d = some k →
        k ∉ db.deviceCodes.rows.filterMap (some ∘ DeviceCode.userCode)) then
    some { db with
      deviceCodes := db.deviceCodes.insert d
      deviceCodeHashes := db.deviceCodeHashes.insert h.1
      userCodes := db.userCodes.insert h.2 }
  else none

/-- A change of a device code that keeps both of its codes. -/
structure DeviceChange where
  apply : DeviceCode → DeviceCode
  hash : ∀ d, (apply d).deviceCodeHash = d.deviceCodeHash
  userCode : ∀ d, (apply d).userCode = d.userCode

/-- `UPDATE _cli_device_codes SET .. WHERE ..`. -/
def updateDevices (p : Int → DeviceCode → Bool) (f : DeviceChange) : AdminMeta :=
  { db with
    deviceCodes := db.deviceCodes.update p f.apply
    deviceCodeHashes := db.deviceCodeHashes.update fun d => Or.inl (congrArg some (f.hash d))
    userCodes := db.userCodes.update fun d => Or.inl (congrArg some (f.userCode d)) }

/-- `DELETE FROM _cli_device_codes WHERE ..`. -/
def deleteDevices (p : Int → DeviceCode → Bool) : AdminMeta :=
  { db with
    deviceCodes := db.deviceCodes.delete p
    deviceCodeHashes := db.deviceCodeHashes.delete
    userCodes := db.userCodes.delete }

/-- The first row that is selected. -/
def findDevice (p : Int → DeviceCode → Bool) : Option (Int × DeviceCode) :=
  db.deviceCodes.entries.find? fun e => p e.1 e.2

/-! ### What the statements leave -/

variable {db} {db' : AdminMeta}

theorem insertAdmin_eq_some {a : Admin} (h : db.insertAdmin a = some db') :
    db'.admins = db.admins.insert a ∧ db'.adminTokens = db.adminTokens ∧
      db'.deviceCodes = db.deviceCodes := by
  unfold insertAdmin at h
  split at h
  · cases h
    exact ⟨rfl, rfl, rfl⟩
  · cases h

/-- A token that was inserted is new, and its admin exists. -/
theorem insertToken_eq_some {tok : AdminToken} (h : db.insertToken tok = some db') :
    db'.adminTokens = db.adminTokens.insert tok ∧ db'.admins = db.admins ∧
      db'.deviceCodes = db.deviceCodes := by
  unfold insertToken at h
  split at h
  · cases h
    exact ⟨rfl, rfl, rfl⟩
  · cases h

theorem insertDevice_eq_some {d : DeviceCode} (h : db.insertDevice d = some db') :
    db'.deviceCodes = db.deviceCodes.insert d ∧ db'.admins = db.admins ∧
      db'.adminTokens = db.adminTokens := by
  unfold insertDevice at h
  split at h
  · cases h
    exact ⟨rfl, rfl, rfl⟩
  · cases h

theorem findDevice_eq_some {p : Int → DeviceCode → Bool} {i : Int} {d : DeviceCode}
    (h : db.findDevice p = some (i, d)) : (i, d) ∈ db.deviceCodes.entries ∧ p i d = true :=
  ⟨List.mem_of_find?_eq_some h, by simpa using List.find?_some h⟩

end AdminMeta

end AdminPlane

end Drust
