import Drust.Mgmt.AdminPat
import Drust.Rpc.ExecWrite

/-!
# The device login of the command line

A command line starts with `deviceStart`, which gives it a device code and a code for its user. An
admin who is logged in approves or denies the code of the user, and the command line polls with the
device code until it gets the token that the approval minted (`devicePoll`). The token is in
`_admin_tokens` only: the row of the device code has its id.

A code is pending, approved, redeemed or denied. It is redeemed by the statement that reads the id of
its token, so a second poll does not find it approved.
-/

namespace Drust

namespace AdminPlane

open ExecWrite (trim)

def cliDeviceCodeTtlSecs : Int := 900

def cliDevicePollIntervalSecs : Int := 5

variable (hashToken : String → String)

/-! ### The command line's side -/

/-- The name that the page of the approval shows. -/
def clientNameOf (clientName : Option String) : String :=
  match (clientName.map fun c => String.ofList (trim c.toList)).filter (· ≠ "") with
  | some c => c
  | none => "drust-cli"

/-- A pair of codes is drawn until one can be inserted. -/
def drawCodes (db : AdminMeta) (clientName : String) (now : Int) :
    List (String × String) → Option ((String × String) × AdminMeta)
  | [] => none
  | (deviceCode, userCode) :: draws =>
    match db.insertDevice
      { deviceCodeHash := hashToken deviceCode, userCode := userCode, clientName := clientName,
        expiresAt := seconds now + cliDeviceCodeTtlSecs } with
    | some db' => some ((deviceCode, userCode), db')
    | none => drawCodes db clientName now draws

/-- `DEVICE_CODE_MINT_FAILED` after eight pairs. -/
def deviceStart (db : AdminMeta) (clientName : Option String) (draws : List (String × String))
    (now : Int) : Option ((String × String) × AdminMeta) :=
  drawCodes hashToken db (clientNameOf clientName) now (draws.take 8)

inductive PollAnswer where
  | expired
  | denied
  | slowDown
  | pending
  /-- `DEVICE_TOKEN_MISSING`. -/
  | tokenMissing
  | approved (accessToken : String) (expiresAt : Option Int) (adminId : Option Int)
      (email : Option String)
  deriving DecidableEq, Repr

def byHash (h : String) (_ : Int) (d : DeviceCode) : Bool :=
  d.deviceCodeHash == h

/-- What the statement selects that redeems a code. -/
def redeemable (h : String) (now : Int) (_ : Int) (d : DeviceCode) : Bool :=
  d.deviceCodeHash == h && d.status == .approved && decide (seconds now < d.expiresAt)

def redeem : AdminMeta.DeviceChange where
  apply d := { d with status := .redeemed }
  hash _ := rfl
  userCode _ := rfl

def stamp (now : Int) : AdminMeta.DeviceChange where
  apply d := { d with lastPolledAt := some (seconds now) }
  hash _ := rfl
  userCode _ := rfl

/-- What a poll answers when it has redeemed a code. -/
def redeemedAnswer (db : AdminMeta) (adminId : Option Int) (tokenId : Int) : PollAnswer :=
  match db.adminTokens.get tokenId with
  | none => .tokenMissing
  | some tok =>
    match tok.plaintext with
    | none => .tokenMissing
    | some accessToken =>
      .approved accessToken tok.expiresAt adminId
        (adminId.bind fun a => (db.admins.get a).bind Admin.email)

/-- A code that is approved is redeemed, for the admin of the row that was selected. -/
def redeemCode (db : AdminMeta) (h : String) (adminId : Option Int) (now : Int) :
    PollAnswer × AdminMeta :=
  let db' := db.updateDevices (redeemable h now) redeem
  match (db.findDevice (redeemable h now)).bind fun e => e.2.mintedTokenId with
  | none => (.expired, db')
  | some tokenId => (redeemedAnswer db' adminId tokenId, db')

/-- A poll of a pending code, which may have come too soon after the last one. -/
def pendingAnswer (d : DeviceCode) (now : Int) : PollAnswer :=
  if d.lastPolledAt.any fun t => now - t * 1000 < cliDevicePollIntervalSecs * 1000 then .slowDown
  else .pending

/-- The clock is read when the row is selected, and again when it is changed. -/
def devicePoll (db : AdminMeta) (deviceCode : String) (seen now : Int) : PollAnswer × AdminMeta :=
  let h := hashToken deviceCode
  match db.findDevice (byHash h) with
  | none => (.expired, db)
  | some (_, d) =>
    if d.expiresAt < seconds seen ∨ d.status = .redeemed then (.expired, db)
    else if d.status = .denied then (.denied, db)
    else if d.status = .approved then redeemCode db h d.adminId now
    else (pendingAnswer d now, db.updateDevices (byHash h) (stamp now))

/-- The codes that have expired are deleted. -/
def sweepExpiredDeviceCodes (db : AdminMeta) (now : Int) : AdminMeta :=
  db.deleteDevices fun _ d => d.expiresAt < seconds now

/-! ### The admin's side -/

variable (csrfFor : Int → String → String)

/-- The token of the form is the one of the cookie and of the admin and the code. -/
def checkCsrf (cookie : Option String) (form userCode : String) (adminId : Int) : Bool :=
  form != "" && cookie.getD "" == form && form == csrfFor adminId userCode

def deny : AdminMeta.DeviceChange where
  apply d := { d with status := .denied }
  hash _ := rfl
  userCode _ := rfl

/-- `false` is `CSRF_MISMATCH`. -/
def deviceDeny (db : AdminMeta) (adminId : Int) (cookie : Option String) (form userCode : String) :
    Bool × AdminMeta :=
  if checkCsrf csrfFor cookie form userCode adminId then
    (true, db.updateDevices (fun _ d => d.userCode == userCode && d.status == .pending) deny)
  else (false, db)

inductive ApproveAnswer where
  | csrfMismatch
  /-- "Code not found or expired". -/
  | notFound
  | mintFailed
  | approved (clientName : String)
  deriving DecidableEq, Repr

/-- What an approval looks for, and the page that asks for it. -/
def approvable (userCode : String) (now : Int) (_ : Int) (d : DeviceCode) : Bool :=
  d.userCode == userCode && d.status == .pending && decide (seconds now < d.expiresAt)

/-- The row that was found, while it is pending. -/
def pendingRow (rowId : Int) (i : Int) (d : DeviceCode) : Bool :=
  i == rowId && d.status == .pending

def approve (adminId tokenId : Int) : AdminMeta.DeviceChange where
  apply d :=
    { d with status := .approved, adminId := some adminId, mintedTokenId := some tokenId }
  hash _ := rfl
  userCode _ := rfl

def deviceApprove (db : AdminMeta) (adminId : Int) (cookie : Option String)
    (form userCode : String) (ttl : Int) (draw : String) (seen now : Int) :
    ApproveAnswer × AdminMeta :=
  if checkCsrf csrfFor cookie form userCode adminId then
    match db.findDevice (approvable userCode seen) with
    | none => (.notFound, db)
    | some (rowId, d) =>
      match mintCliToken hashToken db adminId d.clientName ttl draw now with
      | none => (.mintFailed, db)
      | some (tokenId, _, db') =>
        -- anything but one row rolls the token back
        if db'.deviceCodes.count (pendingRow rowId) ≠ 1 then (.notFound, db)
        else (.approved d.clientName, db'.updateDevices (pendingRow rowId) (approve adminId tokenId))
  else (.csrfMismatch, db)

/-- The name of the client, or that there is nothing to approve. -/
def devicePage (db : AdminMeta) (userCode : String) (now : Int) : Option String :=
  (db.findDevice (approvable userCode now)).map fun e => e.2.clientName

/-! ### What the handlers leave alone -/

variable {hashToken csrfFor} {db db' : AdminMeta}

/-- A start inserts one code, which is pending. -/
theorem deviceStart_insert {clientName : Option String} {draws : List (String × String)}
    {now : Int} {codes : String × String}
    (h : deviceStart hashToken db clientName draws now = some (codes, db')) :
    ∃ d, d.status = .pending ∧ db.insertDevice d = some db' := by
  unfold deviceStart at h
  generalize draws.take 8 = draws at h
  induction draws with
  | nil => cases h
  | cons draw draws ih =>
    obtain ⟨deviceCode, userCode⟩ := draw
    rw [drawCodes] at h
    split at h
    · next hinsert =>
      cases h
      exact ⟨_, rfl, hinsert⟩
    · exact ih h

theorem devicePoll_others (deviceCode : String) (seen now : Int) :
    (devicePoll hashToken db deviceCode seen now).2.admins = db.admins ∧
      (devicePoll hashToken db deviceCode seen now).2.adminTokens = db.adminTokens := by
  unfold devicePoll
  dsimp only
  split
  · exact ⟨rfl, rfl⟩
  · split
    · exact ⟨rfl, rfl⟩
    · split
      · exact ⟨rfl, rfl⟩
      · split
        · unfold redeemCode
          dsimp only
          split <;> exact ⟨rfl, rfl⟩
        · exact ⟨rfl, rfl⟩

theorem deviceDeny_others (adminId : Int) (cookie : Option String) (form userCode : String) :
    (deviceDeny csrfFor db adminId cookie form userCode).2.admins = db.admins ∧
      (deviceDeny csrfFor db adminId cookie form userCode).2.adminTokens = db.adminTokens := by
  unfold deviceDeny
  split <;> exact ⟨rfl, rfl⟩

/-- An approval mints a token, or changes nothing. -/
theorem deviceApprove_others (hashToken : String → String)
    (csrfFor : Int → String → String) (db : AdminMeta) (adminId : Int)
    (cookie : Option String) (form userCode : String) (ttl : Int) (draw : String) (seen now : Int) :
    let out := deviceApprove hashToken csrfFor db adminId cookie form userCode ttl draw seen now
    out.2 = db ∨ ∃ label db₁,
      db.insertToken (cliRow hashToken adminId (some label) ttl draw now) = some db₁ ∧
        out.2.admins = db₁.admins ∧ out.2.adminTokens = db₁.adminTokens := by
  unfold deviceApprove
  dsimp only
  split
  · split
    · exact Or.inl rfl
    · next d _ =>
      split
      · exact Or.inl rfl
      · next hmint =>
        obtain ⟨db₁, hinsert, heq⟩ := Option.map_eq_some_iff.mp hmint
        cases heq
        split
        · exact Or.inl rfl
        · exact Or.inr ⟨d.clientName, _, hinsert, rfl, rfl⟩
  · exact Or.inl rfl

end AdminPlane

end Drust
