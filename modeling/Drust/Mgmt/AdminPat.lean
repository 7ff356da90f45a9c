import Drust.Mgmt.AdminMeta
import Drust.Rpc.QueryTemplate

/-!
# Personal access tokens

Each admin has one token without a label, which `reroll` replaces. The tokens of the command line
have a label and expire. A command line that holds one is resolved by it
(`resolveCliCaller`), and the request goes on with what was found then: `cliTokenRefresh` and
`cliTokenLogout` take the lock of the database again, and other requests may come in between.

The random part of a token that is generated is an argument. A computation that has no result is a
transaction that was rolled back.
-/

namespace Drust

namespace AdminPlane

open QueryTemplate (startsWith)

def tokenPrefix : String := "drust_pat_"

def cliTokenPrefix : String := "drust_pat_cli_"

def generateToken (draw : String) : String := tokenPrefix ++ draw

def generateCliToken (draw : String) : String := cliTokenPrefix ++ draw

/-- The lifetime of a token of the command line, of what `DRUST_CLI_PAT_TTL_SECS` parses to. -/
def cliPatTtlSecs (env : Option Int) : Int :=
  match env.filter (0 < ·) with
  | some n => min n 315360000
  | none => 86400

variable (hashToken : String → String)

/-- The row of a token of the command line. -/
def cliRow (adminId : Int) (label : Option String) (ttl : Int) (draw : String) (now : Int) :
    AdminToken where
  adminId := adminId
  tokenHash := hashToken (generateCliToken draw)
  plaintext := some (generateCliToken draw)
  label := label
  expiresAt := some (seconds now + ttl)

/-- The row of the token without a label. -/
def uiRow (adminId : Int) (draw : String) : AdminToken where
  adminId := adminId
  tokenHash := hashToken (generateToken draw)
  plaintext := some (generateToken draw)

/-- The id and the text of the token, and the database with its row. -/
def mintCliToken (db : AdminMeta) (adminId : Int) (label : String) (ttl : Int) (draw : String)
    (now : Int) : Option (Int × String × AdminMeta) :=
  (db.insertToken (cliRow hashToken adminId (some label) ttl draw now)).map fun db' =>
    (db.adminTokens.nextId, generateCliToken draw, db')

/-- The token that a bearer names, while it is neither revoked nor expired. -/
def lookupToken (db : AdminMeta) (bearer : String) (now : Int) : Option (Int × AdminToken) :=
  db.adminTokens.entries.find? fun e =>
    e.2.tokenHash == hashToken bearer && e.2.revokedAt.isNone &&
      e.2.expiresAt.all (seconds now < ·)

/-- The admin of a bearer. -/
def lookup (db : AdminMeta) (bearer : String) (now : Int) : Option (Int × Int) :=
  if startsWith tokenPrefix bearer then
    (lookupToken hashToken db bearer now).map fun e => (e.1, e.2.adminId)
  else none

/-- The active tokens of an admin that have no label. -/
def unlabeled (adminId : Int) (_ : Int) (tok : AdminToken) : Bool :=
  tok.adminId == adminId && tok.revokedAt.isNone && tok.label.isNone

def reroll (db : AdminMeta) (callerId : Int) (draw : String) (now : Int) :
    Option (String × AdminMeta) :=
  ((db.revokeTokens (unlabeled callerId) now).insertToken (uiRow hashToken callerId draw)).map
    fun db' => (generateToken draw, db')

/-! ### The command line -/

structure CliCaller where
  tokenId : Int
  adminId : Int
  email : Option String
  label : Option String
  deriving DecidableEq, Repr

/-- `CLI_AUTH_REQUIRED`, or who the request is from. -/
def resolveCliCaller (db : AdminMeta) (authorization : Option String) (now : Int) :
    Option CliCaller :=
  match authorization with
  | none => none
  | some raw =>
    let bearer := String.ofList (raw.toList.drop 7)
    if startsWith "Bearer " raw && startsWith tokenPrefix bearer then
      match lookupToken hashToken db bearer now with
      | none => none
      | some (tokenId, tok) => (db.admins.get tok.adminId).map fun a =>
          { tokenId := tokenId, adminId := tok.adminId, email := a.email, label := tok.label }
    else none

inductive RefreshAnswer where
  | notACliToken
  | alreadyRotated
  | internal
  | refreshed (accessToken : String)
  deriving DecidableEq, Repr

/-- The row of an id, while it is active. -/
def activeRow (tokenId : Int) (i : Int) (tok : AdminToken) : Bool :=
  i == tokenId && tok.revokedAt.isNone

def cliTokenRefresh (db : AdminMeta) (caller : CliCaller) (ttl : Int) (draw : String) (now : Int) :
    RefreshAnswer × AdminMeta :=
  if caller.label.isNone then (.notACliToken, db)
  else if db.adminTokens.count (activeRow caller.tokenId) ≠ 1 then (.alreadyRotated, db)
  else
    match (db.revokeTokens (activeRow caller.tokenId) now).insertToken
      (cliRow hashToken caller.adminId caller.label ttl draw now) with
    | none => (.internal, db)
    | some db' => (.refreshed (generateCliToken draw), db')

/-- The active token of an id that is a token of the command line of the admin. -/
def ownCliRow (tokenId adminId : Int) (i : Int) (tok : AdminToken) : Bool :=
  i == tokenId && tok.adminId == adminId && tok.label.isSome && tok.revokedAt.isNone

/-- Whether a token was revoked. -/
def cliTokenLogout (db : AdminMeta) (caller : CliCaller) (now : Int) : Bool × AdminMeta :=
  (decide (0 < db.adminTokens.count (ownCliRow caller.tokenId caller.adminId)),
    db.revokeTokens (ownCliRow caller.tokenId caller.adminId) now)

/-- `CLI_TOKEN_NOT_FOUND` when no row was changed. -/
def cliTokenRevoke (db : AdminMeta) (callerId tokenId : Int) (now : Int) : Bool × AdminMeta :=
  (decide (db.adminTokens.count (ownCliRow tokenId callerId) ≠ 0),
    db.revokeTokens (ownCliRow tokenId callerId) now)

/-! ### What the statements do to the tokens -/

/-- The device codes stay, every token stays under its key with its admin and its text, and a token
that is active was active before or has one of these hashes. -/
structure TokenWrite (hashes : List String) (db db' : AdminMeta) : Prop where
  devices : db'.deviceCodes = db.deviceCodes
  keeps : ∀ i tok, db.adminTokens.get i = some tok →
    ∃ tok', db'.adminTokens.get i = some tok' ∧ tok'.adminId = tok.adminId ∧
      tok'.plaintext = tok.plaintext
  active : ∀ i tok, (i, tok) ∈ db'.adminTokens.entries → tok.revokedAt = none →
    (i, tok) ∈ db.adminTokens.entries ∨ tok.tokenHash ∈ hashes

namespace TokenWrite

variable {hashes hashes' : List String} {db db' db'' : AdminMeta}

theorem of_eq (hdevices : db'.deviceCodes = db.deviceCodes)
    (htokens : db'.adminTokens = db.adminTokens) : TokenWrite hashes db db' where
  devices := hdevices
  keeps i tok htok := ⟨tok, by rw [htokens]; exact htok, rfl, rfl⟩
  active i tok htok _ := Or.inl (by rwa [htokens] at htok)

theorem refl : TokenWrite hashes db db := of_eq rfl rfl

theorem trans (h : TokenWrite hashes db db') (h' : TokenWrite hashes db' db'') :
    TokenWrite hashes db db'' where
  devices := h'.devices.trans h.devices
  keeps i tok htok := by
    obtain ⟨tok', htok', hadmin', htext'⟩ := h.keeps i tok htok
    obtain ⟨tok'', htok'', hadmin'', htext''⟩ := h'.keeps i tok' htok'
    exact ⟨tok'', htok'', hadmin''.trans hadmin', htext''.trans htext'⟩
  active i tok htok hactive := by
    obtain htok | hnew := h'.active i tok htok hactive
    · exact h.active i tok htok hactive
    · exact Or.inr hnew

theorem mono (h : TokenWrite hashes db db') (hsub : hashes ⊆ hashes') : TokenWrite hashes' db db' where
  devices := h.devices
  keeps := h.keeps
  active i tok htok hactive := (h.active i tok htok hactive).imp_right fun hmem => hsub hmem

theorem insertToken {tok : AdminToken} (h : db.insertToken tok = some db') :
    TokenWrite [tok.tokenHash] db db' := by
  obtain ⟨htokens, -, hdevices⟩ := AdminMeta.insertToken_eq_some h
  refine ⟨hdevices, ?_, ?_⟩
  · intro i tok' htok'
    rw [htokens]
    exact ⟨tok', RowTable.get_insert htok', rfl, rfl⟩
  · intro i tok' htok' _
    rw [htokens, RowTable.mem_entries_insert] at htok'
    refine htok'.imp_right ?_
    intro heq
    cases heq
    exact List.mem_singleton_self _

theorem revokeTokens (p : Int → AdminToken → Bool) (now : Int) :
    TokenWrite hashes db (db.revokeTokens p now) := by
  refine ⟨rfl, ?_, ?_⟩
  · intro i tok htok
    refine ⟨if p i tok then AdminToken.revoke now tok else tok, ?_, ?_⟩
    · exact (RowTable.get_update (t := db.adminTokens)).trans (by rw [htok]; rfl)
    · by_cases hp : p i tok = true
      · rw [if_pos hp]
        exact ⟨rfl, rfl⟩
      · rw [if_neg hp]
        exact ⟨rfl, rfl⟩
  · intro i tok htok hactive
    obtain ⟨tok', htok', rfl⟩ := RowTable.mem_entries_update.mp htok
    by_cases hp : p i tok' = true
    · rw [if_pos hp] at hactive
      cases hactive
    · rw [if_neg hp]
      exact Or.inl htok'

theorem reroll {hashToken : String → String} {callerId : Int} {draw plaintext : String} {now : Int}
    (h : AdminPlane.reroll hashToken db callerId draw now = some (plaintext, db')) :
    TokenWrite [hashToken (generateToken draw)] db db' := by
  obtain ⟨db₁, hinsert, heq⟩ := Option.map_eq_some_iff.mp h
  cases heq
  exact (revokeTokens _ _).trans (insertToken hinsert)

theorem cliTokenRefresh (hashToken : String → String) (db : AdminMeta) (caller : CliCaller)
    (ttl : Int) (draw : String) (now : Int) :
    TokenWrite [hashToken (generateCliToken draw)] db
      (AdminPlane.cliTokenRefresh hashToken db caller ttl draw now).2 := by
  unfold AdminPlane.cliTokenRefresh
  split
  · exact refl
  · split
    · exact refl
    · split
      · exact refl
      · next db' hinsert => exact (revokeTokens _ _).trans (insertToken hinsert)

end TokenWrite

end AdminPlane

end Drust
