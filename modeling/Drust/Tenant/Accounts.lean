import Drust.Error
import Drust.Rpc.ExecWrite
import Drust.Lib.KeyMap
import Drust.Lib.Transition

/-!
# The accounts of a tenant

The users of a tenant sign in with a password or through a provider, and get a session. An address
is proven by the provider only: whoever registers an address first may not be its owner. So when the
owner of an address signs in through the provider, and the account has a password and was never
verified, the account is claimed: the password is wiped and the sessions are deleted.

A request reads and writes the database of the tenant in separate steps, and other requests come in
between. A login reads the password hash, spends its time on the verification, and then writes a
session; a change of the password reads the hash, and then writes another one over it.

The version of a user is a number that each reset of the account draws anew: the insert, a claim, and
a change of the password by the user. A session, a login and a change have the version that was read
with the hash. Nothing that a handler does depends on these numbers, nor on the mark that an account
was made or claimed by a sign-in through a provider and has been given no password by a service key
since. A sign-in that links a verified account, which keeps its password, does not set the mark.
-/

namespace Drust

namespace Accounts

open ExecWrite (trim)

/-! ### The tables -/

structure User where
  email : String
  passwordHash : String
  verified : Bool := false
  profile : Option String := none
  version : Nat
  /-- A sign-in through the provider has made or claimed the account, and no service key has set a
  password since. -/
  claimed : Bool := false
  deriving DecidableEq, Repr

structure Session where
  userId : String
  /-- In seconds. -/
  expiresAt : Int
  version : Nat
  deriving DecidableEq, Repr

/-- `COLLATE NOCASE`. -/
def nocase (email : String) : List Char :=
  email.toList.map Char.toLower

/-- No two users have one address. -/
def EmailsUnique (users : KeyMap String User) : Prop :=
  (users.entries.map fun e => nocase e.2.email).Nodup

instance (users : KeyMap String User) : Decidable (EmailsUnique users) :=
  inferInstanceAs (Decidable (List.Nodup _))

/-- `_system_users` and `_system_sessions`. -/
structure Db where
  users : KeyMap String User
  sessions : KeyMap String Session
  emails : EmailsUnique users
  owners : ∀ hash row, sessions.get hash = some row → row.userId ∈ users.keys

namespace Db

variable (db : Db)

def empty : Db where
  users := .empty
  sessions := .empty
  emails := List.nodup_nil
  owners := fun _ _ h => by cases h

/-- The key is new, and so is the address. -/
def insertUser (id : String) (u : User) : Option Db :=
  if h : id ∉ db.users.keys ∧ EmailsUnique (db.users.set id u) then
    some {
      users := db.users.set id u
      sessions := db.sessions
      emails := h.2
      owners := by
        intro hash row hrow
        obtain ⟨u', hu'⟩ := KeyMap.mem_keys.mp (db.owners hash row hrow)
        refine KeyMap.mem_keys.mpr ⟨u', ?_⟩
        rw [KeyMap.get_set_of_ne, hu']
        rintro rfl
        exact h.1 (KeyMap.mem_keys.mpr ⟨u', hu'⟩) }
  else none

/-- The row of a user is changed. The address has to be free. -/
def updateUser (id : String) (f : User → User) : Option Db :=
  if h : EmailsUnique (db.users.mapValues fun k u => if k = id then f u else u) then
    some {
      users := db.users.mapValues fun k u => if k = id then f u else u
      sessions := db.sessions
      emails := h
      owners := by
        intro hash row hrow
        obtain ⟨u, hu⟩ := KeyMap.mem_keys.mp (db.owners hash row hrow)
        exact KeyMap.mem_keys.mpr ⟨_, by rw [KeyMap.get_mapValues, hu]; rfl⟩ }
  else none

def deleteSessions (p : String → Session → Bool) : Db where
  users := db.users
  sessions := db.sessions.retain fun hash row => !p hash row
  emails := db.emails
  owners := by
    intro hash row hrow
    rw [KeyMap.get_retain, Option.filter_eq_some_iff] at hrow
    exact db.owners hash row hrow.1

/-- `revoke_all_sessions`. -/
def revokeAllSessions (userId : String) : Db :=
  db.deleteSessions fun _ row => row.userId == userId

/-- `revoke_session_by_hash`. -/
def revokeSessionByHash (hash : String) : Db :=
  db.deleteSessions fun h _ => h == hash

/-- The user is there, and the hash is new. -/
def insertSession (hash : String) (row : Session) : Option Db :=
  if h : hash ∉ db.sessions.keys ∧ row.userId ∈ db.users.keys then
    some {
      users := db.users
      sessions := db.sessions.set hash row
      emails := db.emails
      owners := by
        intro hash' row' hrow'
        by_cases heq : hash' = hash
        · subst heq
          rw [KeyMap.get_set_self] at hrow'
          cases hrow'
          exact h.2
        · rw [KeyMap.get_set_of_ne heq] at hrow'
          exact db.owners hash' row' hrow' }
  else none

/-- A session that is still there expires later. -/
def slideExpiry (hash : String) (expiresAt : Int) : Db where
  users := db.users
  sessions := db.sessions.mapValues fun h row =>
    if h = hash then { row with expiresAt := expiresAt } else row
  emails := db.emails
  owners := by
    intro h row hrow
    rw [KeyMap.get_mapValues, Option.map_eq_some_iff] at hrow
    obtain ⟨row, hrow, rfl⟩ := hrow
    split
    · exact db.owners h row hrow
    · exact db.owners h row hrow

/-- The sessions of the user go first. -/
def deleteUser (id : String) : Db where
  users := db.users.erase id
  sessions := (db.revokeAllSessions id).sessions
  emails := (List.filter_sublist.map _).nodup db.emails
  owners := by
    intro hash row hrow
    rw [revokeAllSessions, deleteSessions, KeyMap.get_retain, Option.filter_eq_some_iff] at hrow
    obtain ⟨u, hu⟩ := KeyMap.mem_keys.mp (db.owners hash row hrow.1)
    refine KeyMap.mem_keys.mpr ⟨u, ?_⟩
    rw [KeyMap.get_erase_of_ne (by simpa using hrow.2), hu]

/-- The user with the address. -/
def findByEmail (email : String) : Option (String × User) :=
  db.users.entries.find? fun e => nocase e.2.email == nocase email

end Db

/-! ### The checks -/

def passwordMin : Nat := 8

def passwordMax : Nat := 128

def profileMaxBytes : Nat := 64 * 1024

/-- What stands for the hash in an account without a password. -/
def oauthOnlySentinel : String := "$oauth-only$"

def isOauthOnly (storedHash : String) : Bool :=
  storedHash == oauthOnlySentinel

def emailLooksValid (email : String) : Bool :=
  let s := trim email.toList
  let len := (String.ofList s).utf8ByteSize
  if len < 3 || 254 < len then false
  else
    match s.splitOn '@' with
    | [localPart, domain] =>
      !localPart.isEmpty && domain.contains '.' && domain.head? != some '.' &&
        domain.getLast? != some '.'
    | _ => false

def checkPassword (password : String) : Except ApiError Unit :=
  if password.utf8ByteSize < passwordMin then
    .error ⟨422, some "PASSWORD_TOO_SHORT", "password too short"⟩
  else if passwordMax < password.utf8ByteSize then
    .error ⟨422, some "PASSWORD_TOO_LONG", "password too long"⟩
  else .ok ()

def checkProfile (profile : Option String) : Except ApiError Unit :=
  if profile.any fun p => decide (profileMaxBytes < p.utf8ByteSize) then
    .error ⟨413, some "PROFILE_TOO_LARGE", "profile JSON exceeds 64 KB"⟩
  else .ok ()

def checkEmail (email : String) : Except ApiError Unit :=
  if emailLooksValid email then .ok () else .error ⟨422, some "EMAIL_INVALID", "invalid email"⟩

def checkSelfRegister (allow : Bool) : Except ApiError Unit :=
  if allow then .ok ()
  else .error ⟨403, some "SELF_REGISTER_DISABLED", "self-registration disabled for this tenant"⟩

def trimmed (email : String) : String :=
  String.ofList (trim email.toList)

/-! ### The system -/

/-- The functions on passwords and tokens. A hash is made with a drawn salt, and a hash that does not
parse verifies nothing. -/
structure Config where
  hashPassword : String → String → String
  verifyPassword : String → String → Bool
  hashToken : String → String

/-- A login whose password is verified, and that has not written its session. -/
structure Login where
  userId : String
  version : Nat
  deriving DecidableEq, Repr

/-- A change of the password that has read the old hash and made the new one. -/
structure Change where
  userId : String
  newHash : String
  version : Nat
  deriving DecidableEq, Repr

/-- What a bearer resolves to. -/
structure AuthCtx where
  userId : String
  tokenHash : String
  deriving DecidableEq, Repr

structure State where
  db : Db := .empty
  /-- In seconds. -/
  now : Int := 0
  /-- The next version. -/
  versions : Nat := 0
  logins : List Login := []
  changes : List Change := []
  /-- Every context that was ever resolved. A cached one outlives its session. -/
  contexts : List AuthCtx := []

/-- The lifetime of a session. -/
def sessionTtl : Int := 30 * 86400

def tokenPrefix : String := "drust_user_"

def isUserToken (token : String) : Bool :=
  tokenPrefix.toList.isPrefixOf token.toList

def generateToken (draw : String) : String :=
  tokenPrefix ++ draw

/-- An error of the database in general. -/
def dbError : ApiError := ⟨500, some "DB_ERROR", ""⟩

def invalidCredentials : ApiError := ⟨401, some "INVALID_CREDENTIALS", "invalid email or password"⟩

def userNotFound : ApiError := ⟨404, some "NOT_FOUND", "user not found"⟩

/-- How an account is signed in to through a provider. -/
inductive Resolved where
  | claimed
  | linked
  | created
  deriving DecidableEq, Repr

inductive OauthRefusal where
  | emailUnverified
  | notAllowed
  | sessionError
  deriving DecidableEq, Repr

def OauthRefusal.code : OauthRefusal → String
  | .emailUnverified => "oauth_email_unverified"
  | .notAllowed => "oauth_not_allowed"
  | .sessionError => "oauth_session_error"

section Handlers

variable (cfg : Config) (s : State)

/-- `allow` is what was read of the setting of the tenant, and `userId` and `salt` are drawn. -/
def register (email password : String) (profile : Option String) (allow : Bool)
    (userId salt : String) : Except ApiError State := do
  checkPassword password
  checkEmail (trimmed email)
  checkProfile profile
  checkSelfRegister allow
  match s.db.insertUser userId
      { email := trimmed email, passwordHash := cfg.hashPassword password salt, profile
        version := s.versions } with
  | none => .error ⟨409, some "EMAIL_EXISTS", "email already registered"⟩
  | some db => .ok { s with db := db, versions := s.versions + 1 }

/-- The first part of a login, up to the verification. An account without a password answers like one
that is not there. -/
def loginRead (email password : String) : Except ApiError State :=
  match s.db.findByEmail (trimmed email) with
  | none => .error invalidCredentials
  | some (userId, u) =>
    if isOauthOnly u.passwordHash then .error invalidCredentials
    else if !cfg.verifyPassword password u.passwordHash || userId.isEmpty then
      .error invalidCredentials
    else .ok { s with logins := s.logins ++ [⟨userId, u.version⟩] }

/-- `create_session`. -/
def createSession (db : Db) (userId : String) (version : Nat) (draw : String) : Option Db :=
  db.insertSession (cfg.hashToken (generateToken draw))
    { userId, expiresAt := s.now + sessionTtl, version }

/-- The second part of a login. -/
def loginWrite (login : Login) (draw : String) : Except ApiError State :=
  match createSession cfg s s.db login.userId login.version draw with
  | none => .error dbError
  | some db => .ok { s with db := db, logins := s.logins.erase login }

/-- The session of a bearer, unless it has expired. -/
def lookupSession (bearer : String) : Option AuthCtx :=
  if isUserToken bearer then
    ((s.db.sessions.get (cfg.hashToken bearer)).filter fun row => s.now < row.expiresAt).map fun row =>
      ⟨row.userId, cfg.hashToken bearer⟩
  else none

/-- The first part of a change, up to the new hash. -/
def passwordRead (ctx : AuthCtx) (currentPassword newPassword salt : String) :
    Except ApiError State := do
  checkPassword newPassword
  match s.db.users.get ctx.userId with
  | none => .error ⟨401, some "TOKEN_REVOKED", ""⟩
  | some u =>
    if isOauthOnly u.passwordHash then
      .error ⟨409, some "OAUTH_ONLY_NO_PASSWORD",
        "this account has no password; set up password recovery via your OAuth provider"⟩
    else if !cfg.verifyPassword currentPassword u.passwordHash then
      .error ⟨422, some "WRONG_CURRENT_PASSWORD", "current password is incorrect"⟩
    else
      .ok { s with
        changes := s.changes ++ [⟨ctx.userId, cfg.hashPassword newPassword salt, u.version⟩] }

/-- The second part of a change, in one transaction. The hash that was verified is not looked at
again. -/
def passwordWrite (change : Change) (draw : String) : Except ApiError State :=
  let written := do
    let db ← s.db.updateUser change.userId fun u =>
      { u with passwordHash := change.newHash, version := s.versions }
    createSession cfg s (db.revokeAllSessions change.userId) change.userId s.versions draw
  match written with
  | none => .error dbError
  | some db =>
    .ok { s with db := db, versions := s.versions + 1, changes := s.changes.erase change }

/-- `profile` is the encoded value. -/
def mePatch (ctx : AuthCtx) (profile : String) : Except ApiError State := do
  checkProfile (some profile)
  match s.db.updateUser ctx.userId fun u => { u with profile := some profile } with
  | none => .error dbError
  | some db =>
    if ctx.userId ∈ db.users.keys then .ok { s with db := db }
    else .error ⟨401, some "TOKEN_REVOKED", "user no longer exists"⟩

/-- The id of the user for a proven address. An unverified account with a password is claimed. -/
def findOrCreateUser (email : String) (profile : String) (allowSelfRegister : Bool) (newId : String) :
    Except OauthRefusal (Resolved × String × Nat × Db) :=
  match s.db.findByEmail email with
  | some (id, u) =>
    if !isOauthOnly u.passwordHash && !u.verified then
      match s.db.updateUser id fun u => { u with
          passwordHash := oauthOnlySentinel, verified := true, version := s.versions, claimed := true } with
      | none => .error .sessionError
      | some db => .ok (.claimed, id, s.versions, db.revokeAllSessions id)
    else .ok (.linked, id, u.version, s.db)
  | none =>
    if !allowSelfRegister then .error .notAllowed
    else
      match s.db.insertUser newId { email, passwordHash := oauthOnlySentinel, verified := true
                                    profile := some profile, version := s.versions, claimed := true } with
      | none => .error .sessionError
      | some db => .ok (.created, newId, s.versions, db)

/-- The end of the callback: what the provider says of the caller is known. The user and the session are
written in one transaction. -/
def oauthSignIn (email : String) (emailVerified : Bool) (profile : String) (allowSelfRegister : Bool)
    (newId draw : String) : Except OauthRefusal State :=
  if !emailVerified then .error .emailUnverified
  else
    match findOrCreateUser s email profile allowSelfRegister newId with
    | .error e => .error e
    | .ok (_, id, version, db) =>
      match createSession cfg s db id version draw with
      | none => .error .sessionError
      | some db => .ok { s with db := db, versions := s.versions + 1 }

/-- By a service key. -/
def createUser (email password : String) (profile : Option String) (verified : Bool)
    (userId salt : String) : Except ApiError State :=
  match s.db.insertUser userId
      { email := trimmed email, passwordHash := cfg.hashPassword password salt, profile, verified
        version := s.versions } with
  | none => .error ⟨409, some "EMAIL_EXISTS", "email already in use"⟩
  | some db => .ok { s with db := db, versions := s.versions + 1 }

/-- The fields that are given are set. The sessions stay. -/
def updateUser (userId : String) (email password profile : Option String) (verified : Option Bool)
    (salt : String) : Except ApiError State :=
  let apply : User → User := fun u => { u with
    email := (email.map trimmed).getD u.email
    passwordHash := (password.map fun p => cfg.hashPassword p salt).getD u.passwordHash
    profile := profile <|> u.profile
    verified := verified.getD u.verified
    claimed := u.claimed && password.isNone }
  match s.db.updateUser userId apply with
  | none => .error ⟨409, some "EMAIL_EXISTS", "email already in use"⟩
  | some db => if userId ∈ db.users.keys then .ok { s with db := db } else .error userNotFound

def deleteUser (userId : String) : Except ApiError State :=
  if userId ∈ s.db.users.keys then .ok { s with db := s.db.deleteUser userId } else .error userNotFound

end Handlers

inductive Label where
  | tick (seconds : Nat)
  | register (email password : String) (profile : Option String) (allow : Bool) (userId salt : String)
  | loginRead (email password : String)
  | loginWrite (login : Login) (draw : String)
  | authenticate (bearer : String)
  | slideExpiry (ctx : AuthCtx)
  | logout (ctx : AuthCtx)
  | logoutAll (ctx : AuthCtx)
  | mePatch (ctx : AuthCtx) (profile : String)
  | passwordRead (ctx : AuthCtx) (currentPassword newPassword salt : String)
  | passwordWrite (change : Change) (draw : String)
  | oauthSignIn (email : String) (emailVerified : Bool) (profile : String) (allowSelfRegister : Bool)
    (newId draw : String)
  | createUser (email password : String) (profile : Option String) (verified : Bool)
    (userId salt : String)
  | updateUser (userId : String) (email password profile : Option String) (verified : Option Bool)
    (salt : String)
  | deleteUser (userId : String)
  | revokeSessions (userId : String)

/-- A request that is refused changes nothing, and is no step. -/
def step (cfg : Config) (s : State) : Label → Option State
  | .tick seconds => some { s with now := s.now + seconds }
  | .register email password profile allow userId salt =>
    (register cfg s email password profile allow userId salt).toOption
  | .loginRead email password => (loginRead cfg s email password).toOption
  | .loginWrite login draw =>
    if login ∈ s.logins then (loginWrite cfg s login draw).toOption else none
  | .authenticate bearer =>
    (lookupSession cfg s bearer).map fun ctx => { s with contexts := ctx :: s.contexts }
  | .slideExpiry ctx =>
    if ctx ∈ s.contexts then some { s with db := s.db.slideExpiry ctx.tokenHash (s.now + sessionTtl) }
    else none
  | .logout ctx =>
    if ctx ∈ s.contexts then some { s with db := s.db.revokeSessionByHash ctx.tokenHash } else none
  | .logoutAll ctx =>
    if ctx ∈ s.contexts then some { s with db := s.db.revokeAllSessions ctx.userId } else none
  | .mePatch ctx profile => if ctx ∈ s.contexts then (mePatch s ctx profile).toOption else none
  | .passwordRead ctx currentPassword newPassword salt =>
    if ctx ∈ s.contexts then (passwordRead cfg s ctx currentPassword newPassword salt).toOption
    else none
  | .passwordWrite change draw =>
    if change ∈ s.changes then (passwordWrite cfg s change draw).toOption else none
  | .oauthSignIn email emailVerified profile allowSelfRegister newId draw =>
    (oauthSignIn cfg s email emailVerified profile allowSelfRegister newId draw).toOption
  | .createUser email password profile verified userId salt =>
    (createUser cfg s email password profile verified userId salt).toOption
  | .updateUser userId email password profile verified salt =>
    (updateUser cfg s userId email password profile verified salt).toOption
  | .deleteUser userId => (deleteUser s userId).toOption
  | .revokeSessions userId => some { s with db := s.db.revokeAllSessions userId }

end Accounts

end Drust
