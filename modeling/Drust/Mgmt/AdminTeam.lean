import Drust.Mgmt.AdminPat
import Drust.Rpc.ExecWrite

/-!
# The team of a host

An admin is an owner, an admin or a member. Owners and admins manage the members, and only an owner
makes, changes or removes an owner or an admin. The profile with the role of a caller is read before
the handler runs, so it may be out of date; what the handler reads of its target is read under the
lock that it writes under.

An invited admin gets a token, and an admin who is removed loses the tokens. The deletes from
`sessions`, `tenant_cap_requests` and `quota_requests` that go with a removal are of tables that the
model does not have.
-/

namespace Drust

namespace AdminPlane

open ExecWrite (trim isWhitespace)

/-! ### Roles -/

def isValidRole (r : String) : Bool :=
  r == "owner" || r == "admin" || r == "member"

def canManageMembers (role : String) : Bool :=
  role == "owner" || role == "admin"

def canManagePrivileged (role : String) : Bool :=
  role == "owner"

/-- `matches!(role, "owner" | "admin")`. -/
def isPrivileged (role : String) : Bool :=
  role == "owner" || role == "admin"

/-! ### Inviting one admin -/

def lowercase (s : List Char) : List Char := s.map Char.toLower

/-- Not empty, on both sides of the last dot. -/
def isDotted (domain : List Char) : Bool :=
  match domain.reverse.dropWhile (· ≠ '.') with
  | [] => false
  | _ :: head => !head.isEmpty && !(domain.reverse.takeWhile (· ≠ '.')).isEmpty

def validateEmail (email : String) : Bool :=
  if email.isEmpty || decide (254 < email.utf8ByteSize) then false
  else if email.toList.any fun c =>
      isWhitespace c || c == '<' || c == '>' || c == ',' || c == ';' || c == '"' then false
  else
    match email.toList.splitOn '@' with
    | [localPart, domain] => !localPart.isEmpty && !domain.isEmpty && isDotted domain
    | _ => false

inductive SkipReason where
  | invalid
  | alreadyExists
  deriving DecidableEq, Repr

inductive InviteOutcome where
  | created (id : Int)
  | skipped (reason : SkipReason)
  deriving DecidableEq, Repr

/-- The part before the `@`, with an underscore for every other character. -/
def usernameBase (email : String) : String :=
  .ofList ((email.toList.takeWhile (· ≠ '@')).map fun c => if c.isAlphanum then c else '_')

def usernameCandidate (base : String) (suffix : Nat) : String :=
  if suffix = 1 then base else base ++ toString suffix

/-- The first of `base`, `base2`, `base3`, .. that is not taken. -/
def pickUsername (taken : List String) (base : String) : Nat → Nat → Option String
  | _, 0 => none
  | suffix, fuel + 1 =>
    if usernameCandidate base suffix ∈ taken then pickUsername taken base (suffix + 1) fuel
    else some (usernameCandidate base suffix)

/-- One more name is tried than there are names, and no two of them are the same. -/
def usernameFor (taken : List String) (base : String) : Option String :=
  pickUsername taken base 1 (taken.length + 1)

/-- `email = ?1 COLLATE NOCASE`. -/
def hasEmail (email : String) (a : Admin) : Bool :=
  a.email.any fun e => lowercase e.toList == lowercase email.toList

variable (hashToken : String → String)

/-- A statement that fails has no result, and the transaction is rolled back. -/
def insertOneAdmin (db : AdminMeta) (email role draw : String) :
    Option (InviteOutcome × AdminMeta) :=
  if !validateEmail email then some (.skipped .invalid, db)
  else if db.admins.rows.any (hasEmail email) then some (.skipped .alreadyExists, db)
  else
    match usernameFor (db.admins.rows.map Admin.username) (usernameBase email) with
    | none => none
    | some username =>
      match db.insertAdmin { username := username, email := some email, role := role } with
      | none => some (.skipped .alreadyExists, db)
      | some db' =>
        (db'.insertToken (uiRow hashToken db.admins.nextId draw)).map fun db'' =>
          (.created db.admins.nextId, db'')

/-! ### The handlers -/

inductive TeamError where
  | notAManager
  | invalidRole
  | privilegedRoleRequired
  | invalidEmail
  | emailTaken
  | tooMany
  | adminNotFound
  | lastOwner
  | internal
  deriving DecidableEq, Repr

/-- What a caller with this role may not ask for. -/
def inviteRefused (profileRole role : String) : Option TeamError :=
  if !canManageMembers profileRole then some .notAManager
  else if !isValidRole role then some .invalidRole
  else if isPrivileged role && !canManagePrivileged profileRole then some .privilegedRoleRequired
  else none

def inviteAdmin (db : AdminMeta) (profileRole email : String) (role : Option String)
    (draw : String) : Except TeamError Int × AdminMeta :=
  match inviteRefused profileRole (role.getD "member") with
  | some e => (.error e, db)
  | none =>
    let email := String.ofList (lowercase (trim email.toList))
    if !validateEmail email then (.error .invalidEmail, db)
    else
      match insertOneAdmin hashToken db email (role.getD "member") draw with
      | some (.created id, db') => (.ok id, db')
      | some (.skipped .invalid, _) => (.error .invalidEmail, db)
      | some (.skipped .alreadyExists, _) => (.error .emailTaken, db)
      | none => (.error .internal, db)

/-- In order, without blanks and repetitions. -/
def normalizeEmails (emails : List String) : List String :=
  ((emails.map fun raw => String.ofList (lowercase (trim raw.toList))).filter (· ≠ "")).foldl
    (fun seen e => if e ∈ seen then seen else seen ++ [e]) []

/-- What the invitations of a batch come to. -/
structure BatchOutcome where
  created : List (Int × String) := []
  skipped : List (String × SkipReason) := []
  deriving DecidableEq, Repr

/-- The addresses are different, so the token of each is drawn for its address. -/
def insertAdmins (role : String) (draw : String → String) :
    AdminMeta → BatchOutcome → List String → Option (BatchOutcome × AdminMeta)
  | db, out, [] => some (out, db)
  | db, out, e :: es =>
    match insertOneAdmin hashToken db e role (draw e) with
    | some (.created id, db') =>
      insertAdmins role draw db' { out with created := out.created ++ [(id, e)] } es
    | some (.skipped reason, db') =>
      insertAdmins role draw db' { out with skipped := out.skipped ++ [(e, reason)] } es
    | none => none

/-- `batchMax` is of what `DRUST_ADMIN_BATCH_MAX` parses to. -/
def batchInviteAdmin (batchMax : Option Nat) (db : AdminMeta) (profileRole : String)
    (emails : List String) (role : Option String) (draw : String → String) :
    Except TeamError BatchOutcome × AdminMeta :=
  match inviteRefused profileRole (role.getD "member") with
  | some e => (.error e, db)
  | none =>
    if (batchMax.filter (0 < ·)).getD 50 < emails.length then (.error .tooMany, db)
    else
      match insertAdmins hashToken (role.getD "member") draw db {} (normalizeEmails emails) with
      | some (out, db') => (.ok out, db')
      | none => (.error .internal, db)

/-- `SELECT 1 FROM admins WHERE role = 'owner' AND id != ?1`. -/
def hasOtherOwner (db : AdminMeta) (id : Int) : Bool :=
  db.admins.entries.any fun e => e.2.role == "owner" && e.1 != id

def changeRole (db : AdminMeta) (profileRole : String) (targetId : Int) (newRole : String) :
    Except TeamError Unit × AdminMeta :=
  if !canManageMembers profileRole then (.error .notAManager, db)
  else if !isValidRole newRole then (.error .invalidRole, db)
  else
    match db.admins.get targetId with
    | none => (.error .adminNotFound, db)
    | some target =>
      if (isPrivileged newRole || isPrivileged target.role) && !canManagePrivileged profileRole then
        (.error .privilegedRoleRequired, db)
      else if target.role = newRole then (.ok (), db)
      else if target.role = "owner" ∧ newRole ≠ "owner" ∧ !hasOtherOwner db targetId then
        (.error .lastOwner, db)
      else (.ok (), db.setRole newRole targetId)

def removeAdmin (db : AdminMeta) (profileRole : String) (targetId : Int) :
    Except TeamError Unit × AdminMeta :=
  if !canManageMembers profileRole then (.error .notAManager, db)
  else
    match db.admins.get targetId with
    | none => (.error .adminNotFound, db)
    | some target =>
      if isPrivileged target.role && !canManagePrivileged profileRole then
        (.error .privilegedRoleRequired, db)
      else if target.role = "owner" ∧ !hasOtherOwner db targetId then (.error .lastOwner, db)
      else (.ok (), db.deleteAdmin targetId)

/-! ### What the handlers do to the tokens -/

namespace TokenWrite

variable {hashToken : String → String} {db db' : AdminMeta}

theorem insertOneAdmin {email role draw : String} {out : InviteOutcome}
    (h : AdminPlane.insertOneAdmin hashToken db email role draw = some (out, db')) :
    TokenWrite [hashToken (generateToken draw)] db db' := by
  unfold AdminPlane.insertOneAdmin at h
  split at h
  · cases h
    exact refl
  · split at h
    · cases h
      exact refl
    · split at h
      · cases h
      · split at h
        · cases h
          exact refl
        · next db₁ hadmin =>
          obtain ⟨-, htokens, hdevices⟩ := AdminMeta.insertAdmin_eq_some hadmin
          obtain ⟨db₂, hinsert, heq⟩ := Option.map_eq_some_iff.mp h
          cases heq
          exact (of_eq hdevices htokens).trans (insertToken hinsert)

theorem inviteAdmin (hashToken : String → String) (db : AdminMeta) (profileRole email : String)
    (role : Option String) (draw : String) :
    TokenWrite [hashToken (generateToken draw)] db
      (AdminPlane.inviteAdmin hashToken db profileRole email role draw).2 := by
  unfold AdminPlane.inviteAdmin
  split
  · exact refl
  · dsimp only
    split
    · exact refl
    · split
      · next hinsert => exact insertOneAdmin hinsert
      · exact refl
      · exact refl
      · exact refl

theorem insertAdmins {role : String} {draw : String → String} {emails : List String} :
    ∀ {db db' : AdminMeta} {out out' : BatchOutcome},
      AdminPlane.insertAdmins hashToken role draw db out emails = some (out', db') →
        TokenWrite (emails.map fun e => hashToken (generateToken (draw e))) db db' := by
  induction emails with
  | nil =>
    intro db db' out out' h
    cases h
    exact refl
  | cons e es ih =>
    intro db db' out out' h
    rw [AdminPlane.insertAdmins] at h
    have hhead : [hashToken (generateToken (draw e))] ⊆
        (e :: es).map fun e => hashToken (generateToken (draw e)) := by simp
    split at h
    · next hinsert =>
      exact ((insertOneAdmin hinsert).mono hhead).trans ((ih h).mono (List.subset_cons_self _ _))
    · next hinsert =>
      exact ((insertOneAdmin hinsert).mono hhead).trans ((ih h).mono (List.subset_cons_self _ _))
    · cases h

theorem batchInviteAdmin (hashToken : String → String) (batchMax : Option Nat) (db : AdminMeta)
    (profileRole : String) (emails : List String) (role : Option String)
    (draw : String → String) :
    TokenWrite ((normalizeEmails emails).map fun e => hashToken (generateToken (draw e))) db
      (AdminPlane.batchInviteAdmin hashToken batchMax db profileRole emails role draw).2 := by
  unfold AdminPlane.batchInviteAdmin
  split
  · exact refl
  · split
    · exact refl
    · split
      · next hinsert => exact insertAdmins hinsert
      · exact refl

theorem changeRole (db : AdminMeta) (profileRole : String) (target : Int) (newRole : String) :
    TokenWrite [] db (AdminPlane.changeRole db profileRole target newRole).2 := by
  unfold AdminPlane.changeRole
  split
  · exact refl
  · split
    · exact refl
    · split
      · exact refl
      · split
        · exact refl
        · split
          · exact refl
          · split
            · exact refl
            · exact of_eq rfl rfl

end TokenWrite

/-- A removal that is refused changes nothing. -/
theorem removeAdmin_eq (db : AdminMeta) (profileRole : String) (target : Int) :
    (removeAdmin db profileRole target).2 = db ∨
      (removeAdmin db profileRole target).2 = db.deleteAdmin target := by
  unfold removeAdmin
  split
  · exact Or.inl rfl
  · split
    · exact Or.inl rfl
    · split
      · exact Or.inl rfl
      · split
        · exact Or.inl rfl
        · exact Or.inr rfl

end AdminPlane

end Drust
