import Drust.Lib.Transition
import Drust.Mgmt.AdminTeam
import Drust.Mgmt.CliDevice

/-!
# The admins, their browsers and their command lines

The parties that use the tables of `AdminMeta`, one label for what a request does under the lock of
the meta database. A request of a browser passes the session layer (`session`) and the profile layer
(`profile`) before its handler runs, and a command line is resolved (`resolve`) before its token is
replaced or revoked. Each of these is a step of its own, so a handler may run for an admin who has
been removed, with a role that has been taken away, or with a token that is not active any more.

The state keeps what the parties were told: the approvals that minted a token, the tokens that a
poll gave out, and which token replaced which.
-/

namespace Drust

namespace AdminPlane

/-- A token that a device code stands for. -/
structure Grant where
  deviceCodeHash : String
  adminId : Option Int
  accessToken : String
  deriving DecidableEq, Repr

structure Config where
  hashToken : String → String
  csrfFor : Int → String → String
  /-- `DRUST_CLI_PAT_TTL_SECS`. -/
  patTtl : Option Int := none
  /-- `DRUST_ADMIN_BATCH_MAX`. -/
  batchMax : Option Nat := none

structure State where
  db : AdminMeta
  now : Int
  /-- The admins whose requests have passed the session layer. -/
  admitted : List Int := []
  /-- The requests that have passed the profile layer, with the role of the profile. -/
  requests : List (Int × String) := []
  /-- The requests of command lines that have been resolved. -/
  callers : List CliCaller := []
  approvals : List Grant := []
  handouts : List Grant := []
  /-- The hash of a token, and of the token that replaced it. -/
  rotations : List (String × String) := []
  /-- The hashes of the tokens that were ever generated. -/
  issued : List String := []

inductive Label where
  | tick (now : Int)
  | session (adminId : Int)
  | profile (adminId : Int)
  | start (clientName : Option String) (draws : List (String × String))
  | poll (deviceCode : String) (now : Int)
  | deny (adminId : Int) (cookie : Option String) (form userCode : String)
  | approve (adminId : Int) (cookie : Option String) (form userCode draw : String) (now : Int)
  | sweep
  | reroll (adminId : Int) (draw : String)
  | resolve (authorization : Option String)
  | refresh (caller : CliCaller) (draw : String)
  | logout (caller : CliCaller)
  | revoke (adminId tokenId : Int)
  | invite (adminId : Int) (profileRole email : String) (role : Option String) (draw : String)
  | batchInvite (adminId : Int) (profileRole : String) (emails : List String)
      (role : Option String) (draw : String → String)
  | changeRole (adminId : Int) (profileRole : String) (target : Int) (newRole : String)
  | remove (adminId : Int) (profileRole : String) (target : Int)

/-- The hashes of the tokens that are generated. -/
def Label.hashes (cfg : Config) : Label → List String
  | .approve _ _ _ _ draw _ | .refresh _ draw => [cfg.hashToken (generateCliToken draw)]
  | .reroll _ draw | .invite _ _ _ _ draw => [cfg.hashToken (generateToken draw)]
  | .batchInvite _ _ emails _ draw =>
    (normalizeEmails emails).map fun e => cfg.hashToken (generateToken (draw e))
  | _ => []

/-- What an approval grants. -/
def approvalGrants (db : AdminMeta) (adminId : Int) (userCode draw : String) (seen : Int)
    (answer : ApproveAnswer) : List Grant :=
  match answer, db.findDevice (approvable userCode seen) with
  | .approved _, some (_, d) => [⟨d.deviceCodeHash, some adminId, generateCliToken draw⟩]
  | _, _ => []

/-- What a poll gives out. -/
def handoutGrants (cfg : Config) (deviceCode : String) : PollAnswer → List Grant
  | .approved accessToken _ adminId _ => [⟨cfg.hashToken deviceCode, adminId, accessToken⟩]
  | _ => []

/-- What a refresh replaces, and what by. -/
def replacements (cfg : Config) (db : AdminMeta) (caller : CliCaller) :
    RefreshAnswer → List (String × String)
  | .refreshed accessToken =>
    match db.adminTokens.get caller.tokenId with
    | some tok => [(tok.tokenHash, cfg.hashToken accessToken)]
    | none => []
  | _ => []

/-- The role that the profile layer puts on a request, or that of the placeholder. -/
def profileRole (db : AdminMeta) (adminId : Int) : String :=
  ((db.admins.get adminId).map Admin.role).getD "member"

/-- What a request does, or nothing when there is no such request. -/
def act (cfg : Config) (s : State) : Label → Option State
  | .tick now => some { s with now := now }
  | .session a => if a ∈ s.db.admins.ids then some { s with admitted := a :: s.admitted } else none
  | .profile a =>
    if a ∈ s.admitted then some { s with requests := (a, profileRole s.db a) :: s.requests }
    else none
  | .start clientName draws =>
    match deviceStart cfg.hashToken s.db clientName draws s.now with
    | some (_, db) => some { s with db := db }
    | none => some s
  | .poll deviceCode now =>
    let out := devicePoll cfg.hashToken s.db deviceCode s.now now
    some { s with db := out.2, handouts := s.handouts ++ handoutGrants cfg deviceCode out.1 }
  | .deny a cookie form userCode =>
    if a ∈ s.admitted then
      some { s with db := (deviceDeny cfg.csrfFor s.db a cookie form userCode).2 }
    else none
  | .approve a cookie form userCode draw now =>
    if a ∈ s.admitted then
      let out := deviceApprove cfg.hashToken cfg.csrfFor s.db a cookie form userCode
        (cliPatTtlSecs cfg.patTtl) draw s.now now
      some { s with
        db := out.2
        approvals := s.approvals ++ approvalGrants s.db a userCode draw s.now out.1 }
    else none
  | .sweep => some { s with db := sweepExpiredDeviceCodes s.db s.now }
  | .reroll a draw =>
    if a ∈ s.admitted then
      match reroll cfg.hashToken s.db a draw s.now with
      | some (_, db) => some { s with db := db }
      | none => some s
    else none
  | .resolve authorization =>
    match resolveCliCaller cfg.hashToken s.db authorization s.now with
    | some caller => some { s with callers := caller :: s.callers }
    | none => some s
  | .refresh caller draw =>
    if caller ∈ s.callers then
      let out := cliTokenRefresh cfg.hashToken s.db caller (cliPatTtlSecs cfg.patTtl) draw s.now
      some { s with
        db := out.2, rotations := s.rotations ++ replacements cfg s.db caller out.1 }
    else none
  | .logout caller =>
    if caller ∈ s.callers then some { s with db := (cliTokenLogout s.db caller s.now).2 } else none
  | .revoke a tokenId =>
    if a ∈ s.admitted then some { s with db := (cliTokenRevoke s.db a tokenId s.now).2 } else none
  | .invite a profileRole email role draw =>
    if (a, profileRole) ∈ s.requests then
      some { s with db := (inviteAdmin cfg.hashToken s.db profileRole email role draw).2 }
    else none
  | .batchInvite a profileRole emails role draw =>
    if (a, profileRole) ∈ s.requests then
      some { s with
        db := (batchInviteAdmin cfg.hashToken cfg.batchMax s.db profileRole emails role draw).2 }
    else none
  | .changeRole a profileRole target newRole =>
    if (a, profileRole) ∈ s.requests then
      some { s with db := (changeRole s.db profileRole target newRole).2 }
    else none
  | .remove a profileRole target =>
    if (a, profileRole) ∈ s.requests then
      some { s with db := (removeAdmin s.db profileRole target).2 }
    else none

/-- A step, with the hashes of what it generates. -/
def step (cfg : Config) (s : State) (l : Label) : Option State :=
  (act cfg s l).map fun s' => { s' with issued := s.issued ++ l.hashes cfg }

/-- The state of a process that has just started. -/
def start (db : AdminMeta) (now : Int) : State where
  db := db
  now := now
  issued := db.adminTokens.rows.map AdminToken.tokenHash

end AdminPlane

end Drust
