import Drust.Error
import Drust.Mgmt.Tenants
import Drust.Lib.Ascii
import Drust.Lib.RequestQueue
import Drust.Lib.RowTable
import Drust.Lib.KeyMap

/-!
# Requests for more

A member asks for a higher cap on tenants, or for a higher quota tier of a tenant, and an owner of
the host decides. The two queues are of the same shape, and a request says who or what it is about
with a key only: the id of an admin, which the next admin is given after the last one was removed,
or the id of a tenant, which may be used again after a soft delete. What an approval raises is the
row that has the key by then.

Every handler runs under the lock of the meta database, so a step is a whole handler. The handlers
that make, change and remove the admins are here what they do to the rows, for any caller. A row has
the number of its birth, and a request has that of the row it was filed about: nothing that a
handler does depends on these numbers.

The statements that make a tenant do not fail here. What the handler leaves behind when one of them
does is the matter of `Drust.Mgmt.TenantCreation`.
-/

namespace Drust

namespace RequestPlane

open Ascii (isControl)
open ExecWrite (trim)
open Tenants (effectiveCap MakeInput MakeError)

/-! ### The rows -/

structure Admin where
  role : String
  /-- What is added to the default cap. -/
  tenantCapBonus : Int := 0
  born : Nat
  deriving DecidableEq, Repr

structure Tenant where
  name : String
  ownerAdminId : Option Int
  deletedAt : Option String := none
  quotaTier : Int := 1
  born : Nat
  deriving DecidableEq, Repr

/-- What is asked for. -/
structure Ask where
  requester : Int
  amount : Int
  reason : Option String
  born : Nat
  deriving DecidableEq, Repr

/-- The admins and the tenants. The owner of a tenant is an admin. -/
structure Hosted where
  admins : RowTable Admin
  tenants : KeyMap String Tenant
  owners : ∀ id t, tenants.get id = some t → ∀ i, t.ownerAdminId = some i → i ∈ admins.ids

namespace Hosted

variable (h : Hosted)

def insertAdmin (a : Admin) : Hosted where
  admins := h.admins.insert a
  tenants := h.tenants
  owners := by
    intro id t ht i hi
    rw [RowTable.ids_insert]
    exact List.mem_append_left _ (h.owners id t ht i hi)

/-- The row of one admin is changed. -/
def updateAdmin (i : Int) (f : Admin → Admin) : Hosted where
  admins := h.admins.update (fun j _ => j == i) f
  tenants := h.tenants
  owners := by
    rw [RowTable.ids_update]
    exact h.owners

/-- `ON DELETE SET NULL`. -/
def disown (i : Int) (t : Tenant) : Tenant :=
  if t.ownerAdminId = some i then { t with ownerAdminId := none } else t

def deleteAdmin (i : Int) : Hosted where
  admins := h.admins.delete fun j _ => j == i
  tenants := h.tenants.mapValues fun _ => disown i
  owners := by
    intro id t ht j hj
    rw [KeyMap.get_mapValues, Option.map_eq_some_iff] at ht
    obtain ⟨t, ht, rfl⟩ := ht
    unfold disown at hj
    split at hj
    · cases hj
    · next hother =>
      obtain ⟨a, ha⟩ := RowTable.mem_ids.mp (h.owners id t ht j hj)
      refine RowTable.mem_ids.mpr ⟨a, RowTable.mem_entries_delete.mpr ⟨ha, ?_⟩⟩
      rw [hj] at hother
      simpa using hother

/-- A row of `tenants`, in the place of one that has the key. -/
def putTenant (id : String) (t : Tenant) (ht : ∀ i, t.ownerAdminId = some i → i ∈ h.admins.ids) :
    Hosted where
  admins := h.admins
  tenants := h.tenants.set id t
  owners := by
    intro id' t' hget
    by_cases hid : id' = id
    · subst hid
      rw [KeyMap.get_set_self] at hget
      cases hget
      exact ht
    · rw [KeyMap.get_set_of_ne hid] at hget
      exact h.owners id' t' hget

/-- The row of a tenant is changed, unless the tenant is deleted. Its owner stays. -/
def updateTenant (id : String) (f : Tenant → Tenant)
    (hf : ∀ t, (f t).ownerAdminId = t.ownerAdminId) : Hosted where
  admins := h.admins
  tenants := h.tenants.mapValues fun k t => if k = id ∧ t.deletedAt = none then f t else t
  owners := by
    intro id' t ht i hi
    rw [KeyMap.get_mapValues, Option.map_eq_some_iff] at ht
    obtain ⟨t, ht, rfl⟩ := ht
    refine h.owners id' t ht i ?_
    split at hi
    · rwa [hf] at hi
    · exact hi

def setTier (id : String) (tier : Int) : Hosted :=
  h.updateTenant id (fun t => { t with quotaTier := tier }) fun _ => rfl

def softDelete (id stamp : String) : Hosted :=
  h.updateTenant id (fun t => { t with deletedAt := some stamp }) fun _ => rfl

/-- The tenants of an admin that are not deleted. -/
def owned (i : Int) : Int :=
  h.tenants.entries.countP fun e => e.2.ownerAdminId == some i && e.2.deletedAt.isNone

/-- The tenant with the id, unless it is deleted. -/
def live (id : String) : Option Tenant :=
  (h.tenants.get id).filter fun t => t.deletedAt.isNone

/-- The tables that the checks of a new tenant read. -/
def metaDb : Tenants.MetaDb where
  admins := h.admins.entries.map fun e =>
    { id := e.1, role := e.2.role, tenantCapBonus := e.2.tenantCapBonus }
  tenants := h.tenants.entries.map fun e =>
    { id := e.1, name := e.2.name, deletedAt := e.2.deletedAt, ownerAdminId := e.2.ownerAdminId }
  tokens := []
  quotaRequests := []
  tenantIds := by
    rw [List.map_map]
    exact h.tenants.nodup
  tokenHashes := List.nodup_nil
  tokenTenants := List.forall_mem_nil _

end Hosted

/-! ### Filing a request -/

def maxCap : Int := 100

def maxTier : Int := 1000

inductive ReasonError where
  | tooLong
  | control
  deriving DecidableEq, Repr

/-- Without blanks around it. A blank reason is none. -/
def normalizeReason : Option String → Except ReasonError (Option String)
  | none => .ok none
  | some raw =>
    let r := String.ofList (trim raw.toList)
    if r = "" then .ok none
    else if 500 < r.utf8ByteSize then .error .tooLong
    else if r.toList.any fun c => isControl c && c != '\n' && c != '\t' then .error .control
    else .ok (some r)

/-- What the answers of the two handlers differ in. -/
structure FileRules where
  maxAmount : Int
  invalid : ApiError
  reasonTooLong : ApiError
  reasonInvalid : ApiError
  noSubject : ApiError
  notIncrease : ApiError
  alreadyPending : ApiError
  rateLimited : Int → ApiError

/-- What is filed. `current` is what the subject has, with the birth of its row. -/
def checkFiling {σ : Type} [DecidableEq σ] (rules : FileRules) (limit now : Int)
    (q : RequestQueue σ Ask) (current : Option (Int × Nat)) (subject : σ) (requester amount : Int)
    (reason : Option String) : Except ApiError Ask :=
  if amount < 1 ∨ rules.maxAmount < amount then .error rules.invalid
  else match normalizeReason reason with
    | .error .tooLong => .error rules.reasonTooLong
    | .error .control => .error rules.reasonInvalid
    | .ok reason =>
      match current with
      | none => .error rules.noSubject
      | some (level, born) =>
        if amount ≤ level then .error rules.notIncrease
        else if q.hasPending subject then .error rules.alreadyPending
        else if 0 < limit ∧ limit ≤ q.submits subject (RequestQueue.day now) then
          .error (rules.rateLimited limit)
        else .ok { requester, amount, reason, born }

def capFileRules : FileRules where
  maxAmount := maxCap
  invalid := ⟨400, some "TENANT_CAP_INVALID",
    "requested_cap must be between 1 and " ++ toString maxCap⟩
  reasonTooLong := ⟨400, some "TENANT_CAP_REASON_TOO_LONG", "reason must be at most 500 bytes"⟩
  reasonInvalid := ⟨400, some "TENANT_CAP_REASON_INVALID",
    "reason must not contain control characters"⟩
  noSubject := ⟨404, some "ADMIN_NOT_FOUND", "your admin record no longer exists"⟩
  notIncrease := ⟨400, some "TENANT_CAP_NOT_INCREASE",
    "requested_cap must be greater than your current cap"⟩
  alreadyPending := ⟨409, some "TENANT_CAP_REQUEST_PENDING", "you already have a pending request"⟩
  rateLimited := fun limit => ⟨429, some "CAP_REQUEST_RATE_LIMITED",
    "at most " ++ toString limit ++ " cap requests per day"⟩

def quotaFileRules : FileRules where
  maxAmount := maxTier
  invalid := ⟨400, some "QUOTA_TIER_INVALID", "requested_tier must be between 1 and 1000"⟩
  reasonTooLong := ⟨400, some "QUOTA_REASON_TOO_LONG", "reason must be at most 500 bytes"⟩
  reasonInvalid := ⟨400, some "QUOTA_REASON_INVALID", "reason must not contain control characters"⟩
  noSubject := ⟨404, some "TENANT_NOT_FOUND", "no such tenant"⟩
  notIncrease := ⟨400, some "QUOTA_TIER_NOT_INCREASE",
    "requested_tier must be greater than the current tier"⟩
  alreadyPending := ⟨409, some "QUOTA_REQUEST_PENDING",
    "a pending upgrade request already exists for this tenant"⟩
  rateLimited := fun limit => ⟨429, some "QUOTA_REQUEST_RATE_LIMITED",
    "at most " ++ toString limit ++ " quota requests per day for one tenant"⟩

/-! ### Deciding a request -/

structure DecideRules where
  invalid : ApiError
  /-- There is a request with the number, which is not pending. -/
  decided : ApiError
  notFound : ApiError
  noSubject : ApiError
  notIncrease : ApiError

/-- The request that is pending under a number. -/
def pendingRequest {σ : Type} (q : RequestQueue σ Ask) (id : Nat) : Option (Request σ Ask) :=
  (q.get id).filter fun r => r.status == .pending

/-- The request that is decided, and whether it is approved. `current` is what a subject has by
now. -/
def decideRequest {σ : Type} (rules : DecideRules) (q : RequestQueue σ Ask)
    (current : σ → Option Int) (id : Nat) (action : String) :
    Except ApiError (Request σ Ask × Bool) :=
  if action ≠ "approve" ∧ action ≠ "reject" then .error rules.invalid
  else match pendingRequest q id with
    | none => .error (if (q.get id).isSome then rules.decided else rules.notFound)
    | some r =>
      if action = "reject" then .ok (r, false)
      else match current r.subject with
        | none => .error rules.noSubject
        | some level =>
          if r.body.amount ≤ level then .error rules.notIncrease else .ok (r, true)

def statusOf (approve : Bool) : RequestStatus :=
  if approve then .approved else .rejected

def capDecideRules : DecideRules where
  invalid := ⟨400, some "TENANT_CAP_DECISION_INVALID", "action must be 'approve' or 'reject'"⟩
  decided := ⟨409, some "TENANT_CAP_REQUEST_DECIDED", "that request has already been decided"⟩
  notFound := ⟨404, some "TENANT_CAP_REQUEST_NOT_FOUND", "no pending request with that id"⟩
  noSubject := ⟨404, some "ADMIN_NOT_FOUND", "the requesting admin no longer exists"⟩
  notIncrease := ⟨409, some "TENANT_CAP_NOT_INCREASE",
    "that admin is already at or above the requested cap"⟩

/-- A request that was decided is not told from one that never was. -/
def quotaDecideRules : DecideRules where
  invalid := ⟨400, some "QUOTA_DECISION_INVALID", "action must be 'approve' or 'reject'"⟩
  decided := ⟨404, some "QUOTA_REQUEST_NOT_FOUND", "no pending request with that id"⟩
  notFound := ⟨404, some "QUOTA_REQUEST_NOT_FOUND", "no pending request with that id"⟩
  noSubject := ⟨404, some "TENANT_NOT_FOUND", "the tenant no longer exists"⟩
  notIncrease := ⟨409, some "QUOTA_TIER_NOT_INCREASE",
    "the tenant is already at or above the requested tier"⟩

/-! ### The plane -/

/-- What the settings of the host parse to. -/
structure Config where
  /-- The cap of a member, before the bonus. -/
  configuredDefault : Int
  capDailyLimit : Int
  quotaDailyLimit : Int
  capRetentionDays : Int
  quotaRetentionDays : Int

/-- `clamp(0, MAX_CAP)`. -/
def Config.defaultCap (cfg : Config) : Int :=
  max 0 (min maxCap cfg.configuredDefault)

structure State where
  hosted : Hosted
  capRequests : RequestQueue Int Ask := .empty
  quotaRequests : RequestQueue String Ask := .empty
  /-- In seconds. -/
  now : Int := 0
  /-- The number of the next birth. -/
  births : Nat
  /-- What was filed, without what was purged since: with the admin who asked, or with what an id was
  used for before. -/
  capLog : List (Filing Int Ask) := []
  quotaLog : List (Filing String Ask) := []

/-- The state of a host that nobody has set up yet. -/
def start : State where
  hosted := { admins := .empty, tenants := .empty, owners := fun _ _ h => by cases h }
  births := 0

/-- Subtraction of 64-bit integers that stops at the bounds. -/
def saturatingSub (a b : Int) : Int :=
  max (-2 ^ 63) (min (2 ^ 63 - 1) (a - b))

def bonusForTarget (default targetCap : Int) : Int :=
  saturatingSub targetCap default

def lookupAdminCap (cfg : Config) (h : Hosted) (i : Int) : Option (String × Int) :=
  (h.admins.get i).map fun a => (a.role, effectiveCap cfg.defaultCap a.tenantCapBonus)

section Handlers

variable (cfg : Config) (s : State)

/-- The subject of a request is who files it. The answer has the number of the request. -/
def createCapRequest (caller requestedCap : Int) (reason : Option String) :
    Except ApiError (Nat × State) :=
  let current := (s.hosted.admins.get caller).map fun a =>
    (effectiveCap cfg.defaultCap a.tenantCapBonus, a.born)
  (checkFiling capFileRules cfg.capDailyLimit s.now s.capRequests current caller caller requestedCap
    reason).map fun ask =>
      (s.capRequests.seq + 1, { s with
        capRequests := s.capRequests.file caller ask s.now
        capLog := s.capLog ++ [⟨caller, ask, s.now⟩] })

def createQuotaRequest (caller : Int) (id : String) (requestedTier : Int)
    (reason : Option String) : Except ApiError (Nat × State) :=
  let current := (s.hosted.live id).map fun t => (t.quotaTier, t.born)
  (checkFiling quotaFileRules cfg.quotaDailyLimit s.now s.quotaRequests current id caller
    requestedTier reason).map fun ask =>
      (s.quotaRequests.seq + 1, { s with
        quotaRequests := s.quotaRequests.file id ask s.now
        quotaLog := s.quotaLog ++ [⟨id, ask, s.now⟩] })

/-- The role of the caller is asked for once more. -/
def decideCapRequest (isOwner : Bool) (caller : Int) (id : Nat) (action : String) :
    Except ApiError State :=
  if !isOwner then
    .error ⟨403, some "NOT_OWNER", "owner role required to decide a tenant-cap request"⟩
  else
    (decideRequest capDecideRules s.capRequests
      (fun i => (lookupAdminCap cfg s.hosted i).map Prod.snd) id action).map fun (r, approve) =>
        { s with
          hosted :=
            if approve then
              s.hosted.updateAdmin r.subject fun a =>
                { a with tenantCapBonus := bonusForTarget cfg.defaultCap r.body.amount }
            else s.hosted
          capRequests := s.capRequests.decide id (statusOf approve) caller s.now }

/-- The layer in front of the handler admits owners only. -/
def decideQuotaRequest (caller : Int) (id : Nat) (action : String) : Except ApiError State :=
  (decideRequest quotaDecideRules s.quotaRequests
    (fun id => (s.hosted.live id).map Tenant.quotaTier) id action).map fun (r, approve) =>
      { s with
        hosted := if approve then s.hosted.setTier r.subject r.body.amount else s.hosted
        quotaRequests := s.quotaRequests.decide id (statusOf approve) caller s.now }

def patchAdminTenantCap (isOwner : Bool) (subject : Int) (cap : Option Int) :
    Except ApiError State :=
  if !isOwner then .error ⟨403, some "NOT_OWNER", "owner role required to set a tenant cap"⟩
  else if cap.any fun c => !(1 ≤ c && c ≤ maxCap : Bool) then
    .error ⟨400, some "TENANT_CAP_INVALID", "cap must be between 1 and " ++ toString maxCap⟩
  else if subject ∉ s.hosted.admins.ids then .error ⟨404, some "ADMIN_NOT_FOUND", "no such admin"⟩
  else
    let newBonus := (cap.map (bonusForTarget cfg.defaultCap)).getD 0
    .ok { s with
      hosted := s.hosted.updateAdmin subject fun a => { a with tenantCapBonus := newBonus } }

def patchTenantQuota (isOwner : Bool) (id : String) (tier : Int) : Except ApiError State :=
  if !isOwner then .error ⟨403, some "NOT_OWNER", "owner role required"⟩
  else if tier < 1 ∨ maxTier < tier then
    .error ⟨400, some "QUOTA_TIER_INVALID", "tier must be between 1 and 1000"⟩
  else if (s.hosted.live id).isNone then .error ⟨404, some "TENANT_NOT_FOUND", "no such tenant"⟩
  else .ok { s with hosted := s.hosted.setTier id tier }

def patchTenantOwner (isOwner : Bool) (id : String) (newOwner : Option Int) :
    Except ApiError State :=
  if !isOwner then .error ⟨403, some "NOT_OWNER", "owner role required"⟩
  else if hadmin : ∀ i, newOwner = some i → i ∈ s.hosted.admins.ids then
    match s.hosted.live id with
    | none => .error ⟨404, none, "no such tenant"⟩
    | some t =>
      .ok { s with hosted := s.hosted.putTenant id { t with ownerAdminId := newOwner } hadmin }
  else .error ⟨400, some "ADMIN_NOT_FOUND", "no such admin"⟩

/-- No statement fails. -/
def noFaults : Tenants.Faults where
  fails := fun _ => false
  leaves := fun _ => none

/-- What is left of a soft-deleted tenant makes room, and its requests go with it. -/
def makeTenant (inp : MakeInput) : Except MakeError State :=
  (Tenants.checkTenant noFaults cfg.defaultCap ⟨s.hosted.metaDb, none⟩ inp).bind fun branch =>
    if howner : inp.ownerAdminId ∈ s.hosted.admins.ids then
      .ok { s with
        hosted := s.hosted.putTenant inp.id
          { name := inp.name, ownerAdminId := some inp.ownerAdminId, born := s.births }
          fun _ hi => Option.some.inj hi ▸ howner
        quotaRequests :=
          match branch with
          | .fresh => s.quotaRequests
          | .recycle => s.quotaRequests.purge fun id _ => id == inp.id
        quotaLog :=
          match branch with
          | .fresh => s.quotaLog
          | .recycle => s.quotaLog.filter fun f => !(f.subject == inp.id)
        births := s.births + 1 }
    else .error (.failed .insertTenant)

def softDeleteTenant (id stamp : String) : Except ApiError State :=
  if (s.hosted.live id).isNone then .error ⟨404, none, "no such tenant"⟩
  else .ok { s with hosted := s.hosted.softDelete id stamp }

/-- The rows of an admin that is removed. -/
def removeAdmin (i : Int) : State :=
  { s with
    hosted := s.hosted.deleteAdmin i
    capRequests := s.capRequests.purge fun subject _ => subject == i
    capLog := s.capLog.filter fun f => !(f.subject == i)
    quotaRequests := s.quotaRequests.purge fun _ ask => ask.requester == i
    quotaLog := s.quotaLog.filter fun f => !(f.body.requester == i) }

/-- A pass over both queues. -/
def pruneOnce : State :=
  { s with
    capRequests := s.capRequests.prune cfg.capRetentionDays s.now
    quotaRequests := s.quotaRequests.prune cfg.quotaRetentionDays s.now }

end Handlers

/-! ### The steps -/

inductive Label where
  | tick (seconds : Nat)
  | insertAdmin (role : String)
  | changeRole (id : Int) (role : String)
  | removeAdmin (id : Int)
  | makeTenant (inp : MakeInput)
  | softDeleteTenant (id stamp : String)
  | patchTenantOwner (isOwner : Bool) (id : String) (newOwner : Option Int)
  | patchAdminTenantCap (isOwner : Bool) (subject : Int) (cap : Option Int)
  | patchTenantQuota (isOwner : Bool) (id : String) (tier : Int)
  | createCapRequest (caller requestedCap : Int) (reason : Option String)
  | createQuotaRequest (caller : Int) (id : String) (requestedTier : Int) (reason : Option String)
  | decideCapRequest (isOwner : Bool) (caller : Int) (id : Nat) (action : String)
  | decideQuotaRequest (caller : Int) (id : Nat) (action : String)
  | pruneOnce

/-- A request that is refused changes nothing, and is no step. -/
def step (cfg : Config) (s : State) : Label → Option State
  | .tick seconds => some { s with now := s.now + seconds }
  | .insertAdmin role =>
    some { s with hosted := s.hosted.insertAdmin { role, born := s.births }, births := s.births + 1 }
  | .changeRole id role =>
    some { s with hosted := s.hosted.updateAdmin id fun a => { a with role := role } }
  | .removeAdmin id => if id ∈ s.hosted.admins.ids then some (removeAdmin s id) else none
  | .makeTenant inp => (makeTenant cfg s inp).toOption
  | .softDeleteTenant id stamp => (softDeleteTenant s id stamp).toOption
  | .patchTenantOwner isOwner id newOwner => (patchTenantOwner s isOwner id newOwner).toOption
  | .patchAdminTenantCap isOwner subject cap =>
    (patchAdminTenantCap cfg s isOwner subject cap).toOption
  | .patchTenantQuota isOwner id tier => (patchTenantQuota s isOwner id tier).toOption
  | .createCapRequest caller requestedCap reason =>
    (createCapRequest cfg s caller requestedCap reason).toOption.map Prod.snd
  | .createQuotaRequest caller id requestedTier reason =>
    (createQuotaRequest cfg s caller id requestedTier reason).toOption.map Prod.snd
  | .decideCapRequest isOwner caller id action =>
    (decideCapRequest cfg s isOwner caller id action).toOption
  | .decideQuotaRequest caller id action => (decideQuotaRequest s caller id action).toOption
  | .pruneOnce => some (pruneOnce cfg s)

end RequestPlane

end Drust
