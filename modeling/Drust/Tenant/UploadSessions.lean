import Mathlib.Logic.Function.Basic
import Mathlib.Order.Nat
import Drust.Lib.Transition
import Drust.Tenant.Uploads

/-!
# The cap on open upload sessions

A tus creation counts the sessions of the tenant on a reader, and inserts its own on the writer
after several awaits: the metadata is checked, the disk is looked at and the empty spool is
created. Between the two steps other creations may count and insert, and terminations, completed
uploads and the janitor may remove sessions.

What the handlers ask of their surroundings (the quota, the registry of file policies, the disk,
the spool) is answered in the label of the step. The columns of a session that no handler here
reads again are left out. `State.inserted` counts the sessions that were ever inserted, and a
creation that has counted remembers that number; both are history, which no step reads.
-/

namespace Drust

namespace UploadSessions

open Uploads (Response Room notFound dbError spoolError quotaExceeded)
open Transition

structure Session where
  uploadToken : String
  tenantId : String
  totalLength : Nat
  expiresAt : String
  uploader : String
  deriving DecidableEq

structure Limits where
  tenant : String
  largeUploadMaxBytes : Nat
  largeUploadMaxSessionsPerTenant : Nat

structure Caller where
  /-- The capability check's refusal. -/
  denied : Option Response
  service : Bool
  sessionIdentity : String

inductive Request where
  /-- A creation, with its `Upload-Length` where it is an integer. -/
  | create (caller : Caller) (uploadLength : Option Int)
  | patch (caller : Caller) (token : String)
  | terminate (caller : Caller) (token : String)
  /-- The janitor. -/
  | sweep (now : String)

inductive Pc where
  | idle
  | start
  /-- A creation whose headers are in order. -/
  | checked (totalLength : Nat)
  /-- One that the quota has room for. -/
  | admitted (totalLength : Nat)
  /-- The sessions are below the cap. -/
  | counted (totalLength seen : Nat)
  /-- The spool is there. -/
  | spooled (session : Session) (seen : Nat)
  /-- A PATCH that has read its session. -/
  | patching (token : String)
  /-- The sessions that are still to be removed. -/
  | removing (tokens : List String)
  | done (response : Option Response)

structure State where
  sessions : List Session
  inserted : Nat
  request : Nat → Option Request
  pc : Nat → Pc

def init (sessions : List Session) : State where
  sessions := sessions
  inserted := 0
  request := fun _ => none
  pc := fun _ => .idle

def goto (s : State) (r : Nat) (pc : Pc) : State :=
  { s with pc := Function.update s.pc r pc }

def respond (response : Response) : Pc :=
  .done (some response)

/-! ### The handlers -/

def isValidToken (tok : String) : Bool :=
  tok.utf8ByteSize == 36 &&
    tok.toList.all (fun c => c.isDigit || ('a' ≤ c && c ≤ 'f') || ('A' ≤ c && c ≤ 'F') || c = '-') &&
    tok.toList.zipIdx.all (fun p =>
      if p.2 ∈ [8, 13, 18, 23] then p.1 = '-' else p.1 ≠ '-')

def bearerOwnsSession (caller : Caller) (sess : Session) : Bool :=
  caller.service || caller.sessionIdentity = sess.uploader

/-- The checks before a handler acts on a session. -/
def checkSession (limits : Limits) (sessions : List Session) (db : Except String Unit)
    (caller : Caller) (token : String) : Except Response Unit :=
  match caller.denied with
  | some response => .error response
  | none =>
    if isValidToken token then
      match db with
      | .error e => .error (dbError e)
      | .ok () =>
        match sessions.find? (·.uploadToken = token) with
        | some sess =>
          if sess.tenantId = limits.tenant ∧ bearerOwnsSession caller sess then .ok ()
          else .error notFound
        | none => .error notFound
    else .error notFound

/-- The checks of a creation before it asks for anything. -/
def checkCreate (limits : Limits) (caller : Caller) (uploadLength : Option Int) :
    Except Response Nat :=
  match caller.denied with
  | some response => .error response
  | none =>
    match uploadLength with
    | some (.ofNat n) =>
      if limits.largeUploadMaxBytes < n then
        .error { status := 413,
                 error := some ("UPLOAD_TOO_LARGE",
                   s!"Upload-Length {n} exceeds limit {limits.largeUploadMaxBytes}") }
      else .ok n
    | _ =>
      .error { status := 400,
               error := some ("UPLOAD_LENGTH_REQUIRED",
                 "Upload-Length header required (non-negative integer)") }

def expiredTokens (sessions : List Session) (now : String) : List String :=
  (sessions.filter (·.expiresAt < now)).map Session.uploadToken

/-- The first step of a handler. -/
def begin (limits : Limits) (sessions : List Session) (db : Except String Unit) : Request → Pc
  | .create caller uploadLength =>
    match checkCreate limits caller uploadLength with
    | .ok totalLength => .checked totalLength
    | .error response => respond response
  | .patch caller token =>
    match checkSession limits sessions db caller token with
    | .ok () => .patching token
    | .error response => respond response
  | .terminate caller token =>
    match checkSession limits sessions db caller token with
    | .ok () => .removing [token]
    | .error response => respond response
  | .sweep now =>
    match db with
    | .ok () => .removing (expiredTokens sessions now)
    | .error _ => .done none

def checkQuota (totalLength : Nat) : Room → Pc
  | .free => .admitted totalLength
  | .quotaExceeded =>
    respond (quotaExceeded "declared Upload-Length would exceed the tenant storage quota")
  | .dbError e => respond (dbError e)
  | .diskFull => respond { status := 507, error := some ("DISK_FULL",
      "insufficient free disk for upload") }

def tooManyUploads : Response :=
  { status := 429,
    error := some ("TOO_MANY_UPLOADS", "too many in-flight uploads; finish or delete one first") }

def countInFlight (limits : Limits) (s : State) (totalLength : Nat) : Except String Unit → Pc
  | .error e => respond (dbError e)
  | .ok () =>
    if limits.largeUploadMaxSessionsPerTenant ≤ s.sessions.length then respond tooManyUploads
    else .counted totalLength s.inserted

/-- What the rest of a creation ends in before its insert: a refusal, or an empty spool for a
token that is new to the server. -/
inductive Preparation where
  | refused (response : Response)
  | spooled (token expiresAt : String)

def prepare (limits : Limits) (caller : Caller) (totalLength seen : Nat) : Preparation → Pc
  | .refused response => respond response
  | .spooled token expiresAt =>
    .spooled { uploadToken := token, tenantId := limits.tenant, totalLength := totalLength,
               expiresAt := expiresAt, uploader := caller.sessionIdentity } seen

def created : Response := { status := 201 }

/-- The insert fails where the token is there already. -/
def insertSession (s : State) (r : Nat) (sess : Session) : Except String Unit → State
  | .error e => goto s r (respond (dbError e))
  | .ok () =>
    if sess.uploadToken ∈ s.sessions.map Session.uploadToken then
      goto s r (respond (dbError "UNIQUE constraint failed: _system_upload_sessions.upload_token"))
    else { goto s r (respond created) with
           sessions := sess :: s.sessions
           inserted := s.inserted + 1 }

/-- A deletion that fails is passed over. -/
def deleteSession (sessions : List Session) (token : String) (ok : Bool) : List Session :=
  if ok then sessions.filter (·.uploadToken ≠ token) else sessions

/-! ### The steps -/

inductive Label where
  | arrive (r : Nat) (request : Request)
  | begin (r : Nat) (db : Except String Unit)
  | checkQuota (r : Nat) (room : Room)
  | countInFlight (r : Nat) (db : Except String Unit)
  | prepare (r : Nat) (preparation : Preparation)
  | insertSession (r : Nat) (db : Except String Unit)
  /-- A PATCH ends before the upload is complete, or after a failure. -/
  | leave (r : Nat) (response : Response)
  /-- A PATCH has stored the object. -/
  | finalize (r : Nat)
  | deleteSession (r : Nat) (ok : Bool)
  | finish (r : Nat)

def step (limits : Limits) (s : State) : Label → Option State
  | .arrive r request =>
    match s.pc r with
    | .idle => some { goto s r .start with request := Function.update s.request r (some request) }
    | _ => none
  | .begin r db =>
    match s.pc r, s.request r with
    | .start, some request => some (goto s r (begin limits s.sessions db request))
    | _, _ => none
  | .checkQuota r room =>
    match s.pc r with
    | .checked totalLength => some (goto s r (checkQuota totalLength room))
    | _ => none
  | .countInFlight r db =>
    match s.pc r with
    | .admitted totalLength => some (goto s r (countInFlight limits s totalLength db))
    | _ => none
  | .prepare r preparation =>
    match s.pc r, s.request r with
    | .counted totalLength seen, some (.create caller _) =>
      some (goto s r (prepare limits caller totalLength seen preparation))
    | _, _ => none
  | .insertSession r db =>
    match s.pc r with
    | .spooled sess _ => some (insertSession s r sess db)
    | _ => none
  | .leave r response =>
    match s.pc r with
    | .patching _ => some (goto s r (respond response))
    | _ => none
  | .finalize r =>
    match s.pc r with
    | .patching token => some (goto s r (.removing [token]))
    | _ => none
  | .deleteSession r ok =>
    match s.pc r with
    | .removing (token :: tokens) =>
      some { goto s r (.removing tokens) with
             sessions := deleteSession s.sessions token ok }
    | _ => none
  | .finish r =>
    match s.pc r with
    | .removing [] => some (goto s r (.done (some { status := 204 })))
    | _ => none

/-! ### The cap -/

/-- The number of insertions that a creation saw when it counted. -/
def Pc.seen : Pc → Option Nat
  | .counted _ seen | .spooled _ seen => some seen
  | _ => none

/-- A creation inserts its session before any other has inserted one since it counted. -/
def InTime (s : State) : Label → Prop
  | .insertSession r _ => ∀ seen, (s.pc r).seen = some seen → s.inserted = seen
  | _ => True

/-- There is room for the session of each creation that no other has overtaken. -/
structure Inv (cap : Nat) (s : State) : Prop where
  atMost : s.sessions.length ≤ cap
  seen_le : ∀ r seen, (s.pc r).seen = some seen → seen ≤ s.inserted
  room : ∀ r, (s.pc r).seen = some s.inserted → s.sessions.length < cap

variable {limits : Limits} {cap : Nat} {s s' : State} {r : Nat} {pc : Pc}

/-- A handler goes on that has not counted, or where it has, to no other number; the sessions do
not become more. -/
theorem Inv.goto (hs : Inv cap s) (sessions : List Session)
    (hle : sessions.length ≤ s.sessions.length)
    (hpc : pc.seen = none ∨ pc.seen = (s.pc r).seen ∨
      pc.seen = some s.inserted ∧ s.sessions.length < cap) :
    Inv cap { goto s r pc with sessions := sessions } where
  atMost := hle.trans hs.atMost
  seen_le := by
    intro q seen hq
    change (Function.update s.pc r pc q).seen = some seen at hq
    obtain rfl | hne := eq_or_ne q r
    · rw [Function.update_self] at hq
      obtain hnone | hsame | ⟨hnow, -⟩ := hpc
      · rw [hnone] at hq
        cases hq
      · rw [hsame] at hq
        exact hs.seen_le q seen hq
      · rw [hnow, Option.some.injEq] at hq
        exact hq.ge
    · rw [Function.update_of_ne hne] at hq
      exact hs.seen_le q seen hq
  room := by
    intro q hq
    change (Function.update s.pc r pc q).seen = some s.inserted at hq
    refine hle.trans_lt ?_
    obtain rfl | hne := eq_or_ne q r
    · rw [Function.update_self] at hq
      obtain hnone | hsame | ⟨-, hroom⟩ := hpc
      · rw [hnone] at hq
        cases hq
      · rw [hsame] at hq
        exact hs.room q hq
      · exact hroom
    · rw [Function.update_of_ne hne] at hq
      exact hs.room q hq

/-- A session is inserted where there is room for it. All the creations that have counted are
overtaken by it. -/
theorem Inv.insert (hs : Inv cap s) (hroom : s.sessions.length < cap) (hpc : pc.seen = none)
    (sess : Session) :
    Inv cap { UploadSessions.goto s r pc with
              sessions := sess :: s.sessions, inserted := s.inserted + 1 } := by
  have hseen : ∀ q seen, (Function.update s.pc r pc q).seen = some seen → seen ≤ s.inserted := by
    intro q seen hq
    obtain rfl | hne := eq_or_ne q r
    · rw [Function.update_self, hpc] at hq
      cases hq
    · rw [Function.update_of_ne hne] at hq
      exact hs.seen_le q seen hq
  refine ⟨hroom, fun q seen hq => (hseen q seen hq).trans (Nat.le_succ _), fun q hq => ?_⟩
  have hle : s.inserted + 1 ≤ s.inserted := hseen q _ hq
  omega

theorem inv_init {sessions : List Session} (h : sessions.length ≤ cap) : Inv cap (init sessions) where
  atMost := h
  seen_le := fun _ _ h => (nomatch h)
  room := fun _ h => (nomatch h)

theorem seen_begin (sessions : List Session) (db : Except String Unit) (request : Request) :
    (begin limits sessions db request).seen = none := by
  cases request with
  | create caller uploadLength =>
    simp only [UploadSessions.begin]
    split <;> rfl
  | patch caller token =>
    simp only [UploadSessions.begin]
    split <;> rfl
  | terminate caller token =>
    simp only [UploadSessions.begin]
    split <;> rfl
  | sweep now =>
    simp only [UploadSessions.begin]
    split <;> rfl

theorem inv_step {l : Label} (hs : Inv limits.largeUploadMaxSessionsPerTenant s) (hl : InTime s l)
    (h : step limits s l = some s') : Inv limits.largeUploadMaxSessionsPerTenant s' := by
  have hgoto : ∀ r pc, pc.seen = none ∨ pc.seen = (s.pc r).seen →
      Inv limits.largeUploadMaxSessionsPerTenant (goto s r pc) :=
    fun r pc hpc => hs.goto s.sessions le_rfl (hpc.imp_right .inl)
  cases l with
  | arrive r request =>
    simp only [step] at h
    split at h
    · cases h
      have hstart := hgoto r .start (.inl rfl)
      exact ⟨hstart.atMost, hstart.seen_le, hstart.room⟩
    · cases h
  | begin r db =>
    simp only [step] at h
    split at h
    · cases h
      exact hgoto r _ (.inl (seen_begin _ _ _))
    · cases h
  | checkQuota r room =>
    simp only [step] at h
    split at h
    · cases h
      cases room <;> exact hgoto r _ (.inl rfl)
    · cases h
  | countInFlight r db =>
    simp only [step] at h
    split at h
    · next totalLength _ =>
      cases h
      cases db with
      | error e => exact hgoto r _ (.inl rfl)
      | ok u =>
        rw [countInFlight]
        split
        · exact hgoto r _ (.inl rfl)
        · next hroom =>
          exact hs.goto s.sessions le_rfl (.inr (.inr ⟨rfl, by omega⟩))
    · cases h
  | prepare r preparation =>
    simp only [step] at h
    split at h
    · next hpc _ =>
      cases h
      cases preparation with
      | refused response => exact hgoto r _ (.inl rfl)
      | spooled token expiresAt =>
        refine hgoto r _ (.inr ?_)
        rw [hpc]
        rfl
    · cases h
  | insertSession r db =>
    simp only [step] at h
    split at h
    · next sess seen hpc =>
      cases h
      cases db with
      | error e => exact hgoto r _ (.inl rfl)
      | ok u =>
        rw [insertSession]
        split
        · exact hgoto r _ (.inl rfl)
        · -- nobody has overtaken it, so what it counted still leaves room
          have hseen : (s.pc r).seen = some seen := by rw [hpc]; rfl
          have hnow := hl seen hseen
          exact hs.insert (hs.room r (hnow ▸ hseen)) rfl sess
    · cases h
  | leave r response =>
    simp only [step] at h
    split at h
    · cases h
      exact hgoto r _ (.inl rfl)
    · cases h
  | finalize r =>
    simp only [step] at h
    split at h
    · cases h
      exact hgoto r _ (.inl rfl)
    · cases h
  | deleteSession r ok =>
    simp only [step] at h
    split at h
    · cases h
      refine hs.goto _ ?_ (.inl rfl)
      unfold deleteSession
      split
      · exact List.length_filter_le _ _
      · exact le_rfl
    · cases h
  | finish r =>
    simp only [step] at h
    split at h
    · cases h
      exact hgoto r _ (.inl rfl)
    · cases h

/-- As long as no creation is overtaken by another between its count and its insert, the sessions
are never more than the cap. -/
theorem sessions_le_cap {sessions : List Session} {ls : List Label}
    (hstart : sessions.length ≤ limits.largeUploadMaxSessionsPerTenant)
    (hrun : run (step limits) (init sessions) ls = some s')
    (hinTime : Along (step limits) InTime (init sessions) ls) :
    s'.sessions.length ≤ limits.largeUploadMaxSessionsPerTenant :=
  (Along.invariant (fun hs hl h => inv_step hs hl h) (inv_init hstart) hinTime hrun).atMost

/-- A tenant that may have one open upload. -/
def oneSession : Limits where
  tenant := "t1"
  largeUploadMaxBytes := 1024
  largeUploadMaxSessionsPerTenant := 1

def user : Caller := { denied := none, service := false, sessionIdentity := "u-1" }

def token (n : Nat) : String :=
  "00000000-0000-4000-8000-00000000000" ++ String.ofList (Nat.toDigits 10 n)

def expiry : String := "2026-01-02T00:00:00+00:00"

/-- A creation up to its count. -/
def count (r : Nat) : List Label :=
  [.arrive r (.create user (some 10)), .begin r (.ok ()), .checkQuota r .free,
    .countInFlight r (.ok ())]

/-- The rest of it. -/
def insert (r : Nat) : List Label :=
  [.prepare r (.spooled (token r) expiry), .insertSession r (.ok ())]

def terminate (r n : Nat) : List Label :=
  [.arrive r (.terminate user (token n)), .begin r (.ok ()), .deleteSession r true, .finish r]

/-- A session is created, terminated, and another one created. -/
def inTurn : List Label :=
  count 0 ++ insert 0 ++ terminate 1 0 ++ count 2 ++ insert 2

instance (s : State) (l : Label) : Decidable (InTime s l) :=
  match l with
  | .insertSession r _ =>
    match h : (s.pc r).seen with
    | some seen =>
      if heq : s.inserted = seen then
        isTrue fun n hn => by
          rw [h, Option.some.injEq] at hn
          rw [← hn, heq]
      else isFalse fun hall => heq (hall seen h)
    | none => isTrue fun n hn => by rw [h] at hn; cases hn
  | .arrive .. | .begin .. | .checkQuota .. | .countInFlight .. | .prepare .. | .leave ..
  | .finalize .. | .deleteSession .. | .finish .. => isTrue trivial

theorem sessions_le_cap_inTurn :
    ∃ s', run (step oneSession) (init []) inTurn = some s' ∧ s'.sessions.length ≤ 1 := by
  have hsome : (run (step oneSession) (init []) inTurn).isSome = true := by decide +kernel
  obtain ⟨s', hrun⟩ := Option.isSome_iff_exists.mp hsome
  exact ⟨s', hrun, sessions_le_cap (by decide) hrun (by decide +kernel)⟩

/-- Two creations count before either has inserted its session. -/
theorem sessions_exceed_cap : (run (step oneSession) (init [])
    (count 0 ++ count 1 ++ insert 0 ++ insert 1)).map (·.sessions.length) = some 2 := by
  decide +kernel

end UploadSessions

end Drust
