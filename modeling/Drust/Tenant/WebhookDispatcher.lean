import Drust.Lib.Transition
import Drust.Tenant.Egress

/-!
# The webhook dispatcher and its egress gate

The events of a write are fanned out to the subscriptions of the collection. A fan-out reads
the version of the tenant's allowlist, then the list, and spawns a delivery for each event and
subscription whose URL the list allows. A delivery waits for its permits and makes up to four
attempts. The first of them trusts the gate of the fan-out as long as the version has not
moved since; the others, and the first one otherwise, read the list again. A denial ends the
delivery, an unreadable database only skips the attempt.

The version is in memory and is bumped after the commit of every new list (`setAllowlist`) and
of the soft-deletion of the tenant. It is kept here as the number of bumps; the process keeps
it in 64 bits that wrap, so versions are compared modulo `2 ^ 64`.

The model has one tenant and any number of calls, fan-outs and deliveries. Which subscriptions
there are and how many events of the fan-out each of them wants, failing queries, the answers
of subscribers and the resolution of their hosts are in the labels. Permits only delay a
delivery; signatures, payloads and the record of failures are left out.
-/

namespace Drust

namespace WebhookDispatcher

open Egress

/-! ### Reading the list -/

inductive AllowlistRead where
  /-- The policy of the tenant. -/
  | live (allowlist : Option Json)
  | unavailable
  deriving DecidableEq

/-- An unreadable list denies. -/
def AllowlistRead.orDenyAll : AllowlistRead → Option Json
  | .live allowlist => allowlist
  | .unavailable => denyAll

/-! ### The parties -/

/-- A call that changes the list. -/
inductive Writer where
  | idle
  | validated (stored : Option Json)
  /-- The change is committed, the version not yet bumped. -/
  | committed
  | returned
  | refused (e : EgressConfigError)
  /-- The UPDATE has failed. -/
  | failed
  deriving DecidableEq

structure Subscription where
  id : Int
  url : String
  /-- The events of the fan-out that it wants. -/
  matching : Nat
  deriving DecidableEq, Repr

inductive Fanout where
  | idle
  | listed (subs : List Subscription)
  | versioned (subs : List Subscription) (version : Nat)
  | gating (subs : List Subscription) (version : Nat) (allowlist : Option Json)
      (denied : List (Int × String))
  /-- Deliveries to a subscription that has passed the gate are still to be spawned. -/
  | spawning (left : Nat) (url : String) (subs : List Subscription) (version : Nat)
      (allowlist : Option Json) (denied : List (Int × String))
  /-- The denied subscriptions, whose failures are recorded in the end. -/
  | finished (denied : List (Int × String))
  deriving DecidableEq

inductive DeliveryError where
  | nonRetryable (status : Nat) (body : String)
  | exhausted (lastError : String) (attempts : Nat)
  | egressRevoked (url : String)
  deriving DecidableEq, Repr

/-- The arguments of a delivery: its target and the version that its fan-out has read. -/
structure Job where
  url : String
  egressSnapshotVer : Nat
  deriving DecidableEq, Repr

inductive Delivery where
  | idle
  /-- Before its permits and the resolution of its host. -/
  | spawned (job : Job)
  /-- Before the egress check of an attempt. -/
  | attempt (job : Job) (idx : Nat) (lastErr : String)
  | rereading (job : Job) (idx : Nat) (lastErr : String)
  /-- The check is passed. -/
  | sending (job : Job) (idx : Nat) (lastErr : String)
  /-- The request is sent. -/
  | awaiting (job : Job) (idx : Nat) (lastErr : String)
  | ended (result : Except DeliveryError Unit)
  deriving DecidableEq

structure State where
  /-- The column of the tenant's row. -/
  allowlist : Option Json
  deleted : Bool
  version : Nat
  writers : Nat → Writer
  fanouts : Nat → Fanout
  deliveries : Nat → Delivery

def init (allowlist : Option Json) (deleted : Bool) : State where
  allowlist := allowlist
  deleted := deleted
  version := 0
  writers := fun _ => .idle
  fanouts := fun _ => .idle
  deliveries := fun _ => .idle

/-- The list in force: a tenant that is not live has none. -/
def State.liveAllowlist (s : State) : Option Json :=
  if s.deleted then denyAll else s.allowlist

def readTenantEgressAllowlist (s : State) (ok : Bool) : AllowlistRead :=
  if ok then .live s.liveAllowlist else .unavailable

def setWriter (s : State) (w : Nat) (x : Writer) : State :=
  { s with writers := Function.update s.writers w x }

def setFanout (s : State) (f : Nat) (x : Fanout) : State :=
  { s with fanouts := Function.update s.fanouts f x }

def setDelivery (s : State) (d : Nat) (x : Delivery) : State :=
  { s with deliveries := Function.update s.deliveries d x }

@[simp] theorem setWriter_self (s : State) (w : Nat) (x : Writer) :
    (setWriter s w x).writers w = x :=
  Function.update_self ..

theorem setWriter_of_ne (s : State) {w p : Nat} (h : w ≠ p) (x : Writer) :
    (setWriter s p x).writers w = s.writers w :=
  Function.update_of_ne h ..

@[simp] theorem setFanout_self (s : State) (f : Nat) (x : Fanout) :
    (setFanout s f x).fanouts f = x :=
  Function.update_self ..

@[simp] theorem setDelivery_self (s : State) (d : Nat) (x : Delivery) :
    (setDelivery s d x).deliveries d = x :=
  Function.update_self ..

/-! ### One delivery -/

/-- The waits before the attempts, in seconds. -/
def backoffs : List Nat := [0, 1, 5, 30]

/-- The end of an attempt that is not final. -/
def nextAttempt (job : Job) (idx : Nat) (lastErr : String) : Delivery :=
  if idx + 1 < backoffs.length then .attempt job (idx + 1) lastErr
  else .ended (.error (.exhausted lastErr backoffs.length))

/-- The version has moved since the fan-out has read it. -/
def snapshotIsStale (s : State) (job : Job) : Bool :=
  job.egressSnapshotVer % 2 ^ 64 != s.version % 2 ^ 64

def check (s : State) (job : Job) (idx : Nat) (lastErr : String) : Delivery :=
  if 0 < idx ∨ snapshotIsStale s job then .rereading job idx lastErr
  else .sending job idx lastErr

def unreadable (idx : Nat) : String :=
  "attempt " ++ toString (idx + 1) ++ " skipped: egress allowlist unreadable"

def reread (env : Env) (job : Job) (idx : Nat) (lastErr : String) : AllowlistRead → Delivery
  | .live allowlist =>
    if dispatchEgressAllowed env allowlist job.url then .sending job idx lastErr
    else .ended (.error (.egressRevoked job.url))
  | .unavailable => nextAttempt job idx (unreadable idx)

/-- The answer of the subscriber: a status and a body, or an error of the network. -/
def respond (job : Job) (idx : Nat) : Except String (Nat × String) → Delivery
  | .ok (status, body) =>
    if 200 ≤ status ∧ status < 300 then .ended (.ok ())
    else if 400 ≤ status ∧ status < 500 then
      .ended (.error (.nonRetryable status (String.ofList (body.toList.take 200))))
    else
      nextAttempt job idx ("attempt " ++ toString (idx + 1) ++ " got status " ++ toString status)
  | .error e => nextAttempt job idx ("attempt " ++ toString (idx + 1) ++ " network err: " ++ e)

/-- The head of `deliver_inner`: the URL is parsed and, unless it is a loopback of a
development build, its host resolved. -/
def deliverInner (env : Env) (job : Job) (parseErr : String) (resolved : Bool) : Delivery :=
  match env.urlHost job.url with
  | none => .ended (.error (.nonRetryable 0 ("url parse: " ++ parseErr)))
  | some _ =>
    if isLoopbackDevUrl env job.url || resolved then .attempt job 0 ""
    else .ended (.error (.nonRetryable 0 "host_now_private_or_unresolvable"))

inductive Label where
  | setAllowlist (w : Nat) (entries : List RawEgressEntry)
  | update (w : Nat) (ok : Bool)
  /-- The UPDATE of a soft-deletion. -/
  | softDelete (w : Nat)
  | bump (w : Nat)
  | dispatchMany (f : Nat) (subs : List Subscription)
  | readVersion (f : Nat)
  | readList (f : Nat) (ok : Bool)
  | gate (f : Nat)
  | spawn (f d : Nat)
  /-- A payload that cannot be serialized. -/
  | skipEvent (f : Nat)
  | start (d : Nat) (parseErr : String) (resolved : Bool)
  | check (d : Nat)
  | reread (d : Nat) (ok : Bool)
  | post (d : Nat)
  /-- A client of its own, for a loopback target, cannot be built. -/
  | buildFails (d : Nat) (e : String)
  | respond (d : Nat) (answer : Except String (Nat × String))
  deriving DecidableEq

def step (env : Env) (s : State) : Label → Option State
  | .setAllowlist w entries =>
    match s.writers w with
    | .idle =>
      match validateEntries env entries with
      | .ok normalized => some (setWriter s w (.validated (some (toJson normalized))))
      | .error e => some (setWriter s w (.refused e))
    | _ => none
  | .update w ok =>
    match s.writers w with
    | .validated stored =>
      if ok then
        -- the row is updated only while the tenant is live
        some (setWriter { s with allowlist := if s.deleted then s.allowlist else stored } w .committed)
      else some (setWriter s w .failed)
    | _ => none
  | .softDelete w =>
    match s.writers w with
    | .idle => if s.deleted then none else some (setWriter { s with deleted := true } w .committed)
    | _ => none
  | .bump w =>
    match s.writers w with
    | .committed => some (setWriter { s with version := s.version + 1 } w .returned)
    | _ => none
  | .dispatchMany f subs =>
    match s.fanouts f with
    | .idle => some (setFanout s f (if subs.isEmpty then .finished [] else .listed subs))
    | _ => none
  | .readVersion f =>
    match s.fanouts f with
    | .listed subs => some (setFanout s f (.versioned subs s.version))
    | _ => none
  | .readList f ok =>
    match s.fanouts f with
    | .versioned subs version =>
      some (setFanout s f (.gating subs version (readTenantEgressAllowlist s ok).orDenyAll []))
    | _ => none
  | .gate f =>
    match s.fanouts f with
    | .gating [] _ _ denied => some (setFanout s f (.finished denied))
    | .gating (sub :: subs) version allowlist denied =>
      if sub.matching = 0 then some (setFanout s f (.gating subs version allowlist denied))
      else if dispatchEgressAllowed env allowlist sub.url then
        some (setFanout s f (.spawning sub.matching sub.url subs version allowlist denied))
      else
        some (setFanout s f (.gating subs version allowlist (denied ++ [(sub.id, sub.url)])))
    | .spawning 0 _ subs version allowlist denied =>
      some (setFanout s f (.gating subs version allowlist denied))
    | _ => none
  | .spawn f d =>
    match s.fanouts f, s.deliveries d with
    | .spawning (left + 1) url subs version allowlist denied, .idle =>
      some (setDelivery (setFanout s f (.spawning left url subs version allowlist denied)) d
        (.spawned ⟨url, version⟩))
    | _, _ => none
  | .skipEvent f =>
    match s.fanouts f with
    | .spawning (left + 1) url subs version allowlist denied =>
      some (setFanout s f (.spawning left url subs version allowlist denied))
    | _ => none
  | .start d parseErr resolved =>
    match s.deliveries d with
    | .spawned job => some (setDelivery s d (deliverInner env job parseErr resolved))
    | _ => none
  | .check d =>
    match s.deliveries d with
    | .attempt job idx lastErr => some (setDelivery s d (check s job idx lastErr))
    | _ => none
  | .reread d ok =>
    match s.deliveries d with
    | .rereading job idx lastErr =>
      some (setDelivery s d (reread env job idx lastErr (readTenantEgressAllowlist s ok)))
    | _ => none
  | .post d =>
    match s.deliveries d with
    | .sending job idx lastErr => some (setDelivery s d (.awaiting job idx lastErr))
    | _ => none
  | .buildFails d e =>
    match s.deliveries d with
    | .sending job _ _ =>
      if isLoopbackDevUrl env job.url then
        some (setDelivery s d (.ended (.error (.nonRetryable 0 ("client build: " ++ e)))))
      else none
    | _ => none
  | .respond d answer =>
    match s.deliveries d with
    | .awaiting job idx _ => some (setDelivery s d (respond job idx answer))
    | _ => none

end WebhookDispatcher

end Drust
