import Drust.Functions.HttpFetch
import Drust.Tenant.WebhookDispatcher

/-!
# Soft-deletion beside the traffic of a tenant

A soft-deletion marks the row, moves the directory aside, drops what is cached of the tenant
and bumps the version of its allowlist. None of this waits for deliveries or for functions.

The model has one tenant and any number of deletions, of the parties of its webhooks
(`WebhookDispatcher`) and of invocations of its functions. The directory, the pools, the
streams and the other caches are read by no egress gate, so the steps on them leave this state
alone; whether an invocation still finds its tenant's pool is in its label. A function's
request reads the row whatever its `deleted_at`.

The UPDATE and the bump of a deletion are steps of the dispatcher's state: the deletion takes
the place of a call there.
-/

namespace Drust

namespace SoftDelete

open Egress HttpFetch

/-! ### The parties -/

inductive DeletionStep where
  | moveTenantToTrash
  | evictPools
  | evictMcp
  | evictStreams
  | evictRooms
  | clearAuthCache
  | bumpEgressAllowlistVersion
  | invalidateCronIndex
  deriving DecidableEq, Repr

/-- What follows the UPDATE. -/
def afterUpdate : List DeletionStep :=
  [.moveTenantToTrash, .evictPools, .evictMcp, .evictStreams, .evictRooms, .clearAuthCache,
   .bumpEgressAllowlistVersion, .invalidateCronIndex]

inductive Deletion where
  | idle
  | running (rest : List DeletionStep)
  | returned
  /-- No live tenant, or a failing UPDATE. -/
  | notFound
  deriving DecidableEq, Repr

inductive Invocation where
  | idle
  /-- The guest runs, with the last answer of the host. -/
  | running (http : HttpFetchState) (answer : Except String Unit)
  /-- Before the list of the gate. -/
  | asking (http : HttpFetchState) (req : Request) (origin : String)
  /-- The gate is passed. -/
  | allowed (http : HttpFetchState) (req : Request) (origin : String)
  | dialing (http : HttpFetchState) (method url : String)
  | ended
  deriving DecidableEq

structure State where
  webhooks : WebhookDispatcher.State
  deletions : Nat → Deletion
  invocations : Nat → Invocation

/-- A tenant that is live. -/
def init (allowlist : Option Json) : State where
  webhooks := WebhookDispatcher.init allowlist false
  deletions := fun _ => .idle
  invocations := fun _ => .idle

def setDeletion (s : State) (w : Nat) (x : Deletion) : State :=
  { s with deletions := Function.update s.deletions w x }

def setInvocation (s : State) (i : Nat) (x : Invocation) : State :=
  { s with invocations := Function.update s.invocations i x }

@[simp] theorem setDeletion_self (s : State) (w : Nat) (x : Deletion) :
    (setDeletion s w x).deletions w = x :=
  Function.update_self ..

theorem setDeletion_of_ne (s : State) {w p : Nat} (h : w ≠ p) (x : Deletion) :
    (setDeletion s p x).deletions w = s.deletions w :=
  Function.update_of_ne h ..

@[simp] theorem setInvocation_self (s : State) (i : Nat) (x : Invocation) :
    (setInvocation s i x).invocations i = x :=
  Function.update_self ..

theorem setInvocation_of_ne (s : State) {i j : Nat} (h : i ≠ j) (x : Invocation) :
    (setInvocation s j x).invocations i = s.invocations i :=
  Function.update_of_ne h ..

/-! ### Steps -/

/-- The row of the tenant, deleted or not; a failing read denies. -/
def readEgressAllowlist (s : WebhookDispatcher.State) (ok : Bool) : Option Json :=
  if ok then s.allowlist else denyAll

inductive Label where
  | webhook (l : WebhookDispatcher.Label)
  | softDelete (w : Nat)
  | updateFails (w : Nat)
  /-- The pool of the tenant is found, or not. -/
  | build (i : Nat) (live : Bool)
  | fetch (i : Nat) (req : Request)
  | allowlist (i : Nat) (ok : Bool)
  | assemble (i : Nat) (limited : Bool)
  | respond (i : Nat) (answer : Except String Unit)
  /-- The guest returns, traps or is interrupted. -/
  | finish (i : Nat)
  deriving DecidableEq

/-- A call other than a deletion does not take the steps of one. -/
def ofDispatcher (s : State) : WebhookDispatcher.Label → Bool
  | .softDelete _ => false
  | .setAllowlist w _ | .update w _ | .bump w => s.deletions w = .idle
  | _ => true

def perform (env : Env) (s : WebhookDispatcher.State) (w : Nat) :
    DeletionStep → Option WebhookDispatcher.State
  | .bumpEgressAllowlistVersion => WebhookDispatcher.step env s (.bump w)
  | _ => some s

def step (host : Host) (s : State) : Label → Option State
  | .webhook l =>
    if ofDispatcher s l then
      (WebhookDispatcher.step host.env s.webhooks l).map (fun webhooks => { s with webhooks })
    else none
  | .softDelete w =>
    match s.deletions w with
    | .idle =>
      if s.webhooks.deleted then some (setDeletion s w .notFound)
      else
        (WebhookDispatcher.step host.env s.webhooks (.softDelete w)).map (fun webhooks =>
          setDeletion { s with webhooks } w (.running afterUpdate))
    | .running (d :: rest) =>
      (perform host.env s.webhooks w d).map (fun webhooks =>
        setDeletion { s with webhooks } w (.running rest))
    | .running [] => some (setDeletion s w .returned)
    | _ => none
  | .updateFails w =>
    match s.deletions w with
    | .idle => some (setDeletion s w .notFound)
    | _ => none
  | .build i live =>
    match s.invocations i with
    | .idle =>
      some (setInvocation s i (if live then .running HttpFetchState.new (.ok ()) else .ended))
    | _ => none
  | .fetch i req =>
    match s.invocations i with
    | .running http _ =>
      match requestedOrigin host req with
      | .ok origin => some (setInvocation s i (.asking http req origin))
      | .error e => some (setInvocation s i (.running http (.error e)))
    | _ => none
  | .allowlist i ok =>
    match s.invocations i with
    | .asking http req origin =>
      let http := http.resolve (readEgressAllowlist s.webhooks ok)
      if checkEgress http.allowlist .function origin then
        some (setInvocation s i (.allowed http req origin))
      else some (setInvocation s i (.running http (.error "origin not allowlisted")))
    | _ => none
  | .assemble i limited =>
    match s.invocations i with
    | .allowed http req origin =>
      match assemble host req origin with
      | .error e => some (setInvocation s i (.running http (.error e)))
      | .ok (method, url) =>
        if limited then some (setInvocation s i (.running http (.error "rate limited")))
        else some (setInvocation s i (.dialing http method url))
    | _ => none
  | .respond i answer =>
    match s.invocations i with
    | .dialing http _ _ => some (setInvocation s i (.running http answer))
    | _ => none
  | .finish i =>
    match s.invocations i with
    | .idle | .ended => none
    | _ => some (setInvocation s i .ended)

end SoftDelete

end Drust
