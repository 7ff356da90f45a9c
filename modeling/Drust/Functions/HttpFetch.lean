import Drust.Tenant.Egress

/-!
# Outbound requests of functions

A guest asks its host for an origin, a path and a method. The host holds the tenant's
allowlist, which it reads when the guest asks first and keeps for the rest of the invocation.
Nothing is dialled before the origin has passed the gate, and the assembled URL has to have the
origin that was gated.

The URL library, the test for private addresses and the reason that the normalizer gives are
parameters. Headers, bodies and the response caps are left out: no gate looks at them.
-/

namespace Drust

namespace HttpFetch

open Egress

/-! ### The state of an invocation -/

structure HttpFetchState where
  allowlist : Option Json
  /-- The list has been read. -/
  resolved : Bool
  deriving DecidableEq

def HttpFetchState.new : HttpFetchState where
  allowlist := denyAll
  resolved := false

/-- The first use takes what is read, the later ones what was read then. -/
def HttpFetchState.resolve (http : HttpFetchState) (read : Option Json) : HttpFetchState :=
  if http.resolved then http else { allowlist := read, resolved := true }

@[simp] theorem HttpFetchState.resolve_resolved (http : HttpFetchState) (read : Option Json) :
    (http.resolve read).resolved = true := by
  unfold HttpFetchState.resolve
  split
  · assumption
  · rfl

/-! ### One request -/

structure Host where
  env : Env
  /-- What the normalizer says of an origin that is not well formed. -/
  originError : String → String

structure Request where
  origin : String
  path : String
  method : String
  deriving DecidableEq, Repr

/-- What stands before the gate: the normalized origin, unless its host is a private address. -/
def requestedOrigin (host : Host) (req : Request) : Except String String :=
  match normalizeOrigin req.origin with
  | none => .error ("bad origin: " ++ host.originError req.origin)
  | some origin =>
    if host.env.originHostIsPrivateIp origin then
      .error "origin host is a private/loopback address"
    else .ok origin

def upper (cs : List Char) : List Char :=
  cs.map Char.toUpper

def methods : List String := ["GET", "POST", "PUT", "PATCH", "DELETE", "HEAD"]

/-- What stands after the gate: the method and the URL that are dialled. -/
def assemble (host : Host) (req : Request) (origin : String) : Except String (String × String) :=
  let method := String.ofList (upper req.method.toList)
  if method ∉ methods then .error ("method not allowed: " ++ method)
  else if req.path ≠ "" ∧ req.path.toList.head? ≠ some '/' then
    .error "path must be empty or start with '/'"
  else
    let url := origin ++ req.path
    match normalizeOrigin url with
    | none => .error ("bad url: " ++ host.originError url)
    | some dialed =>
      if dialed ≠ origin then .error "path must not alter the request host"
      else .ok (method, url)

end HttpFetch

end Drust
