import Drust.Lib.Json
import Drust.Rpc.ExecWrite

/-!
# The egress allowlist of a tenant

Outbound requests of a tenant go only to origins on its allowlist, a JSON array of tagged
entries in a column of the tenant's row. The gate fails closed: a text that is no JSON, an
entry that is not well formed and an origin that cannot be normalized all deny.

The text of the column is modelled by the value that is parsed from it, `none` where it is no
JSON. The URL library, the test for private addresses and the configuration of the process are
parameters (`Env`).
-/

namespace Drust

namespace Egress

open ExecWrite (trim lower)

inductive EgressSystem where
  | webhook
  | function
  deriving DecidableEq, Repr

def EgressSystem.asStr : EgressSystem → String
  | .webhook => "webhook"
  | .function => "function"

def EgressSystem.parse : String → Option EgressSystem
  | "webhook" => some .webhook
  | "function" => some .function
  | _ => none

structure EgressEntry where
  system : EgressSystem
  uri : String
  deriving DecidableEq, Repr

/-! ### Origins -/

/-- What stands before the first occurrence of a separator, and after it. -/
def splitOnce (sep : List Char) : List Char → Option (List Char × List Char)
  | [] => none
  | c :: cs =>
    if sep.isPrefixOf (c :: cs) then some ([], (c :: cs).drop sep.length)
    else (splitOnce sep cs).map (fun p => (c :: p.1, p.2))

/-- What stands before the last occurrence of a character, and after it. -/
def rsplitOnce (sep : Char) (cs : List Char) : Option (List Char × List Char) :=
  if sep ∈ cs then
    some (((cs.reverse.dropWhile (· ≠ sep)).drop 1).reverse, (cs.reverse.takeWhile (· ≠ sep)).reverse)
  else none

def parseU16 (cs : List Char) : Option Nat :=
  let n := cs.foldl (fun n c => 10 * n + (c.toNat - '0'.toNat)) 0
  if n < 2 ^ 16 then some n else none

/-- The host of an authority and its port; `none` for a malformed authority. -/
def splitPort (authority : List Char) : Option (List Char × Option Nat) :=
  match rsplitOnce ':' authority with
  | some (h, p) =>
    if p ≠ [] ∧ p.all Char.isDigit then (parseU16 p).map (fun n => (h, some n)) else none
  | none => some (authority, none)

/-- The origin of a URL, with its host in lower case and without a default port. The reason of a
failure is left out: no caller decides by it. -/
def normalizeOrigin (raw : String) : Option String := do
  let (scheme, rest) ← splitOnce "://".toList (trim raw.toList)
  let scheme := lower scheme
  if scheme ≠ "http".toList ∧ scheme ≠ "https".toList then none
  let authority := rest.takeWhile (fun c => c ≠ '/' ∧ c ≠ '?' ∧ c ≠ '#')
  if authority = [] ∨ '@' ∈ authority then none
  let (host, port) ← splitPort authority
  if host = [] then none
  let origin := scheme ++ "://".toList ++ lower host
  match port with
  | some p =>
    if (scheme = "http".toList ∧ p = 80) ∨ (scheme = "https".toList ∧ p = 443) then
      return String.ofList origin
    else return String.ofList (origin ++ ':' :: (toString p).toList)
  | none => return String.ofList origin

/-! ### The stored list -/

/-- A member of a value that is an object. -/
def member (v : Json) (key : String) : Option Json :=
  match v with
  | .object kvs => Json.Map.get kvs key
  | _ => none

def parseEntry (v : Json) : Option EgressEntry := do
  let system ← EgressSystem.parse (← (← member v "system").asStr)
  let uri ← (← member v "uri").asStr
  return { system, uri }

/-- The entries of a stored list; those that are not well formed are skipped. -/
def parseAllowlist : Option Json → List EgressEntry
  | some (.array values) => values.filterMap parseEntry
  | _ => []

def toJson (entries : List EgressEntry) : Json :=
  .array (entries.map (fun e =>
    .object [("system", .string e.system.asStr), ("uri", .string e.uri)]))

/-- The list that denies everything. -/
def denyAll : Option Json :=
  some (.array [])

def checkEgress (allowlist : Option Json) (system : EgressSystem) (origin : String) : Bool :=
  match normalizeOrigin origin with
  | none => false
  | some target =>
    (parseAllowlist allowlist).any (fun entry =>
      entry.system == system && normalizeOrigin entry.uri == some target)

@[simp] theorem checkEgress_denyAll (system : EgressSystem) (origin : String) :
    checkEgress denyAll system origin = false := by
  unfold checkEgress
  split <;> rfl

/-! ### Configuration -/

structure Env where
  maxEntries : Nat
  originHostIsPrivateIp : String → Bool
  /-- The host of a URL; `none` where it does not parse. -/
  urlHost : String → Option String
  /-- A debug build, or the opt-in of the environment. -/
  webhookLoopbackAllowed : Bool

structure RawEgressEntry where
  system : String
  uri : String
  deriving DecidableEq, Repr

inductive EgressConfigError where
  | badOrigin (uri : String)
  | badSystem (system : String)
  | tooMany (n : Nat)
  deriving DecidableEq, Repr

def validateEntry (env : Env) (e : RawEgressEntry) : Except EgressConfigError EgressEntry :=
  match EgressSystem.parse e.system with
  | none => .error (.badSystem e.system)
  | some system =>
    match normalizeOrigin e.uri with
    | none => .error (.badOrigin e.uri)
    | some origin =>
      if system = .function ∧ env.originHostIsPrivateIp origin then .error (.badOrigin e.uri)
      else .ok { system, uri := origin }

def validateEntries (env : Env) (entries : List RawEgressEntry) :
    Except EgressConfigError (List EgressEntry) :=
  if env.maxEntries < entries.length then .error (.tooMany entries.length)
  else entries.mapM (validateEntry env)

/-! ### The gate of the webhooks -/

def isLoopbackDevUrl (env : Env) (url : String) : Bool :=
  match env.urlHost url with
  | none => false
  | some host =>
    String.ofList (lower host.toList) ∈ ["127.0.0.1", "localhost", "::1", "[::1]"] &&
      env.webhookLoopbackAllowed

def dispatchEgressAllowed (env : Env) (allowlist : Option Json) (url : String) : Bool :=
  isLoopbackDevUrl env url || checkEgress allowlist .webhook url

theorem dispatchEgressAllowed_eq {env : Env} {url : String} (h : isLoopbackDevUrl env url = false)
    (allowlist : Option Json) :
    dispatchEgressAllowed env allowlist url = checkEgress allowlist .webhook url := by
  rw [dispatchEgressAllowed, h, Bool.false_or]

end Egress

end Drust
