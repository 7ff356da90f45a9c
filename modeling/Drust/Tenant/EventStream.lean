import Drust.Mcp.SchemaTools

/-!
# Event streams

A client of a collection's event stream is admitted once, when it connects: its request loads
the schema of the collection, decides on it, captures the select policy as a filter for the
events, and registers with the bus. Nothing is decided again afterwards. An operation that
changes what a stream may see therefore drops the channel of the collection, so that the
clients connect anew; a receiver of a dropped channel gets what was sent before and then ends.

The model is a transition system over one collection, with any number of subscriptions and of
configuration changes in progress. A change is its commit, the invalidation of the cached
schema and, where the code has one, the eviction of the channel; it has returned after the
last of these. The queries of one description of the collection are one step here, whose
`Reading` says how they go.

Two things are history, which no step reads: the catalogs before and after the commit of a change
that has not returned, and the catalog that was in force when an event was published.
-/

namespace Drust

open QueryTemplate (isProtectedCollection)

namespace EventStream

open SchemaTools (Env FieldSpec ToolError trim)

/-! ### The filter of a stream -/

inductive Event where
  | created (record : Json)
  | updated (record : Json)
  | deleted (id : Int64)

/-- The select policy as an anonymous stream applies it. -/
inductive AnonSelectFilter where
  | passAll
  | denyAll
  | usingClause (ast : FilterAst)

/-- The members of a record; what is not an object has none. -/
def asObject : Json → Json.Map
  | .object m => m
  | _ => []

/-- Whether an event is sent on. That of a deleted row has nothing to evaluate a clause on. -/
def AnonSelectFilter.passes : AnonSelectFilter → Event → Bool
  | .passAll, _ => true
  | .denyAll, _ => false
  | .usingClause ast, .created record => Policy.evalPolicy ast (asObject record) {}
  | .usingClause ast, .updated record => Policy.evalPolicy ast (asObject record) {}
  | .usingClause _, .deleted _ => false

/-- How a subscription is turned away. -/
inductive Refusal where
  /-- 404, "NOT_FOUND". -/
  | notFound
  /-- 500, "SCHEMA_READ_ERROR". -/
  | schemaReadError (why : SqlError)
  /-- 403, "REALTIME_DISABLED". -/
  | realtimeDisabled
  /-- 403, "SSE_USER_DENIED". -/
  | userDenied
  /-- 403, "REALTIME_ANON_DENIED". -/
  | anonDenied
  /-- 403, "ANON_FORBIDDEN_OWNER_SCOPED". -/
  | ownerScoped

def capture (ctx : AuthCtx) (schema : CollectionSchema) : AnonSelectFilter :=
  match ctx with
  | .anon =>
    match Policy.selectReadAccess ctx schema with
    | .unrestricted => .passAll
    | .filtered ast => .usingClause ast
    | .denyAll => .denyAll
  | _ => .passAll

/-- The gates of `subscribe_handler` on a loaded schema, and the filter it captures. -/
def gate (ctx : AuthCtx) (d : CollectionDescription) : Except Refusal AnonSelectFilter :=
  if !d.realtimeEnabled then .error .realtimeDisabled
  else if ctx.userId.isSome then .error .userDenied
  else if ctx = .anon ∧ .select ∉ d.anonCaps then .error .anonDenied
  else if ctx = .anon ∧ d.ownerField.isSome then .error .ownerScoped
  else .ok (capture ctx d.schema)

/-- What the catalog has in store for a caller who subscribes when all reads succeed. -/
def admission (env : Env) (coll : String) (c : Catalog) (ctx : AuthCtx) :
    Except Refusal AnonSelectFilter :=
  if isProtectedCollection coll then .error .notFound
  else match describeCollection env.reading c coll with
    | .ok (some d) => gate ctx d
    | .ok none => .error .notFound
    | .error e => .error (.schemaReadError e)

/-- The catalog admits an anonymous stream, and its select filter the event. -/
def admits (env : Env) (coll : String) (c : Catalog) (ev : Event) : Bool :=
  match admission env coll c .anon with
  | .ok filter => filter.passes ev
  | .error _ => false

/-! ### Configuration changes -/

/-- The operations on one collection. -/
inductive Change where
  | setPolicy (op : String) (usingClause check : Option Json)
  | clearPolicy (op : String)
  | setOwnerField (field : Option String) (readScope : String)
  | setAnonCaps (caps : Finset DmlVerb)
  | setRealtime (enabled : Bool)
  | dropCollection
  | createCollection (fields : List FieldSpec) (description : Option String)

def Change.exec (env : Env) (coll : String) (c : Catalog) : Change → Except ToolError Catalog
  | .setPolicy op usingClause check => SchemaTools.setPolicy env c coll op usingClause check
  | .clearPolicy op => SchemaTools.clearPolicy c coll op
  | .setOwnerField field readScope => SchemaTools.setOwnerField c coll field readScope
  | .setAnonCaps caps => SchemaTools.setAnonCaps c coll caps
  | .setRealtime enabled => SchemaTools.setRealtime c coll enabled
  | .dropCollection => SchemaTools.dropCollection c coll
  | .createCollection fields description =>
    SchemaTools.createCollectionWithDesc env c coll fields description

/-- Whether the operation drops the channel. Clearing the owner field and turning the
broadcasts on do not, and neither do dropping and creating the collection. -/
def Change.evicts : Change → Bool
  | .setPolicy _ _ _ => true
  | .clearPolicy _ => true
  | .setOwnerField field _ => ((field.map trim).filter fun f => f != "").isSome
  | .setAnonCaps _ => true
  | .setRealtime enabled => !enabled
  | .dropCollection => false
  | .createCollection _ _ => false

/-- How far a change has come that has not returned. -/
inductive Phase where
  | committed
  | invalidated
  deriving DecidableEq

structure Running where
  change : Change
  phase : Phase
  before : Catalog
  after : Catalog

/-! ### The system -/

structure Publication where
  event : Event
  /-- The catalog at the time. -/
  inForce : Catalog

/-- An open stream. Its queue is what the channel still holds for it. -/
structure Stream where
  ctx : AuthCtx
  filter : AnonSelectFilter
  channel : Nat
  queue : List Publication := []
  delivered : List Publication := []

/-- The capacity of a channel. -/
def capacity : Nat := 256

/-- A receiver that lags behind loses the oldest events. -/
def retain (queue : List Publication) : List Publication :=
  queue.drop (queue.length - capacity)

def Stream.push (st : Stream) (p : Publication) : Stream :=
  { st with queue := retain (st.queue ++ [p]) }

/-- A request of `subscribe_handler`. -/
inductive Subscription where
  | arrived (ctx : AuthCtx)
  /-- The schema is not cached. -/
  | missed (ctx : AuthCtx)
  /-- The schema has been read and is not cached yet. -/
  | described (ctx : AuthCtx) (d : CollectionDescription)
  | loaded (ctx : AuthCtx) (d : CollectionDescription)
  | decided (ctx : AuthCtx) (d : CollectionDescription) (filter : AnonSelectFilter)
  | streaming (st : Stream)
  | refused (why : Refusal)
  | closed

structure State where
  db : Catalog
  cache : Option CollectionDescription
  /-- The channel of the collection on the bus, by a number of its own. -/
  channel : Option Nat
  nextChannel : Nat
  subs : List Subscription
  changes : List Running

def init (c : Catalog) : State where
  db := c
  cache := none
  channel := none
  nextChannel := 0
  subs := []
  changes := []

inductive Label where
  | arrive (ctx : AuthCtx)
  | lookup (i : Nat)
  | describe (i : Nat) (rd : Reading)
  | insert (i : Nat)
  | decide (i : Nat)
  | subscribe (i : Nat)
  | deliver (i : Nat)
  /-- The client goes, or the stream of a dropped channel ends. -/
  | close (i : Nat)
  | publish (ev : Event)
  | commit (change : Change)
  | invalidate (k : Nat)
  | evict (k : Nat)

namespace State

variable (s : State)

def setSub (i : Nat) (x : Subscription) : State :=
  { s with subs := s.subs.set i x }

end State

/-- The first step of `ensure_loaded`. -/
def lookup (coll : String) (s : State) (ctx : AuthCtx) : Subscription :=
  if isProtectedCollection coll then .refused .notFound
  else match s.cache with
    | some d => .loaded ctx d
    | none => .missed ctx

def describe (coll : String) (s : State) (ctx : AuthCtx) (rd : Reading) : Subscription :=
  match describeCollection rd s.db coll with
  | .ok (some d) => .described ctx d
  | .ok none => .refused .notFound
  | .error e => .refused (.schemaReadError e)

def decide (ctx : AuthCtx) (d : CollectionDescription) : Subscription :=
  match gate ctx d with
  | .ok filter => .decided ctx d filter
  | .error why => .refused why

/-- Register with the bus, which makes the channel where there is none. -/
def subscribe (s : State) (i : Nat) (ctx : AuthCtx) (filter : AnonSelectFilter) : State :=
  match s.channel with
  | some k => s.setSub i (.streaming { ctx, filter, channel := k })
  | none =>
    { s.setSub i (.streaming { ctx, filter, channel := s.nextChannel }) with
      channel := some s.nextChannel
      nextChannel := s.nextChannel + 1 }

/-- Send the oldest event on if the filter lets it pass. -/
def deliver (st : Stream) (p : Publication) (rest : List Publication) : Stream :=
  { st with
    queue := rest
    delivered := if st.filter.passes p.event then st.delivered ++ [p] else st.delivered }

/-- A receiver of the channel gets the event. -/
def receive (channel : Option Nat) (p : Publication) : Subscription → Subscription
  | .streaming st => if channel = some st.channel then .streaming (st.push p) else .streaming st
  | x => x

def publish (s : State) (ev : Event) : State :=
  let p : Publication := { event := ev, inForce := s.db }
  { s with subs := s.subs.map (receive s.channel p) }

def commit (s : State) (change : Change) (c : Catalog) : State :=
  { s with
    db := c
    changes := s.changes ++ [{ change, phase := .committed, before := s.db, after := c }] }

/-- The cached schema is dropped. A change that does not evict returns. -/
def invalidate (s : State) (k : Nat) (x : Running) : State :=
  { s with
    cache := none
    changes := if x.change.evicts then s.changes.set k { x with phase := .invalidated }
      else s.changes.eraseIdx k }

/-- The channel is dropped, and the change returns. -/
def evict (s : State) (k : Nat) : State :=
  { s with channel := none, changes := s.changes.eraseIdx k }

def step (env : Env) (coll : String) (s : State) : Label → Option State
  | .arrive ctx => some { s with subs := s.subs ++ [.arrived ctx] }
  | .lookup i =>
    match s.subs[i]? with
    | some (.arrived ctx) => some (s.setSub i (lookup coll s ctx))
    | _ => none
  | .describe i rd =>
    match s.subs[i]? with
    | some (.missed ctx) => some (s.setSub i (describe coll s ctx rd))
    | _ => none
  | .insert i =>
    match s.subs[i]? with
    | some (.described ctx d) => some { s.setSub i (.loaded ctx d) with cache := some d }
    | _ => none
  | .decide i =>
    match s.subs[i]? with
    | some (.loaded ctx d) => some (s.setSub i (decide ctx d))
    | _ => none
  | .subscribe i =>
    match s.subs[i]? with
    | some (.decided ctx _ filter) => some (subscribe s i ctx filter)
    | _ => none
  | .deliver i =>
    match s.subs[i]? with
    | some (.streaming ⟨ctx, filter, channel, p :: rest, delivered⟩) =>
      some (s.setSub i (.streaming
        (deliver ⟨ctx, filter, channel, p :: rest, delivered⟩ p rest)))
    | _ => none
  | .close i =>
    match s.subs[i]? with
    | some (.streaming _) => some (s.setSub i .closed)
    | _ => none
  | .publish ev => some (publish s ev)
  | .commit change =>
    match change.exec env coll s.db with
    | .ok c => some (commit s change c)
    | .error _ => none
  | .invalidate k =>
    match s.changes[k]? with
    | some x => if x.phase = .committed then some (invalidate s k x) else none
    | none => none
  | .evict k =>
    match s.changes[k]? with
    | some x => if x.phase = .invalidated then some (evict s k) else none
    | none => none

end EventStream

end Drust
