import Drust.Lib.CounterMap
import Drust.Lib.Transition

/-!
# The room bus and the eviction of sockets

Realtime rooms: sockets of a tenant subscribe to rooms and are sent what is published there.
A socket keeps the identity that it was admitted with, so a revocation has to close it. Each
tenant has an eviction epoch, a counter that an eviction of the tenant increments. Before the
upgrade a connection takes a handle of the counter and its value (`connect_baseline`); the
loop of the socket compares the two at every inbound frame, before it dispatches it, and at
every keepalive tick, and closes the socket when they differ (`check_epoch_evicted`).

The model has any number of tenants, connections and eviction calls. The fast path of the lookup, the
insert, the load, every increment and every change of the channels are separate steps.
`evict_all_tenants` walks through the map: it increments the counters of the tenants one by
one, each at most once, and comes to an end when it has passed all that were there when it
began; a tenant that is inserted meanwhile may be passed or not.

Which frames of a socket are refused (room names, caps, the publish policy) is answered in
the label of the dispatch. Of the messages only their number is kept; lagging receivers, the
expiry of credentials and metrics are left out.
-/

namespace Drust

namespace RoomBus

/-- The value of a key is changed, or that of a new one. -/
def upsert {α : Type} (key : String) (new : α) (change : α → α) :
    List (String × α) → List (String × α)
  | [] => [(key, change new)]
  | (k, x) :: entries =>
    if k = key then (k, change x) :: entries else (k, x) :: upsert key new change entries

/-- The rooms of a tenant, with the receivers of each. -/
abbrev Rooms := List (String × List Nat)

abbrev Channels := List (String × Rooms)

def subscribe (channels : Channels) (tenant room : String) (a : Nat) : Channels :=
  upsert tenant [] (upsert room [] (fun receivers => receivers ++ [a])) channels

/-- The receivers that a message is sent to. -/
def publish (channels : Channels) (tenant room : String) : List Nat :=
  match channels.lookup tenant with
  | some rooms => (rooms.lookup room).getD []
  | none => []

/-- A receiver is dropped, of one room or of all. -/
def unsubscribe (channels : Channels) (tenant : String) (room : Option String) (a : Nat) :
    Channels :=
  channels.map (fun e =>
    if e.1 = tenant then
      (e.1, e.2.map (fun r =>
        if room = none ∨ room = some r.1 then (r.1, r.2.filter (· ≠ a)) else r))
    else e)

def evictRoom (channels : Channels) (tenant room : String) : Channels :=
  channels.map (fun e => if e.1 = tenant then (e.1, e.2.filter (·.1 ≠ room)) else e)

/-- The first half of the sweep: the rooms of one tenant without receivers. -/
def sweepRooms (channels : Channels) (tenant : String) : Channels :=
  channels.map (fun e => if e.1 = tenant then (e.1, e.2.filter (fun r => !r.2.isEmpty)) else e)

/-- The second half: the tenants without rooms. -/
def sweepTenants (channels : Channels) : Channels :=
  channels.filter (fun e => !e.2.isEmpty)

/-! ### Connections -/

/-- What a connection captures: the handle of its tenant's counter and its value. -/
structure Baseline where
  tenant : String
  epoch : Nat
  epoch0 : UInt64
  deriving DecidableEq

inductive ClientOp where
  | subscribe (room : String)
  | unsubscribe (room : String)
  | publish (room : String)
  | ping
  deriving DecidableEq, Repr

inductive Frame where
  | text (op : ClientOp)
  /-- A text that is no operation. -/
  | malformed
  | ping
  | close
  /-- A binary frame or a pong. -/
  | other
  deriving DecidableEq, Repr

inductive Socket where
  | idle
  /-- The fast path has found no entry. -/
  | missed (tenant : String)
  /-- The handle is there, its value not yet loaded. -/
  | handled (tenant : String) (epoch : Nat)
  /-- Between two events of the loop, or before the upgrade. -/
  | waiting (b : Baseline)
  | read (b : Baseline) (frame : Frame)
  /-- The frame has passed the check. -/
  | checked (b : Baseline) (frame : Frame)
  | closed

/-- The baseline, once it is captured. -/
def Socket.baseline : Socket → Option Baseline
  | .waiting b | .read b _ | .checked b _ => some b
  | _ => none

/-! ### Evictions -/

inductive Call where
  | idle
  | evictTenant (tenant : String)
  /-- The walk through the map: the tenants that were there when it began, and those passed. -/
  | evictAll (present passed : List String)
  /-- The counters are incremented, the channels not yet dropped. -/
  | bumped (tenant : Option String)
  | returned

structure State where
  channels : Channels
  /-- The messages sent to each socket. -/
  received : Nat → Nat
  epochs : CounterMap String
  sockets : Nat → Socket
  calls : Nat → Call

def init : State where
  channels := []
  received := fun _ => 0
  epochs := {}
  sockets := fun _ => .idle
  calls := fun _ => .idle

/-- The check of the loop: the epoch has moved since the capture. -/
def checkEpochEvicted (s : State) (b : Baseline) : Bool :=
  s.epochs.values b.epoch != b.epoch0

def setSocket (s : State) (a : Nat) (x : Socket) : State :=
  { s with sockets := Function.update s.sockets a x }

def setCall (s : State) (e : Nat) (x : Call) : State :=
  { s with calls := Function.update s.calls e x }

@[simp] theorem setSocket_sockets (s : State) (a : Nat) (x : Socket) :
    (setSocket s a x).sockets a = x :=
  Function.update_self ..

@[simp] theorem setCall_calls (s : State) (e : Nat) (x : Call) : (setCall s e x).calls e = x :=
  Function.update_self ..

/-- The streams of a socket that ends are dropped. -/
def closeSocket (s : State) (a : Nat) (b : Baseline) : State :=
  setSocket { s with channels := unsubscribe s.channels b.tenant none a } a .closed

/-- Send a message to the receivers of a room. -/
def send (s : State) (tenant room : String) : State :=
  { s with received := fun a => s.received a + (publish s.channels tenant room).count a }

/-- Dispatch a frame; `ok` is false where an operation is refused. -/
def dispatch (s : State) (a : Nat) (b : Baseline) (ok : Bool) : Frame → State
  | .text (.subscribe room) =>
    setSocket { s with channels :=
      if ok then subscribe s.channels b.tenant room a else s.channels } a (.waiting b)
  | .text (.unsubscribe room) =>
    setSocket { s with channels := unsubscribe s.channels b.tenant (some room) a } a (.waiting b)
  | .text (.publish room) => setSocket (if ok then send s b.tenant room else s) a (.waiting b)
  | .close => closeSocket s a b
  | _ => setSocket s a (.waiting b)

inductive Label where
  /-- The fast path of `tenant_epoch_handle`. -/
  | epochGet (a : Nat) (tenant : String)
  | epochInsert (a : Nat)
  /-- The load that completes the baseline. -/
  | load (a : Nat)
  | keepalive (a : Nat)
  | readFrame (a : Nat) (frame : Frame)
  | check (a : Nat)
  | dispatch (a : Nat) (ok : Bool)
  /-- The client goes away, or a send fails. -/
  | disconnect (a : Nat)
  | evictTenant (e : Nat) (tenant : String)
  | evictAll (e : Nat)
  | bump (e : Nat) (tenant : String)
  /-- The walk of `evict_all_tenants` comes to its end. -/
  | endWalk (e : Nat)
  | dropChannels (e : Nat)
  | evictRoom (tenant room : String)
  /-- A message from outside the sockets. -/
  | publish (tenant room : String)
  | sweepRooms (tenant : String)
  | sweepTenants
  deriving DecidableEq

def step (s : State) : Label → Option State
  | .epochGet a tenant =>
    match s.sockets a with
    | .idle =>
      match s.epochs.get tenant with
      | some epoch => some (setSocket s a (.handled tenant epoch))
      | none => some (setSocket s a (.missed tenant))
    | _ => none
  | .epochInsert a =>
    match s.sockets a with
    | .missed tenant =>
      some (setSocket { s with epochs := (s.epochs.entry tenant).2 } a
        (.handled tenant (s.epochs.entry tenant).1))
    | _ => none
  | .load a =>
    match s.sockets a with
    | .handled tenant epoch => some (setSocket s a (.waiting ⟨tenant, epoch, s.epochs.values epoch⟩))
    | _ => none
  | .keepalive a =>
    match s.sockets a with
    | .waiting b => if checkEpochEvicted s b then some (closeSocket s a b) else some s
    | _ => none
  | .readFrame a frame =>
    match s.sockets a with
    | .waiting b => some (setSocket s a (.read b frame))
    | _ => none
  | .check a =>
    match s.sockets a with
    | .read b frame =>
      if checkEpochEvicted s b then some (closeSocket s a b)
      else some (setSocket s a (.checked b frame))
    | _ => none
  | .dispatch a ok =>
    match s.sockets a with
    | .checked b frame => some (dispatch s a b ok frame)
    | _ => none
  | .disconnect a =>
    match (s.sockets a).baseline with
    | some b => some (closeSocket s a b)
    | none => none
  | .evictTenant e tenant =>
    match s.calls e with
    | .idle => some (setCall s e (.evictTenant tenant))
    | _ => none
  | .evictAll e =>
    match s.calls e with
    | .idle => some (setCall s e (.evictAll (s.epochs.entries.map Prod.fst) []))
    | _ => none
  | .bump e tenant =>
    match s.calls e with
    | .evictTenant t =>
      if t = tenant then
        some (setCall { s with epochs := s.epochs.bump tenant } e (.bumped (some tenant)))
      else none
    | .evictAll present passed =>
      match s.epochs.get tenant with
      | some epoch =>
        if tenant ∈ passed then none
        else
          some (setCall { s with epochs := s.epochs.fetchAdd epoch } e
            (.evictAll present (tenant :: passed)))
      | none => none
    | _ => none
  | .endWalk e =>
    match s.calls e with
    | .evictAll present passed =>
      if present ⊆ passed then some (setCall s e (.bumped none)) else none
    | _ => none
  | .dropChannels e =>
    match s.calls e with
    | .bumped (some tenant) =>
      some (setCall { s with channels := s.channels.filter (·.1 ≠ tenant) } e .returned)
    | .bumped none => some (setCall { s with channels := [] } e .returned)
    | _ => none
  | .evictRoom tenant room => some { s with channels := evictRoom s.channels tenant room }
  | .publish tenant room => some (send s tenant room)
  | .sweepRooms tenant => some { s with channels := sweepRooms s.channels tenant }
  | .sweepTenants => some { s with channels := sweepTenants s.channels }

end RoomBus

end Drust
