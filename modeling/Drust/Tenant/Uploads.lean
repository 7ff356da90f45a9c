import Mathlib.Logic.Function.Basic
import Drust.Lib.KeyMap
import Drust.Lib.LockSlot
import Drust.Lib.Transition

/-!
# Resumable uploads

A tus upload: a session row with the declared length, and a spool file that the client's
PATCH requests append to. The length of the spool is the offset; a PATCH whose
`Upload-Offset` is another one is refused. The PATCH that completes the spool (or a later
one, after a failure) streams it to the object store and then removes the spool, the session
row and the lock of the token. A termination and the janitor's sweep of expired sessions
remove the same three, in the same order, without taking the lock.

The model is one session with any number of requests. Every await of a handler is a step, so
the requests interleave freely between them. A write of the spool appends piece after piece and
may fail after any of them. The session row is read once, at the start of a handler.
`remove_file` leaves no file at the path, and the length of the spool cannot be read only when
there is none. What the handlers ask of their surroundings (the database, the quota, the disk,
the store) is answered in the label of the step.

When a client goes away, the handler of its request is dropped at the await where it stands, and
its guard with it. A file operation that has been handed to a thread by then goes on by itself:
the bytes in the buffer of the spool's handle still reach the file (`State.inFlight`), and a file
or a row that is being removed is still removed. The janitor has no client.

A file that is removed while a handler has it open stays behind that handle: `State.spool` is
the contents of the file, and `State.linked` says that it is still found at the path.
`State.appended` counts the bytes that a request has appended; it is history, which no step
of the code reads.
-/

namespace Drust

namespace Uploads

structure Response where
  status : Nat
  /-- The code and the message of an error body. -/
  error : Option (String × String) := none
  uploadOffset : Option Nat := none
  uploadLength : Option Nat := none
  deriving DecidableEq, Repr

def notFound : Response := { status := 404 }

def dbError (message : String) : Response :=
  { status := 500, error := some ("DB_ERROR", message) }

def spoolError (message : String) : Response :=
  { status := 500, error := some ("SPOOL_ERROR", message) }

def quotaExceeded (message : String) : Response :=
  { status := 507, error := some ("TENANT_QUOTA_EXCEEDED", message) }

def noContent (offset : Nat) : Response := { status := 204, uploadOffset := some offset }

/-- Who sends a request. -/
structure Caller where
  /-- The capability check's refusal. -/
  denied : Option Response
  /-- The session is of the caller's tenant, and the caller's own or the caller a service. -/
  ownsSession : Bool

inductive Request where
  | patch (caller : Caller) (wantOffset : Option Int) (body : List UInt8)
  | head (caller : Caller)
  | terminate (caller : Caller)
  /-- The janitor, with the clock before or past the session's expiry. -/
  | sweep (expired : Bool)

/-- What is removed when a session ends, in this order. -/
inductive Cleanup where
  | removeFile
  | deleteSession
  | removeLock
  deriving DecidableEq, Repr

/-- The guard of a finalizing request, and the offset that it reports. -/
structure Guard where
  lock : Nat
  offset : Nat

/-- Where a handler stands. -/
inductive Pc where
  | idle
  | start
  /-- A PATCH that has read the session. -/
  | patching
  /-- A HEAD that has. -/
  | probing
  | waiting (lock : Nat)
  | locked (lock : Nat)
  /-- The offset fits, and the chunk does. -/
  | checked (lock cur : Nat)
  /-- The quota and the disk have room for it. -/
  | admitted (lock cur : Nat)
  | appending (lock cur : Nat) (rest : List UInt8)
  | finalizing (lock offset : Nat)
  /-- The row of the file is inserted. -/
  | inserted (lock offset : Nat)
  | streaming (lock offset : Nat) (read : List UInt8)
  | cleanup (stage : Cleanup) (guard : Option Guard)
  /-- A handler that was dropped while it removed something. -/
  | detached (stage : Cleanup)
  | done (response : Option Response)

/-- The lock object that the handler has looked up. -/
def Pc.lock : Pc → Option Nat
  | .waiting l | .locked l | .checked l _ | .admitted l _ | .appending l _ _
  | .finalizing l _ | .inserted l _ | .streaming l _ _ => some l
  | .cleanup _ guard => guard.map Guard.lock
  | _ => none

/-- The lock object that the handler holds the guard of. -/
def Pc.held : Pc → Option Nat
  | .waiting _ => none
  | pc => pc.lock

structure State where
  /-- The session's `Upload-Length`. -/
  totalLength : Nat
  /-- The session row is there. -/
  row : Bool
  spool : List UInt8
  linked : Bool
  locks : LockSlot Nat
  /-- The object that the spool was stored as. -/
  object : Option (List UInt8)
  request : Nat → Option Request
  pc : Nat → Pc
  /-- The bytes of dropped requests that are on their way to the spool. -/
  inFlight : KeyMap Nat (List UInt8)
  appended : Nat → Nat

/-- The session as it is created. -/
def init (totalLength : Nat) : State where
  totalLength := totalLength
  row := true
  spool := []
  linked := true
  locks := {}
  object := none
  request := fun _ => none
  pc := fun _ => .idle
  inFlight := .empty
  appended := fun _ => 0

/-- Go on in a handler. One that returns or is dropped drops its guard. -/
def goto (s : State) (r : Nat) (pc : Pc) : State :=
  { s with
    pc := Function.update s.pc r pc
    locks := match pc with
      | .done _ | .detached _ => s.locks.release (s.pc r).held
      | _ => s.locks }

def respond (response : Response) : Pc :=
  .done (some response)

/-! ### The handlers -/

/-- The checks before a handler acts on the session. -/
def checkSession (row : Bool) (db : Except String Unit) (caller : Caller) :
    Except Response Unit :=
  match caller.denied with
  | some response => .error response
  | none =>
    match db with
    | .error e => .error (dbError e)
    | .ok () => if row && caller.ownsSession then .ok () else .error notFound

/-- Read the session row. -/
def getSession (row : Bool) (db : Except String Unit) : Request → Pc
  | .patch caller _ _ =>
    match checkSession row db caller with
    | .ok () => .patching
    | .error response => respond response
  | .head caller =>
    match checkSession row db caller with
    | .ok () => .probing
    | .error response => respond response
  | .terminate caller =>
    match checkSession row db caller with
    | .ok () => .cleanup .removeFile none
    | .error response => respond response
  | .sweep expired =>
    match db with
    | .ok () => if row && expired then .cleanup .removeFile none else .done none
    | .error _ => .done none

/-- The size of the spool, zero if it is missing. -/
def spoolLen (s : State) : Nat :=
  if s.linked then s.spool.length else 0

/-- What a PATCH does with the offset that it finds. -/
def checkOffset (totalLength lock cur : Nat) (wantOffset : Option Int) (body : List UInt8) : Pc :=
  if wantOffset ≠ some (cur : Int) then respond { status := 409, uploadOffset := some cur }
  else if cur = totalLength then .finalizing lock cur
  else if totalLength < cur + body.length then
    respond { status := 400,
              error := some ("UPLOAD_OVERFLOW", "chunk would exceed declared Upload-Length") }
  else .checked lock cur

/-- The answer of the quota check and the disk guard. -/
inductive Room where
  | free
  | quotaExceeded
  | dbError (message : String)
  | diskFull

def checkRoom (lock cur : Nat) : Room → Pc
  | .free => .admitted lock cur
  | .quotaExceeded =>
    respond (quotaExceeded "appending this chunk would exceed the tenant storage quota")
  | .dbError e => respond (dbError e)
  | .diskFull => respond { status := 507 }

/-- How the insert of the file's row ends. -/
inductive Insertion where
  | inserted
  | unconfigured
  | quotaExceeded (message : String)
  | dbError (message : String)

def insertFile (lock offset : Nat) : Insertion → Pc
  | .inserted => .inserted lock offset
  | .unconfigured =>
    respond { status := 503, error := some ("STORAGE_UNCONFIGURED", "storage not configured") }
  | .quotaExceeded e => respond (quotaExceeded e)
  | .dbError e => respond (dbError e)

def putFailed : Response :=
  { status := 502,
    error := some ("GARAGE_PUT_FAILED",
      "object store write failed; retry the final PATCH to finalize") }

/-- What a handler returns after the cleanup: a finalize, a termination or a sweep. -/
def cleaned (guard : Option Guard) : Option Request → Option Response
  | some (.sweep _) => none
  | _ => some { status := 204, uploadOffset := guard.map Guard.offset }

/-- Remove the spool, the session row and the entry of the lock. -/
def cleanup (s : State) (r : Nat) (guard : Option Guard) (ok : Bool) : Cleanup → State
  | .removeFile => { goto s r (.cleanup .deleteSession guard) with linked := false }
  | .deleteSession =>
    -- a deletion that fails is passed over
    { goto s r (.cleanup .removeLock guard) with row := s.row && !ok }
  | .removeLock =>
    let s := { s with locks := s.locks.remove }
    goto s r (.done (cleaned guard (s.request r)))

/-! ### A client that goes away -/

/-- `max_buf_size` of the handle. -/
def maxBufSize : Nat := 2 * 1024 * 1024

/-- What is left of the bytes on their way. -/
def onTheirWay (inFlight : KeyMap Nat (List UInt8)) (r : Nat) (bytes : List UInt8) :
    KeyMap Nat (List UInt8) :=
  if bytes = [] then inFlight.erase r else inFlight.set r bytes

/-- The handler is dropped. Of a chunk, the bytes in the buffer stay on their way. -/
def dropHandler (s : State) (r buffered : Nat) : Option State :=
  match s.pc r with
  | .idle | .detached _ | .done _ => none
  | .appending _ _ rest =>
    some { goto s r (.done none) with
           inFlight := onTheirWay s.inFlight r (rest.take (min buffered maxBufSize)) }
  | .cleanup .removeFile _ => some (goto s r (.detached .removeFile))
  | .cleanup .deleteSession _ => some (goto s r (.detached .deleteSession))
  | _ => some (goto s r (.done none))

/-- The removal that goes on by itself is over. -/
def finishDetached (s : State) (r : Nat) (ok : Bool) : Cleanup → State
  | .removeFile => { goto s r (.done none) with linked := false }
  | .deleteSession => { goto s r (.done none) with row := s.row && !ok }
  | .removeLock => goto s r (.done none)

/-! ### The steps -/

inductive Label where
  | arrive (r : Nat) (request : Request)
  | getSession (r : Nat) (db : Except String Unit)
  | tokenLock (r : Nat)
  | lock (r : Nat)
  | spoolLen (r : Nat)
  | checkRoom (r : Nat) (room : Room)
  | openSpool (r : Nat)
  /-- The next bytes of the chunk reach the file. -/
  | write (r n : Nat)
  | writeFails (r : Nat) (message : String)
  | flush (r : Nat)
  | insertFile (r : Nat) (insertion : Insertion)
  /-- The store opens the spool for the put. -/
  | openPut (r : Nat)
  | readPut (r n : Nat)
  | putFails (r : Nat)
  /-- The put is completed at the end of the file. -/
  | complete (r : Nat)
  | cleanup (r : Nat) (ok : Bool)
  /-- The client of the request goes away. -/
  | drop (r buffered : Nat)
  /-- The next bytes on their way reach the file. -/
  | land (r n : Nat)
  /-- They do not, since the write fails. -/
  | lost (r : Nat)

def step (s : State) : Label → Option State
  | .arrive r request =>
    match s.pc r with
    | .idle =>
      some { goto s r .start with request := Function.update s.request r (some request) }
    | _ => none
  | .getSession r db =>
    match s.pc r, s.request r with
    | .start, some request => some (goto s r (getSession s.row db request))
    | _, _ => none
  | .tokenLock r =>
    match s.pc r with
    | .patching =>
      some { goto s r (.waiting s.locks.lookup.1) with locks := s.locks.lookup.2 }
    | _ => none
  | .lock r =>
    match s.pc r with
    | .waiting l =>
      (s.locks.acquire l r).map (fun locks => { goto s r (.locked l) with locks := locks })
    | _ => none
  | .spoolLen r =>
    match s.pc r, s.request r with
    | .probing, _ =>
      some (goto s r (respond { status := 200, uploadOffset := some (spoolLen s),
                                uploadLength := some s.totalLength }))
    | .locked l, some (.patch _ wantOffset body) =>
      some (goto s r (checkOffset s.totalLength l (spoolLen s) wantOffset body))
    | _, _ => none
  | .checkRoom r room =>
    match s.pc r with
    | .checked l cur => some (goto s r (checkRoom l cur room))
    | _ => none
  | .openSpool r =>
    match s.pc r, s.request r with
    | .admitted l cur, some (.patch _ _ body) =>
      some (goto s r (if s.linked then .appending l cur body else respond notFound))
    | _, _ => none
  | .write r n =>
    match s.pc r with
    | .appending l cur rest =>
      some { goto s r (.appending l cur (rest.drop n)) with
             spool := s.spool ++ rest.take n
             appended := Function.update s.appended r (s.appended r + (rest.take n).length) }
    | _ => none
  | .writeFails r e =>
    match s.pc r with
    | .appending _ _ _ => some (goto s r (respond (spoolError e)))
    | _ => none
  | .flush r =>
    match s.pc r, s.request r with
    | .appending l cur [], some (.patch _ _ body) =>
      if cur + body.length = s.totalLength then
        some (goto s r (.finalizing l (cur + body.length)))
      else some (goto s r (respond (noContent (cur + body.length))))
    | _, _ => none
  | .insertFile r insertion =>
    match s.pc r with
    | .finalizing l offset => some (goto s r (insertFile l offset insertion))
    | _ => none
  | .openPut r =>
    match s.pc r with
    | .inserted l offset =>
      some (goto s r (if s.linked then .streaming l offset [] else respond putFailed))
    | _ => none
  | .readPut r n =>
    match s.pc r with
    | .streaming l offset read =>
      some (goto s r (.streaming l offset (read ++ (s.spool.drop read.length).take n)))
    | _ => none
  | .putFails r =>
    match s.pc r with
    | .inserted _ _ | .streaming _ _ _ => some (goto s r (respond putFailed))
    | _ => none
  | .complete r =>
    match s.pc r with
    | .streaming l offset read =>
      if read.length = s.spool.length then
        some { goto s r (.cleanup .removeFile (some ⟨l, offset⟩)) with object := some read }
      else none
    | _ => none
  | .cleanup r ok =>
    match s.pc r with
    | .cleanup stage guard => some (cleanup s r guard ok stage)
    | .detached stage => some (finishDetached s r ok stage)
    | _ => none
  | .drop r buffered =>
    match s.request r with
    | some (.sweep _) | none => none
    | some _ => dropHandler s r buffered
  | .land r n =>
    (s.inFlight.get r).map fun bytes =>
      { s with
        spool := s.spool ++ bytes.take n
        appended := Function.update s.appended r (s.appended r + (bytes.take n).length)
        inFlight := onTheirWay s.inFlight r (bytes.drop n) }
  | .lost r =>
    (s.inFlight.get r).map fun _ => { s with inFlight := onTheirWay s.inFlight r [] }

end Uploads

end Drust
