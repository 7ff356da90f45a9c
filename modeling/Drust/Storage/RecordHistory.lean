import Drust.Lib.Json

/-!
# Record history

The audit trail of a write call. While the body of the call runs, a hook sees every row just
before it changes and buffers the old and the new image of the rows of audited tables
(`captureEvent`). After the body the buffer is written to the history table, one row for each
buffered change (`flushCaptured`).

Every collection has a trigger that refreshes `updated_at` after an update, so one update of a
row fires the hook twice, the second time from inside the trigger, at a query depth above zero.
The hook then replaces the new image of the change it has already buffered for the row, so
that the history has one change with the image that is committed.

Buffering is bounded: a change past the limits sets the buffer's error, and the flush refuses
a buffer with an error. An insert into the history table does not fail here; the write
executor treats a flush that fails.
-/

namespace Drust

namespace RecordHistory

/-! ### Values -/

/-- A double as a column stores it. -/
inductive Double where
  | finite (f : Binary64)
  | infinite (negative : Bool)
  deriving DecidableEq

/-- A column value. -/
inductive RawValue where
  | null
  | integer (i : Int64)
  | real (f : Double)
  | text (s : String)
  | blob (bytes : List UInt8)
  deriving DecidableEq

abbrev Row := List RawValue

/-- A bounded copy of a column value: of a blob only its length. -/
inductive CapturedValue where
  | null
  | integer (i : Int64)
  | real (f : Double)
  | text (s : String)
  | blobLen (n : Nat)
  deriving DecidableEq

def CapturedValue.fromRef : RawValue → CapturedValue
  | .null => .null
  | .integer i => .integer i
  | .real f => .real f
  | .text s => .text s
  | .blob bytes => .blobLen bytes.length

def CapturedValue.approxBytes : CapturedValue → Nat
  | .text s => 8 + s.utf8ByteSize
  | _ => 8

def valsBytes (vals : List CapturedValue) : Nat :=
  (vals.map CapturedValue.approxBytes).sum

/-! ### The buffer -/

inductive HistoryOp where
  | insert
  | update
  | delete
  deriving DecidableEq, Repr

/-- The cap of a dimension; zero is unlimited. -/
structure CaptureLimits where
  maxRows : Nat
  maxBytes : Nat

structure BufferedChange where
  table : String
  op : HistoryOp
  rowid : Int64
  old : Option (List CapturedValue)
  new : Option (List CapturedValue)
  deriving DecidableEq

/-- Why a buffer failed, by what the caller can do about it. -/
inductive CaptureError where
  | limitExceeded (message : String)
  | internal (message : String)
  deriving DecidableEq, Repr

structure CaptureBuffer where
  changes : List BufferedChange := []
  approxBytes : Nat := 0
  error : Option CaptureError := none

def limitError (kind knob : String) (max : Nat) : String :=
  "record-history capture exceeded the " ++ kind ++ " of " ++ toString max ++ " (" ++ knob ++
    "; 0 = unlimited). Disable audit on the collection (set_audit_enabled) or batch the " ++
    "operation into smaller writes."

def rowLimit (limits : CaptureLimits) : CaptureError :=
  .limitExceeded (limitError "row limit" "DRUST_AUDIT_RPC_CAPTURE_MAX_ROWS" limits.maxRows)

def byteLimit (limits : CaptureLimits) : CaptureError :=
  .limitExceeded (limitError "byte limit" "DRUST_AUDIT_RPC_CAPTURE_MAX_BYTES" limits.maxBytes)

/-! ### The hook -/

/-- What an accessor of the hook returns: the values of the row, or why they cannot be read. -/
abbrev Access := Except String Row

inductive PreUpdateCase where
  | insert (rowid : Int64) (new : Access)
  | delete (rowid : Int64) (old : Access)
  /-- The query depth is zero for the statement itself and above for a trigger. -/
  | update (depth : Nat) (oldRowid newRowid : Int64) (old new : Access)
  | unknown

structure Event where
  table : String
  case : PreUpdateCase

def copy (a : Access) : Except String (List CapturedValue) :=
  a.map (fun row => row.map CapturedValue.fromRef)

def startsWith (p s : String) : Bool :=
  p.toList.isPrefixOf s.toList

/-- The hook looks at the table. -/
def captured (audited : List String) (table : String) : Bool :=
  !(startsWith "_system_" table || startsWith "sqlite_" table) && audited.contains table

/-- The last position with the property. -/
def rposition {α : Type} (p : α → Bool) : List α → Option Nat
  | [] => none
  | x :: xs =>
    match rposition p xs with
    | some i => some (i + 1)
    | none => if p x then some 0 else none

/-- The change is a pending put of the row. -/
def pendingPut (table : String) (rowid : Int64) (c : BufferedChange) : Bool :=
  c.table == table && c.rowid == rowid && c.new.isSome

def BufferedChange.withNew (new : List CapturedValue) (c : BufferedChange) : BufferedChange :=
  { c with new := some new }

/-- Replace the new image of a pending change, and account for its bytes again. -/
def mergeChange (limits : CaptureLimits) (g : CaptureBuffer) (idx : Nat)
    (new : List CapturedValue) : CaptureBuffer :=
  let replaced := ((g.changes[idx]?.bind BufferedChange.new).map valsBytes).getD 0
  let nextBytes := (g.approxBytes - replaced) + valsBytes new
  if limits.maxBytes ≠ 0 ∧ limits.maxBytes < nextBytes then
    { g with error := some (byteLimit limits) }
  else
    { g with
      approxBytes := nextBytes
      changes := g.changes.modify idx (BufferedChange.withNew new) }

/-- The change that an event is buffered as. -/
def bufferedChange (ev : Event) : Except String BufferedChange :=
  match ev.case with
  | .insert rowid new => do
    let new ← copy new
    .ok { table := ev.table, op := .insert, rowid := rowid, old := none, new := some new }
  | .delete rowid old => do
    let old ← copy old
    .ok { table := ev.table, op := .delete, rowid := rowid, old := some old, new := none }
  | .update _ _ newRowid old new => do
    let old ← copy old
    let new ← copy new
    .ok { table := ev.table, op := .update, rowid := newRowid, old := some old, new := some new }
  | .unknown => .error "unknown preupdate case"

def changeBytes (c : BufferedChange) : Nat :=
  (c.old.map valsBytes).getD 0 + (c.new.map valsBytes).getD 0

/-- Buffer a change, within the limits. -/
def pushChange (limits : CaptureLimits) (g : CaptureBuffer)
    (change : Except String BufferedChange) : CaptureBuffer :=
  match change with
  | .error e => { g with error := some (.internal e) }
  | .ok c =>
    if limits.maxRows ≠ 0 ∧ limits.maxRows ≤ g.changes.length then
      { g with error := some (rowLimit limits) }
    else if limits.maxBytes ≠ 0 ∧ limits.maxBytes < g.approxBytes + changeBytes c then
      { g with error := some (byteLimit limits) }
    else
      { g with approxBytes := g.approxBytes + changeBytes c, changes := g.changes ++ [c] }

/-- The new row and its image, when the event is an update from inside a trigger. -/
def triggerUpdate : PreUpdateCase → Option (Int64 × Except String (List CapturedValue))
  | .update depth _ newRowid _ new => if 0 < depth then some (newRowid, copy new) else none
  | _ => none

/-- The hook. -/
def captureEvent (audited : List String) (limits : CaptureLimits) (g : CaptureBuffer)
    (ev : Event) : CaptureBuffer :=
  if !captured audited ev.table then g
  else if g.error.isSome then g
  else match triggerUpdate ev.case with
    | some (_, .error e) => { g with error := some (.internal e) }
    | some (rowid, .ok new) =>
      match rposition (pendingPut ev.table rowid) g.changes with
      | some idx => mergeChange limits g idx new
      | none => pushChange limits g (bufferedChange ev)
    | none => pushChange limits g (bufferedChange ev)

/-- The buffer after the events of a call. -/
def captureAll (audited : List String) (limits : CaptureLimits) (evs : List Event) :
    CaptureBuffer :=
  evs.foldl (captureEvent audited limits) {}

/-! ### The flush -/

structure AuditActor where
  kind : String
  id : Option String
  hint : Option String
  deriving DecidableEq, Repr

structure HistoryRow where
  collection : String
  recordId : Int64
  op : HistoryOp
  oldJson : Option Json
  newJson : Option Json
  actor : AuditActor

inductive FlushError where
  | limitExceeded (message : String)
  | db (error : String)
  deriving DecidableEq, Repr

/-- What the flush reads of a table. -/
structure TableReads where
  auditEnabled : Bool
  colNames : Except String (List String)
  vectorNames : Except String (List String)

structure TableProjection where
  colNames : List String
  vectorNames : List String

def loadTableProjection (reads : String → TableReads) (table : String) :
    Except String (Option TableProjection) :=
  if !(reads table).auditEnabled then .ok none
  else do
    let colNames ← (reads table).colNames
    if colNames.isEmpty then .error ("record-history flush: no columns for table " ++ table)
    else do
      let vectorNames ← (reads table).vectorNames
      .ok (some { colNames := colNames, vectorNames := vectorNames })

def CapturedValue.toJson : CapturedValue → Json
  | .null => .null
  | .integer i => .number (if 0 ≤ i.toInt then .posInt (.ofNat i.toInt.toNat) else .negInt i)
  | .real (.finite f) => .number (.float f)
  | .real (.infinite _) => .null
  | .text s => .string s
  | .blobLen n => .object [("__blob_bytes", .number (.posInt (.ofNat n)))]

/-- The values under their column names, without the vector columns. -/
def projectColumns (proj : TableProjection) (vals : List CapturedValue) : Json :=
  .object ((proj.colNames.zip vals).foldl (fun obj nv =>
    if proj.vectorNames.contains nv.1 then obj else Json.Map.insert obj nv.1 nv.2.toJson) [])

def projectValues (table : String) (vals : List CapturedValue) (proj : TableProjection) :
    Except String Json :=
  if vals.length ≠ proj.colNames.length then
    .error ("record-history flush: " ++ table ++ " captured " ++ toString vals.length ++
      " values but has " ++ toString proj.colNames.length ++ " columns")
  else .ok (projectColumns proj vals)

def projectImage (table : String) (proj : TableProjection) :
    Option (List CapturedValue) → Except String (Option Json)
  | none => .ok none
  | some vals => do
    let json ← projectValues table vals proj
    .ok (some json)

/-- The rows that the changes are written as. A table whose audit is off is passed over. -/
def flushChanges (reads : String → TableReads) (actor : AuditActor) :
    List BufferedChange → Except String (List HistoryRow)
  | [] => .ok []
  | c :: cs => do
    match ← loadTableProjection reads c.table with
    | none => flushChanges reads actor cs
    | some proj =>
      let oldJson ← projectImage c.table proj c.old
      let newJson ← projectImage c.table proj c.new
      let rows ← flushChanges reads actor cs
      .ok ({ collection := c.table, recordId := c.rowid, op := c.op, oldJson := oldJson,
             newJson := newJson, actor := actor } :: rows)

/-- Write the buffer to the history. -/
def flushCaptured (reads : String → TableReads) (g : CaptureBuffer) (actor : AuditActor) :
    Except FlushError (List HistoryRow) :=
  match g.error with
  | some (.limitExceeded m) => .error (.limitExceeded m)
  | some (.internal m) => .error (.db ("record-history preupdate capture failed: " ++ m))
  | none =>
    match flushChanges reads actor g.changes with
    | .ok rows => .ok rows
    | .error e => .error (.db e)

end RecordHistory

end Drust
