import Drust.Lib.AssocList
import Drust.Lib.JsonText
import Drust.Lib.SerialTable

/-!
# The audit log and its writer

Requests hand their audit entries to one writer task through a bounded channel and do not wait.
The writer buffers the entries and inserts a batch of them in one transaction. The daily retention
pass goes through the same channel: it deletes the rows that are too old, chunk by chunk, and may
rewrite the database. While that rewrite has the connection the writer parks what it receives.

A label is what one of the parties does next, together with what the database answers.
-/

namespace Drust

namespace AuditDb

/-- The sizes that bound the writer. -/
structure Limits where
  channelCapacity : Nat := 1000
  flushBatchSize : Nat := 100
  stashMaxEntries : Nat := 50000
  retentionDeleteChunk : Nat := 10000
  batch_pos : 0 < flushBatchSize := by decide
  batch_le_stash : flushBatchSize ≤ stashMaxEntries := by decide

/-! ### Entries and rows -/

/-- The fields that the columns of the table are made of. -/
structure AuditEntry where
  ts : String
  tenant : String
  tokenHint : String
  op : String
  status : String
  durationMs : UInt64 := 0
  errorCode : Option String := none
  authMethod : Option String := none
  oauthEmail : Option String := none
  oauthErrorCode : Option String := none
  actorAdminId : Option Int64 := none
  actorEmailSnapshot : Option String := none
  extra : Json.Map := []

/-- The columns of the table `audit`, without its id. -/
structure AuditRow where
  ts : String
  tenant : String
  tokenHint : String
  op : String
  status : String
  durationMs : Int64
  errorCode : Option String
  authMethod : Option String
  oauthEmail : Option String
  oauthErrorCode : Option String
  callerIp : Option String
  userAgent : Option String
  /-- The object whose text is stored. -/
  extra : Option Json
  actorAdminId : Option Int64
  actorEmailSnapshot : Option String

structure HoistResult where
  callerIp : Option String
  userAgent : Option String
  remainingJson : Option Json

/-- A value that is not a string stays in the map. -/
def takeStringKey (map : Json.Map) (key : String) : Option String × Json.Map :=
  match map.lookup key with
  | some (.string s) => (some s, AssocList.swapRemove map key)
  | _ => (none, map)

def hoistIndexedFields (entry : AuditEntry) : HoistResult :=
  let (callerIp, extra) := takeStringKey entry.extra "caller_ip"
  let (userAgent, extra) := takeStringKey extra "user_agent"
  { callerIp, userAgent, remainingJson := if extra.isEmpty then none else some (.object extra) }

/-- The row that is inserted for an entry. -/
def AuditEntry.toRow (entry : AuditEntry) : AuditRow :=
  let hoist := hoistIndexedFields entry
  { ts := entry.ts
    tenant := entry.tenant
    tokenHint := entry.tokenHint
    op := entry.op
    status := entry.status
    durationMs := entry.durationMs.toInt64
    errorCode := entry.errorCode
    authMethod := entry.authMethod
    oauthEmail := entry.oauthEmail
    oauthErrorCode := entry.oauthErrorCode
    callerIp := hoist.callerIp
    userAgent := hoist.userAgent
    extra := hoist.remainingJson
    actorAdminId := entry.actorAdminId
    actorEmailSnapshot := entry.actorEmailSnapshot }

/-- The table `audit`. -/
abbrev Db := SerialTable AuditRow

/-- What one statement of the retention pass may delete: as many of the rows that are too old as
the chunk has room for, whichever they are. -/
def DeletesChunk (lim : Limits) (cutoff : String) (db : Db) (ids : List Nat) : Prop :=
  ids.Nodup ∧ (∀ i ∈ ids, ∃ e ∈ db.entries, e.1 = i ∧ e.2.ts < cutoff) ∧
    ids.length = min lim.retentionDeleteChunk (db.entries.countP fun e => e.2.ts < cutoff)

instance (lim : Limits) (cutoff : String) (db : Db) (ids : List Nat) :
    Decidable (DeletesChunk lim cutoff db ids) :=
  inferInstanceAs (Decidable (_ ∧ _ ∧ _))

/-! ### The writer -/

inductive WriterCmd where
  | insert (entry : AuditEntry)
  | runRetention (cutoffTs : Option String) (vacuum : Bool)
  | setMeta (key value : String)

/-- The connection of the writer: that of the audit database, or one to a throwaway database in
memory. -/
inductive Conn where
  | disk
  | memory (db : Db)

inductive Phase where
  /-- In the loop that takes commands. -/
  | idle
  /-- In a retention pass, before a chunk is deleted. -/
  | deleting (cutoff : String) (vacuum : Bool)
  /-- After a chunk, while what is in the channel is taken. -/
  | absorbing (cutoff : String) (vacuum : Bool)
  /-- After the last chunk. -/
  | deleted (vacuum : Bool)
  /-- The rewrite has the connection. -/
  | vacuuming (owned : Conn)

/-- How a pass starts: nothing is deleted without a cutoff. -/
def Phase.ofRetention (vacuum : Bool) : Option String → Phase
  | some cutoff => .deleting cutoff vacuum
  | none => .deleted vacuum

/-- What becomes of a flush: the transaction fails, or it is committed without the entries whose
insert fails. -/
inductive Flush where
  | fails
  | commits (bad : List Nat := [])

/-- A value that is written to `_meta`, with the number of passes that were taken and that were
settled before. -/
structure MetaWrite where
  kv : String × String
  taken : Nat
  settled : Nat

structure State where
  channel : List WriterCmd := []
  buf : List AuditEntry := []
  deferredMeta : List (String × String) := []
  phase : Phase := .idle
  conn : Conn := .disk
  disk : Db := .empty
  /-- The entries that found the channel full. -/
  dropped : Nat := 0
  stashDropped : Nat := 0
  /-- What requests have handed in, for the statements. -/
  sent : List AuditEntry := []
  /-- What was inserted into the audit database. -/
  written : List AuditEntry := []
  /-- The entries that the database did not take. -/
  failed : Nat := 0
  /-- The cutoffs of the retention passes that were asked for. -/
  cutoffs : List String := []
  /-- How many passes were asked for, how many of them the writer has taken from the channel, and
  how many of these are over or were skipped. -/
  retentions : Nat := 0
  taken : Nat := 0
  settled : Nat := 0
  /-- The values that were sent for `_meta`, each with the number of passes asked for before. -/
  metaSent : List ((String × String) × Nat) := []
  metaWritten : List MetaWrite := []

/-- The writer at its start, on an audit database. -/
def start (db : Db) : State := { disk := db }

inductive Label where
  /-- A request hands an entry in. -/
  | trySend (entry : AuditEntry)
  /-- A task that waits for room in the channel finds it. -/
  | send (cmd : WriterCmd)
  | recv (f : Flush)
  | timeout (f : Flush)
  | deleteExpiredChunk (ids : List Nat)
  | deleteFails
  | tryRecv (f : Flush)
  /-- The pass ends without the connection leaving the writer. -/
  | endPass (f : Flush)
  /-- The rewrite starts. -/
  | offload
  | stash
  /-- The rewrite gives the connection back. -/
  | joined (f : Flush)
  /-- The rewrite does not; the database is opened again, or it is not. -/
  | joinFails (reopened : Bool) (f : Flush)

/-- The entries without those at the given positions. -/
def without (bad : List Nat) (entries : List AuditEntry) : List AuditEntry :=
  (entries.zipIdx.filter fun e => e.2 ∉ bad).map Prod.fst

def flush (f : Flush) (s : State) : State :=
  match f with
  | .fails => { s with buf := [], failed := s.failed + s.buf.length }
  | .commits bad =>
    let kept := without bad s.buf
    match s.conn with
    | .disk =>
      { s with
        buf := [], disk := s.disk.insertAll (kept.map AuditEntry.toRow), written := s.written ++ kept
        failed := s.failed + (s.buf.length - kept.length) }
    | .memory db =>
      { s with buf := [], conn := .memory (db.insertAll (kept.map AuditEntry.toRow)), failed := s.failed + s.buf.length }

def State.db (s : State) : Db :=
  match s.conn with
  | .disk => s.disk
  | .memory db => db

def State.setDb (s : State) (db : Db) : State :=
  match s.conn with
  | .disk => { s with disk := db }
  | .memory _ => { s with conn := .memory db }

def State.setMeta (s : State) (kv : String × String) : State :=
  { s with metaWritten := s.metaWritten ++ [⟨kv, s.taken, s.settled⟩] }

/-- A command enters the channel. -/
def State.accept (s : State) (cmd : WriterCmd) : State :=
  let s := { s with channel := s.channel ++ [cmd] }
  match cmd with
  | .insert entry => { s with sent := s.sent ++ [entry] }
  | .runRetention cutoff _ =>
    { s with cutoffs := s.cutoffs ++ cutoff.toList, retentions := s.retentions + 1 }
  | .setMeta key value => { s with metaSent := s.metaSent ++ [((key, value), s.retentions)] }

/-- A command that arrives during a pass. -/
def stashCmd (lim : Limits) (s : State) : WriterCmd → State
  | .insert entry =>
    if lim.stashMaxEntries ≤ s.buf.length then { s with stashDropped := s.stashDropped + 1 }
    else { s with buf := s.buf ++ [entry] }
  | .setMeta key value => { s with deferredMeta := s.deferredMeta ++ [(key, value)] }
  -- a pass that is asked for during a pass is skipped
  | .runRetention _ _ => { s with taken := s.taken + 1, settled := s.settled + 1 }

/-- The pass is over: the deferred values are written, then what is buffered. -/
def finishPass (f : Flush) (s : State) : State :=
  let s := { s with settled := s.settled + 1, phase := .idle }
  flush f { s.deferredMeta.foldl State.setMeta s with deferredMeta := [] }

/-- The loop of the writer takes a command. -/
def writerRecv (lim : Limits) (f : Flush) (s : State) : WriterCmd → State
  | .insert entry =>
    let s := { s with buf := s.buf ++ [entry] }
    if lim.flushBatchSize ≤ s.buf.length then flush f s else s
  | .runRetention cutoff vacuum =>
    { flush f s with phase := .ofRetention vacuum cutoff, taken := s.taken + 1 }
  | .setMeta key value => s.setMeta (key, value)

def step (lim : Limits) (s : State) : Label → Option State
  | .trySend entry =>
    if s.channel.length < lim.channelCapacity then some (s.accept (.insert entry))
    else some { s with dropped := s.dropped + 1, sent := s.sent ++ [entry] }
  | .send cmd => if s.channel.length < lim.channelCapacity then some (s.accept cmd) else none
  | .recv f =>
    match s.phase, s.channel with
    | .idle, cmd :: rest => some (writerRecv lim f { s with channel := rest } cmd)
    | _, _ => none
  | .timeout f =>
    match s.phase with
    | .idle => some (flush f s)
    | _ => none
  | .deleteExpiredChunk ids =>
    match s.phase with
    | .deleting cutoff vacuum =>
      if DeletesChunk lim cutoff s.db ids then
        if ids = [] then some { s with phase := .deleted vacuum }
        else some { s.setDb (s.db.delete fun i _ => i ∈ ids) with phase := .absorbing cutoff vacuum }
      else none
    | _ => none
  | .deleteFails =>
    match s.phase with
    | .deleting _ vacuum => some { s with phase := .deleted vacuum }
    | _ => none
  | .tryRecv f =>
    match s.phase with
    | .absorbing cutoff vacuum =>
      match s.channel with
      | [] => some { flush f s with phase := .deleting cutoff vacuum }
      | cmd :: rest => some (stashCmd lim { s with channel := rest } cmd)
    | _ => none
  | .endPass f =>
    match s.phase with
    | .deleted _ => some (finishPass f s)
    | _ => none
  | .offload =>
    match s.phase with
    | .deleted true => some { s with conn := .memory .empty, phase := .vacuuming s.conn }
    | _ => none
  | .stash =>
    match s.phase, s.channel with
    | .vacuuming _, cmd :: rest => some (stashCmd lim { s with channel := rest } cmd)
    | _, _ => none
  | .joined f =>
    match s.phase with
    | .vacuuming owned => some (finishPass f { s with conn := owned })
    | _ => none
  | .joinFails reopened f =>
    match s.phase with
    | .vacuuming owned =>
      match owned, reopened with
      | .disk, true => some (finishPass f { s with conn := .disk })
      | _, _ => some (finishPass f s)
    | _ => none

end AuditDb

end Drust
