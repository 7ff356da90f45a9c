import Drust.Lib.Savepoint
import Drust.Lib.Sql.Value
import Drust.Rpc.Params
import Drust.Storage.RecordHistory

/-!
# The write executor

A stored call in write mode runs a body of statements on the pooled writer connection, in a
savepoint of its own and under an authorizer that admits data statements only. What the
connection carries from one caller to the next is its contents, its open savepoints, its
authorizer and its capture hook (`Conn`).

Every primitive step may fail. `Steps` fixes how each of them ends in one call: it is a
parameter of the model, so what is proved for all `Steps` holds for every pattern of
failures. A statement that fails may leave what it had done before (`OR FAIL`), and it may
roll the whole transaction back (`OR ROLLBACK`, a full disk). `Exec.events` records how the
two steps ended whose failure the executor cannot undo.

The planner statistics that the pool refreshes after a write are not modelled.
-/

namespace Drust

open Sql

open RecordHistory (FlushError)

namespace ExecWrite

/-! ### Splitting a body -/

/-- The characters of the Unicode property `White_Space`. -/
def isWhitespace (c : Char) : Bool :=
  let n := c.toNat
  (9 ≤ n && n ≤ 13) || n = 0x20 || n = 0x85 || n = 0xA0 || n = 0x1680 ||
    (0x2000 ≤ n && n ≤ 0x200A) || n = 0x2028 || n = 0x2029 || n = 0x202F || n = 0x205F ||
    n = 0x3000

def trimStart (s : List Char) : List Char :=
  s.dropWhile isWhitespace

def trim (s : List Char) : List Char :=
  (trimStart (trimStart s).reverse).reverse

structure RpcStatementError where
  statementIndex : Nat
  message : String
  authorizerDenied : Bool := false
  captureLimitExceeded : Bool := false
  quotaExceeded : Bool := false
  deriving DecidableEq, Repr

/-- The bytes that end up before the first NUL, when there is one. -/
def nulPosition (s : List Char) : Option Nat :=
  if '\x00' ∈ s then some (utf8 (String.ofList (s.takeWhile (· ≠ '\x00')))).length else none

def nulError (index pos : Nat) : RpcStatementError where
  statementIndex := index
  message := "statement contains NUL byte: nul byte found in provided data at position: " ++
    toString pos

section Split

-- `sqlite3_complete`: the text ends in a semicolon outside of comments and literals
variable (complete : String → Bool)

/-- The rest of the body must be a complete statement; a missing semicolon is supplied for
the test only. -/
def splitTail (current : List Char) (out : List String) :
    Except RpcStatementError (List String) :=
  let tail := trim current
  if tail.isEmpty then .ok out
  else
    let probe := tail ++ [';']
    match nulPosition probe with
    | some pos => .error (nulError (out.length + 1) pos)
    | none =>
      if complete (String.ofList probe) then .ok (out ++ [String.ofList tail])
      else .error {
        statementIndex := out.length + 1
        message := "incomplete statement at end of body: " ++ String.ofList tail }

def splitFrom (current : List Char) (out : List String) :
    List Char → Except RpcStatementError (List String)
  | [] => splitTail complete current out
  | ch :: rest =>
    let current := current ++ [ch]
    if ch = ';' then
      match nulPosition current with
      | some pos => .error (nulError (out.length + 1) pos)
      | none =>
        if complete (String.ofList current) then
          let trimmed := trim current
          splitFrom [] (if trimmed.isEmpty then out else out ++ [String.ofList trimmed]) rest
        else
          -- the semicolon was in a comment or in a literal
          splitFrom current out rest
    else splitFrom current out rest

def splitStatements (sql : String) : Except RpcStatementError (List String) :=
  splitFrom complete [] [] sql.toList

end Split

/-! ### The connection -/

inductive Authorizer where
  | allowAll
  | readonly
  | writable
  deriving DecidableEq, Repr

/-- What the pooled writer connection carries from call to call. -/
structure Conn (δ : Type) extends Txn δ where
  authorizer : Authorizer := .allowAll
  /-- The tables the capture hook buffers, when it is installed. -/
  hook : Option (List String) := none
  deriving DecidableEq

/-- How the steps ended that the executor cannot undo. -/
inductive Event where
  | release (ok : Bool)
  | removeHook (ok : Bool)
  deriving DecidableEq, Repr

structure Exec (δ : Type) where
  conn : Conn δ
  events : List Event := []
  deriving DecidableEq

/-! ### How the steps of a call end -/

inductive Cell where
  | null
  | int (i : Int64)
  | real (f : Binary64)
  | text (s : String)
  | blob (len : Nat)
  deriving DecidableEq

structure QueryResult where
  columnNames : List String
  columnTypes : List String
  rows : List (List Cell)
  truncated : Bool
  sqlHash : String
  deriving DecidableEq

/-- What the driver reports of a statement that ran. -/
inductive Report where
  /-- The statement has no columns. -/
  | changed (affected lastInsertRowid : Int)
  /-- A statement with rows: all of them, whether `total_changes` moved, and `changes`. -/
  | rows (columnNames : List String) (rows : List (List Cell)) (mutated : Bool)
      (changes lastInsertRowid : Int)
  deriving DecidableEq

/-- What a statement does. -/
inductive Effect (δ : Type) where
  | done (db : δ) (report : Report)
  /-- It fails, and leaves these contents. -/
  | failed (db : δ) (error : String)
  /-- It fails, and the transaction is rolled back. -/
  | aborted (error : String)
  /-- A transaction statement, and what it does where it is allowed. -/
  | control (run : Txn δ → Txn δ) (report : Report)

inductive FlushEffect (δ : Type) where
  | done (db : δ)
  | failed (db : δ) (error : FlushError)
  | aborted (error : FlushError)

/-- How a `RELEASE` ends where the savepoint exists. -/
inductive ReleaseEffect where
  | done
  | failed (error : String)
  | aborted (error : String)

/-- The pure functions of the platform: `sqlite3_complete`, and the digest of a text. -/
structure Platform where
  complete : String → Bool
  sha256Hex : String → String

/-- How each step of one call ends. -/
structure Steps (δ : Type) where
  usage : Except String Nat
  auditedDataTables : Except String (List String)
  snapshotSearchTables : Except String Unit
  savepoint : Except String Unit
  installCapture : Except String Unit
  statement : String → List (String × Value) → Nat → δ → Effect δ
  removeCapture : Except String Unit
  flush : FlushEffect δ
  usageAgain : Except String Nat
  release : ReleaseEffect

/-! ### Quota -/

def quotaTierBytes : Nat := 10 * 1024 * 1024 * 1024

/-- The largest `u64`, at which the quota arithmetic saturates. -/
def u64Max : Nat := 2 ^ 64 - 1

structure QuotaExceeded where
  usage : Nat
  incoming : Nat
  limit : Nat

/-- The violation of the quota, if there is one. -/
def checkTenantQuota (usage incoming : Nat) (tier : Int) : Option QuotaExceeded :=
  let limit := min ((max tier 1).toNat * quotaTierBytes) u64Max
  if limit < min (usage + incoming) u64Max then some ⟨usage, incoming, limit⟩ else none

/-- Probe the usage, and check it. -/
def probeQuota (usage : Except String Nat) (tier : Int) : Except String (Option QuotaExceeded) :=
  usage.map (fun u => checkTenantQuota u 0 tier)

def quotaError (index : Nat) (q : QuotaExceeded) : RpcStatementError where
  statementIndex := index
  message := "TENANT_QUOTA_EXCEEDED: tenant storage usage " ++ toString q.usage ++
    "B would exceed the " ++ toString q.limit ++ "B limit"
  quotaExceeded := true

/-! ### The primitive steps -/

/-- The name of the executor's savepoint. -/
def savepointName : String := "drust_rpc_v2"

section Primitive

variable {δ : Type} (st : Steps δ)

def Exec.setTxn (e : Exec δ) (t : Txn δ) : Exec δ :=
  { e with conn := { e.conn with toTxn := t } }

def Exec.setDb (e : Exec δ) (db : δ) : Exec δ :=
  e.setTxn { e.conn.toTxn with db := db }

def Exec.log (e : Exec δ) (event : Event) : Exec δ :=
  { e with events := e.events ++ [event] }

/-- Attach the authorizer that allows everything. -/
def detachAuthorizer (e : Exec δ) : Exec δ :=
  { e with conn := { e.conn with authorizer := .allowAll } }

def attachWritableAuthorizer (e : Exec δ) : Exec δ :=
  { e with conn := { e.conn with authorizer := .writable } }

/-- The other authorizers deny transaction statements. -/
def deniesControl (e : Exec δ) : Bool :=
  e.conn.authorizer ≠ .allowAll

def execSavepoint (e : Exec δ) : Except String (Exec δ) :=
  if deniesControl e then .error "not authorized"
  else match st.savepoint with
    | .error m => .error m
    | .ok _ => .ok (e.setTxn (e.conn.toTxn.savepoint savepointName))

/-- `ROLLBACK TO`; the executor does not look at how it ends. -/
def execRollbackTo (e : Exec δ) : Exec δ :=
  if deniesControl e then e
  else match e.conn.toTxn.rollbackTo savepointName with
    | none => e
    | some t => e.setTxn t

def execRelease (e : Exec δ) : Except String Unit × Exec δ :=
  if deniesControl e then (.error "not authorized", e.log (.release false))
  else match e.conn.toTxn.release savepointName with
    | none => (.error ("no such savepoint: " ++ savepointName), e.log (.release false))
    | some t =>
      match st.release with
      | .done => (.ok (), (e.setTxn t).log (.release true))
      | .failed m => (.error m, e.log (.release false))
      | .aborted m => (.error m, (e.setTxn e.conn.toTxn.abort).log (.release false))

def installPreupdateCapture (audited : List String) (e : Exec δ) : Except String (Exec δ) :=
  match st.installCapture with
  | .error m => .error m
  | .ok _ => .ok { e with conn := { e.conn with hook := some audited } }

def removePreupdateCapture (e : Exec δ) : Except String Unit × Exec δ :=
  match st.removeCapture with
  | .error m => (.error m, e.log (.removeHook false))
  | .ok _ => (.ok (), ({ e with conn := { e.conn with hook := none } } : Exec δ).log
      (.removeHook true))

end Primitive

/-! ### One statement -/

structure StatementOutcome where
  rows : Option QueryResult := none
  affectedRows : Int
  lastInsertRowid : Option Int

def upper (s : List Char) : List Char :=
  s.map (fun c => if 'a' ≤ c ∧ c ≤ 'z' then c.toUpper else c)

def lower (s : List Char) : List Char :=
  s.map (fun c => if 'A' ≤ c ∧ c ≤ 'Z' then c.toLower else c)

def isInsert (sql : String) : Bool :=
  "INSERT".toList.isPrefixOf (upper (trimStart sql.toList))

def contains (pat : String) (s : List Char) : Bool :=
  s.tails.any (fun t => pat.toList.isPrefixOf t)

/-- A driver error, with denials recognised by their text. -/
def classify (error : String) (index : Nat) : RpcStatementError where
  statementIndex := index
  message := error
  authorizerDenied := contains "authoriz" (lower error.toList) ||
    contains "prohibited" (lower error.toList)

def Cell.typeName : Cell → String
  | .null => "null"
  | .int _ => "integer"
  | .real _ => "real"
  | .text _ => "text"
  | .blob _ => "blob"

/-- The type of a column: that of its first value that is not `NULL`. -/
def columnType (rows : List (List Cell)) (i : Nat) : String :=
  ((rows.filterMap (fun r => r[i]?)).map Cell.typeName |>.find? (· ≠ "null")).getD "null"

/-- The rows of a response are capped. -/
def maxRows : Nat := 1000

/-- The rows of a statement, as the response has them. -/
def readRows (pf : Platform) (sql : String) (names : List String) (rows : List (List Cell)) :
    QueryResult :=
  let kept := rows.take maxRows
  { columnNames := names
    columnTypes := (List.range names.length).map (columnType kept)
    rows := kept
    truncated := maxRows < rows.length
    sqlHash := "sha256:" ++ pf.sha256Hex sql }

def outcomeOf (pf : Platform) (sql : String) : Report → StatementOutcome
  | .changed affected rowid =>
    { affectedRows := affected, lastInsertRowid := if isInsert sql then some rowid else none }
  | .rows names rows mutated changes rowid =>
    let result := readRows pf sql names rows
    { rows := some result
      affectedRows := if mutated then changes else result.rows.length
      lastInsertRowid := if isInsert sql then some rowid else none }

section Execute

variable {δ : Type} (pf : Platform) (st : Steps δ)

def executeOne (sql : String) (binds : List (String × BoundValue)) (index : Nat) (e : Exec δ) :
    Except RpcStatementError StatementOutcome × Exec δ :=
  let bound := binds.map (fun kv => (":" ++ kv.1, kv.2.toSql))
  match st.statement sql bound index e.conn.db with
  | .done db report => (.ok (outcomeOf pf sql report), e.setDb db)
  | .failed db error => (.error (classify error index), e.setDb db)
  | .aborted error => (.error (classify error index), e.setTxn e.conn.toTxn.abort)
  | .control run report =>
    if deniesControl e then (.error (classify "not authorized" index), e)
    else (.ok (outcomeOf pf sql report), e.setTxn (run e.conn.toTxn))

/-- What the loop has gathered. -/
structure Progress where
  lastRows : Option QueryResult := none
  affectedRows : Int := 0
  lastInsertRowid : Option Int := none
  statementCount : Nat := 0

def Progress.add (p : Progress) (o : StatementOutcome) : Progress :=
  { p with
    lastRows := if o.rows.isSome then o.rows else p.lastRows
    affectedRows := p.affectedRows + o.affectedRows
    lastInsertRowid := if o.lastInsertRowid.isSome then o.lastInsertRowid else p.lastInsertRowid }

/-- The loop: it stops at the first statement that fails. -/
def executeAll (binds : List (String × BoundValue)) :
    Nat → List String → Progress → Exec δ → Option RpcStatementError × Progress × Exec δ
  | _, [], p, e => (none, p, e)
  | i, stmt :: stmts, p, e =>
    let p := { p with statementCount := p.statementCount + 1 }
    match executeOne pf st stmt binds (i + 1) e with
    | (.ok o, e) => executeAll binds (i + 1) stmts (p.add o) e
    | (.error err, e) => (some err, p, e)

end Execute

/-! ### The call -/

structure WriteRpcOutcome where
  lastRows : Option QueryResult
  affectedRows : Int
  lastInsertRowid : Option Int
  statementCount : Nat
  dryRun : Bool

/-- The savepoint could not be resolved, or a step outside the body failed. -/
structure TxCommitError where
  message : String
  deriving DecidableEq, Repr

abbrev RpcResult := Except TxCommitError (Except RpcStatementError WriteRpcOutcome)

section Run

variable {δ : Type} (pf : Platform) (st : Steps δ)

/-- Give the savepoint up, and answer `ret` unless that fails. -/
def unwind (ret : RpcResult) (e : Exec δ) : RpcResult × Exec δ :=
  match execRelease st (execRollbackTo e) with
  | (.error rel, e) => (.error ⟨rel⟩, e)
  | (.ok _, e) => (ret, e)

/-- Steps 6 and 7: resolve the savepoint, and answer. -/
def resolve (dryRun : Bool) (error : Option RpcStatementError) (p : Progress) (e : Exec δ) :
    RpcResult × Exec δ :=
  let e := if error.isSome || dryRun then execRollbackTo e else e
  match execRelease st e with
  | (.error m, e) => (.error ⟨m⟩, e)
  | (.ok _, e) =>
    (.ok (match error with
      | some err => .error err
      | none => .ok {
          lastRows := p.lastRows
          affectedRows := p.affectedRows
          lastInsertRowid := p.lastInsertRowid
          statementCount := p.statementCount
          dryRun := dryRun }), e)

/-- Step 5c: on the way to a commit, the quota holds for what the body has written. -/
def recheckQuota (tier : Int) (dryRun : Bool) (error : Option RpcStatementError) (p : Progress)
    (e : Exec δ) : RpcResult × Exec δ :=
  if error.isNone && !dryRun then
    match probeQuota st.usageAgain tier with
    | .ok (some q) => unwind st (.ok (.error (quotaError p.statementCount q))) e
    | .ok none => resolve st dryRun error p e
    | .error m =>
      -- here nobody looks at how the release ends
      let (_, e) := execRelease st (execRollbackTo e)
      (.error ⟨"tenant-quota re-probe failed: " ++ m⟩, e)
  else resolve st dryRun error p e

def flushFailure (index : Nat) : FlushError → RpcResult
  | .limitExceeded m =>
    .ok (.error { statementIndex := index, message := m, captureLimitExceeded := true })
  | .db m => .error ⟨"record-history flush failed: " ++ m⟩

/-- Step 5b: write the captured changes to the history, in the same savepoint. -/
def flushCaptured (captured : Bool) (tier : Int) (dryRun : Bool)
    (error : Option RpcStatementError) (p : Progress) (e : Exec δ) : RpcResult × Exec δ :=
  if error.isNone && captured then
    match st.flush with
    | .done db => recheckQuota st tier dryRun error p (e.setDb db)
    | .failed db err => unwind st (flushFailure p.statementCount err) (e.setDb db)
    | .aborted err =>
      unwind st (flushFailure p.statementCount err) (e.setTxn e.conn.toTxn.abort)
  else recheckQuota st tier dryRun error p e

/-- Steps 4 to 5: split and run the body, then take the hook and the authorizer off. -/
def runBody (storedSql : String) (bound : List (String × BoundValue)) (captured : Bool)
    (tier : Int) (dryRun : Bool) (e : Exec δ) : RpcResult × Exec δ :=
  match splitStatements pf.complete storedSql with
  | .error err =>
    let e := if captured then (removePreupdateCapture st e).2 else e
    unwind st (.ok (.error err)) (detachAuthorizer e)
  | .ok stmts =>
    let (error, p, e) := executeAll pf st bound 0 stmts {} e
    if captured then
      match removePreupdateCapture st e with
      | (.error m, e) =>
        unwind st (.error ⟨"record-history hook removal failed: " ++ m⟩) (detachAuthorizer e)
      | (.ok _, e) => flushCaptured st captured tier dryRun error p (detachAuthorizer e)
    else flushCaptured st captured tier dryRun error p (detachAuthorizer e)

/-- Steps 2 to 3b: open the savepoint, attach the authorizer, and install the hook when
there is something to capture. -/
def runInSavepoint (storedSql : String) (bound : List (String × BoundValue))
    (audited : List String) (tier : Int) (dryRun : Bool) (e : Exec δ) : RpcResult × Exec δ :=
  match execSavepoint st e with
  | .error m => (.error ⟨m⟩, e)
  | .ok e =>
    let e := attachWritableAuthorizer e
    if audited.isEmpty then runBody pf st storedSql bound false tier dryRun e
    else match installPreupdateCapture st audited e with
      | .error m =>
        unwind st (.error ⟨"record-history hook install failed: " ++ m⟩) (detachAuthorizer e)
      | .ok e => runBody pf st storedSql bound true tier dryRun e

/-- Run a stored call in write mode. -/
def runWriteRpc (storedSql : String) (bound : List (String × BoundValue)) (dryRun : Bool)
    (tier : Int) (conn : Conn δ) : RpcResult × Exec δ :=
  let e := detachAuthorizer { conn := conn }
  match probeQuota st.usage tier with
  | .error m => (.error ⟨"tenant-quota usage probe failed: " ++ m⟩, e)
  | .ok (some q) => (.ok (.error (quotaError 0 q)), e)
  | .ok none =>
    match (if dryRun then .ok [] else st.auditedDataTables) with
    | .error m => (.error ⟨"record-history audited-set precompute failed: " ++ m⟩, e)
    | .ok audited =>
      match st.snapshotSearchTables with
      | .error m => (.error ⟨"search-table classifier precompute failed: " ++ m⟩, e)
      | .ok _ => runInSavepoint pf st storedSql bound audited tier dryRun e

end Run

end ExecWrite

end Drust
