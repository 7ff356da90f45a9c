import Drust.Lib.LockSlot
import Mathlib

/-!
# The function queue

Edge functions run from a queue or at once. `enqueue` counts an invocation in the depth counter of
its tenant, drops it when the counter was at the cap already, and sends it on the global channel.
A loop drains the channel into one lane for each tenant, and the single worker of a lane runs its
invocations in turn and counts each of them off. Synchronous callers use `run_one` directly and do
not touch the counters. A run locks its tenant's mutex, takes a permit of the process, resolves
its function, runs it and writes a log row and an audit row.

There are any number of enqueue calls, tenants and synchronous callers. The atomic steps of a call
(the look-up of the counter, its increment, the cap test, the undo, the send), of the loop and of
a run are steps of the model. What comes from outside is in the labels: whether a tenant is live,
the row that is read, the outcome of the runner. A caller may go away in the middle of its run;
the calls and the workers stay. Entries of the maps are never removed, so a counter or a lane is
known by its tenant, and the channel of a lane, whose sender is in the map, is never closed.
-/

namespace Drust

/-- The identity that an invocation runs as. -/
inductive CallerCtx where
  | privileged
  | anon
  | user (userId : String)
  deriving DecidableEq, Repr

namespace Executor

structure Invocation where
  tenantId : String
  functionName : String
  trigger : String
  eventJson : String
  caller : CallerCtx
  deriving DecidableEq, Repr

/-! ### One run -/

inductive RunStatus where
  | ok
  | error
  | trap
  | timeout
  | oom
  deriving DecidableEq, Repr

def RunStatus.asStr : RunStatus → String
  | .ok => "ok"
  | .error => "error"
  | .trap => "trap"
  | .timeout => "timeout"
  | .oom => "oom"

structure RunOutcome where
  status : RunStatus
  result : String
  logText : String
  deriving DecidableEq, Repr

/-- What a run reads of the row of its function. -/
structure FunctionRow where
  active : Bool
  invokeAnon : Bool
  invokeUser : Bool
  deriving DecidableEq, Repr

/-- A row of the tenant's function log, without its id and its duration. -/
structure LogRow where
  functionName : String
  trigger : String
  status : String
  logText : String
  resultJson : String
  deriving DecidableEq, Repr

/-- What an audit row says of a run. -/
structure AuditEntry where
  tenant : String
  tokenHint : String
  status : String
  errorCode : Option String
  errorMessage : Option String
  deriving DecidableEq, Repr

structure FnConfig where
  queueDepth : Nat
  concurrency : Nat

/-- The bound of the global channel. -/
def channelBound : Nat := 1024

/-- The run ends before the runner does anything. -/
def failed (why : String) : RunOutcome where
  status := .error
  result := why
  logText := ""

/-- The row lets the caller invoke the function. -/
def admits (row : FunctionRow) : CallerCtx → Bool
  | .privileged => true
  | .anon => row.invokeAnon
  | .user _ => row.invokeUser

/-- The outcome of a run, from the read of the row and what the runner answers. -/
def resolveAndRun (inv : Invocation) (live : Bool) (read : Except String (Option FunctionRow))
    (out : RunOutcome) : RunOutcome :=
  if !live then failed "tenant gone or unopenable"
  else
    match read with
    | .ok (some row) =>
      if !row.active then failed "function deactivated before run"
      else if admits row inv.caller then out
      else failed "invoke ACL mismatch"
    | .ok none => failed "function deleted before run"
    | .error e => failed ("row read failed: " ++ e)

def logRow (inv : Invocation) (out : RunOutcome) : LogRow where
  functionName := inv.functionName
  trigger := inv.trigger
  status := out.status.asStr
  logText := out.logText
  resultJson := out.result

def auditEntry (inv : Invocation) (out : RunOutcome) : AuditEntry where
  tenant := inv.tenantId
  tokenHint := "function:" ++ inv.functionName
  status := out.status.asStr
  errorCode := if out.status = .ok then none else some ("FN_" ++ out.status.asStr.toUpper)
  errorMessage := if out.status = .ok then none else some out.result

/-- The log row of an invocation that is dropped. -/
def droppedRow (cap : Nat) (inv : Invocation) : LogRow where
  functionName := inv.functionName
  trigger := inv.trigger
  status := "dropped"
  logText := ""
  resultJson := "\x7b\"reason\":\"queue depth " ++ toString cap ++ " exceeded\"\x7d"

/-! ### The parties -/

/-- Where an enqueue call is. -/
inductive Stage where
  | called
  /-- It has the counter of its tenant. -/
  | counter
  /-- It has incremented the counter, which was `prev`. -/
  | incremented (prev : Nat)
  /-- The counter was at the cap, and its increment is to be undone. -/
  | refused
  /-- Undone; the drop is to be recorded. -/
  | dropping
  | sending
  | sent
  /-- The channel was closed, and the increment is to be undone. -/
  | lost
  | returned
  deriving DecidableEq, Repr

structure Call where
  inv : Invocation
  stage : Stage
  deriving DecidableEq, Repr

/-- An invocation in a channel, and the call that has sent it. -/
structure Job where
  call : Nat
  inv : Invocation
  deriving DecidableEq, Repr

/-- The loop that drains the global channel. -/
inductive Loop where
  | receiving
  | routing (job : Job)
  /-- The lane is there. -/
  | forwarding (job : Job)
  /-- Dropped with its runtime. -/
  | gone
  deriving DecidableEq, Repr

inductive Worker where
  | waiting
  | running (job : Job)
  deriving DecidableEq, Repr

def Worker.jobs : Worker → List Job
  | .waiting => []
  | .running job => [job]

/-- The lane of a tenant: its channel and its worker. -/
structure Lane where
  queue : List Job := []
  worker : Worker := .waiting
  deriving DecidableEq, Repr

/-- Who runs functions: the worker of a lane, or a synchronous caller. -/
inductive Party where
  | lane (tenant : String)
  | caller (n : Nat)
  deriving DecidableEq, Repr

/-- Where a call of `run_one` is. -/
inductive Run where
  | idle
  | called (inv : Invocation)
  /-- It has the mutex of its tenant, not yet locked. -/
  | queued (inv : Invocation) (gate : Nat)
  | locked (inv : Invocation) (gate : Nat)
  | permitted (inv : Invocation) (gate : Nat)
  | recording (inv : Invocation) (gate : Nat) (out : RunOutcome)
  /-- The exits: what is still to be dropped. A caller that goes away has no outcome. -/
  | dropPermit (inv : Invocation) (gate : Nat) (out : Option RunOutcome)
  | dropLock (inv : Invocation) (gate : Nat) (out : Option RunOutcome)
  | finished (out : Option RunOutcome)
  deriving DecidableEq, Repr

structure State where
  depth : String → Option Nat
  dropped : Nat
  /-- The enqueue calls, in the order in which they were made. -/
  calls : List Call
  /-- The global channel. -/
  queue : List Job
  loop : Loop
  lanes : String → Option Lane
  tenantLocks : String → LockSlot Party
  permits : Nat
  runs : Party → Run
  completed : Nat
  logs : List (String × LogRow)
  audits : List AuditEntry
  /-- What has been sent on the global channel, in order. -/
  entered : List Job
  /-- What the workers have started to run, in order. -/
  started : List Job

def init (cfg : FnConfig) : State where
  depth := fun _ => none
  dropped := 0
  calls := []
  queue := []
  loop := .receiving
  lanes := fun _ => none
  tenantLocks := fun _ => {}
  permits := max cfg.concurrency 1
  runs := fun _ => .idle
  completed := 0
  logs := []
  audits := []
  entered := []
  started := []

/-- The value of a counter. -/
def State.counter (s : State) (tenant : String) : Nat :=
  (s.depth tenant).getD 0

/-- A tenant without a lane has nothing in it. -/
def State.lane (s : State) (tenant : String) : Lane :=
  (s.lanes tenant).getD {}

def State.setDepth (s : State) (tenant : String) (n : Nat) : State :=
  { s with depth := Function.update s.depth tenant (some n) }

def State.setStage (s : State) (i : Nat) (inv : Invocation) (stage : Stage) : State :=
  { s with calls := s.calls.set i ⟨inv, stage⟩ }

def State.setLane (s : State) (tenant : String) (lane : Lane) : State :=
  { s with lanes := Function.update s.lanes tenant (some lane) }

def State.setRun (s : State) (p : Party) (r : Run) : State :=
  { s with runs := Function.update s.runs p r }

def State.setLock (s : State) (tenant : String) (k : LockSlot Party) : State :=
  { s with tenantLocks := Function.update s.tenantLocks tenant k }

/-- The decrement of the dispatcher, which wraps around below zero. -/
def fetchSub : Nat → Nat
  | 0 => 2 ^ 64 - 1
  | n + 1 => n

/-- The decrement of the worker, which stays at zero. A tenant without a counter is left alone. -/
def State.decrementDepth (s : State) (tenant : String) : State :=
  match s.depth tenant with
  | some n => s.setDepth tenant (n - 1)
  | none => s

/-- Send a job on the global channel. -/
def State.push (s : State) (job : Job) : State :=
  { s with queue := s.queue ++ [job], entered := s.entered ++ [job] }

/-- A log row is written if the tenant is live. -/
def State.log (s : State) (live : Bool) (tenant : String) (row : LogRow) : State :=
  { s with logs := if live then s.logs ++ [(tenant, row)] else s.logs }

/-- What a party starts when it has its permit: the job of a worker's lane. -/
def State.jobOf (s : State) : Party → List Job
  | .lane tenant => (s.lane tenant).worker.jobs
  | .caller _ => []

inductive Label where
  -- the calls
  | enqueue (inv : Invocation)
  | lookupCounter (i : Nat)
  | increment (i : Nat)
  | testCap (i : Nat)
  | undo (i : Nat)
  | recordDrop (i : Nat) (live : Bool)
  | send (i : Nat)
  | undoLost (i : Nat)
  -- the loop
  | recv
  | openLane
  | forward
  | shutDown
  -- the workers
  | take (tenant : String)
  | decrement (tenant : String)
  -- the synchronous callers
  | invoke (n : Nat) (inv : Invocation)
  | cancel (n : Nat)
  -- the runs
  | lookupLock (p : Party)
  | lock (p : Party)
  | acquire (p : Party)
  | resolve (p : Party) (live : Bool) (read : Except String (Option FunctionRow)) (out : RunOutcome)
  | record (p : Party) (live : Bool)
  | drop (p : Party)

def step (cfg : FnConfig) (s : State) : Label → Option State
  | .enqueue inv => some { s with calls := s.calls ++ [⟨inv, .called⟩] }
  | .lookupCounter i =>
    match s.calls[i]? with
    | some ⟨inv, .called⟩ =>
      some ((s.setDepth inv.tenantId (s.counter inv.tenantId)).setStage i inv .counter)
    | _ => none
  | .increment i =>
    match s.calls[i]? with
    | some ⟨inv, .counter⟩ =>
      some ((s.setDepth inv.tenantId (s.counter inv.tenantId + 1)).setStage i inv
        (.incremented (s.counter inv.tenantId)))
    | _ => none
  | .testCap i =>
    match s.calls[i]? with
    | some ⟨inv, .incremented prev⟩ =>
      some (s.setStage i inv (if cfg.queueDepth ≤ prev then .refused else .sending))
    | _ => none
  | .undo i =>
    match s.calls[i]? with
    | some ⟨inv, .refused⟩ =>
      some ((s.setDepth inv.tenantId (fetchSub (s.counter inv.tenantId))).setStage i inv .dropping)
    | _ => none
  | .recordDrop i live =>
    match s.calls[i]? with
    | some ⟨inv, .dropping⟩ =>
      some ({ s.log live inv.tenantId (droppedRow cfg.queueDepth inv) with
        dropped := s.dropped + 1 }.setStage i inv .returned)
    | _ => none
  | .send i =>
    match s.calls[i]? with
    | some ⟨inv, .sending⟩ =>
      if s.loop = .gone then some (s.setStage i inv .lost)
      -- a call waits as long as the channel is full
      else if s.queue.length < channelBound then some ((s.push ⟨i, inv⟩).setStage i inv .sent)
      else none
    | _ => none
  | .undoLost i =>
    match s.calls[i]? with
    | some ⟨inv, .lost⟩ =>
      some ((s.setDepth inv.tenantId (fetchSub (s.counter inv.tenantId))).setStage i inv .returned)
    | _ => none
  | .recv =>
    match s.loop, s.queue with
    | .receiving, job :: queue => some { s with queue := queue, loop := .routing job }
    | _, _ => none
  | .openLane =>
    match s.loop with
    | .routing job =>
      some ({ s with loop := .forwarding job }.setLane job.inv.tenantId (s.lane job.inv.tenantId))
    | _ => none
  | .forward =>
    match s.loop with
    | .forwarding job =>
      match s.lanes job.inv.tenantId with
      | some lane =>
        some ({ s with loop := .receiving }.setLane job.inv.tenantId
          { lane with queue := lane.queue ++ [job] })
      | none => none
    | _ => none
  | .shutDown => if s.loop = .receiving then some { s with loop := .gone } else none
  | .take tenant =>
    match s.lanes tenant with
    | some ⟨job :: queue, .waiting⟩ =>
      some ((s.setLane tenant ⟨queue, .running job⟩).setRun (.lane tenant) (.called job.inv))
    | _ => none
  | .decrement tenant =>
    match s.lanes tenant, s.runs (.lane tenant) with
    | some ⟨queue, .running job⟩, .finished _ =>
      some (((s.decrementDepth job.inv.tenantId).setLane tenant ⟨queue, .waiting⟩).setRun
        (.lane tenant) .idle)
    | _, _ => none
  | .invoke n inv =>
    match s.runs (.caller n) with
    | .idle => some (s.setRun (.caller n) (.called inv))
    | _ => none
  | .cancel n =>
    match s.runs (.caller n) with
    | .called _ | .queued _ _ => some (s.setRun (.caller n) (.finished none))
    | .locked inv gate => some (s.setRun (.caller n) (.dropLock inv gate none))
    | .permitted inv gate | .recording inv gate _ =>
      some (s.setRun (.caller n) (.dropPermit inv gate none))
    | _ => none
  | .lookupLock p =>
    match s.runs p with
    | .called inv =>
      some ((s.setLock inv.tenantId (s.tenantLocks inv.tenantId).lookup.2).setRun p
        (.queued inv (s.tenantLocks inv.tenantId).lookup.1))
    | _ => none
  | .lock p =>
    match s.runs p with
    | .queued inv gate =>
      match (s.tenantLocks inv.tenantId).acquire gate p with
      | some k => some ((s.setLock inv.tenantId k).setRun p (.locked inv gate))
      | none => none
    | _ => none
  | .acquire p =>
    match s.runs p, s.permits with
    | .locked inv gate, permits + 1 =>
      some ({ s with permits := permits, started := s.started ++ s.jobOf p }.setRun p
        (.permitted inv gate))
    | _, _ => none
  | .resolve p live read out =>
    match s.runs p with
    | .permitted inv gate =>
      some (s.setRun p (.recording inv gate (resolveAndRun inv live read out)))
    | _ => none
  | .record p live =>
    match s.runs p with
    | .recording inv gate out =>
      some ({ s.log live inv.tenantId (logRow inv out) with
        audits := s.audits ++ [auditEntry inv out]
        completed := s.completed + 1 }.setRun p (.dropPermit inv gate (some out)))
    | _ => none
  | .drop p =>
    match s.runs p with
    | .dropPermit inv gate out =>
      some ({ s with permits := s.permits + 1 }.setRun p (.dropLock inv gate out))
    | .dropLock inv gate out =>
      some ((s.setLock inv.tenantId ((s.tenantLocks inv.tenantId).release (some gate))).setRun p
        (.finished out))
    | _ => none

end Executor

end Drust
