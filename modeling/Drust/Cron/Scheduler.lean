import Drust.Cron.Jobs
import Drust.Lib.Transition

/-!
# The cron scheduler

A loop wakes at every minute of the wall clock, takes the due jobs from the index and spawns a
task for each of them (`run_due_job`). A task passes three gates before it runs its job: the
marker of the job, which turns away a fire whose predecessor is still there; the mutex of the
tenant; and a permit of the process. Then it reads the row of the job again and runs what the
row now says. Every exit drops what the task has got so far, in the reverse order.

Times are nanoseconds of UTC. The wall clock may be read at any value. The model has any number
of tasks, tenants and jobs; the rows of the jobs are edited at any time and in any way.
Whether a tenant is live, failing reads and writes, the content of the index and the outcome of
a run are in the labels, and `abandon` is a panic or a cancellation in the middle of a task.
Which schedule is due in which minute is a parameter.
-/

namespace Drust

namespace Cron

namespace Scheduler

/-! ### The tick loop -/

def minuteNanos : Int := 60 * 10 ^ 9

def nextMinute (after : Int) : Int :=
  after - after % minuteNanos + minuteNanos

def shouldFire (lastFired : Option Int) (minute : Int) : Bool :=
  match lastFired with
  | none => true
  | some l => l < minute

/-- The decision of a tick and what it records. -/
def tickDecision (lastFired : Option Int) (minute : Int) : Bool × Option Int :=
  if shouldFire lastFired minute then (true, some minute) else (false, lastFired)

/-- The jobs of an index snapshot that are due. -/
def collectDue (isDue : String → Int → Bool) (snapshot : List (String × List IndexedJob))
    (minute : Int) : List (String × IndexedJob) :=
  snapshot.flatMap (fun e =>
    (e.2.filter (fun job => isDue job.schedule minute)).map (fun job => (e.1, job)))

inductive Loop where
  | reading
  | sleeping (minute : Int)
  /-- The jobs that are still to be spawned. -/
  | firing (minute : Int) (due : List (String × IndexedJob))

/-! ### The tasks -/

/-- The arguments of a task. -/
structure Fire where
  tenant : String
  job : IndexedJob
  minute : Int
  deriving DecidableEq, Repr

def Fire.key (fire : Fire) : String × Int :=
  (fire.tenant, fire.job.id)

inductive Task where
  | idle
  | spawned (fire : Fire)
  /-- The tenant is live. -/
  | opened (fire : Fire)
  /-- Turned away at the marker; the skip is to be recorded. -/
  | overlapped (fire : Fire)
  | marked (fire : Fire)
  /-- It has the mutex of its tenant, not yet locked. -/
  | queued (fire : Fire) (gate : Nat)
  | locked (fire : Fire) (gate : Nat)
  | permitted (fire : Fire) (gate : Nat)
  | dispatching (fire : Fire) (gate : Nat) (fresh : CronJob)
  | recording (fire : Fire) (gate : Nat) (status : String) (error : Option String)
  /-- The exits: what is still to be dropped. -/
  | dropPermit (fire : Fire) (gate : Nat)
  | dropLock (fire : Fire) (gate : Nat)
  | dropMarker (fire : Fire)
  | finished
  deriving DecidableEq

/-- A row of the runs, without its duration. -/
structure Run where
  tenant : String
  jobId : Int
  fired : Int
  status : String
  error : Option String
  deriving DecidableEq, Repr

structure State where
  inFlight : String × Int → Bool
  tenantGate : String → LockSlot Nat
  permits : Nat
  /-- The job tables of the tenants. -/
  jobs : String → List CronJob
  runs : List Run
  loop : Loop
  lastFired : Option Int
  /-- The minutes whose fires have been spawned, the last one first. -/
  minutes : List Int
  tasks : Nat → Task

structure CronConfig where
  concurrency : Nat
  disabled : Bool

def init (cfg : CronConfig) (jobs : String → List CronJob) : State where
  inFlight := fun _ => false
  tenantGate := fun _ => {}
  permits := cfg.concurrency
  jobs := jobs
  runs := []
  loop := .reading
  lastFired := none
  minutes := []
  tasks := fun _ => .idle

def setTask (s : State) (p : Nat) (x : Task) : State :=
  { s with tasks := Function.update s.tasks p x }

def setGate (s : State) (tenant : String) (k : LockSlot Nat) : State :=
  { s with tenantGate := Function.update s.tenantGate tenant k }

def setMarker (s : State) (key : String × Int) (b : Bool) : State :=
  { s with inFlight := Function.update s.inFlight key b }

/-- A row is written, unless the write fails. -/
def recordRun (s : State) (fire : Fire) (status : String) (error : Option String) (ok : Bool) :
    State :=
  { s with runs :=
      if ok then s.runs ++ [⟨fire.tenant, fire.job.id, fire.minute, status, error⟩] else s.runs }

/-- The row that may be dispatched: it is there, it is still the job that was fired, and it is
active with the schedule that was due. -/
def reassert (fire : Fire) (jobs : List CronJob) : Option CronJob :=
  match getJobReader jobs fire.job.name with
  | none => none
  | some fresh =>
    if fresh.id ≠ fire.job.id then none
    else if !fresh.active || fresh.schedule ≠ fire.job.schedule then none
    else some fresh

/-- The outcome of a run of the fresh row; that of a function or an RPC comes from outside. -/
def dispatch (fresh : CronJob) (outcome : String × Option String) : String × Option String :=
  if fresh.targetKind = "function" ∨ fresh.targetKind = "rpc" then outcome
  else ("error", some ("unknown target_kind '" ++ fresh.targetKind ++ "'"))

inductive Label where
  | readClock (now : Int)
  | wake (snapshot : List (String × List IndexedJob))
  | spawn (p : Nat)
  | endTick
  | edit (tenant : String) (jobs : List CronJob)
  | start (p : Nat) (live : Bool)
  | overlapGate (p : Nat)
  | recordSkip (p : Nat) (ok : Bool)
  | lookupGate (p : Nat)
  | lock (p : Nat)
  | acquire (p : Nat)
  | reread (p : Nat) (ok : Bool)
  | dispatch (p : Nat) (outcome : String × Option String)
  | record (p : Nat) (ok : Bool)
  | abandon (p : Nat)
  | drop (p : Nat)
  deriving DecidableEq

def step (cfg : CronConfig) (isDue : String → Int → Bool) (s : State) : Label → Option State
  | .readClock now =>
    match s.loop with
    | .reading => if cfg.disabled then none else some { s with loop := .sleeping (nextMinute now) }
    | _ => none
  | .wake snapshot =>
    match s.loop with
    | .sleeping minute =>
      match tickDecision s.lastFired minute with
      | (true, lastFired) =>
        some { s with loop := .firing minute (collectDue isDue snapshot minute),
                      lastFired := lastFired, minutes := minute :: s.minutes }
      | (false, lastFired) => some { s with loop := .reading, lastFired := lastFired }
    | _ => none
  | .spawn p =>
    match s.loop, s.tasks p with
    | .firing minute ((tenant, job) :: due), .idle =>
      some (setTask { s with loop := .firing minute due } p (.spawned ⟨tenant, job, minute⟩))
    | _, _ => none
  | .endTick =>
    match s.loop with
    | .firing _ [] => some { s with loop := .reading }
    | _ => none
  | .edit tenant jobs => some { s with jobs := Function.update s.jobs tenant jobs }
  | .start p live =>
    match s.tasks p with
    | .spawned fire => some (setTask s p (if live then .opened fire else .finished))
    | _ => none
  | .overlapGate p =>
    match s.tasks p with
    | .opened fire =>
      if s.inFlight fire.key then some (setTask s p (.overlapped fire))
      else some (setTask (setMarker s fire.key true) p (.marked fire))
    | _ => none
  | .recordSkip p ok =>
    match s.tasks p with
    | .overlapped fire =>
      some (setTask (recordRun s fire "skipped_overlap" none ok) p .finished)
    | _ => none
  | .lookupGate p =>
    match s.tasks p with
    | .marked fire =>
      some (setTask (setGate s fire.tenant (s.tenantGate fire.tenant).lookup.2) p
        (.queued fire (s.tenantGate fire.tenant).lookup.1))
    | _ => none
  | .lock p =>
    match s.tasks p with
    | .queued fire gate =>
      match (s.tenantGate fire.tenant).acquire gate p with
      | some k => some (setTask (setGate s fire.tenant k) p (.locked fire gate))
      | none => none
    | _ => none
  | .acquire p =>
    match s.tasks p, s.permits with
    | .locked fire gate, permits + 1 =>
      some (setTask { s with permits := permits } p (.permitted fire gate))
    | _, _ => none
  | .reread p ok =>
    match s.tasks p with
    | .permitted fire gate =>
      match (if ok then reassert fire (s.jobs fire.tenant) else none) with
      | some fresh => some (setTask s p (.dispatching fire gate fresh))
      | none => some (setTask s p (.dropPermit fire gate))
    | _ => none
  | .dispatch p outcome =>
    match s.tasks p with
    | .dispatching fire gate fresh =>
      some (setTask s p (.recording fire gate (dispatch fresh outcome).1 (dispatch fresh outcome).2))
    | _ => none
  | .record p ok =>
    match s.tasks p with
    | .recording fire gate status error =>
      some (setTask (recordRun s fire status error ok) p (.dropPermit fire gate))
    | _ => none
  | .abandon p =>
    match s.tasks p with
    | .spawned _ | .opened _ | .overlapped _ => some (setTask s p .finished)
    | .marked fire | .queued fire _ => some (setTask s p (.dropMarker fire))
    | .locked fire gate => some (setTask s p (.dropLock fire gate))
    | .permitted fire gate | .dispatching fire gate _ | .recording fire gate _ _ =>
      some (setTask s p (.dropPermit fire gate))
    | _ => none
  | .drop p =>
    match s.tasks p with
    | .dropPermit fire gate =>
      some (setTask { s with permits := s.permits + 1 } p (.dropLock fire gate))
    | .dropLock fire gate =>
      some (setTask (setGate s fire.tenant ((s.tenantGate fire.tenant).release (some gate))) p
        (.dropMarker fire))
    | .dropMarker fire => some (setTask (setMarker s fire.key false) p .finished)
    | _ => none

end Scheduler

end Cron

end Drust
