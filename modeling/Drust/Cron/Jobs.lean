import Drust.Lib.LockSlot

/-!
# Cron jobs

The rows of a tenant's job table and the part of them that the schedule index keeps. The
columns that no gate reads (timestamps and the summary of the last run) are left out.
-/

namespace Drust

namespace Cron

structure CronJob where
  id : Int
  name : String
  schedule : String
  targetKind : String
  targetName : String
  payloadJson : Option String
  active : Bool
  deriving DecidableEq, Repr

structure IndexedJob where
  id : Int
  name : String
  schedule : String
  targetKind : String
  targetName : String
  payloadJson : Option String
  deriving DecidableEq, Repr

def CronJob.indexed (j : CronJob) : IndexedJob where
  id := j.id
  name := j.name
  schedule := j.schedule
  targetKind := j.targetKind
  targetName := j.targetName
  payloadJson := j.payloadJson

def getJobReader (jobs : List CronJob) (name : String) : Option CronJob :=
  jobs.find? (fun j => j.name == name)

end Cron

end Drust
