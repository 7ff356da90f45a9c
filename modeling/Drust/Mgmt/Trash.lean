import Drust.Lib.Transition
import Drust.Mgmt.Tenants

/-!
# The recovery copies of soft-deleted tenants

When a tenant is soft-deleted, its directory is renamed into `_trash`, under a name made of
the id and the second. The name is probed, because an id can be used again and deleted twice
in a second. A sweep removes what is older than the retention.

The age of a copy is that of the directory's own modification time, which a rename keeps:
it is the time at which an entry was last made or removed in the directory, while the tenant
was live. A write to the database changes its file and not the directory.

A state has all directories. `made` and `swept` are history: the copies that soft-deletes made,
and those that a sweep took. Time is counted in nanoseconds.
-/

namespace Drust

namespace Trash

open Tenants

structure Dir where
  content : TenantDir
  mtime : Nat
  deriving DecidableEq, Repr

/-- The directory has no entry. -/
def Dir.isEmpty (d : Dir) : Bool :=
  d.content.data.isNone && d.content.metaJson.isNone

/-- A copy that a soft-delete made, with the directory as it was then. -/
structure Snapshot where
  name : String
  dir : Dir
  deletedAt : Nat
  deriving DecidableEq, Repr

structure State where
  db : MetaDb
  /-- The directories under `tenants`, by id. -/
  live : String → Option Dir
  /-- The directories under `_trash`, by name. -/
  trash : String → Option Dir
  now : Nat
  made : List Snapshot := []
  swept : List Snapshot := []

/-! ### Moving a directory -/

def isThere (trash : String → Option Dir) (name : String) : Bool :=
  (trash name).isSome

/-- The name for each number in turn, up to one that is free. -/
def probe (trash : String → Option Dir) (base : String) : List Nat → String → String
  | [], dst => dst
  | n :: ns, dst =>
    if !isThere trash dst then dst else probe trash base ns (base ++ "-" ++ toString n)

def fallback (base uuid : String) : String :=
  base ++ "-" ++ uuid

def destination (trash : String → Option Dir) (base uuid : String) : String :=
  let dst := probe trash base (List.range' 1 64) base
  if isThere trash dst then fallback base uuid else dst

structure MoveFaults where
  createDir : Bool := false
  rename : Bool := false

/-- A rename does not go over a directory that has an entry. -/
def rename (faults : MoveFaults) (trash : String → Option Dir) (dst : String) (src : Dir) :
    Option (String → Option Dir) :=
  if faults.rename || (trash dst).any (fun d => !d.isEmpty) then none
  else some (Function.update trash dst (some src))

/-- Move the directory of a tenant aside. Where that fails, it stays. -/
def moveTenantToTrash (faults : MoveFaults) (s : State) (id ts uuid : String) : State :=
  match s.live id with
  | none => s
  | some src =>
    if faults.createDir then s
    else
      let dst := destination s.trash (id ++ "-" ++ ts) uuid
      match rename faults s.trash dst src with
      | none => s
      | some trash =>
        { s with
          live := Function.update s.live id none
          trash := trash
          made := ⟨dst, src, s.now⟩ :: s.made }

/-- `UPDATE tenants SET deleted_at = .. WHERE id = ?1 AND deleted_at IS NULL`; none when there
is no such row. -/
def markDeleted (db : MetaDb) (id ts : String) : Option MetaDb :=
  if db.tenants.any fun row => row.id == id && row.deletedAt.isNone then
    let mark (row : TenantRow) : TenantRow :=
      if row.id = id ∧ row.deletedAt = none then { row with deletedAt := some ts } else row
    have hid : ∀ row, (mark row).id = row.id := fun row => by
      simp only [mark]
      split <;> rfl
    some { db with
      tenants := db.tenants.map mark
      tenantIds := by
        rw [List.map_map, show TenantRow.id ∘ mark = TenantRow.id from funext hid]
        exact db.tenantIds
      tokenTenants := by
        intro tok htok
        obtain ⟨row, hrow, heq⟩ := db.tokenTenants tok htok
        exact ⟨mark row, List.mem_map_of_mem hrow, (hid row).trans heq⟩ }
  else none

/-! ### The sweep -/

/-- The seconds of the retention, as a 64-bit product. -/
def maxAge (days : UInt64) : Nat :=
  (days * 24 * 60 * 60).toNat * 10 ^ 9

/-- An entry of `_trash` is older than the retention. One whose time is in the future is not. -/
def expired (days : UInt64) (now : Nat) (d : Dir) : Bool :=
  decide (d.mtime ≤ now) && decide (maxAge days < now - d.mtime)

structure SweepFaults where
  /-- `_trash` cannot be listed. -/
  readDir : Bool := false
  /-- The modification time of an entry cannot be read. -/
  metadata : String → Bool := fun _ => false
  /-- What is left of an entry; nothing when its removal succeeds. -/
  leaves : String → Option Dir := fun _ => none

/-- The sweep takes the entry. -/
def takes (faults : SweepFaults) (days : UInt64) (now : Nat) (trash : String → Option Dir)
    (name : String) : Bool :=
  days != 0 && !faults.readDir && !faults.metadata name && (trash name).any (expired days now)

def sweepTrash (faults : SweepFaults) (days : UInt64) (now : Nat) (trash : String → Option Dir) :
    String → Option Dir := fun name =>
  if takes faults days now trash name then faults.leaves name else trash name

/-! ### Steps -/

inductive Label where
  /-- A call to create a tenant. `touched` says whether it changed an entry of a directory that
  was there. -/
  | make (faults : Faults) (inp : MakeInput) (touched : Bool)
  | softDelete (faults : MoveFaults) (id uuid : String)
  | sweep (faults : SweepFaults)
  /-- A write to the directory of a tenant. -/
  | write (id : String) (content : TenantDir) (touched : Bool)
  | tick (now : Nat)

section Step

variable (days : UInt64) (defaultCap : Int) (hashToken : String → String)
  (timestamp : Nat → String)

/-- The world of a call, and what it leaves. -/
def makeTenant (faults : Faults) (inp : MakeInput) (touched : Bool) (s : State) : State :=
  let leave (w : World) : State :=
    { s with
      db := w.db
      live := Function.update s.live inp.id (w.dir.map fun content =>
        { content := content
          mtime := match s.live inp.id with
            | some d => if touched then s.now else d.mtime
            | none => s.now }) }
  match makeTenantInner faults defaultCap hashToken inp
      { db := s.db, dir := (s.live inp.id).map Dir.content } with
  | .ok _ w => leave w
  | .error _ w => leave w

def step (s : State) : Label → Option State
  | .make faults inp touched => some (makeTenant defaultCap hashToken faults inp touched s)
  | .softDelete faults id uuid =>
    let ts := timestamp s.now
    -- a random UUID has not been drawn before
    if isThere s.trash (fallback (id ++ "-" ++ ts) uuid) then none
    else match markDeleted s.db id ts with
      | none => none
      | some db => some (moveTenantToTrash faults { s with db := db } id ts uuid)
  | .sweep faults =>
    some { s with
      trash := sweepTrash faults days s.now s.trash
      swept := s.made.filter (fun m => takes faults days s.now s.trash m.name) ++ s.swept }
  | .write id content touched =>
    match s.live id with
    | none => none
    | some d => some { s with
        live := Function.update s.live id
          (some { content := content, mtime := if touched then s.now else d.mtime }) }
  | .tick now => if s.now ≤ now then some { s with now := now } else none

end Step

end Trash

end Drust
