import Drust.Cron.Jobs
import Drust.Lib.Transition

/-!
# The schedule index

The index keeps the active jobs of each tenant in memory. A change of the job table commits and
then reloads the entry of its tenant: under a lock of the tenant it reads the table and writes
what it has read to the map. The boot scan does the same without a commit. The soft-deletion of
the tenant invalidates the entry: under the lock it removes the entry, and then the lock object
from the map of the locks.

The model has one tenant and any number of operations, one step for each lookup, acquisition,
read, write, removal and release. Reads succeed.

An operation that has looked up the lock object before an invalidation keeps it, while those
that come after it get a new one, so two reloads can be under way at once and the older list be
written last. As long as no reload gets its lock while another operation is between its read
and its write, the index converges to the table. As long as no lock object is removed, the
locks see to that (`keepsApart_of_lock`).
-/

namespace Drust

namespace Cron

namespace Index

open Transition
open LockSlot (comp_update_of_eq)

/-- The entry for a list of jobs: the active ones, and no entry without any. -/
def applyJobs (jobs : List CronJob) : Option (List IndexedJob) :=
  let active := (jobs.filter (·.active)).map CronJob.indexed
  if active.isEmpty then none else some active

inductive Kind where
  | reload
  | bootScan
  | invalidate
  deriving DecidableEq, Repr

inductive Op where
  | idle
  /-- A reload has committed its change, the others have just begun. -/
  | started (kind : Kind)
  | waiting (kind : Kind) (lock : Nat)
  | holding (kind : Kind) (lock : Nat)
  /-- The list is read and not yet written. -/
  | read (lock : Nat) (jobs : List CronJob)
  /-- An invalidation has removed the entry and not yet the lock. -/
  | removed (lock : Nat)
  | unlocking (lock : Nat)
  | done
  deriving DecidableEq

structure State where
  /-- The job table. -/
  db : List CronJob
  index : Option (List IndexedJob)
  locks : LockSlot Nat
  ops : Nat → Op

def init (db : List CronJob) : State where
  db := db
  index := none
  locks := {}
  ops := fun _ => .idle

def setOp (s : State) (o : Nat) (x : Op) : State :=
  { s with ops := Function.update s.ops o x }

@[simp] theorem setOp_self (s : State) (o : Nat) (x : Op) : (setOp s o x).ops o = x :=
  Function.update_self ..

theorem setOp_of_ne (s : State) {o q : Nat} (h : q ≠ o) (x : Op) :
    (setOp s o x).ops q = s.ops q :=
  Function.update_of_ne h ..

inductive Label where
  | commit (o : Nat) (jobs : List CronJob)
  | bootScan (o : Nat)
  | invalidate (o : Nat)
  | lookup (o : Nat)
  | acquire (o : Nat)
  | read (o : Nat)
  | write (o : Nat)
  | removeEntry (o : Nat)
  | removeLock (o : Nat)
  | release (o : Nat)
  deriving DecidableEq

def step (s : State) : Label → Option State
  | .commit o jobs =>
    match s.ops o with
    | .idle => some (setOp { s with db := jobs } o (.started .reload))
    | _ => none
  | .bootScan o =>
    match s.ops o with
    | .idle => some (setOp s o (.started .bootScan))
    | _ => none
  | .invalidate o =>
    match s.ops o with
    | .idle => some (setOp s o (.started .invalidate))
    | _ => none
  | .lookup o =>
    match s.ops o with
    | .started kind =>
      some (setOp { s with locks := s.locks.lookup.2 } o (.waiting kind s.locks.lookup.1))
    | _ => none
  | .acquire o =>
    match s.ops o with
    | .waiting kind lock =>
      match s.locks.acquire lock o with
      | some locks => some (setOp { s with locks := locks } o (.holding kind lock))
      | none => none
    | _ => none
  | .read o =>
    match s.ops o with
    | .holding kind lock =>
      if kind = .invalidate then none else some (setOp s o (.read lock s.db))
    | _ => none
  | .write o =>
    match s.ops o with
    | .read lock jobs => some (setOp { s with index := applyJobs jobs } o (.unlocking lock))
    | _ => none
  | .removeEntry o =>
    match s.ops o with
    | .holding kind lock =>
      if kind = .invalidate then some (setOp { s with index := none } o (.removed lock)) else none
    | _ => none
  | .removeLock o =>
    match s.ops o with
    | .removed lock => some (setOp { s with locks := s.locks.remove } o (.unlocking lock))
    | _ => none
  | .release o =>
    match s.ops o with
    | .unlocking lock => some (setOp { s with locks := s.locks.release (some lock) } o .done)
    | _ => none

/-! ### Convergence -/

/-- An invalidation that has still to remove something. -/
def Op.invalidates : Op → Bool
  | .started .invalidate | .waiting .invalidate _ | .holding .invalidate _ | .removed _ => true
  | _ => false

/-- A reload that has not yet got its lock. -/
def Op.ahead : Op → Bool
  | .started .reload | .waiting .reload _ => true
  | _ => false

/-- A list is read and not yet written. -/
def Op.hasRead : Op → Bool
  | .read _ _ => true
  | _ => false

/-- The operation is going to write the list that is in the table. -/
def Op.Pending (db : List CronJob) : Op → Prop
  | .started .reload | .waiting .reload _ | .holding .reload _ => True
  | .read _ jobs => jobs = db
  | _ => False

/-- A reload gets its lock only while no other operation is between its read and its write. -/
def KeepsApart (s : State) (l : Label) : Prop :=
  ∀ o lock, l = .acquire o → s.ops o = .waiting .reload lock → ∀ q, (s.ops q).hasRead = false

/-- Without an invalidation under way: the entry is that of the table or is going to be, and
whoever is going to write another list does so before a reload that has still to get its
lock. -/
structure Converging (s : State) : Prop where
  quiet : ∀ o, (s.ops o).invalidates = false
  fresh : s.index = applyJobs s.db ∨ ∃ o, (s.ops o).Pending s.db
  behind : ∀ o lock jobs, s.ops o = .read lock jobs → jobs ≠ s.db → ∃ r, (s.ops r).ahead = true

section Steps

variable {s s' : State} {l : Label}

/-- A change of one operation that leaves the table and the index alone. -/
theorem converging_setOp (hs : Converging s) {o : Nat} {y : Op} {locks : LockSlot Nat}
    (hquiet : y.invalidates = false) (hpending : (s.ops o).Pending s.db → y.Pending s.db)
    (hread : ∀ lock jobs, y = .read lock jobs → jobs = s.db)
    (hahead : (s.ops o).ahead = true → y.ahead = true ∨ ∀ q, (s.ops q).hasRead = false) :
    Converging (setOp { s with locks := locks } o y) := by
  refine ⟨?_, ?_, ?_⟩
  · intro q
    obtain rfl | hq := eq_or_ne q o
    · rw [setOp_self]
      exact hquiet
    · rw [setOp_of_ne _ hq]
      exact hs.quiet q
  · refine hs.fresh.imp_right ?_
    rintro ⟨q, hq⟩
    refine ⟨q, ?_⟩
    obtain rfl | hqo := eq_or_ne q o
    · rw [setOp_self]
      exact hpending hq
    · rw [setOp_of_ne _ hqo]
      exact hq
  · intro q lock jobs hq hjobs
    obtain rfl | hqo := eq_or_ne q o
    · rw [setOp_self] at hq
      exact absurd (hread lock jobs hq) hjobs
    · rw [setOp_of_ne _ hqo] at hq
      obtain ⟨r, hr⟩ := hs.behind q lock jobs hq hjobs
      obtain rfl | hro := eq_or_ne r o
      · obtain hy | hnone := hahead hr
        · exact ⟨r, by rwa [setOp_self]⟩
        · -- there is a list that is not written
          have hq' := hnone q
          rw [hq] at hq'
          cases hq'
      · exact ⟨r, by rwa [setOp_of_ne _ hro]⟩

/-- From the commit of a reload on, its own write is to come. -/
theorem converging_commit {o : Nat} {jobs : List CronJob}
    (hquiet : ∀ p, (s.ops p).invalidates = false) (h : step s (.commit o jobs) = some s') :
    Converging s' := by
  simp only [step] at h
  split at h
  · obtain rfl := Option.some.inj h
    refine ⟨?_, .inr ⟨o, ?_⟩, fun _ _ _ _ _ => ⟨o, ?_⟩⟩
    · intro q
      obtain rfl | hq := eq_or_ne q o
      · rw [setOp_self]
        rfl
      · rw [setOp_of_ne _ hq]
        exact hquiet q
    · rw [setOp_self]
      trivial
    · rw [setOp_self]
      rfl
  · cases h

/-- The write of an older list comes before a reload that is still ahead. -/
theorem converging_write (hs : Converging s) {o lock : Nat} {jobs : List CronJob}
    (ho : s.ops o = .read lock jobs) :
    Converging (setOp { s with index := applyJobs jobs } o (.unlocking lock)) := by
  -- a reload that is ahead is another operation
  have hne : ∀ r, (s.ops r).ahead = true → r ≠ o := by
    rintro r hr rfl
    rw [ho] at hr
    cases hr
  refine ⟨?_, ?_, ?_⟩
  · intro q
    obtain rfl | hq := eq_or_ne q o
    · rw [setOp_self]
      rfl
    · rw [setOp_of_ne _ hq]
      exact hs.quiet q
  · by_cases hjobs : jobs = s.db
    · exact .inl (congrArg applyJobs hjobs)
    · obtain ⟨r, hr⟩ := hs.behind o lock jobs ho hjobs
      refine .inr ⟨r, ?_⟩
      rw [setOp_of_ne _ (hne r hr)]
      generalize s.ops r = x at hr
      unfold Op.ahead at hr
      split at hr
      · trivial
      · trivial
      · cases hr
  · intro q lock' jobs' hq hjobs'
    have hqo : q ≠ o := by
      rintro rfl
      rw [setOp_self] at hq
      cases hq
    rw [setOp_of_ne _ hqo] at hq
    obtain ⟨r, hr⟩ := hs.behind q lock' jobs' hq hjobs'
    exact ⟨r, by rwa [setOp_of_ne _ (hne r hr)]⟩

theorem converging_step (hs : Converging s) (hl : KeepsApart s l ∧ ∀ o, l ≠ .invalidate o)
    (h : step s l = some s') : Converging s' := by
  cases l with
  | commit o jobs => exact converging_commit hs.quiet h
  | bootScan o =>
    simp only [step] at h
    split at h
    · next ho =>
      obtain rfl := Option.some.inj h
      refine converging_setOp hs rfl ?_ (fun _ _ hy => nomatch hy) ?_
      all_goals
        rw [ho]
        exact fun hx => nomatch hx
    · cases h
  | invalidate o => exact absurd rfl (hl.2 o)
  | lookup o =>
    simp only [step] at h
    split at h
    · next kind ho =>
      obtain rfl := Option.some.inj h
      have hquiet := hs.quiet o
      rw [ho] at hquiet
      cases kind with
      | invalidate => cases hquiet
      | reload =>
        exact converging_setOp hs rfl (fun _ => trivial) (fun _ _ hy => nomatch hy)
          (fun _ => .inl rfl)
      | bootScan =>
        refine converging_setOp hs rfl ?_ (fun _ _ hy => nomatch hy) ?_
        all_goals
          rw [ho]
          exact fun hx => nomatch hx
    · cases h
  | acquire o =>
    simp only [step] at h
    split at h
    · next kind lock ho =>
      split at h
      · obtain rfl := Option.some.inj h
        have hquiet := hs.quiet o
        rw [ho] at hquiet
        cases kind with
        | invalidate => cases hquiet
        | reload =>
          exact converging_setOp hs rfl (fun _ => trivial) (fun _ _ hy => nomatch hy)
            (fun _ => .inr (hl.1 o lock rfl ho))
        | bootScan =>
          refine converging_setOp hs rfl ?_ (fun _ _ hy => nomatch hy) ?_
          all_goals
            rw [ho]
            exact fun hx => nomatch hx
      · cases h
    · cases h
  | read o =>
    simp only [step] at h
    split at h
    · next kind lock ho =>
      split at h
      · cases h
      · obtain rfl := Option.some.inj h
        refine converging_setOp hs rfl (fun _ => rfl) ?_ ?_
        · intro lock' jobs' hy
          obtain ⟨-, rfl⟩ := Op.read.inj hy
          rfl
        · rw [ho]
          exact fun hx => nomatch hx
    · cases h
  | write o =>
    simp only [step] at h
    split at h
    · next lock jobs ho =>
      obtain rfl := Option.some.inj h
      exact converging_write hs ho
    · cases h
  | removeEntry o =>
    simp only [step] at h
    split at h
    · next kind lock ho =>
      split at h
      · next hkind =>
        have hquiet := hs.quiet o
        rw [ho, hkind] at hquiet
        cases hquiet
      · cases h
    · cases h
  | removeLock o =>
    simp only [step] at h
    split at h
    · next lock ho =>
      have hquiet := hs.quiet o
      rw [ho] at hquiet
      cases hquiet
    · cases h
  | release o =>
    simp only [step] at h
    split at h
    · next lock ho =>
      obtain rfl := Option.some.inj h
      refine converging_setOp hs rfl ?_ (fun _ _ hy => nomatch hy) ?_
      all_goals
        rw [ho]
        exact fun hx => nomatch hx
    · cases h

end Steps

/-- A run in which a reload starts after the last invalidation has returned, and in which no
reload gets its lock between the read and the write of another operation, leaves the entry of
the table behind when all operations have finished. -/
theorem index_converges {db : List CronJob} {ls₁ ls₂ : List Label} {o : Nat}
    {jobs : List CronJob} {s₁ s₂ s : State} (hrun₁ : run step (init db) ls₁ = some s₁)
    (hreturned : ∀ p, (s₁.ops p).invalidates = false)
    (hcommit : step s₁ (.commit o jobs) = some s₂) (hrun₂ : run step s₂ ls₂ = some s)
    (hlast : ∀ p, Label.invalidate p ∉ ls₂)
    (hkeeps : Along step KeepsApart (init db) (ls₁ ++ .commit o jobs :: ls₂))
    (hdone : ∀ p, s.ops p = .idle ∨ s.ops p = .done) : s.index = applyJobs s.db := by
  have halong : Along step KeepsApart s₂ ls₂ := by
    have h := (hkeeps.of_append hrun₁).2
    rwa [hcommit] at h
  have hno : Along step (fun _ l => ∀ p, l ≠ .invalidate p) s₂ ls₂ := by
    refine Along.of_forall ?_ s₂
    rintro l hl _ p rfl
    exact hlast p hl
  have hs : Converging s :=
    (halong.and hno).invariant converging_step (converging_commit hreturned hcommit) hrun₂
  obtain hfresh | ⟨p, hp⟩ := hs.fresh
  · exact hfresh
  · -- nothing is pending any more
    obtain hidle | hdone := hdone p
    · rw [hidle] at hp
      exact hp.elim
    · rw [hdone] at hp
      exact hp.elim

/-! ### What the locks see to -/

/-- The lock object that the operation holds. -/
def Op.held : Op → Option Nat
  | .holding _ lock | .read lock _ | .removed lock | .unlocking lock => some lock
  | _ => none

/-- The lock object that it has looked up. -/
def Op.used : Op → Option Nat
  | .waiting _ lock => some lock
  | x => x.held

/-- All operations have the lock object in the map, and hold it one at a time. -/
structure Locked (s : State) : Prop where
  tracks : s.locks.Tracks (Op.held ∘ s.ops)
  single : s.locks.Single (Op.used ∘ s.ops)

section Locks

variable {s s' : State} {l : Label} {o : Nat} {x y : Op}

theorem locked_of_eq (hs : Locked s) {db : List CronJob} {index : Option (List IndexedJob)}
    (hheld : y.held = (s.ops o).held) (hused : y.used = (s.ops o).used) :
    Locked (setOp { s with db := db, index := index } o y) where
  tracks := by
    rw [setOp, comp_update_of_eq hheld]
    exact hs.tracks
  single := by
    rw [setOp, comp_update_of_eq hused]
    exact hs.single

/-- A step that does not remove the lock object keeps the operations under one lock. -/
theorem locked_step (hs : Locked s) (hl : ∀ o, l ≠ .removeLock o) (h : step s l = some s') :
    Locked s' := by
  cases l with
  | removeLock o => exact absurd rfl (hl o)
  | lookup o =>
    simp only [step] at h
    split at h
    · next kind ho =>
      obtain rfl := Option.some.inj h
      constructor
      · rw [setOp, comp_update_of_eq (f := Op.held) (by rw [ho]; rfl)]
        exact hs.tracks.lookup
      · rw [setOp, Function.comp_update]
        exact hs.single.lookup
    · cases h
  | acquire o =>
    simp only [step] at h
    split at h
    · next kind lock ho =>
      split at h
      · next locks hacquire =>
        obtain rfl := Option.some.inj h
        constructor
        · rw [setOp, Function.comp_update]
          exact hs.tracks.acquire (by rw [Function.comp_apply, ho]; rfl) hacquire
        · rw [setOp, comp_update_of_eq (f := Op.used) (by rw [ho]; rfl)]
          exact hs.single.acquire hacquire
      · cases h
    · cases h
  | release o =>
    simp only [step] at h
    split at h
    · next lock ho =>
      obtain rfl := Option.some.inj h
      have hheld : (Op.held ∘ s.ops) o = some lock := by
        rw [Function.comp_apply, ho]
        rfl
      constructor
      · rw [setOp, Function.comp_update, ← hheld]
        exact hs.tracks.release
      · rw [setOp, Function.comp_update]
        exact (hs.single.release (some lock)).forget
    · cases h
  | read o =>
    simp only [step] at h
    split at h
    · next kind lock ho =>
      split at h
      · cases h
      · obtain rfl := Option.some.inj h
        exact locked_of_eq hs (by rw [ho]; rfl) (by rw [ho]; rfl)
    · cases h
  | removeEntry o =>
    simp only [step] at h
    split at h
    · next kind lock ho =>
      split at h
      · obtain rfl := Option.some.inj h
        exact locked_of_eq hs (by rw [ho]; rfl) (by rw [ho]; rfl)
      · cases h
    · cases h
  | commit | bootScan | invalidate | write =>
    simp only [step] at h
    split at h
    · next ho =>
      obtain rfl := Option.some.inj h
      exact locked_of_eq hs (by rw [ho]; rfl) (by rw [ho]; rfl)
    · cases h

/-- Under one lock no reload gets it while another operation holds it. -/
theorem keepsApart_of_locked (hs : Locked s) (h : step s l = some s') : KeepsApart s l := by
  rintro o lock rfl ho q
  simp only [step, ho] at h
  split at h
  · next locks hacquire =>
    cases hq : s.ops q with
    | read lock' jobs =>
      have hheld : (Op.held ∘ s.ops) q = some lock' := by
        rw [Function.comp_apply, hq]
        rfl
      have hentry : s.locks.entry = some lock :=
        hs.single o lock (by rw [Function.comp_apply, ho]; rfl)
      have hentry' : s.locks.entry = some lock' :=
        hs.single q lock' (by rw [Function.comp_apply, hq]; rfl)
      obtain rfl := Option.some.inj (hentry.symm.trans hentry')
      have hholder : s.locks.holder lock = some q := (hs.tracks lock q).mpr hheld
      rw [LockSlot.acquire, hholder] at hacquire
      cases hacquire
    | _ => rfl
  · cases h

end Locks

/-- As long as no lock object is removed from the map, every run keeps the operations apart. -/
theorem keepsApart_of_lock {db : List CronJob} {ls : List Label} {s : State}
    (hrun : run step (init db) ls = some s) (hls : ∀ o, Label.removeLock o ∉ ls) :
    Along step KeepsApart (init db) ls := by
  have hinit : Locked (init db) := ⟨fun _ _ => ⟨nofun, nofun⟩, fun _ _ h => nomatch h⟩
  refine Along.of_invariant ?_ hinit hrun
  intro s l t hl hs ht
  refine ⟨keepsApart_of_locked hs ht, locked_step hs ?_ ht⟩
  rintro o rfl
  exact hls o hl

/-! ### Examples -/

def Label.op : Label → Nat
  | .commit o _ | .bootScan o | .invalidate o | .lookup o | .acquire o | .read o | .write o
  | .removeEntry o | .removeLock o | .release o => o

/-- A step leaves the other operations as they are. -/
theorem step_ops {s s' : State} {l : Label} (h : step s l = some s') {p : Nat} (hp : p ≠ l.op) :
    s'.ops p = s.ops p := by
  cases l
  all_goals
    simp only [step] at h
    repeat' split at h
    all_goals first
      | cases h; done
      | (obtain rfl := Option.some.inj h; exact setOp_of_ne _ hp _)

theorem run_ops {ls : List Label} {s' : State} {p : Nat} (hp : ∀ l ∈ ls, p ≠ l.op) :
    ∀ {s : State}, run step s ls = some s' → s'.ops p = s.ops p := by
  induction ls with
  | nil =>
    intro s hrun
    rw [Option.some.inj hrun]
  | cons l ls ih =>
    intro s hrun
    obtain ⟨t, ht, hrun⟩ := run_cons hrun
    rw [ih (fun l hl => hp l (List.mem_cons_of_mem _ hl)) hrun, step_ops ht (hp l List.mem_cons_self)]

def job (id : Int) (active : Bool) : CronJob where
  id := id
  name := "job"
  schedule := "* * * * *"
  targetKind := "rpc"
  targetName := "cleanup"
  payloadJson := none
  active := active

/-- The state after a run that is enabled. -/
def stateAfter (ls : List Label) : State :=
  (run step (init []) ls).getD (init [])

theorem run_stateAfter (ls : List Label) (h : (run step (init []) ls).isSome = true) :
    run step (init []) ls = some (stateAfter ls) := by
  obtain ⟨s, hs⟩ := Option.isSome_iff_exists.mp h
  rw [stateAfter, hs]
  rfl

theorem run_stateAfter_append (ls ls' : List Label)
    (h : (run step (init []) (ls ++ ls')).isSome = true) :
    run step (stateAfter ls) ls' = some (stateAfter (ls ++ ls')) := by
  have hrun := run_stateAfter _ h
  rw [run_append] at hrun
  obtain ⟨s, hs, hrun⟩ := Option.bind_eq_some_iff.mp hrun
  rwa [stateAfter, hs]

theorem step_stateAfter {ls : List Label} {l : Label}
    (h : (run step (init []) (ls ++ [l])).isSome = true) :
    step (stateAfter ls) l = some (stateAfter (ls ++ [l])) := by
  obtain ⟨t, ht, hrun⟩ := run_cons (run_stateAfter_append ls [l] h)
  rw [ht, ← Option.some.inj hrun]

/-- Operations that do not take part are idle. -/
theorem ops_idle {ls : List Label} (h : (run step (init []) ls).isSome = true)
    (hls : ∀ l ∈ ls, l.op < 3) {p : Nat} (hp : 3 ≤ p) : (stateAfter ls).ops p = .idle := by
  rw [run_ops (fun l hl => Nat.ne_of_gt (Nat.lt_of_lt_of_le (hls l hl) hp)) (run_stateAfter ls h)]
  rfl

theorem ops_done {ls : List Label} (h : (run step (init []) ls).isSome = true)
    (hls : ∀ l ∈ ls, l.op < 3) (hdone : ∀ p < 3, (stateAfter ls).ops p = .done) (p : Nat) :
    (stateAfter ls).ops p = .idle ∨ (stateAfter ls).ops p = .done := by
  obtain hp | hp := Nat.lt_or_ge p 3
  · exact .inr (hdone p hp)
  · exact .inl (ops_idle h hls hp)

theorem ops_returned {ls : List Label} (h : (run step (init []) ls).isSome = true)
    (hls : ∀ l ∈ ls, l.op < 3) (hreturned : ∀ p < 3, ((stateAfter ls).ops p).invalidates = false)
    (p : Nat) : ((stateAfter ls).ops p).invalidates = false := by
  obtain hp | hp := Nat.lt_or_ge p 3
  · exact hreturned p hp
  · rw [ops_idle h hls hp]
    rfl

/-- A reload looks up its lock before an invalidation, gets it after that and reads. -/
def olderRun : List Label :=
  [.commit 0 [job 1 true], .lookup 0, .invalidate 1, .lookup 1, .acquire 1, .removeEntry 1,
   .removeLock 1, .release 1, .acquire 0, .read 0]

def newerCommit : Label :=
  .commit 2 [job 1 true, job 2 true]

/-- The newer reload waits until the older one has written. -/
def apartRun : List Label :=
  [.write 0, .release 0, .lookup 2, .acquire 2, .read 2, .write 2, .release 2]

/-- The newer reload does not wait for the older one, whose lock is not its own. -/
def overlappingRun : List Label :=
  [.lookup 2, .acquire 2, .read 2, .write 2, .release 2, .write 0, .release 0]

/-- The condition on the operations that take part. -/
def keepsApart (s : State) : Label → Bool
  | .acquire o => (s.ops o).ahead == false || (List.range 3).all (fun q => !(s.ops q).hasRead)
  | _ => true

theorem keepsApart_of_participants {ls : List Label} {s : State} (hls : ∀ l ∈ ls, l.op < 3)
    (hrun : run step (init []) ls = some s)
    (hkeeps : Along step (fun s l => keepsApart s l = true) (init []) ls) :
    Along step KeepsApart (init []) ls := by
  have hidle : Along step (fun s _ => ∀ p, 3 ≤ p → s.ops p = .idle) (init []) ls := by
    let Bystanders : State → Prop := fun s => ∀ p, 3 ≤ p → s.ops p = .idle
    have hinit : Bystanders (init []) := fun _ _ => rfl
    refine Along.of_invariant ?_ hinit hrun
    intro s l t hl hs ht
    refine ⟨hs, fun p hp => ?_⟩
    rw [step_ops ht (Nat.ne_of_gt (Nat.lt_of_lt_of_le (hls l hl) hp))]
    exact hs p hp
  refine Along.imp ?_ (hkeeps.and hidle)
  rintro s l ⟨hkeeps, hidle⟩ o lock rfl ho q
  obtain hq | hq := Nat.lt_or_ge q 3
  · simp only [keepsApart, ho, Op.ahead, Bool.or_eq_true, List.all_eq_true, List.mem_range,
      Bool.not_eq_true'] at hkeeps
    exact (hkeeps.resolve_left (by decide)) q hq
  · rw [hidle q hq]
    rfl

theorem index_converges_apart :
    (stateAfter (olderRun ++ [newerCommit] ++ apartRun)).index
      = applyJobs (stateAfter (olderRun ++ [newerCommit] ++ apartRun)).db :=
  index_converges (run_stateAfter olderRun (by decide))
    (ops_returned (by decide) (by decide) (by decide)) (step_stateAfter (by decide))
    (run_stateAfter_append (olderRun ++ [newerCommit]) apartRun (by decide))
    (by simp [apartRun])
    (keepsApart_of_participants (by decide)
      (run_stateAfter (olderRun ++ newerCommit :: apartRun) (by decide)) (by decide))
    (ops_done (by decide) (by decide) (by decide))

/-- The older list is written last, and stays. -/
theorem converges_fails : ∃ s₁ s₂ s, run step (init []) olderRun = some s₁ ∧
    (∀ p, (s₁.ops p).invalidates = false) ∧ step s₁ newerCommit = some s₂ ∧
    run step s₂ overlappingRun = some s ∧ (∀ p, Label.invalidate p ∉ overlappingRun) ∧
    (∀ p, s.ops p = .idle ∨ s.ops p = .done) ∧ s.index ≠ applyJobs s.db :=
  ⟨_, _, _, run_stateAfter olderRun (by decide), ops_returned (by decide) (by decide) (by decide),
    step_stateAfter (by decide),
    run_stateAfter_append (olderRun ++ [newerCommit]) overlappingRun (by decide),
    by simp [overlappingRun], ops_done (by decide) (by decide) (by decide), by decide⟩

end Index

end Cron

end Drust
