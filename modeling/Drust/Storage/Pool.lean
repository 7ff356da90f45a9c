import Mathlib.Data.List.Basic
import Mathlib.Logic.Function.Basic
import Mathlib.Order.Nat
import Drust.Lib.Transition

/-!
# The registry of tenant pools

A pool holds a tenant's writer behind a mutex, its readers and its schema cache, so what is
serialised by the writer or invalidated in the cache is so for those who share the pool. The
registry hands pools out: it looks the tenant up, and on a miss opens the database and
inserts the pool. `get_if_live` does the same without creating anything. `evict` removes the
entry, when the tenant is deleted.

The model is the entry of one tenant with any number of calls. A lookup, the probe for the
file, the opening and the insert are separate steps; a call hands its pool out with the hit
or with the insert. Evictions are counted: `Pool.openedIn` is the count when the pool was
opened, a call remembers the count when it started, and `State.handed` lists the handles with
the count at which they were handed out. These are history, which no step of the code reads.
-/

namespace Drust

namespace TenantRegistry

/-- A pool object. Two of them have two writers and two schema caches. -/
structure Pool where
  id : Nat
  openedIn : Nat
  deriving DecidableEq

inductive Kind where
  | getOrCreate
  | getIfLive
  deriving DecidableEq, Repr

/-- A call; `started` is the number of evictions before it. -/
inductive Call where
  | idle
  | missed (kind : Kind) (started : Nat)
  /-- The file was there. -/
  | probed (started : Nat)
  | opened (pool : Pool) (started : Nat)
  | returned (pool : Option Pool) (started : Nat)
  deriving DecidableEq

structure State where
  slot : Option Pool
  /-- The tenant's database file exists. -/
  present : Bool
  evictions : Nat
  nextId : Nat
  calls : Nat → Call
  handed : List (Nat × Pool)

inductive Label where
  | lookup (c : Nat) (kind : Kind)
  | probe (c : Nat)
  | openDb (c : Nat)
  /-- The opening fails. -/
  | openFails (c : Nat)
  | insert (c : Nat)
  | evict
  /-- The deletion of a tenant moves its directory away. -/
  | moveToTrash

def init (present : Bool) : State where
  slot := none
  present := present
  evictions := 0
  nextId := 0
  calls := fun _ => .idle
  handed := []

def setCall (s : State) (c : Nat) (x : Call) : State :=
  { s with calls := Function.update s.calls c x }

/-- Hand a pool out. -/
def handOut (s : State) (c : Nat) (pool : Pool) (started : Nat) : State :=
  { s with
    calls := Function.update s.calls c (.returned (some pool) started)
    handed := (s.evictions, pool) :: s.handed }

def lookup (s : State) (c : Nat) (kind : Kind) : State :=
  match s.slot with
  | some pool => handOut s c pool s.evictions
  | none => setCall s c (.missed kind s.evictions)

/-- The probe of `get_if_live`. -/
def probe (s : State) (c : Nat) (started : Nat) : State :=
  if s.present then setCall s c (.probed started) else setCall s c (.returned none started)

/-- Open the database; only `get_or_create` makes one. -/
def openDb (s : State) (c : Nat) (started : Nat) : State :=
  { s with
    present := true
    nextId := s.nextId + 1
    calls := Function.update s.calls c
      (.opened { id := s.nextId, openedIn := s.evictions } started) }

def insert (s : State) (c : Nat) (pool : Pool) (started : Nat) : State :=
  handOut { s with slot := some pool } c pool started

def evict (s : State) : State :=
  { s with slot := none, evictions := s.evictions + 1 }

def step (s : State) : Label → Option State
  | .lookup c kind =>
    match s.calls c with
    | .idle => some (lookup s c kind)
    | _ => none
  | .probe c =>
    match s.calls c with
    | .missed .getIfLive started => some (probe s c started)
    | _ => none
  | .openDb c =>
    match s.calls c with
    | .missed .getOrCreate started => some (openDb s c started)
    | .probed started => if s.present then some (openDb s c started) else none
    | _ => none
  | .openFails c =>
    match s.calls c with
    | .missed .getOrCreate started => some (setCall s c (.returned none started))
    | .probed started => some (setCall s c (.returned none started))
    | _ => none
  | .insert c =>
    match s.calls c with
    | .opened pool started => some (insert s c pool started)
    | _ => none
  | .evict => some (evict s)
  | .moveToTrash => some { s with present := false }

/-! ### The invariant -/

/-- What a call may hold: nothing opened before it started, or before its pool was. -/
def CallInv (s : State) : Call → Prop
  | .idle => True
  | .missed _ started => started ≤ s.evictions
  | .probed started => started ≤ s.evictions
  | .opened pool started => started ≤ pool.openedIn
  | .returned (some pool) started => started ≤ pool.openedIn
  | .returned none _ => True

/-- The invariant of the entry: its pool was opened since the last eviction, and is the one
that was handed out since then. -/
structure Inv (s : State) : Prop where
  slot : ∀ pool, s.slot = some pool → pool.openedIn = s.evictions
  past : ∀ h ∈ s.handed, h.1 ≤ s.evictions
  present : ∀ h ∈ s.handed, h.1 = s.evictions → s.slot = some h.2
  unique : ∀ h ∈ s.handed, ∀ h' ∈ s.handed, h.1 = h'.1 → h.2 = h'.2
  call : ∀ c, CallInv s (s.calls c)

/-- Nobody inserted since the call looked the tenant up, and nobody evicted since it opened
the database. -/
def StillAlone (slot : Option Pool) (evictions : Nat) : Call → Prop
  | .opened pool _ => slot = none ∧ pool.openedIn = evictions
  | _ => True

instance (slot : Option Pool) (evictions : Nat) : DecidablePred (StillAlone slot evictions)
  | .opened pool _ => inferInstanceAs (Decidable (slot = none ∧ pool.openedIn = evictions))
  | .idle | .missed _ _ | .probed _ | .returned _ _ => inferInstanceAs (Decidable True)

/-- The inserts that would be safe. Nothing in the code sees to it. -/
def InsertsAlone (s : State) : Label → Prop
  | .insert c => StillAlone s.slot s.evictions (s.calls c)
  | _ => True

instance (s : State) : ∀ l, Decidable (InsertsAlone s l)
  | .insert c => inferInstanceAs (Decidable (StillAlone s.slot s.evictions (s.calls c)))
  | .lookup _ _ | .probe _ | .openDb _ | .openFails _ | .evict | .moveToTrash =>
    inferInstanceAs (Decidable True)

variable {s s' : State}

theorem CallInv.mono {x : Call} (hx : CallInv s x) (h : s.evictions ≤ s'.evictions) :
    CallInv s' x := by
  cases x with
  | idle => trivial
  | missed kind started => exact le_trans hx h
  | probed started => exact le_trans hx h
  | opened pool started => exact hx
  | returned pool started =>
    cases pool with
    | none => trivial
    | some pool => exact hx

/-- A step of one call that hands nothing out. -/
theorem Inv.setCall (hinv : Inv s) {c : Nat} {x : Call} (hx : CallInv s x) :
    Inv (setCall s c x) where
  slot := hinv.slot
  past := hinv.past
  present := hinv.present
  unique := hinv.unique
  call := (Function.forall_update_iff s.calls fun _ x => CallInv s x).mpr
    ⟨hx, fun c' _ => hinv.call c'⟩

/-- A pool may be handed out that is in the entry, unless another one was. -/
theorem Inv.handOut (hinv : Inv s) {c : Nat} {pool : Pool} {started : Nat}
    (hslot : s.slot = some pool) (hstarted : started ≤ s.evictions) :
    Inv (handOut s c pool started) where
  slot := hinv.slot
  past := by
    intro h hh
    obtain rfl | hh := List.mem_cons.mp hh
    · exact le_rfl
    · exact hinv.past h hh
  present := by
    intro h hh heq
    obtain rfl | hh := List.mem_cons.mp hh
    · exact hslot
    · exact hinv.present h hh heq
  unique := by
    -- a handle of this period is the pool in the entry
    have hnow : ∀ h ∈ (s.evictions, pool) :: s.handed, h.1 = s.evictions → h.2 = pool := by
      intro h hh heq
      obtain rfl | hh := List.mem_cons.mp hh
      · rfl
      · exact Option.some.inj ((hinv.present h hh heq).symm.trans hslot)
    intro h hh h' hh' heq
    by_cases hperiod : h.1 = s.evictions
    · rw [hnow h hh hperiod, hnow h' hh' (heq.symm.trans hperiod)]
    · obtain rfl | hold := List.mem_cons.mp hh
      · exact absurd rfl hperiod
      · obtain rfl | hold' := List.mem_cons.mp hh'
        · exact absurd heq hperiod
        · exact hinv.unique h hold h' hold' heq
  call := by
    refine (Function.forall_update_iff s.calls fun _ x => CallInv s x).mpr
      ⟨?_, fun c' _ => hinv.call c'⟩
    show started ≤ pool.openedIn
    rw [hinv.slot pool hslot]
    exact hstarted

theorem inv_lookup (hinv : Inv s) (c : Nat) (kind : Kind) : Inv (lookup s c kind) := by
  unfold lookup
  split
  · next pool hslot => exact hinv.handOut hslot le_rfl
  · exact hinv.setCall le_rfl

theorem inv_probe (hinv : Inv s) {c started : Nat} (hstarted : started ≤ s.evictions) :
    Inv (probe s c started) := by
  unfold probe
  split
  · exact hinv.setCall hstarted
  · exact hinv.setCall trivial

theorem inv_openDb (hinv : Inv s) {c started : Nat} (hstarted : started ≤ s.evictions) :
    Inv (openDb s c started) where
  slot := hinv.slot
  past := hinv.past
  present := hinv.present
  unique := hinv.unique
  call := (Function.forall_update_iff s.calls fun _ x => CallInv s x).mpr
    ⟨hstarted, fun c' _ => hinv.call c'⟩

/-- An insert into an entry that is empty, of a pool opened since the last eviction. -/
theorem inv_insert (hinv : Inv s) {c : Nat} {pool : Pool} {started : Nat}
    (hc : s.calls c = .opened pool started) (hempty : s.slot = none)
    (hopened : pool.openedIn = s.evictions) : Inv (insert s c pool started) := by
  have hx := hinv.call c
  rw [hc] at hx
  have hset : Inv { s with slot := some pool } := by
    refine ⟨?_, hinv.past, ?_, hinv.unique, hinv.call⟩
    · intro pool' hpool'
      rw [← Option.some.inj hpool']
      exact hopened
    · -- nothing was handed out in this period, the entry being empty
      intro h hh heq
      have hsome := hinv.present h hh heq
      rw [hempty] at hsome
      cases hsome
  exact hset.handOut rfl (hopened ▸ hx)

theorem inv_evict (hinv : Inv s) : Inv (evict s) where
  slot := by
    intro pool hpool
    cases hpool
  past := fun h hh => (hinv.past h hh).trans (Nat.le_succ _)
  present := by
    intro h hh heq
    have hle := hinv.past h hh
    rw [heq] at hle
    exact absurd hle (Nat.not_succ_le_self _)
  unique := hinv.unique
  call := fun c => (hinv.call c).mono (Nat.le_succ _)

theorem inv_step (hinv : Inv s) {l : Label} (halone : InsertsAlone s l)
    (h : step s l = some s') : Inv s' := by
  cases l with
  | lookup c kind =>
    simp only [step] at h
    split at h
    · rw [← Option.some.inj h]
      exact inv_lookup hinv c kind
    · cases h
  | probe c =>
    have hx := hinv.call c
    simp only [step] at h
    split at h
    · next started hc =>
      rw [hc] at hx
      rw [← Option.some.inj h]
      exact inv_probe hinv hx
    · cases h
  | openDb c =>
    have hx := hinv.call c
    simp only [step] at h
    split at h
    · next started hc =>
      rw [hc] at hx
      rw [← Option.some.inj h]
      exact inv_openDb hinv hx
    · next started hc =>
      rw [hc] at hx
      split at h
      · rw [← Option.some.inj h]
        exact inv_openDb hinv hx
      · cases h
    · cases h
  | openFails c =>
    simp only [step] at h
    split at h
    · rw [← Option.some.inj h]
      exact hinv.setCall trivial
    · rw [← Option.some.inj h]
      exact hinv.setCall trivial
    · cases h
  | insert c =>
    simp only [step] at h
    split at h
    · next pool started hc =>
      simp only [InsertsAlone, hc] at halone
      rw [← Option.some.inj h]
      exact inv_insert hinv hc halone.1 halone.2
    · cases h
  | evict =>
    rw [← Option.some.inj h]
    exact inv_evict hinv
  | moveToTrash =>
    rw [← Option.some.inj h]
    exact ⟨hinv.slot, hinv.past, hinv.present, hinv.unique, fun c => (hinv.call c).mono le_rfl⟩

theorem inv_init (present : Bool) : Inv (init present) where
  slot := by simp [init]
  past := by simp [init]
  present := by simp [init]
  unique := by simp [init]
  call := fun _ => trivial

/-- In every run in which a call inserts only while the entry is empty and no eviction has
passed since it opened the database: the handles of one period between evictions are one
pool, and no call returns a pool that was opened before an eviction that it started after. -/
theorem registry_onePool {present : Bool} {ls : List Label} {s : State}
    (halone : Transition.Along step InsertsAlone (init present) ls)
    (hrun : Transition.run step (init present) ls = some s) :
    (∀ n p p', (n, p) ∈ s.handed → (n, p') ∈ s.handed → p = p') ∧
      ∀ c p started, s.calls c = .returned (some p) started → started ≤ p.openedIn := by
  have hinv : Inv s :=
    halone.invariant (fun hs hC hstep => inv_step hs hC hstep) (inv_init present) hrun
  refine ⟨fun n p p' hp hp' => hinv.unique _ hp _ hp' rfl, ?_⟩
  intro c p started hc
  have hx := hinv.call c
  rw [hc] at hx
  exact hx

/-! ### Two calls that miss together -/

/-- Two first requests of a tenant both miss, both open, and both insert. -/
def bothMiss : List Label :=
  [.lookup 0 .getOrCreate, .lookup 1 .getOrCreate, .openDb 0, .openDb 1, .insert 0, .insert 1]

/-- A call that opened before an eviction inserts after it, and a later call is handed its
pool. -/
def lateInsert : List Label :=
  [.lookup 0 .getIfLive, .probe 0, .openDb 0, .evict, .insert 0, .lookup 1 .getOrCreate]

/-- Neither half holds of every run: the two requests get two pools, and so two writers; and
the call that starts after the eviction gets a pool from before it. -/
theorem registry_two_pools :
    (∃ s p p', Transition.run step (init true) bothMiss = some s ∧ (0, p) ∈ s.handed ∧
      (0, p') ∈ s.handed ∧ p ≠ p') ∧
    ∃ s p, Transition.run step (init true) lateInsert = some s ∧
      s.calls 1 = .returned (some p) 1 ∧ p.openedIn = 0 :=
  ⟨⟨_, ⟨1, 0⟩, ⟨0, 0⟩, rfl, by decide, by decide, by decide⟩, ⟨_, ⟨0, 0⟩, rfl, rfl, rfl⟩⟩

/-- The same calls one after the other, around an eviction. -/
def inTurn : List Label :=
  [.lookup 0 .getOrCreate, .openDb 0, .insert 0, .lookup 1 .getOrCreate, .evict,
    .lookup 2 .getIfLive, .probe 2, .openDb 2, .insert 2]

theorem registry_onePool_inTurn :
    ∃ s p p', Transition.run step (init true) inTurn = some s ∧
      s.calls 0 = .returned (some p) 0 ∧ s.calls 1 = .returned (some p) 0 ∧
      s.calls 2 = .returned (some p') 1 ∧ 1 ≤ p'.openedIn := by
  have halone : Transition.Along step InsertsAlone (init true) inTurn := by decide
  refine ⟨_, ⟨0, 0⟩, ⟨1, 1⟩, rfl, rfl, rfl, rfl, ?_⟩
  exact (@registry_onePool true inTurn _ halone rfl).2 2 ⟨1, 1⟩ 1 rfl

end TenantRegistry

end Drust
