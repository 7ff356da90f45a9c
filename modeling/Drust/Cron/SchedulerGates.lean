import Drust.Cron.Scheduler
import Drust.Lib.Holders

/-!
# The gates of the cron scheduler

What a task has got is read off its own state: its marker, the mutex of its tenant, a permit.
The tables of the process agree with it in every reachable state (`Held`), whichever way the
tasks leave: a marker is set exactly as long as one task has it, the mutexes have one holder
each, and no more permits are out than there are.
-/

namespace Drust

namespace Cron

namespace Scheduler

open Transition Holders
open LockSlot (comp_update_of_eq)

/-! ### What a task has got -/

/-- The marker of the task: from the overlap gate until it is dropped. -/
def Task.key : Task → Option (String × Int)
  | .marked fire | .queued fire _ | .locked fire _ | .permitted fire _ | .dispatching fire _ _
  | .recording fire _ _ _ | .dropPermit fire _ | .dropLock fire _ | .dropMarker fire =>
    some fire.key
  | _ => none

/-- The task is between the permit acquire and the end of its run. -/
def Task.permit : Task → Bool
  | .permitted _ _ | .dispatching _ _ _ | .recording _ _ _ _ | .dropPermit _ _ => true
  | _ => false

def Task.dispatches : Task → Bool
  | .dispatching _ _ _ => true
  | _ => false

/-- The tenant and the mutex that the task holds. -/
def Task.lock : Task → Option (String × Nat)
  | .locked fire gate | .permitted fire gate | .dispatching fire gate _
  | .recording fire gate _ _ | .dropPermit fire gate | .dropLock fire gate =>
    some (fire.tenant, gate)
  | _ => none

/-- The tenant and the mutex that the task has looked up. -/
def Task.gate : Task → Option (String × Nat)
  | .queued fire gate => some (fire.tenant, gate)
  | x => x.lock

/-- The object of one tenant. -/
def ofTenant (tenant : String) : Option (String × Nat) → Option Nat
  | some (t, gate) => if t = tenant then some gate else none
  | none => none

@[simp] theorem ofTenant_self (tenant : String) (gate : Nat) :
    ofTenant tenant (some (tenant, gate)) = some gate :=
  if_pos rfl

theorem ofTenant_of_ne {tenant t : String} (h : t ≠ tenant) (gate : Nat) :
    ofTenant tenant (some (t, gate)) = none :=
  if_neg h

/-- Both tasks have got the same. -/
structure Task.Same (x y : Task) : Prop where
  key : y.key = x.key
  permit : y.permit = x.permit
  lock : y.lock = x.lock
  gate : y.gate = x.gate

/-- The tables of the gates. -/
structure Tables where
  inFlight : String × Int → Bool
  tenantGate : String → LockSlot Nat
  permits : Nat

def State.tables (s : State) : Tables where
  inFlight := s.inFlight
  tenantGate := s.tenantGate
  permits := s.permits

def Tables.setGate (tb : Tables) (tenant : String) (k : LockSlot Nat) : Tables :=
  { tb with tenantGate := Function.update tb.tenantGate tenant k }

theorem Tables.setGate_self (tb : Tables) (tenant : String) (k : LockSlot Nat) :
    (tb.setGate tenant k).tenantGate tenant = k :=
  Function.update_self ..

theorem Tables.setGate_of_ne (tb : Tables) {tenant t : String} (h : t ≠ tenant)
    (k : LockSlot Nat) : (tb.setGate tenant k).tenantGate t = tb.tenantGate t :=
  Function.update_of_ne h ..

/-- What a step of a task does to the tables. -/
inductive TaskStep (p : Nat) (tb : Tables) : Task → Tables → Task → Prop
  | plain {x y : Task} (h : x.Same y) : TaskStep p tb x tb y
  | forget (fire : Fire) (gate : Nat) :
      TaskStep p tb (.queued fire gate) tb (.dropMarker fire)
  | mark {fire : Fire} (hfree : tb.inFlight fire.key = false) :
      TaskStep p tb (.opened fire)
        { tb with inFlight := Function.update tb.inFlight fire.key true } (.marked fire)
  | lookup (fire : Fire) :
      TaskStep p tb (.marked fire)
        (tb.setGate fire.tenant (tb.tenantGate fire.tenant).lookup.2)
        (.queued fire (tb.tenantGate fire.tenant).lookup.1)
  | lock {fire : Fire} {gate : Nat} {k : LockSlot Nat}
      (h : (tb.tenantGate fire.tenant).acquire gate p = some k) :
      TaskStep p tb (.queued fire gate)
        (tb.setGate fire.tenant k) (.locked fire gate)
  | acquire {fire : Fire} {gate n : Nat} (h : tb.permits = n + 1) :
      TaskStep p tb (.locked fire gate) { tb with permits := n } (.permitted fire gate)
  | dropPermit (fire : Fire) (gate : Nat) :
      TaskStep p tb (.dropPermit fire gate) { tb with permits := tb.permits + 1 }
        (.dropLock fire gate)
  | dropLock (fire : Fire) (gate : Nat) :
      TaskStep p tb (.dropLock fire gate)
        (tb.setGate fire.tenant ((tb.tenantGate fire.tenant).release (some gate)))
        (.dropMarker fire)
  | unmark (fire : Fire) :
      TaskStep p tb (.dropMarker fire)
        { tb with inFlight := Function.update tb.inFlight fire.key false } .finished

section Steps

variable {cfg : CronConfig} {isDue : String → Int → Bool} {s s' : State} {l : Label}

/-- A step that gets a task to its dispatch is the read of a row that may be dispatched. -/
def Rereads (s : State) (l : Label) (p : Nat) (y : Task) : Prop :=
  ∀ fire gate fresh, y = .dispatching fire gate fresh →
    l = .reread p true ∧ s.tasks p = .permitted fire gate ∧
      reassert fire (s.jobs fire.tenant) = some fresh

theorem rereads_of_not {p : Nat} {y : Task} (h : y.dispatches = false) : Rereads s l p y := by
  intro fire gate fresh hy
  rw [hy] at h
  cases h

theorem step_tables (h : step cfg isDue s l = some s') :
    (s'.tables = s.tables ∧ s'.tasks = s.tasks) ∨
    ∃ p y, s'.tasks = Function.update s.tasks p y ∧
      TaskStep p s.tables (s.tasks p) s'.tables y ∧ Rereads s l p y := by
  cases l with
  | readClock now =>
    simp only [step] at h
    split at h
    · split at h
      · cases h
      · obtain rfl := Option.some.inj h
        exact .inl ⟨rfl, rfl⟩
    · cases h
  | wake snapshot =>
    simp only [step] at h
    split at h
    · split at h
      all_goals
        obtain rfl := Option.some.inj h
        exact .inl ⟨rfl, rfl⟩
    · cases h
  | spawn p =>
    simp only [step] at h
    split at h
    · next hp =>
      obtain rfl := Option.some.inj h
      exact .inr ⟨p, _, rfl, hp ▸ .plain ⟨rfl, rfl, rfl, rfl⟩, rereads_of_not rfl⟩
    · cases h
  | endTick =>
    simp only [step] at h
    split at h
    · obtain rfl := Option.some.inj h
      exact .inl ⟨rfl, rfl⟩
    · cases h
  | edit tenant jobs =>
    obtain rfl := Option.some.inj h
    exact .inl ⟨rfl, rfl⟩
  | start p live =>
    simp only [step] at h
    split at h
    · next fire hp =>
      obtain rfl := Option.some.inj h
      cases live
      all_goals exact .inr ⟨p, _, rfl, hp ▸ .plain ⟨rfl, rfl, rfl, rfl⟩, rereads_of_not rfl⟩
    · cases h
  | overlapGate p =>
    simp only [step] at h
    split at h
    · next fire hp =>
      split at h
      · obtain rfl := Option.some.inj h
        exact .inr ⟨p, _, rfl, hp ▸ .plain ⟨rfl, rfl, rfl, rfl⟩, rereads_of_not rfl⟩
      · next hfree =>
        obtain rfl := Option.some.inj h
        exact .inr ⟨p, _, rfl, hp ▸ .mark (Bool.eq_false_iff.mpr hfree), rereads_of_not rfl⟩
    · cases h
  | recordSkip p ok =>
    simp only [step] at h
    split at h
    · next fire hp =>
      obtain rfl := Option.some.inj h
      exact .inr ⟨p, _, rfl, hp ▸ .plain ⟨rfl, rfl, rfl, rfl⟩, rereads_of_not rfl⟩
    · cases h
  | lookupGate p =>
    simp only [step] at h
    split at h
    · next fire hp =>
      obtain rfl := Option.some.inj h
      exact .inr ⟨p, _, rfl, hp ▸ .lookup fire, rereads_of_not rfl⟩
    · cases h
  | lock p =>
    simp only [step] at h
    split at h
    · next fire gate hp =>
      split at h
      · next k hk =>
        obtain rfl := Option.some.inj h
        exact .inr ⟨p, _, rfl, hp ▸ .lock hk, rereads_of_not rfl⟩
      · cases h
    · cases h
  | acquire p =>
    simp only [step] at h
    split at h
    · next fire gate n hp hn =>
      obtain rfl := Option.some.inj h
      exact .inr ⟨p, _, rfl, hp ▸ .acquire hn, rereads_of_not rfl⟩
    · cases h
  | reread p ok =>
    simp only [step] at h
    split at h
    · next fire gate hp =>
      split at h
      · next fresh hfresh =>
        obtain rfl := Option.some.inj h
        refine .inr ⟨p, _, rfl, hp ▸ .plain ⟨rfl, rfl, rfl, rfl⟩, ?_⟩
        intro fire' gate' fresh' hy
        obtain ⟨rfl, rfl, rfl⟩ := Task.dispatching.inj hy
        cases ok with
        | true => exact ⟨rfl, hp, hfresh⟩
        | false => cases hfresh
      · obtain rfl := Option.some.inj h
        exact .inr ⟨p, _, rfl, hp ▸ .plain ⟨rfl, rfl, rfl, rfl⟩, rereads_of_not rfl⟩
    · cases h
  | dispatch p outcome =>
    simp only [step] at h
    split at h
    · next fire gate fresh hp =>
      obtain rfl := Option.some.inj h
      exact .inr ⟨p, _, rfl, hp ▸ .plain ⟨rfl, rfl, rfl, rfl⟩, rereads_of_not rfl⟩
    · cases h
  | record p ok =>
    simp only [step] at h
    split at h
    · next fire gate status error hp =>
      obtain rfl := Option.some.inj h
      exact .inr ⟨p, _, rfl, hp ▸ .plain ⟨rfl, rfl, rfl, rfl⟩, rereads_of_not rfl⟩
    · cases h
  | abandon p =>
    simp only [step] at h
    split at h
    case h_5 fire gate hp =>
      -- a task that waits for the mutex lets its handle go
      obtain rfl := Option.some.inj h
      exact .inr ⟨p, _, rfl, hp ▸ .forget fire gate, rereads_of_not rfl⟩
    case h_10 => cases h
    all_goals
      next hp =>
      obtain rfl := Option.some.inj h
      exact .inr ⟨p, _, rfl, hp ▸ .plain ⟨rfl, rfl, rfl, rfl⟩, rereads_of_not rfl⟩
  | drop p =>
    simp only [step] at h
    split at h
    · next fire gate hp =>
      obtain rfl := Option.some.inj h
      exact .inr ⟨p, _, rfl, hp ▸ .dropPermit fire gate, rereads_of_not rfl⟩
    · next fire gate hp =>
      obtain rfl := Option.some.inj h
      exact .inr ⟨p, _, rfl, hp ▸ .dropLock fire gate, rereads_of_not rfl⟩
    · next fire hp =>
      obtain rfl := Option.some.inj h
      exact .inr ⟨p, _, rfl, hp ▸ .unmark fire, rereads_of_not rfl⟩
    · cases h

end Steps

/-! ### The tables agree with the tasks -/

structure Held (cfg : CronConfig) (tb : Tables) (tasks : Nat → Task) : Prop where
  marked : Marked tb.inFlight (Task.key ∘ tasks)
  counted : Counted tb.permits cfg.concurrency (Task.permit ∘ tasks)
  tracks : ∀ t, (tb.tenantGate t).Tracks (ofTenant t ∘ Task.lock ∘ tasks)
  single : ∀ t, (tb.tenantGate t).Single (ofTenant t ∘ Task.gate ∘ tasks)

section Held

variable {cfg : CronConfig} {tb tb' : Tables} {tasks : Nat → Task} {p : Nat} {x y : Task}

theorem marked_step (hs : Marked tb.inFlight (Task.key ∘ tasks)) (hx : tasks p = x)
    (h : TaskStep p tb x tb' y) :
    Marked tb'.inFlight (Task.key ∘ Function.update tasks p y) := by
  have hkey : (Task.key ∘ tasks) p = x.key := congrArg Task.key hx
  cases h with
  | plain hsame => rwa [comp_update_of_eq (hx ▸ hsame.key)]
  | mark hfree =>
    rw [Function.comp_update]
    exact hs.take hfree hkey
  | unmark fire =>
    rw [Function.comp_update]
    exact hs.drop hkey
  | _ =>
    rw [comp_update_of_eq (by rw [hx]; rfl)]
    exact hs

theorem counted_step (hs : Counted tb.permits cfg.concurrency (Task.permit ∘ tasks))
    (hx : tasks p = x) (h : TaskStep p tb x tb' y) :
    Counted tb'.permits cfg.concurrency (Task.permit ∘ Function.update tasks p y) := by
  have hpermit : (Task.permit ∘ tasks) p = x.permit := congrArg Task.permit hx
  cases h with
  | plain hsame => rwa [comp_update_of_eq (hx ▸ hsame.permit)]
  | acquire hn =>
    rw [Function.comp_update]
    rw [hn] at hs
    exact hs.acquire hpermit
  | dropPermit fire gate =>
    rw [Function.comp_update]
    exact hs.release hpermit
  | _ =>
    rw [comp_update_of_eq (by rw [hx]; rfl)]
    exact hs

theorem tracks_step (hs : ∀ t, (tb.tenantGate t).Tracks (ofTenant t ∘ Task.lock ∘ tasks))
    (hx : tasks p = x) (h : TaskStep p tb x tb' y) (t : String) :
    (tb'.tenantGate t).Tracks (ofTenant t ∘ Task.lock ∘ Function.update tasks p y) := by
  have hlock : (ofTenant t ∘ Task.lock ∘ tasks) p = ofTenant t x.lock :=
    congrArg (ofTenant t ∘ Task.lock) hx
  cases h with
  | plain hsame =>
    rw [comp_update_of_eq (f := Task.lock) (hx ▸ hsame.lock)]
    exact hs t
  | lookup fire =>
    rw [comp_update_of_eq (f := Task.lock) (by rw [hx]; rfl)]
    obtain rfl | ht := eq_or_ne t fire.tenant
    · rw [Tables.setGate_self]
      exact (hs fire.tenant).lookup
    · rw [Tables.setGate_of_ne _ ht]
      exact hs t
  | @lock fire gate k hk =>
    rw [Function.comp_update, Function.comp_update]
    obtain rfl | ht := eq_or_ne t fire.tenant
    · rw [Tables.setGate_self]
      rw [show Task.lock (.locked fire gate) = some (fire.tenant, gate) from rfl, ofTenant_self]
      exact (hs fire.tenant).acquire hlock hk
    · -- the mutex of another tenant
      rw [Tables.setGate_of_ne _ ht,
        show ofTenant t (Task.lock (.locked fire gate)) = ofTenant t (Task.lock (.queued fire gate))
          from ofTenant_of_ne ht.symm gate, ← hlock, Function.update_eq_self]
      exact hs t
  | dropLock fire gate =>
    rw [Function.comp_update, Function.comp_update]
    obtain rfl | ht := eq_or_ne t fire.tenant
    · have hheld : (ofTenant fire.tenant ∘ Task.lock ∘ tasks) p = some gate :=
        hlock.trans (ofTenant_self fire.tenant gate)
      rw [Tables.setGate_self, ← hheld]
      exact (hs fire.tenant).release
    · have hheld : (ofTenant t ∘ Task.lock ∘ tasks) p = none :=
        hlock.trans (ofTenant_of_ne ht.symm gate)
      rw [Tables.setGate_of_ne _ ht,
        show ofTenant t (Task.lock (.dropMarker fire)) = none from rfl, ← hheld,
        Function.update_eq_self]
      exact hs t
  | _ =>
    rw [comp_update_of_eq (f := Task.lock) (by rw [hx]; rfl)]
    exact hs t

theorem single_step (hs : ∀ t, (tb.tenantGate t).Single (ofTenant t ∘ Task.gate ∘ tasks))
    (hx : tasks p = x) (h : TaskStep p tb x tb' y) (t : String) :
    (tb'.tenantGate t).Single (ofTenant t ∘ Task.gate ∘ Function.update tasks p y) := by
  have hgate : (ofTenant t ∘ Task.gate ∘ tasks) p = ofTenant t x.gate :=
    congrArg (ofTenant t ∘ Task.gate) hx
  cases h with
  | plain hsame =>
    rw [comp_update_of_eq (f := Task.gate) (hx ▸ hsame.gate)]
    exact hs t
  | forget fire gate =>
    rw [Function.comp_update, Function.comp_update]
    exact (hs t).forget
  | lookup fire =>
    rw [Function.comp_update, Function.comp_update]
    obtain rfl | ht := eq_or_ne t fire.tenant
    · rw [Tables.setGate_self]
      rw [show Task.gate (.queued fire (tb.tenantGate fire.tenant).lookup.1)
        = some (fire.tenant, (tb.tenantGate fire.tenant).lookup.1) from rfl, ofTenant_self]
      exact (hs fire.tenant).lookup
    · rw [Tables.setGate_of_ne _ ht,
        show ofTenant t (Task.gate (.queued fire (tb.tenantGate fire.tenant).lookup.1)) = none
          from ofTenant_of_ne ht.symm _]
      exact (hs t).forget
  | @lock fire gate k hk =>
    rw [comp_update_of_eq (f := Task.gate) (by rw [hx]; rfl)]
    obtain rfl | ht := eq_or_ne t fire.tenant
    · rw [Tables.setGate_self]
      exact (hs fire.tenant).acquire hk
    · rw [Tables.setGate_of_ne _ ht]
      exact hs t
  | dropLock fire gate =>
    rw [Function.comp_update, Function.comp_update]
    obtain rfl | ht := eq_or_ne t fire.tenant
    · rw [Tables.setGate_self]
      exact ((hs fire.tenant).release (some gate)).forget
    · rw [Tables.setGate_of_ne _ ht]
      exact (hs t).forget
  | _ =>
    rw [comp_update_of_eq (f := Task.gate) (by rw [hx]; rfl)]
    exact hs t

theorem held_step (hs : Held cfg tb tasks) (h : TaskStep p tb (tasks p) tb' y) :
    Held cfg tb' (Function.update tasks p y) where
  marked := marked_step hs.marked rfl h
  counted := counted_step hs.counted rfl h
  tracks := tracks_step hs.tracks rfl h
  single := single_step hs.single rfl h

/-- Two tasks of one tenant are not both past its mutex. -/
theorem Held.lock_unique (hs : Held cfg tb tasks) {q : Nat} {t : String} {g g' : Nat}
    (hp : (tasks p).lock = some (t, g)) (hq : (tasks q).lock = some (t, g')) : p = q := by
  have hused : ∀ r, ((ofTenant t ∘ Task.lock ∘ tasks) r).isSome = true →
      (ofTenant t ∘ Task.gate ∘ tasks) r = (ofTenant t ∘ Task.lock ∘ tasks) r := by
    intro r hr
    simp only [Function.comp_apply] at hr ⊢
    generalize tasks r = x at hr ⊢
    cases x with
    | queued => cases hr
    | _ => rfl
  refine (hs.tracks t).exclusive (hs.single t) hused ?_ ?_
  · simp only [Function.comp_apply, hp, ofTenant_self]
    rfl
  · simp only [Function.comp_apply, hq, ofTenant_self]
    rfl

end Held

/-! ### Reachable states -/

/-- The minutes that have fired, the last of them being the one that the loop remembers and, as
long as it fires, the one that it spawns tasks for. -/
structure Ticked (s : State) : Prop where
  lastFired : s.lastFired = s.minutes.head?
  increasing : s.minutes.Pairwise (· > ·)
  firing : ∀ minute due, s.loop = .firing minute due → s.minutes.head? = some minute

section Reachable

variable {cfg : CronConfig} {isDue : String → Int → Bool} {s s' : State} {l : Label}
  {jobs : String → List CronJob}

theorem ticked_init : Ticked (init cfg jobs) where
  lastFired := rfl
  increasing := .nil
  firing := fun _ _ h => nomatch h

/-- A minute that fires is after all that have fired before. -/
theorem Ticked.lt_of_shouldFire (hs : Ticked s) {minute : Int}
    (h : shouldFire s.lastFired minute = true) : ∀ m ∈ s.minutes, m < minute := by
  rw [hs.lastFired] at h
  intro m hm
  have hincreasing := hs.increasing
  generalize s.minutes = minutes at h hm hincreasing
  cases minutes with
  | nil => cases hm
  | cons last minutes =>
    have hlast : last < minute := by simpa [shouldFire] using h
    obtain rfl | hm := List.mem_cons.mp hm
    · exact hlast
    · exact Int.lt_trans (List.rel_of_pairwise_cons hincreasing hm) hlast

theorem ticked_step (hs : Ticked s) (h : step cfg isDue s l = some s') : Ticked s' := by
  cases l with
  | readClock now =>
    simp only [step] at h
    split at h
    · split at h
      · cases h
      · obtain rfl := Option.some.inj h
        exact ⟨hs.lastFired, hs.increasing, fun _ _ h => nomatch h⟩
    · cases h
  | wake snapshot =>
    simp only [step] at h
    split at h
    · next minute _ =>
      unfold tickDecision at h
      by_cases hfire : shouldFire s.lastFired minute = true
      · rw [if_pos hfire] at h
        obtain rfl := Option.some.inj h
        refine ⟨rfl, List.pairwise_cons.mpr ⟨hs.lt_of_shouldFire hfire, hs.increasing⟩, ?_⟩
        intro minute' due hloop
        obtain ⟨rfl, -⟩ := Loop.firing.inj hloop
        rfl
      · rw [if_neg hfire] at h
        obtain rfl := Option.some.inj h
        exact ⟨hs.lastFired, hs.increasing, fun _ _ h => nomatch h⟩
    · cases h
  | spawn p =>
    simp only [step] at h
    split at h
    · next minute tenant job due hloop _ =>
      obtain rfl := Option.some.inj h
      refine ⟨hs.lastFired, hs.increasing, ?_⟩
      intro minute' due' hloop'
      obtain ⟨rfl, -⟩ := Loop.firing.inj hloop'
      exact hs.firing minute _ hloop
    · cases h
  | endTick =>
    simp only [step] at h
    split at h
    · obtain rfl := Option.some.inj h
      exact ⟨hs.lastFired, hs.increasing, fun _ _ h => nomatch h⟩
    · cases h
  | _ =>
    -- the steps of the tasks and the edits leave the loop alone
    simp only [step] at h
    repeat' split at h
    all_goals first
      | cases h; done
      | (obtain rfl := Option.some.inj h; exact ⟨hs.lastFired, hs.increasing, hs.firing⟩)

theorem held_init : Held cfg (init cfg jobs).tables (init cfg jobs).tasks where
  marked := ⟨nofun, nofun, nofun⟩
  counted := ⟨[], .nil, fun _ => ⟨nofun, nofun⟩, Nat.zero_add _⟩
  tracks := fun _ _ _ => ⟨nofun, nofun⟩
  single := fun _ _ _ h => nomatch h

theorem held_run_step (hs : Held cfg s.tables s.tasks) (h : step cfg isDue s l = some s') :
    Held cfg s'.tables s'.tasks := by
  obtain ⟨htables, htasks⟩ | ⟨p, y, htasks, hstep, -⟩ := step_tables h
  · rwa [htables, htasks]
  · rw [htasks]
    exact held_step hs hstep

/-- A task that is at its dispatch has read the row after its gates. -/
theorem reread_of_dispatching {ls : List Label} (hrun : run (step cfg isDue) (init cfg jobs) ls = some s)
    {p : Nat} {fire : Fire} {gate : Nat} {fresh : CronJob}
    (hp : s.tasks p = .dispatching fire gate fresh) :
    ∃ ls₁ ls₂ s₁, ls = ls₁ ++ .reread p true :: ls₂ ∧
      run (step cfg isDue) (init cfg jobs) ls₁ = some s₁ ∧ s₁.tasks p = .permitted fire gate ∧
      reassert fire (s₁.jobs fire.tenant) = some fresh := by
  obtain ⟨ls₁, l, ls₂, t, t', rfl, hrun₁, hstep, hbefore, hafter⟩ :=
    run_entered (P := fun s => s.tasks p = .dispatching fire gate fresh) hrun (fun h => nomatch h) hp
  obtain ⟨-, htasks⟩ | ⟨q, y, htasks, -, hrereads⟩ := step_tables hstep
  · rw [htasks] at hafter
    exact absurd hafter hbefore
  · rw [htasks] at hafter
    obtain rfl | hpq := eq_or_ne p q
    · rw [Function.update_self] at hafter
      obtain ⟨rfl, hpermitted, hfresh⟩ := hrereads fire gate fresh hafter
      exact ⟨ls₁, ls₂, t, rfl, hrun₁, hpermitted, hfresh⟩
    · rw [Function.update_of_ne hpq] at hafter
      exact absurd hafter hbefore

theorem reassert_spec {fire : Fire} {rows : List CronJob} {fresh : CronJob}
    (h : reassert fire rows = some fresh) :
    getJobReader rows fire.job.name = some fresh ∧ fresh.active = true ∧
      fresh.id = fire.job.id ∧ fresh.schedule = fire.job.schedule := by
  unfold reassert at h
  split at h
  · cases h
  · next row hrow =>
    split at h
    · cases h
    · next hid =>
      split at h
      · cases h
      · next hactive =>
        obtain rfl := Option.some.inj h
        simp only [Bool.or_eq_true, Bool.not_eq_true', decide_eq_true_eq, not_or,
          Bool.not_eq_false, not_not] at hactive
        exact ⟨hrow, hactive.1, not_not.mp hid, hactive.2⟩

end Reachable

/-! ### Exits -/

/-- The task can leave by its own steps, and takes its marker with it. -/
def Leaves (cfg : CronConfig) (isDue : String → Int → Bool) (s : State) (p : Nat)
    (key : String × Int) : Prop :=
  ∃ ls s', (∀ l ∈ ls, l = .abandon p ∨ l = .drop p) ∧ run (step cfg isDue) s ls = some s' ∧
    s'.tasks p = .finished ∧ s'.inFlight key = false

section Exits

variable {cfg : CronConfig} {isDue : String → Int → Bool} {s t : State} {p : Nat} {fire : Fire}
  {gate : Nat}

theorem Leaves.cons {l : Label} {key : String × Int} (hl : l = .abandon p ∨ l = .drop p)
    (h : step cfg isDue s l = some t) (ht : Leaves cfg isDue t p key) :
    Leaves cfg isDue s p key := by
  obtain ⟨ls, s', hls, hrun, hfinished, hmarker⟩ := ht
  refine ⟨l :: ls, s', ?_, ?_, hfinished, hmarker⟩
  · rintro l' hl'
    obtain rfl | hl' := List.mem_cons.mp hl'
    · exact hl
    · exact hls l' hl'
  · rw [run, h]
    exact hrun

theorem leaves_dropMarker (hp : s.tasks p = .dropMarker fire) :
    Leaves cfg isDue s p fire.key := by
  refine ⟨[.drop p], setTask (setMarker s fire.key false) p .finished, ?_, ?_, ?_, ?_⟩
  · intro l hl
    exact .inr (List.mem_singleton.mp hl)
  · simp only [run, step, hp]
  · exact Function.update_self ..
  · exact Function.update_self ..

theorem leaves_dropLock (hp : s.tasks p = .dropLock fire gate) :
    Leaves cfg isDue s p fire.key := by
  have hstep : step cfg isDue s (.drop p) = some (setTask
      (setGate s fire.tenant ((s.tenantGate fire.tenant).release (some gate))) p
      (.dropMarker fire)) := by
    simp only [step, hp]
  exact .cons (.inr rfl) hstep (leaves_dropMarker (Function.update_self ..))

theorem leaves_dropPermit (hp : s.tasks p = .dropPermit fire gate) :
    Leaves cfg isDue s p fire.key := by
  have hstep : step cfg isDue s (.drop p)
      = some (setTask { s with permits := s.permits + 1 } p (.dropLock fire gate)) := by
    simp only [step, hp]
  exact .cons (.inr rfl) hstep (leaves_dropLock (Function.update_self ..))

/-- A task that is abandoned leaves, wherever it was. -/
theorem leaves_of_key {key : String × Int} (hkey : (s.tasks p).key = some key) :
    Leaves cfg isDue s p key := by
  cases hp : s.tasks p with
  | idle | spawned | opened | overlapped | finished =>
    rw [hp] at hkey
    cases hkey
  | dropMarker fire =>
    rw [hp] at hkey
    obtain rfl := Option.some.inj hkey
    exact leaves_dropMarker hp
  | dropLock fire gate =>
    rw [hp] at hkey
    obtain rfl := Option.some.inj hkey
    exact leaves_dropLock hp
  | dropPermit fire gate =>
    rw [hp] at hkey
    obtain rfl := Option.some.inj hkey
    exact leaves_dropPermit hp
  | marked fire | queued fire gate =>
    rw [hp] at hkey
    obtain rfl := Option.some.inj hkey
    have hstep : step cfg isDue s (.abandon p) = some (setTask s p (.dropMarker fire)) := by
      simp only [step, hp]
    exact .cons (.inl rfl) hstep (leaves_dropMarker (Function.update_self ..))
  | locked fire gate =>
    rw [hp] at hkey
    obtain rfl := Option.some.inj hkey
    have hstep : step cfg isDue s (.abandon p) = some (setTask s p (.dropLock fire gate)) := by
      simp only [step, hp]
    exact .cons (.inl rfl) hstep (leaves_dropLock (Function.update_self ..))
  | permitted fire gate | dispatching fire gate fresh | recording fire gate status error =>
    rw [hp] at hkey
    obtain rfl := Option.some.inj hkey
    have hstep : step cfg isDue s (.abandon p) = some (setTask s p (.dropPermit fire gate)) := by
      simp only [step, hp]
    exact .cons (.inl rfl) hstep (leaves_dropPermit (Function.update_self ..))

end Exits

/-! ### Exclusive and fresh fires -/

/-- The tenant of a task that is past its mutex. -/
def Task.tenant (x : Task) : Option String :=
  x.lock.map Prod.fst

/-- A run of the scheduler and the state that it leads to. -/
structure Gated (cfg : CronConfig) (isDue : String → Int → Bool) (jobs : String → List CronJob)
    (ls : List Label) (s : State) : Prop where
  /-- Of one tenant at most one task runs. -/
  tenant : ∀ p q, (s.tasks p).permit = true → (s.tasks q).permit = true →
    (s.tasks p).tenant = (s.tasks q).tenant → p = q
  /-- Over all tenants no more run than are configured. -/
  global : ∀ ps : List Nat, ps.Nodup → (∀ p ∈ ps, (s.tasks p).permit = true) →
    ps.length ≤ cfg.concurrency
  /-- A marker is set as long as one task has it, and no two tasks have the same. -/
  marker : ∀ key, s.inFlight key = true ↔ ∃! p, (s.tasks p).key = some key
  unique : ∀ p q key, (s.tasks p).key = some key → (s.tasks q).key = some key → p = q
  /-- Every exit takes the marker away. -/
  leaves : ∀ p key, (s.tasks p).key = some key → Leaves cfg isDue s p key
  /-- What is dispatched is an active row with the fired id and schedule, and was read while the
  task was past all gates. -/
  fresh : ∀ p fire gate fresh, s.tasks p = .dispatching fire gate fresh →
    fresh.active = true ∧ fresh.id = fire.job.id ∧ fresh.schedule = fire.job.schedule ∧
    ∃ ls₁ ls₂ s₁, ls = ls₁ ++ .reread p true :: ls₂ ∧
      run (step cfg isDue) (init cfg jobs) ls₁ = some s₁ ∧ s₁.tasks p = .permitted fire gate ∧
      getJobReader (s₁.jobs fire.tenant) fire.job.name = some fresh
  /-- The minutes that have fired, the last one first. -/
  increasing : s.minutes.Pairwise (· > ·)
  /-- Tasks are spawned for the last of them. -/
  spawned : ∀ p s', step cfg isDue s (.spawn p) = some s' →
    ∃ fire, s'.tasks p = .spawned fire ∧ s.minutes.head? = some fire.minute

theorem Task.lock_of_permit {x : Task} (h : x.permit = true) : ∃ t g, x.lock = some (t, g) := by
  cases x with
  | permitted | dispatching | recording | dropPermit => exact ⟨_, _, rfl⟩
  | _ => cases h

theorem scheduler_gated {cfg : CronConfig} {isDue : String → Int → Bool}
    {jobs : String → List CronJob} {ls : List Label} {s : State}
    (hrun : run (step cfg isDue) (init cfg jobs) ls = some s) : Gated cfg isDue jobs ls s := by
  have hheld : Held cfg s.tables s.tasks :=
    @run_invariant State Label (step cfg isDue) (fun s => Held cfg s.tables s.tasks)
      held_run_step (init cfg jobs) s ls held_init hrun
  have hticked : Ticked s := run_invariant ticked_step ticked_init hrun
  refine ⟨?_, ?_, hheld.marked.existsUnique, hheld.marked.unique, ?_, ?_, hticked.increasing, ?_⟩
  · intro p q hp hq htenant
    obtain ⟨t, g, hlock⟩ := Task.lock_of_permit hp
    obtain ⟨t', g', hlock'⟩ := Task.lock_of_permit hq
    obtain rfl : t = t' := by simpa [Task.tenant, hlock, hlock'] using htenant
    exact hheld.lock_unique hlock hlock'
  · intro ps hnodup hps
    exact hheld.counted.length_le hnodup hps
  · intro p key hkey
    exact leaves_of_key hkey
  · intro p fire gate fresh hp
    obtain ⟨ls₁, ls₂, s₁, hls, hrun₁, hpermitted, hfresh⟩ := reread_of_dispatching hrun hp
    obtain ⟨hrow, hactive, hid, hschedule⟩ := reassert_spec hfresh
    exact ⟨hactive, hid, hschedule, ls₁, ls₂, s₁, hls, hrun₁, hpermitted, hrow⟩
  · intro p s' h
    simp only [step] at h
    split at h
    · next minute tenant job due hloop _ =>
      obtain rfl := Option.some.inj h
      exact ⟨_, Function.update_self .., hticked.firing minute _ hloop⟩
    · cases h

def nightlyJob : CronJob where
  id := 1
  name := "nightly"
  schedule := "0 3 * * *"
  targetKind := "rpc"
  targetName := "cleanup"
  payloadJson := none
  active := true

/-- A job fires, the clock goes back and does not fire it again, and its next fire finds it
running. -/
def overlapRun : List Label :=
  [.readClock 30000000000, .wake [("t1", [nightlyJob.indexed])], .spawn 0, .endTick,
   .start 0 true, .overlapGate 0, .lookupGate 0, .lock 0, .acquire 0, .reread 0 true,
   .readClock 10000000000, .wake [("t1", [nightlyJob.indexed])],
   .readClock 90000000000, .wake [("t1", [nightlyJob.indexed])], .spawn 1,
   .start 1 true, .overlapGate 1, .recordSkip 1 true]

theorem scheduler_gated_overlap : ∃ s,
    run (step ⟨1, false⟩ (fun _ _ => true)) (init ⟨1, false⟩ (fun _ => [nightlyJob])) overlapRun
      = some s ∧
    s.runs = [⟨"t1", 1, 120000000000, "skipped_overlap", none⟩] ∧
    s.minutes = [120000000000, 60000000000] ∧
    Gated ⟨1, false⟩ (fun _ _ => true) (fun _ => [nightlyJob]) overlapRun s := by
  have hrun : run (step ⟨1, false⟩ (fun _ _ => true)) (init ⟨1, false⟩ (fun _ => [nightlyJob]))
      overlapRun = some ((run (step ⟨1, false⟩ (fun _ _ => true))
        (init ⟨1, false⟩ (fun _ => [nightlyJob])) overlapRun).get (by decide)) :=
    (Option.some_get _).symm
  exact ⟨_, hrun, by decide, by decide, scheduler_gated hrun⟩

end Scheduler

end Cron

end Drust
