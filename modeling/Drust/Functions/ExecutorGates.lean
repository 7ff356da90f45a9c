import Drust.Functions.Executor
import Drust.Lib.Holders
import Drust.Lib.LockTable

/-!
# The gates of the executor

What a run has got is read off its own state: the mutex of its tenant, a permit. The mutexes and
the permits of the process agree with it in every state that the parties reach (`Held`), whichever
way the runs leave. A label that moves a run has one of nine effects on it and on the gates
(`RunStep`), and what else such a step does is said once (`RunMove`).
-/

namespace Drust

namespace Executor

open Holders
open LockSlot (comp_update_of_eq)

/-! ### What a run has got -/

/-- The run is between the permit acquire and its completion. -/
def Run.permit : Run → Bool
  | .permitted _ _ | .recording _ _ _ | .dropPermit _ _ _ => true
  | _ => false

/-- The tenant and the mutex that the run holds. -/
def Run.lock : Run → Option (String × Nat)
  | .locked inv gate | .permitted inv gate | .recording inv gate _ | .dropPermit inv gate _
  | .dropLock inv gate _ => some (inv.tenantId, gate)
  | _ => none

/-- The tenant and the mutex that the run has looked up. -/
def Run.gate : Run → Option (String × Nat)
  | .queued inv gate => some (inv.tenantId, gate)
  | x => x.lock

/-- What the run is of, until it has finished. -/
def Run.inv : Run → Option Invocation
  | .called inv | .queued inv _ | .locked inv _ | .permitted inv _ | .recording inv _ _
  | .dropPermit inv _ _ | .dropLock inv _ _ => some inv
  | _ => none

/-- The run has its permit, or had it. -/
def Run.begun : Run → Bool
  | .permitted _ _ | .recording _ _ _ | .dropPermit _ _ _ | .dropLock _ _ _ | .finished _ => true
  | _ => false

/-- What the runs share. -/
structure Gates where
  tenantLocks : String → LockSlot Party
  permits : Nat

def State.gates (s : State) : Gates where
  tenantLocks := s.tenantLocks
  permits := s.permits

def Gates.setLock (g : Gates) (tenant : String) (k : LockSlot Party) : Gates :=
  { g with tenantLocks := Function.update g.tenantLocks tenant k }

/-- What a step of a party does to its run and to the gates. -/
inductive RunStep (p : Party) (g : Gates) : Run → Gates → Run → Prop
  | enter (inv : Invocation) : RunStep p g .idle g (.called inv)
  | lookup (inv : Invocation) :
      RunStep p g (.called inv) (g.setLock inv.tenantId (g.tenantLocks inv.tenantId).lookup.2)
        (.queued inv (g.tenantLocks inv.tenantId).lookup.1)
  | lock {inv : Invocation} {gate : Nat} {k : LockSlot Party}
      (h : (g.tenantLocks inv.tenantId).acquire gate p = some k) :
      RunStep p g (.queued inv gate) (g.setLock inv.tenantId k) (.locked inv gate)
  | acquire {inv : Invocation} {gate n : Nat} (h : g.permits = n + 1) :
      RunStep p g (.locked inv gate) { g with permits := n } (.permitted inv gate)
  /-- The run goes on with what it has. -/
  | keep {x y : Run} (hinv : y.inv = x.inv) (hlock : y.lock = x.lock) (hgate : y.gate = x.gate)
      (hpermit : y.permit = x.permit) : RunStep p g x g y
  | dropPermit (inv : Invocation) (gate : Nat) (out : Option RunOutcome) :
      RunStep p g (.dropPermit inv gate out) { g with permits := g.permits + 1 }
        (.dropLock inv gate out)
  | dropLock (inv : Invocation) (gate : Nat) (out : Option RunOutcome) :
      RunStep p g (.dropLock inv gate out)
        (g.setLock inv.tenantId ((g.tenantLocks inv.tenantId).release (some gate)))
        (.finished out)
  /-- A caller that goes away before it has locked. -/
  | leave {x : Run} (hlock : x.lock = none) (hpermit : x.permit = false) :
      RunStep p g x g (.finished none)
  | reset (out : Option RunOutcome) : RunStep p g (.finished out) g .idle

/-! ### The gates agree with the runs -/

structure Held (cfg : FnConfig) (g : Gates) (runs : Party → Run) : Prop where
  counted : Counted g.permits (max cfg.concurrency 1) (Run.permit ∘ runs)
  tracks : LockTable.Tracks g.tenantLocks (Run.lock ∘ runs)
  single : LockTable.Single g.tenantLocks (Run.gate ∘ runs)

section Held

variable {cfg : FnConfig} {g g' : Gates} {runs : Party → Run} {p q : Party} {x y : Run}

theorem counted_step {limit : Nat} (hs : Counted g.permits limit (Run.permit ∘ runs))
    (hx : runs p = x) (h : RunStep p g x g' y) :
    Counted g'.permits limit (Run.permit ∘ Function.update runs p y) := by
  have hpermit : (Run.permit ∘ runs) p = x.permit := congrArg Run.permit hx
  cases h with
  | acquire hn =>
    rw [Function.comp_update]
    rw [hn] at hs
    exact hs.acquire hpermit
  | dropPermit inv gate out =>
    rw [Function.comp_update]
    exact hs.release hpermit
  | keep _ _ _ hsame => rwa [comp_update_of_eq (hx ▸ hsame)]
  | leave _ hnone => rwa [comp_update_of_eq (hx ▸ hnone.symm)]
  | _ =>
    rw [comp_update_of_eq (by rw [hx]; rfl)]
    exact hs

theorem tracks_step (hs : LockTable.Tracks g.tenantLocks (Run.lock ∘ runs)) (hx : runs p = x)
    (h : RunStep p g x g' y) :
    LockTable.Tracks g'.tenantLocks (Run.lock ∘ Function.update runs p y) := by
  have hlock : (Run.lock ∘ runs) p = x.lock := congrArg Run.lock hx
  cases h with
  | lookup inv =>
    rw [comp_update_of_eq (by rw [hx]; rfl)]
    exact hs.lookup inv.tenantId
  | lock hacquire =>
    rw [Function.comp_update]
    exact hs.acquire hlock hacquire
  | dropLock inv gate out =>
    rw [Function.comp_update]
    exact hs.release hlock
  | keep _ hsame => rwa [comp_update_of_eq (hx ▸ hsame)]
  | leave hnone => rwa [comp_update_of_eq (hx ▸ hnone.symm)]
  | _ =>
    rw [comp_update_of_eq (by rw [hx]; rfl)]
    exact hs

theorem single_step (hs : LockTable.Single g.tenantLocks (Run.gate ∘ runs)) (hx : runs p = x)
    (h : RunStep p g x g' y) :
    LockTable.Single g'.tenantLocks (Run.gate ∘ Function.update runs p y) := by
  cases h with
  | lookup inv =>
    rw [Function.comp_update]
    exact hs.lookup inv.tenantId
  | lock hacquire =>
    rw [comp_update_of_eq (by rw [hx]; rfl)]
    exact hs.acquire hacquire
  | dropLock inv gate out =>
    rw [Function.comp_update]
    exact (hs.release inv.tenantId (some gate)).forget
  | keep _ _ hsame => rwa [comp_update_of_eq (hx ▸ hsame)]
  | leave =>
    -- it lets go of the mutex that it has looked up
    rw [Function.comp_update]
    exact hs.forget
  | _ =>
    rw [comp_update_of_eq (by rw [hx]; rfl)]
    exact hs

theorem held_step (hs : Held cfg g runs) (h : RunStep p g (runs p) g' y) :
    Held cfg g' (Function.update runs p y) where
  counted := counted_step hs.counted rfl h
  tracks := tracks_step hs.tracks rfl h
  single := single_step hs.single rfl h

theorem Run.gate_of_lock {x : Run} (h : x.lock.isSome = true) : x.gate = x.lock := by
  cases x with
  | queued => cases h
  | _ => rfl

theorem Run.lock_of_permit {x : Run} (h : x.permit = true) :
    ∃ inv gate, x.inv = some inv ∧ x.lock = some (inv.tenantId, gate) := by
  cases x with
  | permitted | recording | dropPermit => exact ⟨_, _, rfl, rfl⟩
  | _ => cases h

/-- Two runs of one tenant do not both have a permit. -/
theorem Held.permit_unique (hs : Held cfg g runs) {inv inv' : Invocation}
    (hp : (runs p).permit = true) (hq : (runs q).permit = true) (hinv : (runs p).inv = some inv)
    (hinv' : (runs q).inv = some inv') (htenant : inv.tenantId = inv'.tenantId) : p = q := by
  obtain ⟨i, gate, hi, hlock⟩ := Run.lock_of_permit hp
  obtain ⟨i', gate', hi', hlock'⟩ := Run.lock_of_permit hq
  obtain rfl : i = inv := Option.some.inj (hi.symm.trans hinv)
  obtain rfl : i' = inv' := Option.some.inj (hi'.symm.trans hinv')
  rw [← htenant] at hlock'
  exact hs.tracks.exclusive hs.single (fun _ => Run.gate_of_lock) hlock hlock'

theorem held_init (cfg : FnConfig) : Held cfg (init cfg).gates (init cfg).runs where
  counted := ⟨[], .nil, fun _ => by simp [init, Run.permit], Nat.zero_add _⟩
  tracks := fun _ _ _ => by simp [init, Run.lock, State.gates]
  single := fun _ _ _ h => by simp [init, Run.gate, Run.lock] at h

end Held

/-! ### Steps of the runs -/

/-- The party whose run a label moves. -/
def Label.party : Label → Option Party
  | .invoke n _ | .cancel n => some (.caller n)
  | .lookupLock p | .lock p | .acquire p | .resolve p _ _ _ | .record p _ | .drop p => some p
  | _ => none

/-- A step of a run leaves the queue alone, and only a worker's start is recorded. -/
structure RunMove (s s' : State) (p : Party) (y : Run) : Prop where
  depth : s'.depth = s.depth
  calls : s'.calls = s.calls
  queue : s'.queue = s.queue
  loop : s'.loop = s.loop
  lanes : s'.lanes = s.lanes
  entered : s'.entered = s.entered
  runs : s'.runs = Function.update s.runs p y
  gates : RunStep p s.gates (s.runs p) s'.gates y
  started : s'.started = s.started ++ if (s.runs p).begun then [] else if y.begun then s.jobOf p else []
  begun : (s.runs p).begun = true → y.begun = true
  idle : s.runs p = .idle → ∃ n, p = .caller n
  busy : y ≠ .idle

section Steps

variable {cfg : FnConfig} {s s' : State} {l : Label} {p : Party}

theorem jobOf_caller (s : State) (n : Nat) : s.jobOf (.caller n) = [] := rfl

theorem step_run (h : step cfg s l = some s') (hl : l.party = some p) :
    ∃ y, RunMove s s' p y := by
  cases l with
  | invoke n inv =>
    obtain rfl := Option.some.inj hl
    simp only [step] at h
    split at h
    · next hp =>
      obtain rfl := Option.some.inj h
      refine ⟨.called inv, rfl, rfl, rfl, rfl, rfl, rfl, rfl, hp ▸ .enter inv, ?_, ?_, ?_, ?_⟩
      · simp [hp, State.setRun, Run.begun]
      · simp [hp, Run.begun]
      · exact fun _ => ⟨n, rfl⟩
      · simp
    · cases h
  | lookupLock q =>
    obtain rfl := Option.some.inj hl
    simp only [step] at h
    split at h
    · next inv hp =>
      obtain rfl := Option.some.inj h
      refine ⟨_, rfl, rfl, rfl, rfl, rfl, rfl, rfl, hp ▸ .lookup inv, ?_, ?_, ?_, ?_⟩
      all_goals simp [hp, State.setRun, State.setLock, Run.begun]
    · cases h
  | lock q =>
    obtain rfl := Option.some.inj hl
    simp only [step] at h
    split at h
    · next inv gate hp =>
      split at h
      · next k hk =>
        obtain rfl := Option.some.inj h
        refine ⟨_, rfl, rfl, rfl, rfl, rfl, rfl, rfl, hp ▸ .lock hk, ?_, ?_, ?_, ?_⟩
        all_goals simp [hp, State.setRun, State.setLock, Run.begun]
      · cases h
    · cases h
  | acquire q =>
    obtain rfl := Option.some.inj hl
    simp only [step] at h
    split at h
    · next inv gate n hp hn =>
      obtain rfl := Option.some.inj h
      refine ⟨_, rfl, rfl, rfl, rfl, rfl, rfl, rfl, hp ▸ .acquire hn, ?_, ?_, ?_, ?_⟩
      all_goals simp [hp, State.setRun, Run.begun]
    · cases h
  | resolve q live read out =>
    obtain rfl := Option.some.inj hl
    simp only [step] at h
    split at h
    · next inv gate hp =>
      obtain rfl := Option.some.inj h
      refine ⟨_, rfl, rfl, rfl, rfl, rfl, rfl, rfl, hp ▸ .keep rfl rfl rfl rfl, ?_, ?_, ?_, ?_⟩
      all_goals simp [hp, State.setRun, Run.begun]
    · cases h
  | record q live =>
    obtain rfl := Option.some.inj hl
    simp only [step] at h
    split at h
    · next inv gate out hp =>
      obtain rfl := Option.some.inj h
      refine ⟨_, rfl, rfl, rfl, rfl, rfl, rfl, rfl, hp ▸ .keep rfl rfl rfl rfl, ?_, ?_, ?_, ?_⟩
      all_goals simp [hp, State.setRun, State.log, Run.begun]
    · cases h
  | drop q =>
    obtain rfl := Option.some.inj hl
    simp only [step] at h
    split at h
    · next inv gate out hp =>
      obtain rfl := Option.some.inj h
      refine ⟨_, rfl, rfl, rfl, rfl, rfl, rfl, rfl, hp ▸ .dropPermit inv gate out, ?_, ?_, ?_, ?_⟩
      all_goals simp [hp, State.setRun, Run.begun]
    · next inv gate out hp =>
      obtain rfl := Option.some.inj h
      refine ⟨_, rfl, rfl, rfl, rfl, rfl, rfl, rfl, hp ▸ .dropLock inv gate out, ?_, ?_, ?_, ?_⟩
      all_goals simp [hp, State.setRun, State.setLock, Run.begun]
    · cases h
  | cancel n =>
    obtain rfl := Option.some.inj hl
    simp only [step] at h
    split at h
    case h_6 => cases h
    all_goals
      next hp =>
      obtain rfl := Option.some.inj h
      refine ⟨_, rfl, rfl, rfl, rfl, rfl, rfl, rfl, ?_, ?_, ?_, ?_, ?_⟩
      · -- it keeps what it has to drop
        rw [hp]
        first
          | exact .leave rfl rfl
          | exact .keep rfl rfl rfl rfl
      all_goals simp [hp, State.setRun, State.jobOf, Run.begun]
  | _ => cases hl

end Steps

/-! ### Workers -/

/-- The jobs of a lane, the one that its worker has before those in its channel. -/
def Lane.jobs (lane : Lane) : List Job :=
  lane.worker.jobs ++ lane.queue

/-- The jobs of a lane are its tenant's, a worker that waits has no run, and one that has a job
runs its invocation. -/
structure Wired (s : State) : Prop where
  tenant : ∀ t, ∀ job ∈ (s.lane t).jobs, job.inv.tenantId = t
  idle : ∀ t, (s.lane t).worker = .waiting → s.runs (.lane t) = .idle
  inv : ∀ t job, (s.lane t).worker = .running job →
    ∀ inv, (s.runs (.lane t)).inv = some inv → inv = job.inv

section Workers

variable {cfg : FnConfig} {s s' : State} {l : Label}

theorem lane_eq {t : String} {lane : Lane} (h : s.lanes t = some lane) : s.lane t = lane := by
  rw [State.lane, h]
  rfl

theorem RunMove.lane {p : Party} {y : Run} (h : RunMove s s' p y) (t : String) :
    s'.lane t = s.lane t := by
  rw [State.lane, h.lanes]
  rfl

theorem lane_update_self (s : State) {tenant : String} {lane : Lane}
    (h : s'.lanes = Function.update s.lanes tenant (some lane)) : s'.lane tenant = lane :=
  lane_eq (by rw [h, Function.update_self])

theorem lane_update_of_ne {t tenant : String} {lane : Lane}
    (h : s'.lanes = Function.update s.lanes tenant (some lane)) (ht : t ≠ tenant) :
    s'.lane t = s.lane t := by
  rw [State.lane, h, Function.update_of_ne ht]
  rfl

/-- A party that runs something goes on with it. -/
theorem RunStep.inv {p : Party} {g g' : Gates} {x y : Run} {inv : Invocation}
    (h : RunStep p g x g' y) (hx : x ≠ .idle) (hy : y.inv = some inv) : x.inv = some inv := by
  cases h with
  | enter => exact absurd rfl hx
  | keep hinv => rw [← hinv, hy]
  | leave | reset | dropLock => cases hy
  | lookup | lock | acquire | dropPermit => exact hy

theorem wired_init (cfg : FnConfig) : Wired (init cfg) where
  tenant := fun _ _ h => by simp [State.lane, init, Lane.jobs, Worker.jobs] at h
  idle := fun _ _ => rfl
  inv := fun _ _ h => by simp [State.lane, init] at h

/-- The lane of one tenant changes, with the run of its worker. -/
theorem Wired.update (hs : Wired s) {tenant : String} {lane : Lane} {r : Run}
    (hlanes : s'.lanes = Function.update s.lanes tenant (some lane))
    (hruns : s'.runs = Function.update s.runs (.lane tenant) r)
    (htenant : ∀ job ∈ lane.jobs, job.inv.tenantId = tenant)
    (hidle : lane.worker = .waiting → r = .idle)
    (hinv : ∀ job, lane.worker = .running job → ∀ inv, r.inv = some inv → inv = job.inv) :
    Wired s' := by
  have hrun : ∀ t, t ≠ tenant → s'.runs (.lane t) = s.runs (.lane t) := by
    intro t ht
    rw [hruns, Function.update_of_ne (fun h => ht (Party.lane.inj h))]
  have hself : s'.runs (.lane tenant) = r := by rw [hruns, Function.update_self]
  refine ⟨?_, ?_, ?_⟩
  all_goals
    intro t
    obtain rfl | ht := eq_or_ne t tenant
  · rwa [lane_update_self s hlanes]
  · rw [lane_update_of_ne hlanes ht]
    exact hs.tenant t
  · rwa [lane_update_self s hlanes, hself]
  · rw [lane_update_of_ne hlanes ht, hrun t ht]
    exact hs.idle t
  · rwa [lane_update_self s hlanes, hself]
  · rw [lane_update_of_ne hlanes ht, hrun t ht]
    exact hs.inv t

theorem RunMove.wired {p : Party} {y : Run} (h : RunMove s s' p y) (hs : Wired s) : Wired s' := by
  refine ⟨?_, ?_, ?_⟩
  · intro t
    rw [h.lane]
    exact hs.tenant t
  · intro t
    rw [h.lane, h.runs]
    intro hwaiting
    have hidle := hs.idle t hwaiting
    rw [Function.update_of_ne]
    · exact hidle
    · -- a worker without a run does not move
      rintro rfl
      obtain ⟨n, hn⟩ := h.idle hidle
      cases hn
  · intro t job hjob inv
    rw [h.lane] at hjob
    rw [h.runs]
    obtain rfl | hp := eq_or_ne (Party.lane t) p
    · rw [Function.update_self]
      intro hy
      refine hs.inv t job hjob inv (h.gates.inv ?_ hy)
      intro hidle
      obtain ⟨n, hn⟩ := h.idle hidle
      cases hn
    · rw [Function.update_of_ne hp]
      exact hs.inv t job hjob inv

theorem decrementDepth_eq (s : State) (tenant : String) :
    ∃ d, s.decrementDepth tenant = { s with depth := d } ∧
      ∀ t, (s.decrementDepth tenant).counter t
        = if t = tenant then s.counter tenant - 1 else s.counter t := by
  unfold State.decrementDepth
  cases hdepth : s.depth tenant with
  | none =>
    refine ⟨s.depth, rfl, fun t => ?_⟩
    obtain rfl | ht := eq_or_ne t tenant
    · simp [State.counter, hdepth]
    · rw [if_neg ht]
  | some n =>
    refine ⟨_, rfl, fun t => ?_⟩
    obtain rfl | ht := eq_or_ne t tenant
    · simp [State.counter, State.setDepth, hdepth]
    · rw [if_neg ht]
      simp [State.counter, State.setDepth, Function.update_of_ne ht]

theorem wired_step (hs : Wired s) (h : step cfg s l = some s') : Wired s' := by
  by_cases hl : ∃ p, l.party = some p
  · obtain ⟨p, hl⟩ := hl
    obtain ⟨y, hmove⟩ := step_run h hl
    exact hmove.wired hs
  cases l with
  | take tenant =>
    simp only [step] at h
    split at h
    · next job queue hlane =>
      obtain rfl := Option.some.inj h
      have hjobs := hs.tenant tenant
      rw [lane_eq hlane] at hjobs
      refine hs.update rfl rfl hjobs (by simp) ?_
      rintro _ ⟨⟩ inv hinv
      exact (Option.some.inj hinv).symm
    · cases h
  | decrement tenant =>
    simp only [step] at h
    split at h
    · next queue job out hlane hp =>
      obtain rfl := Option.some.inj h
      obtain ⟨d, hd, -⟩ := decrementDepth_eq s job.inv.tenantId
      rw [hd]
      have hjobs := hs.tenant tenant
      rw [lane_eq hlane] at hjobs
      refine hs.update rfl rfl (fun job' hjob' => hjobs job' ?_) (fun _ => rfl) (by simp)
      exact List.mem_cons_of_mem job hjob'
    · cases h
  | openLane =>
    simp only [step] at h
    split at h
    · next job _ =>
      obtain rfl := Option.some.inj h
      exact hs.update rfl (Function.update_eq_self ..).symm (hs.tenant _) (hs.idle _) (hs.inv _)
    · cases h
  | forward =>
    simp only [step] at h
    split at h
    · next job _ =>
      split at h
      · next lane hlane =>
        obtain rfl := Option.some.inj h
        obtain rfl := lane_eq hlane
        refine hs.update rfl (Function.update_eq_self ..).symm ?_ (hs.idle _) (hs.inv _)
        intro job' hjob'
        rw [Lane.jobs, ← List.append_assoc, List.mem_append] at hjob'
        cases hjob' with
        | inl hold => exact hs.tenant _ job' hold
        | inr hnew => rw [List.mem_singleton.mp hnew]
      · cases h
    · cases h
  | invoke n _ | cancel n => exact absurd ⟨.caller n, rfl⟩ hl
  | lookupLock p | lock p | acquire p | resolve p | record p | drop p => exact absurd ⟨p, rfl⟩ hl
  | _ =>
    -- the calls, the loop's receive and its end leave the lanes and the runs alone
    simp only [step] at h
    repeat' split at h
    all_goals first
      | cases h; done
      | (obtain rfl := Option.some.inj h; exact ⟨hs.tenant, hs.idle, hs.inv⟩)

/-- The gates agree with the runs after every step. -/
theorem held_run_step (hw : Wired s) (hs : Held cfg s.gates s.runs)
    (h : step cfg s l = some s') : Held cfg s'.gates s'.runs := by
  by_cases hl : ∃ p, l.party = some p
  · obtain ⟨p, hl⟩ := hl
    obtain ⟨y, hmove⟩ := step_run h hl
    rw [hmove.runs]
    exact held_step hs hmove.gates
  cases l with
  | take tenant =>
    simp only [step] at h
    split at h
    · next job queue hlane =>
      obtain rfl := Option.some.inj h
      have hidle := hw.idle tenant (by rw [lane_eq hlane])
      exact held_step hs (hidle ▸ .enter job.inv)
    · cases h
  | decrement tenant =>
    simp only [step] at h
    split at h
    · next queue job out _ hp =>
      obtain rfl := Option.some.inj h
      obtain ⟨d, hd, -⟩ := decrementDepth_eq s job.inv.tenantId
      rw [hd]
      exact held_step hs (hp ▸ .reset out)
    · cases h
  | invoke n _ | cancel n => exact absurd ⟨.caller n, rfl⟩ hl
  | lookupLock p | lock p | acquire p | resolve p | record p | drop p => exact absurd ⟨p, rfl⟩ hl
  | _ =>
    -- the calls and the loop leave the runs alone
    simp only [step] at h
    repeat' split at h
    all_goals first
      | cases h; done
      | (obtain rfl := Option.some.inj h; exact hs)

end Workers

end Executor

end Drust
