import Drust.Functions.ExecutorGates
import Drust.Lib.QueueAccount
import Drust.Lib.Transition

/-!
# The function queue keeps count and order

A tenant's share of the queue is an account: its counter, the calls that will send, the calls that
will take their increment back, and the invocations that were sent and are not counted off, the
oldest first. Whatever the parties do, for each tenant it is a move of its account
(`step_account`), so the accounts stay balanced. What was sent is what the calls have sent
(`Sent`), each of them once. With the gates of the runs this is what a run of the queue leaves
(`queue_accounted`).
-/

namespace Drust

namespace Executor

open Transition

/-! ### The account of a tenant -/

def Job.isOf (tenant : String) (job : Job) : Bool :=
  job.inv.tenantId == tenant

/-- The call is admitted by the value that it has seen, and has not sent yet. -/
def Stage.sends (cap : Nat) : Stage → Bool
  | .incremented prev => prev < cap
  | .sending => true
  | _ => false

/-- The call takes its increment back. -/
def Stage.undoes (cap : Nat) : Stage → Bool
  | .incremented prev => cap ≤ prev
  | .refused | .lost => true
  | _ => false

/-- The calls of a tenant at some stages. -/
def countCalls (p : Stage → Bool) (tenant : String) (calls : List Call) : Nat :=
  calls.countP fun c => c.inv.tenantId == tenant && p c.stage

def Loop.jobs : Loop → List Job
  | .routing job | .forwarding job => [job]
  | _ => []

def State.account (cfg : FnConfig) (s : State) (tenant : String) : Account Job where
  counter := s.counter tenant
  sending := countCalls (Stage.sends cfg.queueDepth) tenant s.calls
  undoing := countCalls (Stage.undoes cfg.queueDepth) tenant s.calls
  pending := (s.lane tenant).jobs ++ (s.loop.jobs ++ s.queue).filter (Job.isOf tenant)
  begun := (s.runs (.lane tenant)).begun
  entered := s.entered.filter (Job.isOf tenant)
  started := s.started.filter (Job.isOf tenant)

section Calls

variable {cfg : FnConfig} {s s' : State} {i : Nat} {inv : Invocation} {st st' : Stage}
  {p : Stage → Bool} {calls : List Call}

/-- A call that goes from one stage to another leaves the others where they are. -/
theorem countCalls_set (h : calls[i]? = some ⟨inv, st⟩) (st' : Stage) (tenant : String) :
    countCalls p tenant (calls.set i ⟨inv, st'⟩) + (inv.tenantId == tenant && p st).toNat =
      countCalls p tenant calls + (inv.tenantId == tenant && p st').toNat := by
  obtain ⟨hi, hget⟩ := List.getElem?_eq_some_iff.mp h
  have hmem : (⟨inv, st⟩ : Call) ∈ calls := hget ▸ List.getElem_mem hi
  -- the call itself is among those that are counted
  have hpos : (inv.tenantId == tenant && p st) = true → 0 < countCalls p tenant calls :=
    fun hp => List.countP_pos_iff.mpr ⟨_, hmem, hp⟩
  have hset := List.countP_set (p := fun c => c.inv.tenantId == tenant && p c.stage)
    (a := ⟨inv, st'⟩) hi
  rw [hget] at hset
  unfold countCalls at hpos ⊢
  rw [hset]
  cases hp : (inv.tenantId == tenant && p st) with
  | true =>
    have hcounted := hpos hp
    cases (inv.tenantId == tenant && p st') <;> simp <;> omega
  | false => cases (inv.tenantId == tenant && p st') <;> simp

theorem countCalls_set_self (h : calls[i]? = some ⟨inv, st⟩) (st' : Stage) :
    countCalls p inv.tenantId (calls.set i ⟨inv, st'⟩) + (p st).toNat =
      countCalls p inv.tenantId calls + (p st').toNat := by
  have hset := countCalls_set (p := p) h st' inv.tenantId
  simp only [BEq.rfl, Bool.true_and] at hset
  exact hset

theorem countCalls_set_of_ne (h : calls[i]? = some ⟨inv, st⟩) (st' : Stage) {tenant : String}
    (hne : tenant ≠ inv.tenantId) :
    countCalls p tenant (calls.set i ⟨inv, st'⟩) = countCalls p tenant calls := by
  have hset := countCalls_set (p := p) h st' tenant
  simp only [beq_eq_false_iff_ne.mpr hne.symm, Bool.false_and, Bool.toNat_false] at hset
  exact hset

/-- A step of a call that keeps its hands off the jobs and off the other tenants' counters. -/
structure Touches (s s' : State) (tenant : String) : Prop where
  queue : s'.queue = s.queue
  loop : s'.loop = s.loop
  lanes : s'.lanes = s.lanes
  runs : s'.runs = s.runs
  entered : s'.entered = s.entered
  started : s'.started = s.started
  counter : ∀ t, t ≠ tenant → s'.counter t = s.counter t

/-- Such a step is a move of its tenant's account, if its counts are. -/
theorem account_call {tenant : String} (hcall : s.calls[i]? = some ⟨inv, st⟩)
    (hcalls : s'.calls = s.calls.set i ⟨inv, st'⟩) (h : Touches s s' inv.tenantId)
    (hmove : ∀ sending undoing,
      sending + (st.sends cfg.queueDepth).toNat
        = (s.account cfg inv.tenantId).sending + (st'.sends cfg.queueDepth).toNat →
      undoing + (st.undoes cfg.queueDepth).toNat
        = (s.account cfg inv.tenantId).undoing + (st'.undoes cfg.queueDepth).toNat →
      Account.Step cfg.queueDepth (s.account cfg inv.tenantId)
        { s.account cfg inv.tenantId with
          counter := s'.counter inv.tenantId, sending := sending, undoing := undoing }) :
    Account.Step cfg.queueDepth (s.account cfg tenant) (s'.account cfg tenant) := by
  have haccount : s'.account cfg tenant = { s.account cfg tenant with
      counter := s'.counter tenant
      sending := countCalls (Stage.sends cfg.queueDepth) tenant s'.calls
      undoing := countCalls (Stage.undoes cfg.queueDepth) tenant s'.calls } := by
    simp only [State.account, State.lane, h.queue, h.loop, h.lanes, h.runs, h.entered, h.started]
  rw [haccount, hcalls]
  obtain rfl | hne := eq_or_ne tenant inv.tenantId
  · exact hmove _ _ (countCalls_set_self hcall st') (countCalls_set_self hcall st')
  · rw [countCalls_set_of_ne hcall st' hne, countCalls_set_of_ne hcall st' hne, h.counter _ hne]
    exact .refl

end Calls

section Jobs

variable {cfg : FnConfig} {s s' : State}

/-- A step that is not about counters and keeps the jobs in their order keeps the accounts. -/
structure SameJobs (s s' : State) : Prop where
  depth : s'.depth = s.depth
  calls : s'.calls = s.calls
  entered : s'.entered = s.entered
  started : s'.started = s.started
  pending : ∀ t, (s'.lane t).jobs ++ (s'.loop.jobs ++ s'.queue).filter (Job.isOf t)
    = (s.lane t).jobs ++ (s.loop.jobs ++ s.queue).filter (Job.isOf t)
  begun : ∀ t, (s'.runs (.lane t)).begun = (s.runs (.lane t)).begun

theorem SameJobs.account (h : SameJobs s s') (tenant : String) :
    s'.account cfg tenant = s.account cfg tenant := by
  simp only [State.account, State.counter, h.depth, h.calls, h.entered, h.started, h.pending,
    h.begun]

theorem Job.isOf_self (job : Job) : job.isOf job.inv.tenantId = true :=
  beq_self_eq_true _

theorem Job.isOf_of_ne (job : Job) {tenant : String} (h : tenant ≠ job.inv.tenantId) :
    job.isOf tenant = false :=
  beq_eq_false_iff_ne.mpr h.symm

end Jobs

/-! ### Steps are moves -/

section Steps

variable {cfg : FnConfig} {s s' : State} {l : Label} {i : Nat} {inv : Invocation}
  {tenant : String}

theorem counter_setDepth_self (s : State) (tenant : String) (n : Nat) (i : Nat) (inv : Invocation)
    (st : Stage) : ((s.setDepth tenant n).setStage i inv st).counter tenant = n := by
  simp [State.counter, State.setDepth, State.setStage]

theorem touches_setDepth (s : State) (n : Nat) (i : Nat) (inv : Invocation) (st : Stage) :
    Touches s ((s.setDepth tenant n).setStage i inv st) tenant where
  queue := rfl
  loop := rfl
  lanes := rfl
  runs := rfl
  entered := rfl
  started := rfl
  counter := fun t ht => by
    simp [State.counter, State.setDepth, State.setStage, Function.update_of_ne ht]

@[simp] theorem lane_setLane_self (s : State) (t : String) (lane : Lane) :
    (s.setLane t lane).lane t = lane :=
  lane_update_self s rfl

theorem lane_setLane_of_ne {t t' : String} (lane : Lane) (h : t' ≠ t) :
    (s.setLane t lane).lane t' = s.lane t' :=
  lane_update_of_ne rfl h

@[simp] theorem lane_setRun (s : State) (p : Party) (r : Run) (t : String) :
    (s.setRun p r).lane t = s.lane t := rfl

/-- What a party's run has begun stays so. -/
theorem begun_update {p : Party} {r : Run} (h : r.begun = (s.runs p).begun) (t : String) :
    (Function.update s.runs p r (.lane t)).begun = (s.runs (.lane t)).begun := by
  obtain rfl | hp := eq_or_ne (Party.lane t) p
  · rw [Function.update_self, h]
  · rw [Function.update_of_ne hp]

theorem fetchSub_succ (n : Nat) : fetchSub (n + 1) = n := rfl

theorem account_undo {st st' : Stage} (hcall : s.calls[i]? = some ⟨inv, st⟩)
    (hsends : st.sends cfg.queueDepth = false) (hundoes : st.undoes cfg.queueDepth = true)
    (hsends' : st'.sends cfg.queueDepth = false) (hundoes' : st'.undoes cfg.queueDepth = false) :
    Account.Step cfg.queueDepth (s.account cfg tenant)
      (((s.setDepth inv.tenantId (fetchSub (s.counter inv.tenantId))).setStage i inv
        st').account cfg tenant) := by
  refine account_call hcall rfl (touches_setDepth s ..) ?_
  intro sending undoing hsending hundoing
  rw [hsends, hsends'] at hsending
  rw [hundoes, hundoes'] at hundoing
  obtain rfl : sending = _ := hsending
  rw [counter_setDepth_self]
  exact .undo fetchSub fetchSub_succ hundoing.symm

theorem account_send (hcall : s.calls[i]? = some ⟨inv, .sending⟩) :
    Account.Step cfg.queueDepth (s.account cfg tenant)
      (((s.push ⟨i, inv⟩).setStage i inv .sent).account cfg tenant) := by
  obtain rfl | hne := eq_or_ne tenant inv.tenantId
  · have hsending := countCalls_set_self (p := Stage.sends cfg.queueDepth) hcall .sent
    have hundoing := countCalls_set_self (p := Stage.undoes cfg.queueDepth) hcall .sent
    have haccount : ((s.push ⟨i, inv⟩).setStage i inv .sent).account cfg inv.tenantId =
        { s.account cfg inv.tenantId with
          sending := countCalls (Stage.sends cfg.queueDepth) inv.tenantId
            (s.calls.set i ⟨inv, .sent⟩)
          pending := (s.account cfg inv.tenantId).pending ++ [⟨i, inv⟩]
          entered := (s.account cfg inv.tenantId).entered ++ [⟨i, inv⟩] } := by
      have hself := Job.isOf_self ⟨i, inv⟩
      simp only [Stage.undoes, Bool.toNat_false, Nat.add_zero] at hundoing
      simp [State.account, State.push, State.setStage, State.lane, State.counter, hself, hundoing]
    rw [haccount]
    exact .enter hsending.symm _
  · -- a job of another tenant
    have hsending := countCalls_set_of_ne (p := Stage.sends cfg.queueDepth) hcall .sent hne
    have hundoing := countCalls_set_of_ne (p := Stage.undoes cfg.queueDepth) hcall .sent hne
    have hother := Job.isOf_of_ne ⟨i, inv⟩ hne
    have haccount : ((s.push ⟨i, inv⟩).setStage i inv .sent).account cfg tenant
        = s.account cfg tenant := by
      simp [State.account, State.push, State.setStage, State.lane, State.counter, hother, hsending,
        hundoing]
    rw [haccount]
    exact .refl

/-- A run starts the oldest job of its tenant, or none. -/
theorem RunMove.account {p : Party} {y : Run} (hs : Wired s) (h : RunMove s s' p y) :
    Account.Step cfg.queueDepth (s.account cfg tenant) (s'.account cfg tenant) := by
  have haccount : s'.account cfg tenant = { s.account cfg tenant with
      begun := (s'.runs (.lane tenant)).begun
      started := s'.started.filter (Job.isOf tenant) } := by
    simp only [State.account, State.counter, h.lane, h.depth, h.calls, h.queue, h.loop, h.entered]
  -- the account of a party that starts nothing of the tenant
  have hrefl (hbegun : (s'.runs (.lane tenant)).begun = (s.runs (.lane tenant)).begun)
      (hstarted : s'.started.filter (Job.isOf tenant) = s.started.filter (Job.isOf tenant)) :
      Account.Step cfg.queueDepth (s.account cfg tenant) (s'.account cfg tenant) := by
    rw [haccount, hbegun, hstarted]
    exact .refl
  have hstarted := h.started
  cases p with
  | caller n =>
    apply hrefl
    · rw [h.runs, Function.update_of_ne (by simp)]
    · rw [hstarted, jobOf_caller, ite_self, ite_self, List.append_nil]
  | lane t =>
    have hjobs : ∀ job ∈ (s.lane t).worker.jobs, job.inv.tenantId = t := fun job hjob =>
      hs.tenant t job (List.mem_append_left _ hjob)
    obtain rfl | ht := eq_or_ne tenant t
    · have hy : s'.runs (.lane tenant) = y := by rw [h.runs, Function.update_self]
      cases hbegun : (s.runs (.lane tenant)).begun with
      | true =>
        rw [hbegun, if_pos rfl, List.append_nil] at hstarted
        exact hrefl (by rw [hy, hbegun, h.begun hbegun]) (by rw [hstarted])
      | false =>
        rw [hbegun, if_neg Bool.false_ne_true] at hstarted
        cases hbegun' : y.begun with
        | false =>
          rw [hbegun', if_neg Bool.false_ne_true, List.append_nil] at hstarted
          exact hrefl (by rw [hy, hbegun, hbegun']) (by rw [hstarted])
        | true =>
          rw [hbegun', if_pos rfl] at hstarted
          cases hworker : (s.lane tenant).worker with
          | waiting =>
            obtain ⟨n, hn⟩ := h.idle (hs.idle tenant hworker)
            cases hn
          | running job =>
            have hjob : job.isOf tenant = true := by
              rw [hworker] at hjobs
              exact beq_iff_eq.mpr (hjobs job (List.mem_singleton_self job))
            have hpending : (s.account cfg tenant).pending = job :: ((s.lane tenant).queue ++
                (s.loop.jobs ++ s.queue).filter (Job.isOf tenant)) := by
              simp [State.account, Lane.jobs, hworker, Worker.jobs]
            have hfilter : s'.started.filter (Job.isOf tenant)
                = (s.account cfg tenant).started ++ [job] := by
              simp [hstarted, State.jobOf, State.account, hworker, Worker.jobs, hjob]
            rw [haccount, hy, hbegun', hfilter]
            exact .start hpending hbegun
    · apply hrefl
      · rw [h.runs, Function.update_of_ne (fun heq => ht (Party.lane.inj heq))]
      · -- the worker starts a job of its own tenant
        have hother : ((s.lane t).worker.jobs).filter (Job.isOf tenant) = [] := by
          rw [List.filter_eq_nil_iff]
          intro job hjob
          rw [Job.isOf_of_ne job (by rwa [hjobs job hjob])]
          exact Bool.false_ne_true
        rw [hstarted, List.filter_append]
        split
        · exact List.append_nil _
        · split
          · rw [State.jobOf, hother, List.append_nil]
          · exact List.append_nil _

theorem account_finish {job : Job} {queue : List Job}
    (hlane : s.lanes job.inv.tenantId = some ⟨queue, .running job⟩)
    (hbegun : (s.runs (.lane job.inv.tenantId)).begun = true) :
    Account.Step cfg.queueDepth (s.account cfg tenant)
      ((((s.decrementDepth job.inv.tenantId).setLane job.inv.tenantId ⟨queue, .waiting⟩).setRun
        (.lane job.inv.tenantId) .idle).account cfg tenant) := by
  obtain ⟨d, hd, hcounter⟩ := decrementDepth_eq s job.inv.tenantId
  have hcounter := hcounter tenant
  rw [hd] at hcounter ⊢
  obtain rfl | ht := eq_or_ne tenant job.inv.tenantId
  · have hpending : (s.account cfg job.inv.tenantId).pending = job :: (queue ++
        (s.loop.jobs ++ s.queue).filter (Job.isOf job.inv.tenantId)) := by
      simp [State.account, lane_eq hlane, Lane.jobs, Worker.jobs]
    have haccount : ((({ s with depth := d }.setLane job.inv.tenantId ⟨queue, .waiting⟩).setRun
        (.lane job.inv.tenantId) .idle).account cfg job.inv.tenantId) =
        { s.account cfg job.inv.tenantId with
          counter := (s.account cfg job.inv.tenantId).counter - 1
          pending := queue ++ (s.loop.jobs ++ s.queue).filter (Job.isOf job.inv.tenantId)
          begun := false } := by
      rw [if_pos rfl] at hcounter
      simp only [State.account, lane_setRun, lane_setLane_self, Account.mk.injEq]
      refine ⟨hcounter, rfl, rfl, rfl, ?_, rfl, rfl⟩
      simp [State.setRun, Run.begun]
    rw [haccount]
    exact .finish hpending hbegun
  · have haccount : ((({ s with depth := d }.setLane job.inv.tenantId ⟨queue, .waiting⟩).setRun
        (.lane job.inv.tenantId) .idle).account cfg tenant) = s.account cfg tenant := by
      rw [if_neg ht] at hcounter
      simp only [State.account, lane_setRun, lane_setLane_of_ne _ ht, Account.mk.injEq]
      refine ⟨hcounter, rfl, rfl, rfl, ?_, rfl, rfl⟩
      simp [State.setRun, State.setLane, Function.update_of_ne, ht]
    rw [haccount]
    exact .refl

/-- Whatever a party does, it is a move of every tenant's account. -/
theorem step_account (hs : Wired s) (h : step cfg s l = some s') (tenant : String) :
    Account.Step cfg.queueDepth (s.account cfg tenant) (s'.account cfg tenant) := by
  by_cases hl : ∃ p, l.party = some p
  · obtain ⟨p, hl⟩ := hl
    obtain ⟨y, hmove⟩ := step_run h hl
    exact hmove.account hs
  cases l with
  | enqueue inv =>
    obtain rfl := Option.some.inj h
    have hsame : State.account cfg { s with calls := s.calls ++ [⟨inv, .called⟩] } tenant
        = s.account cfg tenant := by
      simp [State.account, State.counter, State.lane, countCalls, Stage.sends, Stage.undoes]
    rw [hsame]
    exact .refl
  | lookupCounter i =>
    simp only [step] at h
    split at h
    · next inv hcall =>
      obtain rfl := Option.some.inj h
      refine account_call hcall rfl (touches_setDepth s ..) ?_
      intro sending undoing hsending hundoing
      obtain rfl : sending = _ := hsending
      obtain rfl : undoing = _ := hundoing
      rw [counter_setDepth_self]
      exact .refl
    · cases h
  | increment i =>
    simp only [step] at h
    split at h
    · next inv hcall =>
      obtain rfl := Option.some.inj h
      refine account_call hcall rfl (touches_setDepth s ..) ?_
      intro sending undoing hsending hundoing
      rw [counter_setDepth_self]
      -- the value that the call has seen decides whether it is admitted
      by_cases hlt : s.counter inv.tenantId < cfg.queueDepth
      · have hle : ¬ cfg.queueDepth ≤ s.counter inv.tenantId := not_le.mpr hlt
        simp only [Stage.sends, Stage.undoes, hlt, hle, decide_true, decide_false, Bool.toNat_true,
          Bool.toNat_false, Nat.add_zero] at hsending hundoing
        rw [hsending, hundoing]
        exact .grant hlt
      · have hle : cfg.queueDepth ≤ s.counter inv.tenantId := not_lt.mp hlt
        simp only [Stage.sends, Stage.undoes, hlt, hle, decide_true, decide_false, Bool.toNat_true,
          Bool.toNat_false, Nat.add_zero] at hsending hundoing
        rw [hsending, hundoing]
        exact .refuse hle
    · cases h
  | testCap i =>
    simp only [step] at h
    split at h
    · next inv prev hcall =>
      obtain rfl := Option.some.inj h
      refine account_call hcall rfl ⟨rfl, rfl, rfl, rfl, rfl, rfl, fun _ _ => rfl⟩ ?_
      intro sending undoing hsending hundoing
      -- the test has the outcome that was counted on
      have hsame : sending = (s.account cfg inv.tenantId).sending ∧
          undoing = (s.account cfg inv.tenantId).undoing := by
        by_cases hle : cfg.queueDepth ≤ prev
        · have hlt : ¬ prev < cfg.queueDepth := not_lt.mpr hle
          simp only [Stage.sends, Stage.undoes, hle, hlt, decide_true, decide_false, if_true,
            Bool.toNat_true, Bool.toNat_false] at hsending hundoing
          omega
        · have hlt : prev < cfg.queueDepth := not_le.mp hle
          simp only [Stage.sends, Stage.undoes, hle, hlt, decide_true, decide_false, if_false,
            Bool.toNat_true, Bool.toNat_false] at hsending hundoing
          omega
      rw [hsame.1, hsame.2]
      exact .refl
    · cases h
  | undo i =>
    simp only [step] at h
    split at h
    · next inv hcall =>
      obtain rfl := Option.some.inj h
      exact account_undo hcall rfl rfl rfl rfl
    · cases h
  | undoLost i =>
    simp only [step] at h
    split at h
    · next inv hcall =>
      obtain rfl := Option.some.inj h
      exact account_undo hcall rfl rfl rfl rfl
    · cases h
  | recordDrop i live =>
    simp only [step] at h
    split at h
    · next inv hcall =>
      obtain rfl := Option.some.inj h
      refine account_call hcall rfl ⟨rfl, rfl, rfl, rfl, rfl, rfl, fun _ _ => rfl⟩ ?_
      intro sending undoing hsending hundoing
      obtain rfl : sending = _ := hsending
      obtain rfl : undoing = _ := hundoing
      exact .refl
    · cases h
  | send i =>
    simp only [step] at h
    split at h
    · next inv hcall =>
      split at h
      · obtain rfl := Option.some.inj h
        refine account_call hcall rfl ⟨rfl, rfl, rfl, rfl, rfl, rfl, fun _ _ => rfl⟩ ?_
        intro sending undoing hsending hundoing
        obtain rfl : undoing = _ := hundoing
        exact .lose hsending.symm
      · split at h
        · obtain rfl := Option.some.inj h
          exact account_send hcall
        · cases h
    · cases h
  | recv =>
    simp only [step] at h
    split at h
    · next job queue hloop hqueue =>
      obtain rfl := Option.some.inj h
      have hsame : SameJobs s { s with queue := queue, loop := .routing job } := by
        refine ⟨rfl, rfl, rfl, rfl, fun t => ?_, fun _ => rfl⟩
        rw [hloop, hqueue]
        rfl
      rw [hsame.account]
      exact .refl
    · cases h
  | openLane =>
    simp only [step] at h
    split at h
    · next job hloop =>
      obtain rfl := Option.some.inj h
      have hsame : SameJobs s ({ s with loop := .forwarding job }.setLane job.inv.tenantId
          (s.lane job.inv.tenantId)) := by
        refine ⟨rfl, rfl, rfl, rfl, fun t => ?_, fun _ => rfl⟩
        obtain rfl | ht := eq_or_ne t job.inv.tenantId
        · rw [lane_setLane_self, hloop]
          rfl
        · rw [lane_setLane_of_ne _ ht, hloop]
          rfl
      rw [hsame.account]
      exact .refl
    · cases h
  | forward =>
    simp only [step] at h
    split at h
    · next job hloop =>
      split at h
      · next lane hlane =>
        obtain rfl := Option.some.inj h
        obtain rfl := lane_eq hlane
        have hsame : SameJobs s ({ s with loop := .receiving }.setLane job.inv.tenantId
            { s.lane job.inv.tenantId with
              queue := (s.lane job.inv.tenantId).queue ++ [job] }) := by
          refine ⟨rfl, rfl, rfl, rfl, fun t => ?_, fun _ => rfl⟩
          obtain rfl | ht := eq_or_ne t job.inv.tenantId
          · rw [lane_setLane_self, hloop]
            simp [Lane.jobs, Loop.jobs, State.setLane, Job.isOf_self]
          · rw [lane_setLane_of_ne _ ht, hloop]
            simp [State.lane, Loop.jobs, State.setLane, Job.isOf_of_ne job ht]
        rw [hsame.account]
        exact .refl
      · cases h
    · cases h
  | shutDown =>
    simp only [step] at h
    split at h
    · next hloop =>
      obtain rfl := Option.some.inj h
      have hsame : SameJobs s { s with loop := .gone } :=
        ⟨rfl, rfl, rfl, rfl, fun t => by rw [hloop]; rfl, fun _ => rfl⟩
      rw [hsame.account]
      exact .refl
    · cases h
  | take t =>
    simp only [step] at h
    split at h
    · next job queue hlane =>
      obtain rfl := Option.some.inj h
      have hidle : s.runs (.lane t) = .idle := hs.idle t (by rw [lane_eq hlane])
      have hsame : SameJobs s ((s.setLane t ⟨queue, .running job⟩).setRun (.lane t)
          (.called job.inv)) := by
        refine ⟨rfl, rfl, rfl, rfl, fun t' => ?_, begun_update (s := s) (by rw [hidle]; rfl)⟩
        obtain rfl | ht := eq_or_ne t' t
        · rw [lane_eq hlane, lane_setRun, lane_setLane_self]
          rfl
        · rw [lane_setRun, lane_setLane_of_ne _ ht]
          rfl
      rw [hsame.account]
      exact .refl
    · cases h
  | decrement t =>
    simp only [step] at h
    split at h
    · next queue job out hlane hp =>
      obtain rfl := Option.some.inj h
      obtain rfl : job.inv.tenantId = t := by
        have hjobs := hs.tenant t job
        rw [lane_eq hlane] at hjobs
        exact hjobs List.mem_cons_self
      exact account_finish hlane (by rw [hp]; rfl)
    · cases h
  | invoke n _ | cancel n => exact absurd ⟨.caller n, rfl⟩ hl
  | lookupLock p | lock p | acquire p | resolve p | record p | drop p => exact absurd ⟨p, rfl⟩ hl

end Steps

/-! ### What was sent -/

/-- What is on record as sent is what the calls have sent, once each. -/
structure Sent (s : State) : Prop where
  mem : ∀ job, job ∈ s.entered ↔ s.calls[job.call]? = some ⟨job.inv, .sent⟩
  nodup : s.entered.Nodup

section Sent

variable {cfg : FnConfig} {s s' : State} {l : Label} {i : Nat} {inv : Invocation}
  {st st' : Stage}

theorem Sent.set (hs : Sent s) (hcall : s.calls[i]? = some ⟨inv, st⟩)
    (hcalls : s'.calls = s.calls.set i ⟨inv, st'⟩) (hentered : s'.entered = s.entered)
    (hst : st ≠ .sent) (hst' : st' ≠ .sent) : Sent s' where
  mem := by
    intro job
    rw [hentered, hs.mem, hcalls]
    obtain hi | hi := eq_or_ne job.call i
    · -- it had not sent before and has not sent now
      rw [hi, List.getElem?_set_self (List.getElem?_eq_some_iff.mp hcall).1, hcall]
      simp [hst, hst']
    · rw [List.getElem?_set_ne hi.symm]
  nodup := by
    rw [hentered]
    exact hs.nodup

theorem sent_push (hs : Sent s) (hcall : s.calls[i]? = some ⟨inv, .sending⟩) :
    Sent ((s.push ⟨i, inv⟩).setStage i inv .sent) where
  mem := by
    intro job
    simp only [State.push, State.setStage, List.mem_append, List.mem_singleton]
    rw [hs.mem]
    obtain ⟨call, inv'⟩ := job
    obtain rfl | hi := eq_or_ne call i
    · rw [List.getElem?_set_self (List.getElem?_eq_some_iff.mp hcall).1, hcall]
      simp [eq_comm]
    · rw [List.getElem?_set_ne hi.symm]
      simp [hi]
  nodup := by
    simp only [State.push, State.setStage, ← List.concat_eq_append]
    refine hs.nodup.concat ?_
    rw [hs.mem, hcall]
    simp

theorem sent_enqueue (hs : Sent s) (inv : Invocation) :
    Sent { s with calls := s.calls ++ [⟨inv, .called⟩] } where
  mem := by
    intro job
    rw [hs.mem]
    obtain hlt | hle := Nat.lt_or_ge job.call s.calls.length
    · rw [List.getElem?_append_left hlt]
    · rw [List.getElem?_append_right hle, List.getElem?_eq_none hle]
      cases job.call - s.calls.length <;> simp
  nodup := hs.nodup

theorem sent_step (hs : Sent s) (h : step cfg s l = some s') : Sent s' := by
  by_cases hl : ∃ p, l.party = some p
  · obtain ⟨p, hl⟩ := hl
    obtain ⟨y, hmove⟩ := step_run h hl
    refine ⟨?_, ?_⟩
    · rw [hmove.calls, hmove.entered]
      exact hs.mem
    · rw [hmove.entered]
      exact hs.nodup
  cases l with
  | enqueue inv =>
    obtain rfl := Option.some.inj h
    exact sent_enqueue hs inv
  | testCap i =>
    simp only [step] at h
    split at h
    · next inv prev hcall =>
      obtain rfl := Option.some.inj h
      refine hs.set hcall rfl rfl (by simp) ?_
      split <;> simp
    · cases h
  | send i =>
    simp only [step] at h
    split at h
    · next inv hcall =>
      split at h
      · obtain rfl := Option.some.inj h
        exact hs.set hcall rfl rfl (by simp) (by simp)
      · split at h
        · obtain rfl := Option.some.inj h
          exact sent_push hs hcall
        · cases h
    · cases h
  | lookupCounter i | increment i | undo i | undoLost i | recordDrop i =>
    simp only [step] at h
    split at h
    · next hcall =>
      obtain rfl := Option.some.inj h
      exact hs.set hcall rfl rfl (by simp) (by simp)
    · cases h
  | decrement t =>
    simp only [step] at h
    split at h
    · next queue job out _ _ =>
      obtain rfl := Option.some.inj h
      obtain ⟨d, hd, -⟩ := decrementDepth_eq s job.inv.tenantId
      rw [hd]
      exact ⟨hs.mem, hs.nodup⟩
    · cases h
  | invoke n _ | cancel n => exact absurd ⟨.caller n, rfl⟩ hl
  | lookupLock p | lock p | acquire p | resolve p | record p | drop p => exact absurd ⟨p, rfl⟩ hl
  | recv | openLane | forward | shutDown | take =>
    simp only [step] at h
    repeat' split at h
    all_goals first
      | cases h; done
      | (obtain rfl := Option.some.inj h; exact ⟨hs.mem, hs.nodup⟩)

end Sent

/-! ### Runs -/

/-- What holds in every state that is reached. -/
structure Reached (cfg : FnConfig) (s : State) : Prop where
  wired : Wired s
  held : Held cfg s.gates s.runs
  sent : Sent s
  balanced : ∀ t, (s.account cfg t).Balanced cfg.queueDepth

/-- The queue keeps count and order. -/
structure Accounted (cfg : FnConfig) (s : State) : Prop where
  /-- A counter is the admitted invocations that are not counted off and the calls that are to
  take their increment back. -/
  counter : ∀ t, s.counter t = (s.account cfg t).admitted + (s.account cfg t).undoing
  /-- The decrement of a worker does not meet zero. -/
  positive : ∀ t s', step cfg s (.decrement t) = some s' → 0 < s.counter t
  cap : ∀ t, (s.account cfg t).admitted ≤ cfg.queueDepth
  /-- The queue has what the calls have sent, and nothing else. -/
  sent : ∀ job, job ∈ s.entered ↔ s.calls[job.call]? = some ⟨job.inv, .sent⟩
  /-- Of a tenant, what was sent is counted off or pending, and what was started is what is
  counted off and, if it is begun, the oldest that is pending, in the order of the queue. -/
  order : ∀ t, ∃ done, s.entered.filter (Job.isOf t) = done ++ (s.account cfg t).pending ∧
    s.started.filter (Job.isOf t) = done ++ (s.account cfg t).running
  /-- No call is started twice. -/
  once : (s.started.map Job.call).Nodup
  /-- A worker runs the invocation of its job. -/
  worker : ∀ t job, (s.lane t).worker = .running job →
    ∀ inv, (s.runs (.lane t)).inv = some inv → inv = job.inv
  /-- Of one tenant at most one run is between its permit and its completion. -/
  tenant : ∀ p q inv inv', (s.runs p).permit = true → (s.runs q).permit = true →
    (s.runs p).inv = some inv → (s.runs q).inv = some inv' → inv.tenantId = inv'.tenantId → p = q
  /-- Over all tenants no more are than there are permits. -/
  global : ∀ ps : List Party, ps.Nodup → (∀ p ∈ ps, (s.runs p).permit = true) →
    ps.length ≤ max cfg.concurrency 1

section Runs

variable {cfg : FnConfig} {s s' : State} {l : Label}

theorem reached_init (cfg : FnConfig) : Reached cfg (init cfg) where
  wired := wired_init cfg
  held := held_init cfg
  sent := ⟨fun _ => by simp [init], .nil⟩
  balanced := fun _ => ⟨rfl, Nat.zero_le _, fun h => absurd h Bool.false_ne_true, [], rfl, rfl⟩

theorem reached_step (hs : Reached cfg s) (h : step cfg s l = some s') : Reached cfg s' where
  wired := wired_step hs.wired h
  held := held_run_step hs.wired hs.held h
  sent := sent_step hs.sent h
  balanced := fun t => (hs.balanced t).step (step_account hs.wired h t)

/-- What was started was sent. -/
theorem Reached.mem_entered (hs : Reached cfg s) {job : Job} (hjob : job ∈ s.started) :
    job ∈ s.entered := by
  have hinitial := (hs.balanced job.inv.tenantId).started_initial
  have hof : job ∈ s.started.filter (Job.isOf job.inv.tenantId) :=
    List.mem_filter.mpr ⟨hjob, job.isOf_self⟩
  exact List.mem_of_mem_filter (hinitial.subset hof)

theorem Reached.started_nodup (hs : Reached cfg s) : s.started.Nodup := by
  rw [List.nodup_iff_count_le_one]
  intro job
  -- a job is counted among those of its tenant
  have hinitial := (hs.balanced job.inv.tenantId).started_initial
  have hself : job.isOf job.inv.tenantId = true := job.isOf_self
  calc s.started.count job
      = (s.started.filter (Job.isOf job.inv.tenantId)).count job := (List.count_filter hself).symm
    _ ≤ (s.entered.filter (Job.isOf job.inv.tenantId)).count job := hinitial.sublist.count_le job
    _ = s.entered.count job := List.count_filter hself
    _ ≤ 1 := List.nodup_iff_count_le_one.mp hs.sent.nodup job

/-- A call that is started twice has sent one job. -/
theorem Reached.once (hs : Reached cfg s) : (s.started.map Job.call).Nodup := by
  refine List.Nodup.map_on ?_ hs.started_nodup
  intro job hjob job' hjob' hcall
  have hsent := (hs.sent.mem job).mp (hs.mem_entered hjob)
  have hsent' := (hs.sent.mem job').mp (hs.mem_entered hjob')
  rw [hcall, hsent', Option.some.injEq, Call.mk.injEq] at hsent
  cases job
  cases job'
  rw [Job.mk.injEq]
  exact ⟨hcall, hsent.1.symm⟩

theorem Reached.positive (hs : Reached cfg s) {t : String}
    (h : step cfg s (.decrement t) = some s') : 0 < s.counter t := by
  have hbegun : (s.account cfg t).begun = true := by
    simp only [step] at h
    split at h
    · next hp =>
      simp only [State.account, hp, Run.begun]
    · cases h
  exact (hs.balanced t).counter_pos hbegun

theorem queue_accounted {cfg : FnConfig} {ls : List Label} {s : State}
    (hrun : run (step cfg) (init cfg) ls = some s) : Accounted cfg s := by
  have hs : Reached cfg s := run_invariant reached_step (reached_init cfg) hrun
  refine ⟨fun t => (hs.balanced t).counter, fun _ _ => hs.positive,
    fun t => (hs.balanced t).admitted, hs.sent.mem, fun t => (hs.balanced t).order, hs.once,
    hs.wired.inv, fun _ _ _ _ => hs.held.permit_unique, ?_⟩
  intro ps hnodup hps
  exact hs.held.counted.length_le hnodup hps

def uploadEvent : Invocation where
  tenantId := "t1"
  functionName := "thumbnail"
  trigger := "file.uploaded"
  eventJson := ""
  caller := .privileged

/-- Of two calls one is over the cap, and the other waits for a caller of the same tenant. -/
def overflowRun : List Label :=
  [.enqueue uploadEvent, .enqueue uploadEvent, .lookupCounter 0, .lookupCounter 1, .increment 0,
   .increment 1, .testCap 1, .undo 1, .recordDrop 1 true, .testCap 0, .send 0, .recv, .openLane,
   .forward, .invoke 0 uploadEvent, .lookupLock (.caller 0), .lock (.caller 0), .take "t1",
   .lookupLock (.lane "t1"), .acquire (.caller 0),
   .resolve (.caller 0) true (.ok none) (failed ""), .record (.caller 0) true, .drop (.caller 0),
   .drop (.caller 0), .lock (.lane "t1"), .acquire (.lane "t1"),
   .resolve (.lane "t1") true (.ok (some ⟨true, false, false⟩)) ⟨.trap, "", ""⟩,
   .record (.lane "t1") true, .drop (.lane "t1"), .drop (.lane "t1")]

theorem queue_accounted_overflow : ∃ s,
    run (step ⟨1, 0⟩) (init ⟨1, 0⟩) overflowRun = some s ∧
    s.started = [⟨0, uploadEvent⟩] ∧ s.dropped = 1 ∧ s.completed = 2 ∧ s.counter "t1" = 1 ∧
    Accounted ⟨1, 0⟩ s := by
  have hrun : run (step ⟨1, 0⟩) (init ⟨1, 0⟩) overflowRun
      = some ((run (step ⟨1, 0⟩) (init ⟨1, 0⟩) overflowRun).get (by decide)) :=
    (Option.some_get _).symm
  exact ⟨_, hrun, by decide, by decide, by decide, by decide, queue_accounted hrun⟩

end Runs

end Executor

end Drust
