import Drust.Tenant.WebhookDispatcher
import Mathlib.Order.Nat

/-!
# A revoked origin is sent no more webhooks

The version is read before the list and bumped after the commit. So a fan-out that holds a
list older than a commit has also read the version before the bump of it, and the first
attempt of each of its deliveries sees that the version has moved. A fan-out with a newer list
does not get past its gate.
-/

namespace Drust

namespace WebhookDispatcher

open Egress Transition

/-! ### What a step does -/

inductive FanoutStep (env : Env) (s : State) : Fanout → Fanout → Prop
  | dispatch (subs : List Subscription) :
      FanoutStep env s .idle (if subs.isEmpty then .finished [] else .listed subs)
  | version (subs : List Subscription) :
      FanoutStep env s (.listed subs) (.versioned subs s.version)
  | list (subs : List Subscription) (v : Nat) (ok : Bool) : FanoutStep env s (.versioned subs v)
      (.gating subs v (readTenantEgressAllowlist s ok).orDenyAll [])
  | finish {v : Nat} {allowlist : Option Json} {denied : List (Int × String)} :
      FanoutStep env s (.gating [] v allowlist denied) (.finished denied)
  /-- A subscription without a matching event, or one that is denied. -/
  | pass {sub : Subscription} {subs : List Subscription} {v : Nat} {allowlist : Option Json}
      {denied denied' : List (Int × String)} :
      FanoutStep env s (.gating (sub :: subs) v allowlist denied)
        (.gating subs v allowlist denied')
  | allow {sub : Subscription} {subs : List Subscription} {v : Nat} {allowlist : Option Json}
      {denied : List (Int × String)} (h : dispatchEgressAllowed env allowlist sub.url = true) :
      FanoutStep env s (.gating (sub :: subs) v allowlist denied)
        (.spawning sub.matching sub.url subs v allowlist denied)
  | next {url : String} {subs : List Subscription} {v : Nat} {allowlist : Option Json}
      {denied : List (Int × String)} :
      FanoutStep env s (.spawning 0 url subs v allowlist denied) (.gating subs v allowlist denied)
  | skip {left : Nat} {url : String} {subs : List Subscription} {v : Nat}
      {allowlist : Option Json} {denied : List (Int × String)} :
      FanoutStep env s (.spawning (left + 1) url subs v allowlist denied)
        (.spawning left url subs v allowlist denied)

inductive DeliveryStep (env : Env) (s : State) : Delivery → Delivery → Prop
  | start (job : Job) (parseErr : String) (resolved : Bool) :
      DeliveryStep env s (.spawned job) (deliverInner env job parseErr resolved)
  | check (job : Job) (idx : Nat) (lastErr : String) :
      DeliveryStep env s (.attempt job idx lastErr) (check s job idx lastErr)
  | reread (job : Job) (idx : Nat) (lastErr : String) (ok : Bool) :
      DeliveryStep env s (.rereading job idx lastErr)
        (reread env job idx lastErr (readTenantEgressAllowlist s ok))
  | post (job : Job) (idx : Nat) (lastErr : String) :
      DeliveryStep env s (.sending job idx lastErr) (.awaiting job idx lastErr)
  | buildFails (job : Job) (idx : Nat) (lastErr e : String) :
      DeliveryStep env s (.sending job idx lastErr) (.ended (.error (.nonRetryable 0 e)))
  | respond (job : Job) (idx : Nat) (lastErr : String) (answer : Except String (Nat × String)) :
      DeliveryStep env s (.awaiting job idx lastErr) (respond job idx answer)

/-- The delivery whose step it is. -/
def Label.delivery : Label → Option Nat
  | .start d _ _ | .check d | .reread d _ | .post d | .buildFails d _ | .respond d _ => some d
  | _ => none

/-- What a step changes: one call with or without the row, the version, a fan-out or a
delivery. -/
inductive Effect (env : Env) (s : State) (l : Label) : State → Prop
  | writer (w : Nat) (x : Writer) (hl : l.delivery = none) (h : s.writers w = .idle ∨
      ∃ stored, s.writers w = .validated stored) : Effect env s l (setWriter s w x)
  | update (w : Nat) (stored : Option Json) (hl : l = .update w true)
      (h : s.writers w = .validated stored) :
      Effect env s l (setWriter
        { s with allowlist := if s.deleted then s.allowlist else stored } w .committed)
  | softDelete (w : Nat) (hl : l.delivery = none) (h : s.writers w = .idle) :
      Effect env s l (setWriter { s with deleted := true } w .committed)
  | bump (w : Nat) (hl : l.delivery = none) (h : s.writers w = .committed) :
      Effect env s l (setWriter { s with version := s.version + 1 } w .returned)
  | fanout (f : Nat) {x : Fanout} (hl : l.delivery = none)
      (h : FanoutStep env s (s.fanouts f) x) : Effect env s l (setFanout s f x)
  | spawn (f d left : Nat) (url : String) (subs : List Subscription) (v : Nat)
      (allowlist : Option Json) (denied : List (Int × String)) (hl : l.delivery = none)
      (h : s.fanouts f = .spawning (left + 1) url subs v allowlist denied)
      (hd : s.deliveries d = .idle) :
      Effect env s l (setDelivery (setFanout s f (.spawning left url subs v allowlist denied)) d
        (.spawned ⟨url, v⟩))
  | delivery (d : Nat) {x : Delivery} (hl : l.delivery = some d)
      (h : DeliveryStep env s (s.deliveries d) x) : Effect env s l (setDelivery s d x)

section Steps

variable {env : Env} {s s' : State} {l : Label}

theorem step_effect (h : step env s l = some s') : Effect env s l s' := by
  cases l with
  | setAllowlist w entries =>
    simp only [step] at h
    split at h
    · next hw =>
      split at h
      all_goals
        obtain rfl := Option.some.inj h
        exact .writer w _ rfl (.inl hw)
    · cases h
  | update w ok =>
    simp only [step] at h
    split at h
    · next stored hw =>
      split at h
      · next hok =>
        obtain rfl := Option.some.inj h
        exact .update w stored (by rw [hok]) hw
      · obtain rfl := Option.some.inj h
        exact .writer w _ rfl (.inr ⟨stored, hw⟩)
    · cases h
  | softDelete w =>
    simp only [step] at h
    split at h
    · next hw =>
      split at h
      · cases h
      · obtain rfl := Option.some.inj h
        exact .softDelete w rfl hw
    · cases h
  | bump w =>
    simp only [step] at h
    split at h
    · next hw =>
      obtain rfl := Option.some.inj h
      exact .bump w rfl hw
    · cases h
  | dispatchMany f subs =>
    simp only [step] at h
    split at h
    · next hf =>
      obtain rfl := Option.some.inj h
      exact .fanout f rfl (hf ▸ .dispatch subs)
    · cases h
  | readVersion f =>
    simp only [step] at h
    split at h
    · next subs hf =>
      obtain rfl := Option.some.inj h
      exact .fanout f rfl (hf ▸ .version subs)
    · cases h
  | readList f ok =>
    simp only [step] at h
    split at h
    · next subs v hf =>
      obtain rfl := Option.some.inj h
      exact .fanout f rfl (hf ▸ .list subs v ok)
    · cases h
  | gate f =>
    simp only [step] at h
    split at h
    · next hf =>
      obtain rfl := Option.some.inj h
      exact .fanout f rfl (hf ▸ .finish)
    · next hf =>
      split at h
      · obtain rfl := Option.some.inj h
        exact .fanout f rfl (hf ▸ .pass)
      · split at h
        · next hallow =>
          obtain rfl := Option.some.inj h
          exact .fanout f rfl (hf ▸ .allow hallow)
        · obtain rfl := Option.some.inj h
          exact .fanout f rfl (hf ▸ .pass)
    · next hf =>
      obtain rfl := Option.some.inj h
      exact .fanout f rfl (hf ▸ .next)
    · cases h
  | spawn f d =>
    simp only [step] at h
    split at h
    · next left url subs v allowlist denied hf hd =>
      obtain rfl := Option.some.inj h
      exact .spawn f d left url subs v allowlist denied rfl hf hd
    · cases h
  | skipEvent f =>
    simp only [step] at h
    split at h
    · next hf =>
      obtain rfl := Option.some.inj h
      exact .fanout f rfl (hf ▸ .skip)
    · cases h
  | start d parseErr resolved =>
    simp only [step] at h
    split at h
    · next job hd =>
      obtain rfl := Option.some.inj h
      exact .delivery d rfl (hd ▸ .start job parseErr resolved)
    · cases h
  | check d =>
    simp only [step] at h
    split at h
    · next job idx lastErr hd =>
      obtain rfl := Option.some.inj h
      exact .delivery d rfl (hd ▸ .check job idx lastErr)
    · cases h
  | reread d ok =>
    simp only [step] at h
    split at h
    · next job idx lastErr hd =>
      obtain rfl := Option.some.inj h
      exact .delivery d rfl (hd ▸ .reread job idx lastErr ok)
    · cases h
  | post d =>
    simp only [step] at h
    split at h
    · next job idx lastErr hd =>
      obtain rfl := Option.some.inj h
      exact .delivery d rfl (hd ▸ .post job idx lastErr)
    · cases h
  | buildFails d e =>
    simp only [step] at h
    split at h
    · next job idx lastErr hd =>
      split at h
      · obtain rfl := Option.some.inj h
        exact .delivery d rfl (hd ▸ .buildFails job idx lastErr _)
      · cases h
    · cases h
  | respond d answer =>
    simp only [step] at h
    split at h
    · next job idx lastErr hd =>
      obtain rfl := Option.some.inj h
      exact .delivery d rfl (hd ▸ .respond job idx lastErr answer)
    · cases h

/-- What a step does to one fan-out; a spawn drops one event of it. -/
theorem step_fanout (h : step env s l = some s') (f : Nat) :
    s'.fanouts f = s.fanouts f ∨ FanoutStep env s (s.fanouts f) (s'.fanouts f) := by
  cases step_effect h with
  | @fanout q x _ hstep =>
    obtain rfl | hf := eq_or_ne f q
    · exact .inr ((setFanout_self s f x).symm ▸ hstep)
    · exact .inl (Function.update_of_ne hf ..)
  | spawn q d left url subs v allowlist denied _ hq =>
    obtain rfl | hf := eq_or_ne f q
    · refine .inr ?_
      have hself := setFanout_self s f (.spawning left url subs v allowlist denied)
      exact hself.symm ▸ hq ▸ .skip
    · exact .inl (Function.update_of_ne hf ..)
  | _ => exact .inl rfl

/-- What a step does to one delivery. -/
theorem step_delivery (h : step env s l = some s') (d : Nat) :
    (s'.deliveries d = s.deliveries d ∧ l.delivery ≠ some d) ∨
    (DeliveryStep env s (s.deliveries d) (s'.deliveries d) ∧ l.delivery = some d) ∨
    (∃ f left url subs v allowlist denied,
      s.fanouts f = .spawning (left + 1) url subs v allowlist denied ∧
      s.deliveries d = .idle ∧ s'.deliveries d = .spawned ⟨url, v⟩) := by
  have hnone : l.delivery = none → l.delivery ≠ some d := by
    intro hl
    rw [hl]
    exact nofun
  cases step_effect h with
  | writer _ _ hl => exact .inl ⟨rfl, hnone hl⟩
  | update _ _ hl => exact .inl ⟨rfl, hnone (by rw [hl]; rfl)⟩
  | softDelete _ hl => exact .inl ⟨rfl, hnone hl⟩
  | bump _ hl => exact .inl ⟨rfl, hnone hl⟩
  | fanout _ hl => exact .inl ⟨rfl, hnone hl⟩
  | spawn f p left url subs v allowlist denied hl hf hp =>
    obtain rfl | hd := eq_or_ne d p
    · exact .inr (.inr ⟨f, left, url, subs, v, allowlist, denied, hf, hp, setDelivery_self ..⟩)
    · exact .inl ⟨Function.update_of_ne hd .., hnone hl⟩
  | @delivery p x hl hstep =>
    obtain rfl | hd := eq_or_ne d p
    · exact .inr (.inl ⟨(setDelivery_self s d x).symm ▸ hstep, hl⟩)
    · refine .inl ⟨Function.update_of_ne hd .., ?_⟩
      rw [hl]
      exact fun heq => hd (Option.some.inj heq).symm

/-- Only the bump of a call changes the version. -/
theorem step_version (h : step env s l = some s') : s.version ≤ s'.version := by
  cases step_effect h with
  | bump => exact Nat.le_succ s.version
  | _ => exact Nat.le_refl s.version

end Steps

/-! ### Snapshots -/

/-- The version that a fan-out has read. -/
def Fanout.snapshot : Fanout → Option Nat
  | .versioned _ v | .gating _ v _ _ | .spawning _ _ _ v _ _ => some v
  | _ => none

/-- The fan-out holds a list that allows the URL, or is past the gate with it. -/
def Fanout.passes (url : String) : Fanout → Bool
  | .gating _ _ allowlist _ => checkEgress allowlist .webhook url
  | .spawning _ target _ _ allowlist _ => target == url || checkEgress allowlist .webhook url
  | _ => false

def Delivery.job : Delivery → Option Job
  | .spawned job | .attempt job _ _ | .rereading job _ _ | .sending job _ _ | .awaiting job _ _ =>
    some job
  | _ => none

section Parties

variable {env : Env} {s : State} {x y : Fanout}

theorem FanoutStep.snapshot_eq (h : FanoutStep env s x y) {v : Nat} (hv : y.snapshot = some v) :
    x.snapshot = some v ∨ v = s.version := by
  cases h with
  | dispatch subs =>
    split at hv
    all_goals cases hv
  | version => exact .inr (Option.some.inj hv).symm
  | finish => cases hv
  | _ => exact .inl hv

/-- As long as the list in force denies the URL, no fan-out comes to allow it. -/
theorem FanoutStep.passes_before {url : String} (hloopback : isLoopbackDevUrl env url = false)
    (hdenies : checkEgress s.liveAllowlist .webhook url = false) (h : FanoutStep env s x y)
    (hpasses : y.passes url = true) : x.passes url = true ∧ y.snapshot = x.snapshot := by
  cases h with
  | dispatch subs =>
    split at hpasses
    all_goals cases hpasses
  | version => cases hpasses
  | list subs v ok =>
    -- the list that it reads is the one in force or none
    cases ok with
    | true =>
      have hread : checkEgress s.liveAllowlist .webhook url = true := hpasses
      rw [hdenies] at hread
      cases hread
    | false =>
      have hread : checkEgress denyAll .webhook url = true := hpasses
      rw [checkEgress_denyAll] at hread
      cases hread
  | finish => cases hpasses
  | pass => exact ⟨hpasses, rfl⟩
  | @allow sub subs v allowlist denied hallow =>
    refine ⟨?_, rfl⟩
    obtain hurl | hcheck := Bool.or_eq_true_iff.mp hpasses
    · -- the gate has just let it through
      rw [eq_of_beq hurl, dispatchEgressAllowed_eq hloopback] at hallow
      exact hallow
    · exact hcheck
  | next => exact ⟨Bool.or_eq_true_iff.mpr (.inr hpasses), rfl⟩
  | skip => exact ⟨hpasses, rfl⟩

theorem nextAttempt_job {job : Job} {idx : Nat} {lastErr : String} {j : Job}
    (h : (nextAttempt job idx lastErr).job = some j) : job = j := by
  unfold nextAttempt at h
  split at h
  · exact Option.some.inj h
  · cases h

theorem DeliveryStep.job_eq {x y : Delivery} (h : DeliveryStep env s x y) {job : Job}
    (hjob : y.job = some job) : x.job = some job := by
  cases h with
  | start j parseErr resolved =>
    unfold deliverInner at hjob
    split at hjob
    · cases hjob
    · split at hjob
      · exact hjob
      · cases hjob
  | check j idx lastErr =>
    unfold WebhookDispatcher.check at hjob
    split at hjob
    all_goals exact hjob
  | reread j idx lastErr ok =>
    unfold WebhookDispatcher.reread at hjob
    split at hjob
    · split at hjob
      · exact hjob
      · cases hjob
    · rw [← nextAttempt_job hjob]
      rfl
  | post => exact hjob
  | buildFails => cases hjob
  | respond j idx lastErr answer =>
    unfold WebhookDispatcher.respond at hjob
    split at hjob
    · split at hjob
      · cases hjob
      · split at hjob
        · cases hjob
        · rw [← nextAttempt_job hjob]
          rfl
    · rw [← nextAttempt_job hjob]
      rfl

end Parties

/-- No party has read a version that is not there yet. -/
structure Inv (s : State) : Prop where
  fanouts : ∀ f v, (s.fanouts f).snapshot = some v → v ≤ s.version
  deliveries : ∀ d job, (s.deliveries d).job = some job → job.egressSnapshotVer ≤ s.version

theorem inv_init (allowlist : Option Json) (deleted : Bool) : Inv (init allowlist deleted) where
  fanouts := by
    intro f v h
    cases h
  deliveries := by
    intro d job h
    cases h

theorem inv_step {env : Env} {s s' : State} {l : Label} (hs : Inv s)
    (h : step env s l = some s') : Inv s' := by
  have hversion := step_version h
  constructor
  · intro f v hv
    obtain hsame | hstep := step_fanout h f
    · rw [hsame] at hv
      exact (hs.fanouts f v hv).trans hversion
    · obtain hold | rfl := hstep.snapshot_eq hv
      · exact (hs.fanouts f v hold).trans hversion
      · exact hversion
  · intro d job hjob
    obtain ⟨hsame, -⟩ | ⟨hstep, -⟩ | ⟨f, left, url, subs, v, allowlist, denied, hf, -, hd⟩ :=
      step_delivery h d
    · rw [hsame] at hjob
      exact (hs.deliveries d job hjob).trans hversion
    · exact (hs.deliveries d job (hstep.job_eq hjob)).trans hversion
    · -- the version of the fan-out is handed to the delivery
      rw [hd] at hjob
      obtain rfl := Option.some.inj hjob
      exact (hs.fanouts f v (by rw [hf]; rfl)).trans hversion

/-! ### After the commit of a list that denies -/

/-- No later call commits a list that allows the URL. -/
def KeepsOut (url : String) (s : State) (l : Label) : Prop :=
  ∀ w stored, l = .update w true → s.writers w = .validated stored →
    checkEgress stored .webhook url = false

/-- From the commit of the call on, at which the version was `v₀`: whoever still allows the URL
has read the version before the bump. -/
structure Behind (url : String) (w v₀ : Nat) (s : State) : Prop where
  denies : checkEgress s.liveAllowlist .webhook url = false
  writer : s.writers w = .committed ∧ v₀ ≤ s.version ∨ s.writers w = .returned ∧ v₀ < s.version
  fanouts : ∀ f v, (s.fanouts f).snapshot = some v → (s.fanouts f).passes url = true → v ≤ v₀
  deliveries : ∀ d job, (s.deliveries d).job = some job → job.url = url →
    job.egressSnapshotVer ≤ v₀

section Revocation

variable {env : Env} {s s' : State} {l : Label} {url : String} {w v₀ : Nat}

theorem denies_step (hs : checkEgress s.liveAllowlist .webhook url = false)
    (hl : KeepsOut url s l) (h : step env s l = some s') :
    checkEgress s'.liveAllowlist .webhook url = false := by
  cases step_effect h with
  | update w stored hupdate hw =>
    simp only [State.liveAllowlist, setWriter]
    split
    · exact checkEgress_denyAll ..
    · exact hl w stored hupdate hw
  | softDelete => exact checkEgress_denyAll ..
  | _ => exact hs

theorem writer_step (hs : s.writers w = .committed ∧ v₀ ≤ s.version ∨
    s.writers w = .returned ∧ v₀ < s.version) (h : step env s l = some s') :
    s'.writers w = .committed ∧ v₀ ≤ s'.version ∨ s'.writers w = .returned ∧ v₀ < s'.version := by
  cases step_effect h with
  | writer p x _ hp =>
    have hpw : w ≠ p := by
      rintro rfl
      obtain hidle | ⟨stored, hvalidated⟩ := hp
      · simp [hidle] at hs
      · simp [hvalidated] at hs
    rw [setWriter_of_ne _ hpw]
    exact hs
  | update p stored _ hp =>
    have hpw : w ≠ p := by
      rintro rfl
      simp [hp] at hs
    rw [setWriter_of_ne _ hpw]
    exact hs
  | softDelete p _ hp =>
    have hpw : w ≠ p := by
      rintro rfl
      simp [hp] at hs
    rw [setWriter_of_ne _ hpw]
    exact hs
  | bump p _ hp =>
    have hversion : v₀ ≤ s.version := hs.elim And.right (fun h => Nat.le_of_lt h.2)
    obtain rfl | hpw := eq_or_ne w p
    · exact .inr ⟨setWriter_self .., Nat.lt_succ_of_le hversion⟩
    · rw [setWriter_of_ne _ hpw]
      exact hs.imp (And.imp_right Nat.le_succ_of_le) (And.imp_right Nat.lt_succ_of_lt)
  | fanout => exact hs
  | spawn => exact hs
  | delivery => exact hs

/-- As long as the list in force denies the URL, nobody else comes to allow it. -/
theorem behind_step (hloopback : isLoopbackDevUrl env url = false) (hs : Behind url w v₀ s)
    (hdenies : checkEgress s'.liveAllowlist .webhook url = false) (h : step env s l = some s') :
    Behind url w v₀ s' where
  denies := hdenies
  writer := writer_step hs.writer h
  fanouts := by
    intro f v hv hpasses
    obtain hsame | hstep := step_fanout h f
    · rw [hsame] at hv hpasses
      exact hs.fanouts f v hv hpasses
    · obtain ⟨hbefore, hsnapshot⟩ := hstep.passes_before hloopback hs.denies hpasses
      exact hs.fanouts f v (hsnapshot ▸ hv) hbefore
  deliveries := by
    intro d job hjob hurl
    obtain ⟨hsame, -⟩ | ⟨hstep, -⟩ | ⟨f, left, target, subs, v, allowlist, denied, hf, -, hd⟩ :=
      step_delivery h d
    · rw [hsame] at hjob
      exact hs.deliveries d job hjob hurl
    · exact hs.deliveries d job (hstep.job_eq hjob) hurl
    · rw [hd] at hjob
      obtain rfl := Option.some.inj hjob
      obtain rfl : target = url := hurl
      refine hs.fanouts f v (by rw [hf]; rfl) ?_
      rw [hf, Fanout.passes, beq_self_eq_true, Bool.true_or]

/-- At the commit nobody has read a later version. -/
theorem behind_update (hs : Inv s) {stored : Option Json} (hw : s.writers w = .validated stored)
    (hstored : checkEgress stored .webhook url = false)
    (h : step env s (.update w true) = some s') : Behind url w s.version s' := by
  simp only [step, hw, if_true] at h
  obtain rfl := Option.some.inj h
  refine ⟨?_, .inl ⟨setWriter_self .., Nat.le_refl _⟩, fun f v hv _ => hs.fanouts f v hv,
    fun d job hjob _ => hs.deliveries d job hjob⟩
  simp only [State.liveAllowlist, setWriter]
  split
  · exact checkEgress_denyAll ..
  · exact hstored

/-- Versions less than one turn apart are told apart. -/
theorem snapshotIsStale_of_lt {job : Job} (hlt : job.egressSnapshotVer < s.version)
    (hturn : s.version < job.egressSnapshotVer + 2 ^ 64) : snapshotIsStale s job = true := by
  rw [snapshotIsStale, bne_iff_ne]
  omega

end Revocation

/-! ### The rest of a delivery -/

/-- The delivery is not past an egress check, and its next one reads the list. -/
def Delivery.Quiet (url : String) : Delivery → Prop
  | .attempt job idx _ => job.url = url ∧ 0 < idx
  | .rereading job _ _ => job.url = url
  | .ended result => ∃ e, result = .error e
  | _ => False

/-- A bound on the steps that the delivery still takes: four for each attempt. -/
def Delivery.stepsLeft : Delivery → Nat
  | .idle => 0
  | .spawned _ => 4 * backoffs.length + 5
  | .attempt _ idx _ => 4 * (backoffs.length - idx) + 4
  | .rereading _ idx _ => 4 * (backoffs.length - idx) + 3
  | .sending _ idx _ => 4 * (backoffs.length - idx) + 2
  | .awaiting _ idx _ => 4 * (backoffs.length - idx) + 1
  | .ended _ => 0

theorem stepsLeft_nextAttempt (job : Job) (idx : Nat) (lastErr : String) :
    (nextAttempt job idx lastErr).stepsLeft ≤ 4 * (backoffs.length - idx) := by
  unfold nextAttempt
  split
  · simp only [Delivery.stepsLeft]
    omega
  · exact Nat.zero_le _

theorem quiet_nextAttempt {url : String} {job : Job} (hurl : job.url = url) (idx : Nat)
    (lastErr : String) : (nextAttempt job idx lastErr).Quiet url := by
  unfold nextAttempt
  split
  · exact ⟨hurl, Nat.succ_pos idx⟩
  · exact ⟨_, rfl⟩

section Rest

variable {env : Env} {s s' : State} {url : String} {d : Nat}

theorem DeliveryStep.stepsLeft_lt {x y : Delivery} (h : DeliveryStep env s x y) :
    y.stepsLeft < x.stepsLeft := by
  cases h with
  | start job parseErr resolved =>
    unfold deliverInner
    split
    · exact Nat.succ_pos _
    · split
      · exact Nat.lt_succ_self _
      · exact Nat.succ_pos _
  | check job idx lastErr =>
    unfold WebhookDispatcher.check
    split
    · exact Nat.lt_succ_self _
    · simp only [Delivery.stepsLeft]
      omega
  | reread job idx lastErr ok =>
    unfold WebhookDispatcher.reread
    split
    · split
      · exact Nat.lt_succ_self _
      · exact Nat.succ_pos _
    · have hnext := stepsLeft_nextAttempt job idx (unreadable idx)
      simp only [Delivery.stepsLeft] at hnext ⊢
      omega
  | post => exact Nat.lt_succ_self _
  | buildFails => exact Nat.succ_pos _
  | respond job idx lastErr answer =>
    have hnext := stepsLeft_nextAttempt job idx
    unfold WebhookDispatcher.respond
    split
    · split
      · exact Nat.succ_pos _
      · split
        · exact Nat.succ_pos _
        · exact Nat.lt_succ_of_le (hnext _)
    · exact Nat.lt_succ_of_le (hnext _)

/-- While the list in force denies its URL, the delivery does not get past a check. -/
theorem DeliveryStep.quiet {x y : Delivery} (hloopback : isLoopbackDevUrl env url = false)
    (hdenies : checkEgress s.liveAllowlist .webhook url = false) (h : DeliveryStep env s x y)
    (hx : x.Quiet url) : y.Quiet url := by
  cases h with
  | start => exact hx.elim
  | check job idx lastErr =>
    rw [WebhookDispatcher.check, if_pos (.inl hx.2)]
    exact hx.1
  | reread job idx lastErr ok =>
    cases ok with
    | true =>
      have hdenied : dispatchEgressAllowed env s.liveAllowlist job.url = false := by
        rw [show job.url = url from hx, dispatchEgressAllowed_eq hloopback, hdenies]
      simp only [WebhookDispatcher.reread, readTenantEgressAllowlist, if_true, hdenied]
      exact ⟨_, rfl⟩
    | false => exact quiet_nextAttempt hx idx _
  | post => exact hx.elim
  | buildFails => exact hx.elim
  | respond => exact hx.elim

theorem quiet_step {l : Label} (hloopback : isLoopbackDevUrl env url = false)
    (hdenies : checkEgress s.liveAllowlist .webhook url = false)
    (hs : (s.deliveries d).Quiet url) (h : step env s l = some s') :
    (s'.deliveries d).Quiet url ∧ l ≠ .post d ∧
      (s'.deliveries d).stepsLeft + (if l.delivery == some d then 1 else 0)
        ≤ (s.deliveries d).stepsLeft := by
  have hpost : l ≠ .post d := by
    rintro rfl
    simp only [step] at h
    split at h
    · next hd =>
      rw [hd] at hs
      exact hs
    · cases h
  obtain ⟨hsame, hl⟩ | ⟨hstep, hl⟩ | ⟨f, left, target, subs, v, allowlist, denied, -, hidle, -⟩ :=
    step_delivery h d
  · rw [hsame, if_neg (by rwa [beq_iff_eq])]
    exact ⟨hs, hpost, Nat.le_refl _⟩
  · rw [if_pos (by rwa [beq_iff_eq])]
    exact ⟨hstep.quiet hloopback hdenies hs, hpost, hstep.stepsLeft_lt⟩
  · rw [hidle] at hs
    exact hs.elim

theorem quiet_run (hloopback : isLoopbackDevUrl env url = false) {ls : List Label} :
    ∀ {s : State}, checkEgress s.liveAllowlist .webhook url = false →
      Along (step env) (KeepsOut url) s ls → (s.deliveries d).Quiet url →
      run (step env) s ls = some s' →
      (s'.deliveries d).Quiet url ∧ Label.post d ∉ ls ∧
        (s'.deliveries d).stepsLeft + ls.countP (·.delivery == some d)
          ≤ (s.deliveries d).stepsLeft := by
  induction ls with
  | nil =>
    intro s _ _ hs hrun
    obtain rfl := Option.some.inj hrun
    exact ⟨hs, List.not_mem_nil, Nat.le_refl _⟩
  | cons l ls ih =>
    intro s hdenies halong hs hrun
    obtain ⟨t, ht, hrun⟩ := run_cons hrun
    obtain ⟨hkeeps, halong⟩ := halong
    rw [ht] at halong
    obtain ⟨hquiet, hpost, hsteps⟩ := quiet_step hloopback hdenies hs ht
    obtain ⟨hquiet', hpost', hsteps'⟩ := ih (denies_step hdenies hkeeps ht) halong hquiet hrun
    refine ⟨hquiet', ?_, ?_⟩
    · rw [List.mem_cons, not_or]
      exact ⟨hpost.symm, hpost'⟩
    · rw [List.countP_cons]
      omega

/-- A quiet delivery that has not ended can go on, to the end of its attempts. -/
theorem quiet_progress (hs : (s.deliveries d).Quiet url) :
    (∃ e, s.deliveries d = .ended (.error e)) ∨
    ∃ l, l.delivery = some d ∧ (step env s l).isSome = true := by
  cases hd : s.deliveries d with
  | attempt job idx lastErr =>
    refine .inr ⟨.check d, rfl, ?_⟩
    simp only [step, hd]
    rfl
  | rereading job idx lastErr =>
    refine .inr ⟨.reread d true, rfl, ?_⟩
    simp only [step, hd]
    rfl
  | ended result =>
    rw [hd] at hs
    obtain ⟨e, rfl⟩ := hs
    exact .inl ⟨e, rfl⟩
  | _ =>
    rw [hd] at hs
    exact hs.elim

end Rest

/-! ### Revocation -/

/-- In a run that leads to the state, a call whose list denies the URL has committed and
returned, and no call since has committed a list that allows it. -/
def Withdrawn (env : Env) (url : String) (s : State) : Prop :=
  ∃ allowlist deleted ls₀ s₀ w stored s₁ ls₁,
    run (step env) (init allowlist deleted) ls₀ = some s₀ ∧
    s₀.writers w = .validated stored ∧ checkEgress stored .webhook url = false ∧
    step env s₀ (.update w true) = some s₁ ∧
    Along (step env) (KeepsOut url) s₁ ls₁ ∧ run (step env) s₁ ls₁ = some s ∧
    s.writers w = .returned

/-- The steps from an egress check on lead a delivery to its end without a request. -/
structure Unsent (env : Env) (d idx : Nat) (ls : List Label) (s : State) : Prop where
  notPosted : Label.post d ∉ ls
  bounded : ls.countP (·.delivery == some d) ≤ 4 * (backoffs.length - idx) + 4
  /-- It has failed, or it is not stuck. -/
  progress : (∃ e, s.deliveries d = .ended (.error e)) ∨
    ∃ l, l.delivery = some d ∧ (step env s l).isSome = true

/-- An attempt is over without a request, and the next one follows as long as there is one. -/
def Skipped (d : Nat) (s s' : State) : Prop :=
  ∃ job idx lastErr, s.deliveries d = .rereading job idx lastErr ∧
    s'.deliveries d =
      if idx + 1 < backoffs.length then .attempt job (idx + 1) (unreadable idx)
      else .ended (.error (.exhausted (unreadable idx) backoffs.length))

theorem behind_of_withdrawn {env : Env} {url : String} {s : State}
    (hloopback : isLoopbackDevUrl env url = false) (h : Withdrawn env url s) :
    ∃ w v₀, Behind url w v₀ s ∧ v₀ < s.version := by
  obtain ⟨allowlist, deleted, ls₀, s₀, w, stored, s₁, ls₁, hrun₀, hw, hstored, hupdate, hkeeps,
    hrun₁, hreturned⟩ := h
  have hinv : Inv s₀ := run_invariant inv_step (inv_init allowlist deleted) hrun₀
  have hbehind : Behind url w s₀.version s := by
    refine hkeeps.invariant ?_ (behind_update hinv hw hstored hupdate) hrun₁
    intro t l t' ht hl h
    exact behind_step hloopback ht (denies_step ht.denies hl h) h
  refine ⟨w, s₀.version, hbehind, ?_⟩
  obtain ⟨hcommitted, -⟩ | ⟨-, hlt⟩ := hbehind.writer
  · rw [hreturned] at hcommitted
    cases hcommitted
  · exact hlt

/-- A delivery that comes to an egress check after its origin was withdrawn sends nothing any
more, and an attempt that cannot read the list is skipped. The origin is not a loopback of a
development build, and the version has not made a whole turn since the fan-out. -/
theorem withdrawn_unsent (env : Env) (s : State) (d : Nat) :
    (∀ {job idx lastErr ls s'}, Withdrawn env job.url s → s.deliveries d = .attempt job idx lastErr →
      isLoopbackDevUrl env job.url = false →
      (idx = 0 → s.version < job.egressSnapshotVer + 2 ^ 64) →
      Along (step env) (KeepsOut job.url) s (.check d :: ls) →
      run (step env) s (.check d :: ls) = some s' → Unsent env d idx (.check d :: ls) s') ∧
    (∀ {s'}, step env s (.reread d false) = some s' → Skipped d s s') := by
  constructor
  · intro job idx lastErr ls s' hwithdrawn hd hloopback hturn halong hrun
    obtain ⟨w, v₀, hbehind, hlt⟩ := behind_of_withdrawn hloopback hwithdrawn
    -- the check does not trust the snapshot
    have hcheck : check s job idx lastErr = .rereading job idx lastErr := by
      refine if_pos ?_
      obtain rfl | hidx := Nat.eq_zero_or_pos idx
      · have hsnapshot : job.egressSnapshotVer ≤ v₀ :=
          hbehind.deliveries d job (by rw [hd]; rfl) rfl
        exact .inr (snapshotIsStale_of_lt (Nat.lt_of_le_of_lt hsnapshot hlt) (hturn rfl))
      · exact .inl hidx
    obtain ⟨t, ht, hrun⟩ := run_cons hrun
    obtain ⟨hkeeps, halong⟩ := halong
    rw [ht] at halong
    have hdenies := denies_step hbehind.denies hkeeps ht
    simp only [step, hd, hcheck] at ht
    obtain rfl := Option.some.inj ht
    have hquiet : ((setDelivery s d (.rereading job idx lastErr)).deliveries d).Quiet job.url := by
      rw [setDelivery_self]
      rfl
    obtain ⟨hquiet', hpost, hsteps⟩ := quiet_run hloopback hdenies halong hquiet hrun
    rw [setDelivery_self] at hsteps
    refine ⟨?_, ?_, quiet_progress hquiet'⟩
    · rw [List.mem_cons, not_or]
      exact ⟨Label.noConfusion, hpost⟩
    · rw [List.countP_cons]
      simp only [Delivery.stepsLeft] at hsteps
      split <;> omega
  · intro s' h
    simp only [step] at h
    split at h
    · next job idx lastErr hd =>
      obtain rfl := Option.some.inj h
      refine ⟨job, idx, lastErr, hd, ?_⟩
      rw [setDelivery_self]
      rfl
    · cases h

/-! ### Examples -/

/-- A process without the opt-in, and a URL of a public host. -/
def publicEnv : Env where
  maxEntries := 50
  originHostIsPrivateIp := fun _ => false
  urlHost := fun _ => some "a.com"
  webhookLoopbackAllowed := false

def publicUrl : String := "http://a.com/hook"

/-- A development build, and a URL of its own host. -/
def loopbackEnv : Env where
  maxEntries := 50
  originHostIsPrivateIp := fun _ => false
  urlHost := fun _ => some "localhost"
  webhookLoopbackAllowed := true

def loopbackUrl : String := "http://localhost/hook"

/-- A tenant that allows both origins. -/
def allowingState : State :=
  init (some (toJson [⟨.webhook, "http://a.com"⟩, ⟨.webhook, "http://localhost"⟩])) false

/-- A fan-out spawns a delivery, which gets as far as its first check. -/
def parkedRun (url : String) : List Label :=
  [.dispatchMany 0 [⟨1, url, 1⟩], .readVersion 0, .readList 0 true, .gate 0, .spawn 0 0,
   .start 0 "" true]

/-- A call of `set_allowlist` with the empty list. -/
def withdrawal (w : Nat) : List Label :=
  [.setAllowlist w [], .update w true, .bump w]

def withdrawals (w : Nat) : Nat → List Label
  | 0 => []
  | n + 1 => withdrawal w ++ withdrawals (w + 1) n

/-- The calls leave the deliveries alone and move the version by their number. -/
theorem run_withdrawals (env : Env) (url : String) (n : Nat) :
    ∀ {s : State} {w : Nat}, s.deleted = false → (∀ p, w ≤ p → s.writers p = .idle) →
      ∃ s', run (step env) s (withdrawals w n) = some s' ∧
        Along (step env) (KeepsOut url) s (withdrawals w n) ∧ s'.version = s.version + n ∧
        s'.deliveries = s.deliveries ∧ (∀ p, p < w → s'.writers p = s.writers p) ∧
        (∀ p, w ≤ p → p < w + n → s'.writers p = .returned) := by
  induction n with
  | zero =>
    intro s w _ _
    exact ⟨s, rfl, trivial, rfl, rfl, fun _ _ => rfl, fun p hle hlt => absurd hle (by omega)⟩
  | succ n ih =>
    intro s w hlive hidle
    -- the states of one call
    let s₁ := setWriter s w (.validated denyAll)
    let s₂ := setWriter { s₁ with allowlist := denyAll } w .committed
    let s₃ := setWriter { s₂ with version := s.version + 1 } w .returned
    have h₁ : step env s (.setAllowlist w []) = some s₁ := by
      simp only [step, hidle w (Nat.le_refl w)]
      rfl
    have h₂ : step env s₁ (.update w true) = some s₂ := by
      have hlive₁ : ¬ (setWriter s w (.validated denyAll)).deleted = true := by
        rw [setWriter, hlive]
        exact Bool.false_ne_true
      simp only [step, s₁, setWriter_self, if_true, if_neg hlive₁]
      rfl
    have h₃ : step env s₂ (.bump w) = some s₃ := by
      simp only [step, s₂, setWriter_self]
      rfl
    have hne : ∀ p, p ≠ w → s₃.writers p = s.writers p := by
      intro p hp
      simp only [s₃, s₂, s₁, setWriter_of_ne _ hp]
    obtain ⟨s', hrun, halong, hversion, hdeliveries, hbelow, habove⟩ :=
      ih (s := s₃) (w := w + 1) hlive
        (fun p hp => (hne p (by omega)).trans (hidle p (by omega)))
    refine ⟨s', ?_, ?_, ?_, hdeliveries, ?_, ?_⟩
    · simp only [withdrawals, withdrawal, List.cons_append, List.nil_append, run, h₁, h₂, h₃]
      exact hrun
    · simp only [withdrawals, withdrawal, List.cons_append, List.nil_append, Along, h₁, h₂, h₃]
      -- only the second of the three labels is an update
      refine ⟨fun _ _ hl => (by cases hl), ?_, fun _ _ hl => (by cases hl), halong⟩
      intro p stored hl hp
      obtain ⟨rfl, -⟩ := Label.update.inj hl
      rw [setWriter_self] at hp
      rw [← Writer.validated.inj hp]
      exact checkEgress_denyAll ..
    · have : s₃.version = s.version + 1 := rfl
      omega
    · intro p hp
      rw [hbelow p (by omega), hne p (by omega)]
    · intro p hle hlt
      obtain rfl | hp := Nat.eq_or_lt_of_le hle
      · rw [hbelow w (by omega)]
        exact setWriter_self ..
      · exact habove p hp (by omega)

/-- After any number of such calls, one at least, the origin is withdrawn. -/
theorem withdrawn_withdrawals {env : Env} {url : String} {t : State}
    (ht : run (step env) allowingState (parkedRun url) = some t) (hlive : t.deleted = false)
    (hidle : ∀ w, t.writers w = .idle) (n : Nat) :
    ∃ s, run (step env) t (withdrawals 0 (n + 1)) = some s ∧ Withdrawn env url s ∧
      s.version = t.version + (n + 1) ∧ s.deliveries = t.deliveries := by
  obtain ⟨s, hrun, halong, hversion, hdeliveries, -, hreturned⟩ :=
    run_withdrawals env url (n + 1) hlive (fun w _ => hidle w)
  refine ⟨s, hrun, ?_, hversion, hdeliveries⟩
  -- the first call commits in the second step
  obtain ⟨s₀, hs₀, hrun⟩ := run_cons hrun
  obtain ⟨s₁, hs₁, hrun⟩ := run_cons hrun
  obtain ⟨-, halong⟩ := halong
  rw [hs₀] at halong
  obtain ⟨-, halong⟩ := halong
  rw [hs₁] at halong
  have hrun₀ : run (step env) allowingState (parkedRun url ++ [.setAllowlist 0 []]) = some s₀ := by
    rw [run_append, ht, Option.bind_some, run, hs₀]
    rfl
  have hvalidated : s₀.writers 0 = .validated denyAll := by
    simp only [step, hidle 0] at hs₀
    obtain rfl := Option.some.inj hs₀
    exact setWriter_self ..
  exact ⟨_, _, _, s₀, 0, denyAll, s₁, _, hrun₀, hvalidated, checkEgress_denyAll .., hs₁, halong,
    hrun, hreturned 0 (Nat.le_refl 0) (Nat.succ_pos _)⟩

def publicState : State :=
  (run (step publicEnv) allowingState (parkedRun publicUrl)).get (by decide)

theorem run_publicState : run (step publicEnv) allowingState (parkedRun publicUrl)
    = some publicState :=
  (Option.some_get _).symm

def loopbackState : State :=
  (run (step loopbackEnv) allowingState (parkedRun loopbackUrl)).get (by decide)

theorem run_loopbackState : run (step loopbackEnv) allowingState (parkedRun loopbackUrl)
    = some loopbackState :=
  (Option.some_get _).symm

/-- A delivery to a public host is withdrawn before its first check, which then cannot read the
list; the second one can. -/
def unsentRun : List Label :=
  [.check 0, .reread 0 false, .check 0, .reread 0 true]

theorem withdrawn_unsent_public : ∃ s s', Withdrawn publicEnv publicUrl s ∧
    run (step publicEnv) s unsentRun = some s' ∧ Unsent publicEnv 0 0 unsentRun s' ∧
    s'.deliveries 0 = .ended (.error (.egressRevoked publicUrl)) := by
  obtain ⟨s, hrun, hwithdrawn, hversion, hdeliveries⟩ :=
    withdrawn_withdrawals run_publicState rfl (fun _ => rfl) 0
  have hend : (run (step publicEnv) publicState (withdrawals 0 1 ++ unsentRun)).map
      (·.deliveries 0) = some (.ended (.error (.egressRevoked publicUrl))) := by decide
  rw [run_append, hrun, Option.bind_some] at hend
  obtain ⟨s', hrun', hend⟩ := Option.map_eq_some_iff.mp hend
  refine ⟨s, s', hwithdrawn, hrun', ?_, hend⟩
  have hd : s.deliveries 0 = .attempt ⟨publicUrl, 0⟩ 0 "" := by
    rw [hdeliveries]
    decide
  have hkeeps : ∀ l ∈ unsentRun, ∀ t, KeepsOut publicUrl t l := by
    rintro l hl t w stored rfl
    simp [unsentRun] at hl
  have hturn : s.version < 0 + 2 ^ 64 := by
    rw [hversion]
    decide
  have hkept : Along (step publicEnv) (KeepsOut publicUrl) s unsentRun := Along.of_forall hkeeps s
  exact (withdrawn_unsent publicEnv s 0).1 hwithdrawn hd (by decide) (fun _ => hturn) hkept hrun'

/-- Whenever the number of calls is a multiple of `2 ^ 64`, the first check trusts its
snapshot. -/
theorem sent_after_turn {n : Nat} (hn : (n + 1) % 2 ^ 64 = 0) :
    ∃ s, Withdrawn publicEnv publicUrl s ∧ s.deliveries 0 = .attempt ⟨publicUrl, 0⟩ 0 "" ∧
      (run (step publicEnv) s [.check 0, .post 0]).isSome = true := by
  obtain ⟨s, -, hwithdrawn, hversion, hdeliveries⟩ :=
    withdrawn_withdrawals run_publicState rfl (fun _ => rfl) n
  have hd : s.deliveries 0 = .attempt ⟨publicUrl, 0⟩ 0 "" := by
    rw [hdeliveries]
    decide
  have hversion : s.version % 2 ^ 64 = 0 := by
    have hzero : publicState.version = 0 := by decide
    omega
  have hfresh : snapshotIsStale s ⟨publicUrl, 0⟩ = false := by
    rw [snapshotIsStale, hversion]
    rfl
  have hcheck : check s ⟨publicUrl, 0⟩ 0 "" = .sending ⟨publicUrl, 0⟩ 0 "" := by
    simp [check, hfresh]
  refine ⟨s, hwithdrawn, hd, ?_⟩
  simp only [run, step, hd, hcheck, setDelivery_self]
  rfl

def Delivery.failed : Delivery → Bool
  | .ended (.error _) => true
  | _ => false

theorem Delivery.failed_iff {x : Delivery} : x.failed = true ↔ ∃ e, x = .ended (.error e) := by
  constructor
  · intro h
    unfold Delivery.failed at h
    split at h
    · next e => exact ⟨e, rfl⟩
    · cases h
  · rintro ⟨e, rfl⟩
    rfl

/-- Three attempts fail, and the fourth comes to read the list. -/
def failingRun : List Label :=
  [.check 0, .post 0, .respond 0 (.ok (500, "")), .check 0, .reread 0 false, .check 0,
   .reread 0 true, .post 0, .respond 0 (.error "refused"), .check 0]

/-- A development build sends to its own host also what was withdrawn; the version comes back
to a snapshot after `2 ^ 64` calls; and the skip of the last attempt ends the delivery. -/
theorem withdrawn_sent :
    (∃ s, Withdrawn loopbackEnv loopbackUrl s ∧
      s.deliveries 0 = .attempt ⟨loopbackUrl, 0⟩ 0 "" ∧
      (run (step loopbackEnv) s [.check 0, .reread 0 true, .post 0]).isSome = true) ∧
    (∃ s, Withdrawn publicEnv publicUrl s ∧ s.deliveries 0 = .attempt ⟨publicUrl, 0⟩ 0 "" ∧
      (run (step publicEnv) s [.check 0, .post 0]).isSome = true) ∧
    ∃ ls s e, run (step publicEnv) publicState (ls ++ [.reread 0 false]) = some s ∧
      s.deliveries 0 = .ended (.error e) := by
  refine ⟨?_, ?_, ?_⟩
  · obtain ⟨s, hrun, hwithdrawn, -, hdeliveries⟩ :=
      withdrawn_withdrawals run_loopbackState rfl (fun _ => rfl) 0
    have hsent : (run (step loopbackEnv) loopbackState
        (withdrawals 0 1 ++ [.check 0, .reread 0 true, .post 0])).isSome = true := by decide
    rw [run_append, hrun, Option.bind_some] at hsent
    refine ⟨s, hwithdrawn, ?_, hsent⟩
    rw [hdeliveries]
    decide
  · exact sent_after_turn (n := 2 ^ 64 - 1) (by decide)
  · have hfailed : (run (step publicEnv) publicState (failingRun ++ [.reread 0 false])).map
        (fun s => (s.deliveries 0).failed) = some true := by decide
    obtain ⟨s, hrun, hfailed⟩ := Option.map_eq_some_iff.mp hfailed
    obtain ⟨e, he⟩ := Delivery.failed_iff.mp hfailed
    exact ⟨failingRun, s, e, hrun, he⟩

end WebhookDispatcher

end Drust
