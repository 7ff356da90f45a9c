import Drust.Mgmt.SoftDelete
import Drust.Tenant.WebhookRevocation

/-!
# What a deleted tenant still sends

After the UPDATE of a soft-deletion the list in force denies everything, and after the bump
every fan-out that holds an older list has an older version too. So no delivery gets past a
check any more, except to a loopback of a development build and where the version has made a
whole turn.

A function's request reads the list of the row, which the deletion has left as it was: an
invocation that has not read it yet gets past its gate with every origin that is on it.
-/

namespace Drust

namespace SoftDelete

open Egress HttpFetch Transition
open WebhookDispatcher (Behind Fanout Delivery FanoutStep)

/-! ### What a step does -/

/-- What the host holds for the invocation. -/
def Invocation.http : Invocation → Option HttpFetchState
  | .running http _ | .asking http _ _ | .allowed http _ _ | .dialing http _ _ => some http
  | _ => none

/-- Where the state that the host holds after a step comes from. -/
def Carries (s : State) (l : Label) (i : Nat) (x y : Invocation) : Prop :=
  ∀ http', y.http = some http' → http' = HttpFetchState.new ∨
    ∃ http, x.http = some http ∧ (http' = http ∨
      ∃ ok, l = .allowlist i ok ∧ http' = http.resolve (readEgressAllowlist s.webhooks ok))

inductive Effect (host : Host) (s : State) (l : Label) : State → Prop
  | webhook (l' : WebhookDispatcher.Label) {webhooks : WebhookDispatcher.State}
      (h : WebhookDispatcher.step host.env s.webhooks l' = some webhooks) :
      Effect host s l { s with webhooks }
  | refuse (w : Nat) (h : s.deletions w = .idle) : Effect host s l (setDeletion s w .notFound)
  | update (w : Nat) {webhooks : WebhookDispatcher.State}
      (hstep : WebhookDispatcher.step host.env s.webhooks (.softDelete w) = some webhooks) :
      Effect host s l (setDeletion { s with webhooks } w (.running afterUpdate))
  | bump (w : Nat) (rest : List DeletionStep) {webhooks : WebhookDispatcher.State}
      (h : s.deletions w = .running (.bumpEgressAllowlistVersion :: rest))
      (hstep : WebhookDispatcher.step host.env s.webhooks (.bump w) = some webhooks) :
      Effect host s l (setDeletion { s with webhooks } w (.running rest))
  | other (w : Nat) (d : DeletionStep) (rest : List DeletionStep)
      (h : s.deletions w = .running (d :: rest)) (hd : d ≠ .bumpEgressAllowlistVersion) :
      Effect host s l (setDeletion s w (.running rest))
  | ret (w : Nat) (h : s.deletions w = .running []) : Effect host s l (setDeletion s w .returned)
  | invocation (i : Nat) {x : Invocation} (h : Carries s l i (s.invocations i) x) :
      Effect host s l (setInvocation s i x)

section Steps

variable {host : Host} {s s' : State} {l : Label}

theorem Carries.of_none {i : Nat} {x y : Invocation} (h : y.http = none) : Carries s l i x y := by
  intro http' hy
  rw [h] at hy
  cases hy

theorem Carries.of_same {i : Nat} {x y : Invocation} (h : y.http = x.http) :
    Carries s l i x y :=
  fun http' hy => .inr ⟨http', h ▸ hy, .inl rfl⟩

theorem step_effect (h : step host s l = some s') : Effect host s l s' := by
  cases l with
  | webhook l =>
    rw [step] at h
    split at h
    · obtain ⟨webhooks, hstep, rfl⟩ := Option.map_eq_some_iff.mp h
      exact .webhook l hstep
    · cases h
  | softDelete w =>
    rw [step] at h
    split at h
    · next hw =>
      split at h
      · obtain rfl := Option.some.inj h
        exact .refuse w hw
      · obtain ⟨webhooks, hstep, rfl⟩ := Option.map_eq_some_iff.mp h
        exact .update w hstep
    · next d rest hw =>
      obtain ⟨webhooks, hstep, rfl⟩ := Option.map_eq_some_iff.mp h
      by_cases hd : d = .bumpEgressAllowlistVersion
      · subst hd
        exact .bump w rest hw hstep
      · -- every other step leaves this state alone
        have hsame : perform host.env s.webhooks w d = some s.webhooks := by
          unfold perform
          split
          · exact absurd rfl hd
          · rfl
        rw [hsame] at hstep
        obtain rfl := Option.some.inj hstep
        exact .other w d rest hw hd
    · next hw =>
      obtain rfl := Option.some.inj h
      exact .ret w hw
    · cases h
  | updateFails w =>
    rw [step] at h
    split at h
    · next hw =>
      obtain rfl := Option.some.inj h
      exact .refuse w hw
    · cases h
  | build i live =>
    rw [step] at h
    split at h
    · obtain rfl := Option.some.inj h
      refine .invocation i ?_
      split
      · exact fun _ hy => .inl (Option.some.inj hy).symm
      · exact Carries.of_none rfl
    · cases h
  | fetch i req =>
    rw [step] at h
    split at h
    · next http answer hi =>
      split at h
      all_goals
        obtain rfl := Option.some.inj h
        exact .invocation i (hi ▸ Carries.of_same rfl)
    · cases h
  | allowlist i ok =>
    rw [step] at h
    split at h
    · next http req origin hi =>
      -- whatever the gate says, the list is kept
      have hcarries : ∀ y : Invocation,
          y.http = some (http.resolve (readEgressAllowlist s.webhooks ok)) →
          Carries s (.allowlist i ok) i (s.invocations i) y := by
        intro y hy http' hhttp
        rw [hy] at hhttp
        refine .inr ⟨http, by rw [hi]; rfl, .inr ⟨ok, rfl, (Option.some.inj hhttp).symm⟩⟩
      simp only at h
      split at h
      all_goals
        obtain rfl := Option.some.inj h
        exact .invocation i (hcarries _ rfl)
    · cases h
  | assemble i limited =>
    rw [step] at h
    split at h
    · next http req origin hi =>
      split at h
      · obtain rfl := Option.some.inj h
        exact .invocation i (hi ▸ Carries.of_same rfl)
      · split at h
        all_goals
          obtain rfl := Option.some.inj h
          exact .invocation i (hi ▸ Carries.of_same rfl)
    · cases h
  | respond i answer =>
    rw [step] at h
    split at h
    · next http method url hi =>
      obtain rfl := Option.some.inj h
      exact .invocation i (hi ▸ Carries.of_same rfl)
    · cases h
  | finish i =>
    rw [step] at h
    split at h
    · cases h
    · cases h
    · obtain rfl := Option.some.inj h
      exact .invocation i (Carries.of_none rfl)

/-- The dispatcher takes a step of its own or none. -/
theorem step_webhooks (h : step host s l = some s') : s'.webhooks = s.webhooks ∨
    ∃ l', WebhookDispatcher.step host.env s.webhooks l' = some s'.webhooks := by
  cases step_effect h with
  | webhook l' hstep => exact .inr ⟨l', hstep⟩
  | update w hstep => exact .inr ⟨_, hstep⟩
  | bump w rest _ hstep => exact .inr ⟨_, hstep⟩
  | _ => exact .inl rfl

theorem step_invocation (h : step host s l = some s') (i : Nat) :
    Carries s l i (s.invocations i) (s'.invocations i) := by
  cases step_effect h with
  | invocation j hcarries =>
    obtain rfl | hij := eq_or_ne i j
    · rw [setInvocation_self]
      exact hcarries
    · rw [setInvocation_of_ne _ hij]
      exact Carries.of_same rfl
  | _ => exact Carries.of_same rfl

end Steps

/-! ### After the UPDATE -/

/-- The tenant is deleted, and whoever still allows a URL has read the version before the bump:
at the UPDATE it was `v₀`. A loopback of a development build is never gated. -/
structure Gone (env : Env) (w v₀ : Nat) (s : WebhookDispatcher.State) : Prop where
  deleted : s.deleted = true
  version : v₀ ≤ s.version
  behind : ∀ url, isLoopbackDevUrl env url = false → Behind url w v₀ s

section Dispatcher

variable {env : Env} {s s' : WebhookDispatcher.State} {l : WebhookDispatcher.Label} {w v₀ : Nat}

theorem liveAllowlist_of_deleted (h : s.deleted = true) : s.liveAllowlist = denyAll := by
  rw [WebhookDispatcher.State.liveAllowlist, if_pos h]

/-- Nothing brings a deleted tenant back or changes its row. -/
theorem deleted_step (hs : s.deleted = true) (h : WebhookDispatcher.step env s l = some s') :
    s'.deleted = true ∧ s'.allowlist = s.allowlist := by
  cases WebhookDispatcher.step_effect h with
  | update p stored =>
    refine ⟨hs, ?_⟩
    show (if s.deleted then s.allowlist else stored) = s.allowlist
    rw [if_pos hs]
  | softDelete => exact ⟨rfl, rfl⟩
  | _ => exact ⟨hs, rfl⟩

theorem gone_step (hs : Gone env w v₀ s) (h : WebhookDispatcher.step env s l = some s') :
    Gone env w v₀ s' := by
  obtain ⟨hdeleted, -⟩ := deleted_step hs.deleted h
  refine ⟨hdeleted, hs.version.trans (WebhookDispatcher.step_version h), fun url hloopback => ?_⟩
  have hdenies : checkEgress s'.liveAllowlist .webhook url = false := by
    rw [liveAllowlist_of_deleted hdeleted, checkEgress_denyAll]
  exact WebhookDispatcher.behind_step hloopback (hs.behind url hloopback) hdenies h

/-- At the UPDATE nobody has read a later version. -/
theorem gone_update (hs : WebhookDispatcher.Inv s)
    (h : WebhookDispatcher.step env s (.softDelete w) = some s') : Gone env w s.version s' := by
  rw [WebhookDispatcher.step] at h
  split at h
  · split at h
    · cases h
    · obtain rfl := Option.some.inj h
      refine ⟨rfl, Nat.le_refl _, fun url _ => ⟨?_, .inl ⟨?_, Nat.le_refl _⟩, ?_, ?_⟩⟩
      · exact checkEgress_denyAll ..
      · exact WebhookDispatcher.setWriter_self ..
      · exact fun f v hv _ => hs.fanouts f v hv
      · exact fun d job hjob _ => hs.deliveries d job hjob
  · cases h

theorem version_bump (h : WebhookDispatcher.step env s (.bump w) = some s') :
    s'.version = s.version + 1 := by
  rw [WebhookDispatcher.step] at h
  split at h
  · obtain rfl := Option.some.inj h
    rfl
  · cases h

end Dispatcher

/-! ### The invariant of the deletions -/

/-- What a deletion that has got past its UPDATE still has to do. -/
def Deletion.rest : Deletion → Option (List DeletionStep)
  | .running rest => some rest
  | .returned => some []
  | _ => none

structure Inv (env : Env) (s : State) : Prop where
  webhooks : WebhookDispatcher.Inv s.webhooks
  deletions : ∀ w rest, (s.deletions w).rest = some rest → ∃ v₀, Gone env w v₀ s.webhooks ∧
    (.bumpEgressAllowlistVersion ∉ rest → v₀ < s.webhooks.version)

theorem inv_init (env : Env) (allowlist : Option Json) : Inv env (init allowlist) where
  webhooks := WebhookDispatcher.inv_init allowlist false
  deletions := fun _ _ h => nomatch h

section Invariant

variable {host : Host} {s s' : State} {l : Label}

theorem inv_webhooks (hs : Inv host.env s) {webhooks : WebhookDispatcher.State}
    {l' : WebhookDispatcher.Label}
    (h : WebhookDispatcher.step host.env s.webhooks l' = some webhooks) :
    Inv host.env { s with webhooks } := by
  refine ⟨WebhookDispatcher.inv_step hs.webhooks h, fun w rest hw => ?_⟩
  obtain ⟨v₀, hgone, hbumped⟩ := hs.deletions w rest hw
  have hversion := WebhookDispatcher.step_version h
  exact ⟨v₀, gone_step hgone h, fun hrest => Nat.lt_of_lt_of_le (hbumped hrest) hversion⟩

/-- One deletion moves on, the others stay where they are. -/
theorem inv_setDeletion (hs : Inv host.env s) {w : Nat} {x : Deletion}
    (hx : ∀ rest, x.rest = some rest → ∃ v₀, Gone host.env w v₀ s.webhooks ∧
      (.bumpEgressAllowlistVersion ∉ rest → v₀ < s.webhooks.version)) :
    Inv host.env (setDeletion s w x) := by
  refine ⟨hs.webhooks, fun p rest hp => ?_⟩
  obtain rfl | hpw := eq_or_ne p w
  · rw [setDeletion_self] at hp
    exact hx rest hp
  · rw [setDeletion_of_ne s hpw] at hp
    exact hs.deletions p rest hp

theorem inv_step (hs : Inv host.env s) (h : step host s l = some s') : Inv host.env s' := by
  cases step_effect h with
  | webhook l' hstep => exact inv_webhooks hs hstep
  | refuse w hw => exact inv_setDeletion hs nofun
  | update w hstep =>
    refine inv_setDeletion (inv_webhooks hs hstep) ?_
    intro rest hrest
    obtain rfl := Option.some.inj hrest
    refine ⟨s.webhooks.version, gone_update hs.webhooks hstep, fun hbump => ?_⟩
    exact absurd (by decide) hbump
  | bump w rest hw hstep =>
    refine inv_setDeletion (inv_webhooks hs hstep) ?_
    intro rest' hrest'
    obtain ⟨v₀, hgone, -⟩ := hs.deletions w _ (by rw [hw]; rfl)
    refine ⟨v₀, gone_step hgone hstep, fun _ => ?_⟩
    rw [version_bump hstep]
    exact Nat.lt_succ_of_le hgone.version
  | other w d rest hw hd =>
    refine inv_setDeletion hs ?_
    intro rest' hrest'
    obtain rfl := Option.some.inj hrest'
    obtain ⟨v₀, hgone, hbumped⟩ := hs.deletions w _ (by rw [hw]; rfl)
    refine ⟨v₀, hgone, fun hrest => hbumped ?_⟩
    rw [List.mem_cons, not_or]
    exact ⟨hd.symm, hrest⟩
  | ret w hw =>
    refine inv_setDeletion hs ?_
    intro rest hrest
    obtain rfl := Option.some.inj hrest
    exact hs.deletions w [] (by rw [hw]; rfl)
  | invocation i _ => exact ⟨hs.webhooks, hs.deletions⟩

end Invariant

/-! ### Passing a gate -/

/-- The list that the fan-out has read. -/
def listRead : Fanout → Option (Option Json)
  | .gating _ _ allowlist _ | .spawning _ _ _ _ allowlist _ => some allowlist
  | _ => none

def isSpawning : Fanout → Bool
  | .spawning .. => true
  | _ => false

def isSending : Delivery → Bool
  | .sending .. => true
  | _ => false

def Invocation.isAllowed : Invocation → Bool
  | .allowed .. => true
  | _ => false

/-- The host has not read the list for the invocation. -/
def Invocation.Unread (x : Invocation) : Prop :=
  ∀ http, x.http = some http → http.resolved = false

/-- A step that passes an egress gate on what is read or checked again after the state `s₀`: the
gate of a fan-out or of a request whose list had not been read then, or the check of an
attempt. -/
def PassesGate (s₀ : State) (l : Label) (s' : State) : Prop :=
  match l with
  | .webhook (.gate f) =>
    listRead (s₀.webhooks.fanouts f) = none ∧ isSpawning (s'.webhooks.fanouts f) = true
  | .webhook (.check d) | .webhook (.reread d _) => isSending (s'.webhooks.deliveries d) = true
  | .allowlist i _ => (s₀.invocations i).Unread ∧ (s'.invocations i).isAllowed = true
  | _ => False

/-- The URL that the fan-out is about to gate. -/
def gated : Fanout → Option String
  | .gating (sub :: _) _ _ _ => if sub.matching = 0 then none else some sub.url
  | _ => none

/-- The step is not one of those by which traffic of a deleted tenant gets past a gate. -/
def Contained (host : Host) (s₀ s : State) : Label → Prop
  | .webhook (.gate f) => listRead (s₀.webhooks.fanouts f) = none →
      ∀ url, gated (s.webhooks.fanouts f) = some url → isLoopbackDevUrl host.env url = false
  | .webhook (.check d) => ∀ job lastErr, s.webhooks.deliveries d = .attempt job 0 lastErr →
      (job.egressSnapshotVer = s.webhooks.version → isLoopbackDevUrl host.env job.url = false) ∧
      ¬ (job.egressSnapshotVer < s.webhooks.version ∧
        job.egressSnapshotVer % 2 ^ 64 = s.webhooks.version % 2 ^ 64)
  | .webhook (.reread d true) => ∀ job idx lastErr,
      s.webhooks.deliveries d = .rereading job idx lastErr →
      isLoopbackDevUrl host.env job.url = false
  | .allowlist i _ => (s₀.invocations i).Unread → ∀ http req origin,
      s.invocations i = .asking http req origin →
      checkEgress s.webhooks.allowlist .function origin = false
  | _ => True

section Gates

variable {env : Env} {s s' : WebhookDispatcher.State}

theorem gate_passes {f : Nat} (h : WebhookDispatcher.step env s (.gate f) = some s') :
    isSpawning (s'.fanouts f) = true ↔ ∃ url allowlist, gated (s.fanouts f) = some url ∧
      listRead (s.fanouts f) = some allowlist ∧
      dispatchEgressAllowed env allowlist url = true := by
  rw [WebhookDispatcher.step] at h
  split at h
  · next hf =>
    obtain rfl := Option.some.inj h
    simp [hf, gated, isSpawning]
  · next sub subs version allowlist denied hf =>
    split at h
    · next hmatching =>
      obtain rfl := Option.some.inj h
      simp [hf, gated, hmatching, isSpawning]
    · next hmatching =>
      have hgated : gated (s.fanouts f) = some sub.url := by
        rw [hf, gated, if_neg hmatching]
      have hlist : listRead (s.fanouts f) = some allowlist := by rw [hf, listRead]
      split at h
      · next hallowed =>
        obtain rfl := Option.some.inj h
        rw [WebhookDispatcher.setFanout_self]
        exact ⟨fun _ => ⟨sub.url, allowlist, hgated, hlist, hallowed⟩, fun _ => rfl⟩
      · next hdenied =>
        obtain rfl := Option.some.inj h
        rw [WebhookDispatcher.setFanout_self]
        refine iff_of_false Bool.false_ne_true ?_
        rintro ⟨url, list, hurl, hread, hallowed⟩
        obtain rfl := Option.some.inj (hgated.symm.trans hurl)
        obtain rfl := Option.some.inj (hlist.symm.trans hread)
        exact absurd hallowed hdenied
  · next hf =>
    obtain rfl := Option.some.inj h
    simp [hf, gated, isSpawning]
  · cases h

theorem check_passes {d : Nat} (h : WebhookDispatcher.step env s (.check d) = some s') :
    isSending (s'.deliveries d) = true ↔ ∃ job lastErr, s.deliveries d = .attempt job 0 lastErr ∧
      job.egressSnapshotVer % 2 ^ 64 = s.version % 2 ^ 64 := by
  rw [WebhookDispatcher.step] at h
  split at h
  · next job idx lastErr hd =>
    obtain rfl := Option.some.inj h
    rw [WebhookDispatcher.setDelivery_self, WebhookDispatcher.check]
    split
    · next hcheck =>
      refine iff_of_false Bool.false_ne_true ?_
      rintro ⟨job', lastErr', hd', hversion⟩
      obtain ⟨rfl, rfl, rfl⟩ := Delivery.attempt.inj (hd.symm.trans hd')
      obtain hidx | hstale := hcheck
      · exact absurd hidx (Nat.lt_irrefl 0)
      · exact absurd hversion (bne_iff_ne.mp hstale)
    · next hcheck =>
      obtain ⟨hidx, hstale⟩ := not_or.mp hcheck
      obtain rfl := Nat.eq_zero_of_not_pos hidx
      refine ⟨fun _ => ⟨job, lastErr, hd, ?_⟩, fun _ => rfl⟩
      rw [WebhookDispatcher.snapshotIsStale, bne_iff_ne, not_not] at hstale
      exact hstale
  · cases h

theorem reread_passes {d : Nat} {ok : Bool}
    (h : WebhookDispatcher.step env s (.reread d ok) = some s') :
    isSending (s'.deliveries d) = true ↔ ok = true ∧ ∃ job idx lastErr,
      s.deliveries d = .rereading job idx lastErr ∧
      dispatchEgressAllowed env s.liveAllowlist job.url = true := by
  rw [WebhookDispatcher.step] at h
  split at h
  · next job idx lastErr hd =>
    obtain rfl := Option.some.inj h
    rw [WebhookDispatcher.setDelivery_self]
    cases ok with
    | false =>
      -- the attempt is skipped
      refine iff_of_false ?_ (fun h => Bool.false_ne_true h.1)
      show isSending (WebhookDispatcher.nextAttempt ..) ≠ true
      unfold WebhookDispatcher.nextAttempt
      split
      all_goals exact Bool.false_ne_true
    | true =>
      simp only [WebhookDispatcher.reread, WebhookDispatcher.readTenantEgressAllowlist, if_true]
      split
      · next hallowed => exact ⟨fun _ => ⟨trivial, job, idx, lastErr, hd, hallowed⟩, fun _ => rfl⟩
      · next hdenied =>
        refine iff_of_false Bool.false_ne_true ?_
        rintro ⟨-, job', idx', lastErr', hd', hallowed⟩
        obtain ⟨rfl, rfl, rfl⟩ := Delivery.rereading.inj (hd.symm.trans hd')
        exact absurd hallowed hdenied
  · cases h

end Gates

theorem allowlist_passes {host : Host} {s s' : State} {i : Nat} {ok : Bool}
    (h : step host s (.allowlist i ok) = some s') : ∃ http req origin,
      s.invocations i = .asking http req origin ∧
      ((s'.invocations i).isAllowed = true ↔ checkEgress
        (http.resolve (readEgressAllowlist s.webhooks ok)).allowlist .function origin = true) := by
  rw [step] at h
  split at h
  · next http req origin hi =>
    refine ⟨http, req, origin, hi, ?_⟩
    simp only at h
    split at h
    · next hallowed =>
      obtain rfl := Option.some.inj h
      rw [setInvocation_self]
      exact ⟨fun _ => hallowed, fun _ => rfl⟩
    · next hdenied =>
      obtain rfl := Option.some.inj h
      rw [setInvocation_self]
      exact ⟨nofun, fun hallowed => absurd hallowed hdenied⟩
  · cases h

/-! ### After the return -/

/-- What holds after a state `s₀` in which a deletion has returned. -/
structure After (env : Env) (s₀ : State) (w v₀ : Nat) (s : State) : Prop where
  webhooks : WebhookDispatcher.Inv s.webhooks
  gone : Gone env w v₀ s.webhooks
  bumped : v₀ < s.webhooks.version
  allowlist : s.webhooks.allowlist = s₀.webhooks.allowlist
  /-- A list that a fan-out reads now denies. -/
  fanouts : ∀ f allowlist, listRead (s₀.webhooks.fanouts f) = none →
    listRead (s.webhooks.fanouts f) = some allowlist → allowlist = denyAll
  /-- A list that the host reads now is that of the row. -/
  invocations : ∀ i http, (s₀.invocations i).Unread → (s.invocations i).http = some http →
    http.resolved = true → http.allowlist = s₀.webhooks.allowlist

section Return

variable {host : Host} {s₀ s s' : State} {l : Label} {w v₀ : Nat}

theorem after_returned (hs : Inv host.env s₀) (hw : s₀.deletions w = .returned) :
    ∃ v₀, After host.env s₀ w v₀ s₀ := by
  obtain ⟨v₀, hgone, hbumped⟩ := hs.deletions w [] (by rw [hw]; rfl)
  refine ⟨v₀, hs.webhooks, hgone, hbumped List.not_mem_nil, rfl, ?_, ?_⟩
  · intro f allowlist hnone hread
    rw [hnone] at hread
    cases hread
  · intro i http hunread hhttp hresolved
    rw [hunread http hhttp] at hresolved
    cases hresolved

/-- A list in hand was there before, or it was read from a tenant that is deleted. -/
theorem listRead_step {env : Env} {s : WebhookDispatcher.State} (hs : s.deleted = true)
    {x y : Fanout} (h : FanoutStep env s x y) {allowlist : Option Json}
    (hy : listRead y = some allowlist) : listRead x = some allowlist ∨ allowlist = denyAll := by
  cases h with
  | dispatch subs =>
    split at hy
    all_goals cases hy
  | version => cases hy
  | list subs v ok =>
    refine .inr (Option.some.inj hy.symm |>.trans ?_)
    cases ok with
    | true => exact liveAllowlist_of_deleted hs
    | false => rfl
  | finish => cases hy
  | _ => exact .inl hy

theorem after_step (hs : After host.env s₀ w v₀ s) (hread : ∀ i, l ≠ .allowlist i false)
    (h : step host s l = some s') : After host.env s₀ w v₀ s' := by
  -- the part of the dispatcher, whose step it may be
  have hdispatcher : WebhookDispatcher.Inv s'.webhooks ∧ Gone host.env w v₀ s'.webhooks ∧
      v₀ < s'.webhooks.version ∧ s'.webhooks.allowlist = s₀.webhooks.allowlist ∧
      ∀ f allowlist, listRead (s₀.webhooks.fanouts f) = none →
        listRead (s'.webhooks.fanouts f) = some allowlist → allowlist = denyAll := by
    obtain hsame | ⟨l', hstep⟩ := step_webhooks h
    · rw [hsame]
      exact ⟨hs.webhooks, hs.gone, hs.bumped, hs.allowlist, hs.fanouts⟩
    · refine ⟨WebhookDispatcher.inv_step hs.webhooks hstep, gone_step hs.gone hstep,
        Nat.lt_of_lt_of_le hs.bumped (WebhookDispatcher.step_version hstep),
        (deleted_step hs.gone.deleted hstep).2.trans hs.allowlist, ?_⟩
      intro f allowlist hnone hlist
      obtain hsame | hfanout := WebhookDispatcher.step_fanout hstep f
      · exact hs.fanouts f allowlist hnone (hsame ▸ hlist)
      · obtain hbefore | rfl := listRead_step hs.gone.deleted hfanout hlist
        · exact hs.fanouts f allowlist hnone hbefore
        · rfl
  obtain ⟨hwebhooks, hgone, hbumped, hallowlist, hfanouts⟩ := hdispatcher
  refine ⟨hwebhooks, hgone, hbumped, hallowlist, hfanouts, ?_⟩
  intro i http' hunread hhttp' hresolved
  obtain rfl | ⟨http, hhttp, rfl | ⟨ok, rfl, rfl⟩⟩ := step_invocation h i http' hhttp'
  · cases hresolved
  · exact hs.invocations i http' hunread hhttp hresolved
  · -- the read, which takes the list of the row
    have hok : ok = true := by
      cases ok with
      | true => rfl
      | false => exact absurd rfl (hread i)
    subst hok
    unfold HttpFetchState.resolve
    split
    · next hbefore => exact hs.invocations i http hunread hhttp hbefore
    · exact hs.allowlist

theorem webhook_step {l : WebhookDispatcher.Label} (h : step host s (.webhook l) = some s') :
    WebhookDispatcher.step host.env s.webhooks l = some s'.webhooks := by
  rw [step] at h
  split at h
  · obtain ⟨webhooks, hstep, rfl⟩ := Option.map_eq_some_iff.mp h
    exact hstep
  · cases h

theorem gate_contained (hs : After host.env s₀ w v₀ s) {f : Nat}
    (h : step host s (.webhook (.gate f)) = some s') :
    ¬ PassesGate s₀ (.webhook (.gate f)) s' ↔ Contained host s₀ s (.webhook (.gate f)) := by
  show ¬ (_ ∧ _) ↔ (_ → _)
  rw [gate_passes (webhook_step h), not_and]
  refine imp_congr_right fun hnone => ⟨?_, ?_⟩
  · intro hblocked url hurl
    obtain ⟨allowlist, hlist⟩ : ∃ allowlist, listRead (s.webhooks.fanouts f) = some allowlist := by
      unfold gated at hurl
      split at hurl
      · next hf => exact ⟨_, by rw [hf, listRead]⟩
      · cases hurl
    by_contra hloopback
    rw [Bool.not_eq_false] at hloopback
    refine hblocked ⟨url, allowlist, hurl, hlist, ?_⟩
    rw [dispatchEgressAllowed, hloopback, Bool.true_or]
  · rintro hsafe ⟨url, allowlist, hurl, hlist, hallowed⟩
    obtain rfl := hs.fanouts f allowlist hnone hlist
    rw [dispatchEgressAllowed_eq (hsafe url hurl), checkEgress_denyAll] at hallowed
    cases hallowed

theorem check_contained (hs : After host.env s₀ w v₀ s) {d : Nat}
    (h : step host s (.webhook (.check d)) = some s') :
    ¬ PassesGate s₀ (.webhook (.check d)) s' ↔ Contained host s₀ s (.webhook (.check d)) := by
  show ¬ (_ = true) ↔ ∀ job lastErr, _ → _
  rw [check_passes (webhook_step h)]
  constructor
  · intro hblocked job lastErr hd
    refine ⟨fun hversion => ?_, fun hturn => hblocked ⟨job, lastErr, hd, hturn.2⟩⟩
    exact absurd ⟨job, lastErr, hd, by rw [hversion]⟩ hblocked
  · rintro hsafe ⟨job, lastErr, hd, hversion⟩
    obtain ⟨hcurrent, hturn⟩ := hsafe job lastErr hd
    have hjob : (s.webhooks.deliveries d).job = some job := by rw [hd]; rfl
    have hle : job.egressSnapshotVer ≤ s.webhooks.version := hs.webhooks.deliveries d job hjob
    obtain heq | hlt := Nat.eq_or_lt_of_le hle
    · -- a version that is current was read after the bump, which only a loopback survives
      have hold : job.egressSnapshotVer ≤ v₀ :=
        (hs.gone.behind job.url (hcurrent heq)).deliveries d job hjob rfl
      have hbumped := hs.bumped
      omega
    · exact hturn ⟨hlt, hversion⟩

theorem reread_contained (hs : After host.env s₀ w v₀ s) {d : Nat} {ok : Bool}
    (h : step host s (.webhook (.reread d ok)) = some s') :
    ¬ PassesGate s₀ (.webhook (.reread d ok)) s' ↔
      Contained host s₀ s (.webhook (.reread d ok)) := by
  have hlive := liveAllowlist_of_deleted hs.gone.deleted
  have hpasses := reread_passes (webhook_step h)
  cases ok with
  | false =>
    refine ⟨fun _ => trivial, fun _ hsending => ?_⟩
    exact absurd (hpasses.mp hsending).1 Bool.false_ne_true
  | true =>
    show ¬ (_ = true) ↔ ∀ job idx lastErr, _ → _
    rw [hpasses]
    constructor
    · intro hblocked job idx lastErr hd
      by_contra hloopback
      rw [Bool.not_eq_false] at hloopback
      refine hblocked ⟨rfl, job, idx, lastErr, hd, ?_⟩
      rw [dispatchEgressAllowed, hloopback, Bool.true_or]
    · rintro hsafe ⟨-, job, idx, lastErr, hd, hallowed⟩
      rw [hlive, dispatchEgressAllowed_eq (hsafe job idx lastErr hd), checkEgress_denyAll]
        at hallowed
      cases hallowed

theorem allowlist_contained (hs : After host.env s₀ w v₀ s) {i : Nat}
    (h : step host s (.allowlist i true) = some s') :
    ¬ PassesGate s₀ (.allowlist i true) s' ↔ Contained host s₀ s (.allowlist i true) := by
  obtain ⟨http, req, origin, hi, hpasses⟩ := allowlist_passes h
  show ¬ (_ ∧ _) ↔ (_ → _)
  rw [not_and]
  refine imp_congr_right fun hunread => ?_
  -- whether it is read now or was read before, the list is that of the row
  have hlist : (http.resolve (readEgressAllowlist s.webhooks true)).allowlist
      = s.webhooks.allowlist := by
    unfold HttpFetchState.resolve
    split
    · next hresolved =>
      have hhttp : (s.invocations i).http = some http := by rw [hi]; rfl
      rw [hs.allowlist]
      exact hs.invocations i http hunread hhttp hresolved
    · rfl
  rw [hpasses, hlist, Bool.not_eq_true]
  constructor
  · intro hdenied http' req' origin' hi'
    obtain ⟨-, -, rfl⟩ := Invocation.asking.inj (hi.symm.trans hi')
    exact hdenied
  · exact fun hsafe => hsafe http req origin hi

/-- The steps that pass a gate are exactly those that the condition excludes. -/
theorem passesGate_iff (hs : After host.env s₀ w v₀ s) (hread : ∀ i, l ≠ .allowlist i false)
    (h : step host s l = some s') : ¬ PassesGate s₀ l s' ↔ Contained host s₀ s l := by
  cases l with
  | webhook l =>
    cases l with
    | gate f => exact gate_contained hs h
    | check d => exact check_contained hs h
    | reread d ok => exact reread_contained hs h
    | _ => exact ⟨fun _ => trivial, fun _ => not_false⟩
  | allowlist i ok =>
    cases ok with
    | true => exact allowlist_contained hs h
    | false => exact absurd rfl (hread i)
  | _ => exact ⟨fun _ => trivial, fun _ => not_false⟩

end Return

/-- No step of the run passes a gate. -/
def SendsNothing (host : Host) (s₀ : State) (ls : List Label) : Prop :=
  Along (step host) (fun s l => ∀ s', step host s l = some s' → ¬ PassesGate s₀ l s') s₀ ls

/-- After a soft-deletion has returned, the tenant sends nothing in exactly the runs whose steps
are contained: in which no function that has not read the list asks for an origin that the row
still has, no webhook goes to a loopback of a development build, and no first attempt meets a
version that has come round to that of its fan-out. -/
theorem sendsNothing_iff {host : Host} {allowlist : Option Json} {ls₀ ls : List Label}
    {s₀ s : State} {w : Nat} (hrun₀ : run (step host) (init allowlist) ls₀ = some s₀)
    (hw : s₀.deletions w = .returned) (hrun : run (step host) s₀ ls = some s)
    (hread : ∀ i, Label.allowlist i false ∉ ls) :
    SendsNothing host s₀ ls ↔ Along (step host) (Contained host s₀) s₀ ls := by
  have hinv : Inv host.env s₀ := run_invariant inv_step (inv_init host.env allowlist) hrun₀
  obtain ⟨v₀, hafter⟩ := after_returned hinv hw
  refine Along.iff_of_invariant (After host.env s₀ w v₀) ?_ hafter hrun
  intro s l t hl hs ht
  have hok : ∀ i, l ≠ .allowlist i false := by
    rintro i rfl
    exact hread i hl
  refine ⟨?_, fun _ => after_step hs hok ht⟩
  rw [← passesGate_iff hs hok ht]
  constructor
  · exact fun h => h t ht
  · intro h s' hs'
    obtain rfl := Option.some.inj (ht.symm.trans hs')
    exact h

/-! ### Examples -/

open WebhookDispatcher (publicEnv publicUrl parkedRun)

def publicHost : Host where
  env := publicEnv
  originError := fun _ => ""

/-- A tenant that allows one origin to its webhooks and its functions. -/
def allowing : Option Json :=
  some (Egress.toJson [⟨.webhook, "http://a.com"⟩, ⟨.function, "http://a.com"⟩])

/-- A delivery waits for its first check and a guest runs when the tenant is deleted. -/
def deletingRun : List Label :=
  (parkedRun publicUrl).map .webhook ++ .build 0 true :: List.replicate 10 (.softDelete 0)

@[irreducible] def deletedState : State :=
  (run (step publicHost) (init allowing) deletingRun).get (by decide +kernel)

theorem run_deletedState : run (step publicHost) (init allowing) deletingRun
    = some deletedState := by
  rw [deletedState, Option.some_get]

theorem deletedState_returned : deletedState.deletions 0 = .returned := by
  decide +kernel

def request (origin : String) : Request where
  origin := origin
  path := "/"
  method := "GET"

/-- The delivery goes on, and the guest asks for an origin that is not on the list. -/
def containedRun : List Label :=
  [.webhook (.check 0), .webhook (.reread 0 true), .fetch 0 (request "http://b.com"),
   .allowlist 0 true]

theorem sendsNothing_containedRun : SendsNothing publicHost deletedState containedRun := by
  obtain ⟨s, hrun⟩ : ∃ s, run (step publicHost) deletedState containedRun = some s :=
    Option.isSome_iff_exists.mp (by decide +kernel)
  have hreads : ∀ i, Label.allowlist i false ∉ containedRun := by
    simp [containedRun]
  refine (sendsNothing_iff run_deletedState deletedState_returned hrun hreads).mpr ?_
  have hloopback : ∀ url, isLoopbackDevUrl publicHost.env url = false :=
    fun _ => rfl
  have hasking : (run (step publicHost) deletedState (containedRun.take 3)).map
      (fun s => (s.invocations 0, s.webhooks.allowlist)) =
      some (.asking HttpFetchState.new (request "http://b.com") "http://b.com", allowing) := by
    decide +kernel
  obtain ⟨t, ht, hrun⟩ := run_cons hrun
  obtain ⟨u, hu, hrun⟩ := run_cons hrun
  obtain ⟨v, hv, -⟩ := run_cons hrun
  have hthree : run (step publicHost) deletedState (containedRun.take 3) = some v := by
    simp only [containedRun, List.take, run, ht, hu, hv]
  rw [hthree] at hasking
  obtain ⟨hguest, hrow⟩ := Prod.mk.inj (Option.some.inj hasking)
  rw [containedRun, Along, ht]
  refine ⟨?_, ?_⟩
  · intro job lastErr hd
    refine ⟨fun _ => hloopback job.url, fun hturn => ?_⟩
    -- the version has been bumped once since the fan-out
    have hjob : deletedState.webhooks.deliveries 0 = .attempt ⟨publicUrl, 0⟩ 0 "" := by
      decide +kernel
    have hversion : deletedState.webhooks.version = 1 := by decide +kernel
    obtain ⟨rfl, -, -⟩ := Delivery.attempt.inj (hjob.symm.trans hd)
    rw [hversion] at hturn
    exact absurd hturn.2 (by decide)
  · show Along _ _ t _
    rw [Along, hu]
    refine ⟨fun _ _ _ _ => hloopback _, ?_⟩
    show Along _ _ u _
    rw [Along, hv]
    refine ⟨trivial, ?_⟩
    show Along _ _ v _
    rw [Along]
    refine ⟨?_, ?_⟩
    · intro _ http req origin hi
      obtain ⟨-, -, rfl⟩ := Invocation.asking.inj (hguest.symm.trans hi)
      rw [hrow]
      decide
    · split
      all_goals trivial

/-- The guest asks for the origin that the row still has. -/
def lateRun : List Label :=
  [.fetch 0 (request "http://a.com"), .allowlist 0 true, .assemble 0 false]

/-- The request of a guest that was running at the deletion is sent. -/
theorem lateRun_sends : ¬ ∀ (host : Host) (allowlist : Option Json) (ls₀ ls : List Label)
    (s₀ s : State) (w : Nat), run (step host) (init allowlist) ls₀ = some s₀ →
      s₀.deletions w = .returned → run (step host) s₀ ls = some s →
      (∀ i, Label.allowlist i false ∉ ls) → SendsNothing host s₀ ls := by
  intro hclaim
  obtain ⟨s, hrun⟩ : ∃ s, run (step publicHost) deletedState lateRun = some s :=
    Option.isSome_iff_exists.mp (by decide +kernel)
  have hreads : ∀ i, Label.allowlist i false ∉ lateRun := by
    simp [lateRun]
  have hsilent := hclaim publicHost allowing deletingRun lateRun deletedState s 0
    run_deletedState deletedState_returned hrun hreads
  have hallowed : (run (step publicHost) deletedState (lateRun.take 2)).map
      (fun s => (s.invocations 0).isAllowed) = some true := by decide +kernel
  -- the states before and after the gate
  obtain ⟨t, ht, hrun⟩ := run_cons hrun
  obtain ⟨u, hu, -⟩ := run_cons hrun
  have htwo : run (step publicHost) deletedState (lateRun.take 2) = some u := by
    simp only [lateRun, List.take, run, ht, hu]
  rw [htwo] at hallowed
  rw [SendsNothing, lateRun, Along, ht] at hsilent
  obtain ⟨-, hsilent, -⟩ := hsilent
  refine hsilent u hu ⟨?_, Option.some.inj hallowed⟩
  intro http hhttp
  have hguest : (deletedState.invocations 0).http = some HttpFetchState.new := by
    decide +kernel
  obtain rfl := Option.some.inj (hguest.symm.trans hhttp)
  rfl

end SoftDelete

end Drust
