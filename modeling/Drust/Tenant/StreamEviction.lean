import Drust.Mcp.SchemaEffects
import Drust.Tenant.EventStream

/-!
# Streams and the configuration they were admitted under

An event must not reach an anonymous stream that the configuration in force would turn away,
or whose present select policy hides it. The code sees to it by evicting the channel after
each change that narrows what a stream may see, and this is enough for the streams that are
registered by then. Three kinds of run escape it.

* A subscription loads the schema before a change commits and registers after its eviction.
  So does one that is served a stale schema. (`lateSubscriber`)
* Dropping the collection evicts nothing. The channel is that of the name, so a stream that
  was open on the old collection receives the events of a new one. (`recreated`)
* An event is published after a change has committed and before it evicts. (`betweenSteps`)

`Orderly` excludes exactly these: a subscription that registers has loaded what the catalog says, a
collection is not dropped under an anonymous stream, and nothing is published to one before the
eviction of a change that has altered what the catalog decides on it. The invariant is that for each
anonymous stream on the channel either such an eviction is still to come or the catalog would admit
it with the filter that it has (`SubInv`). The changes that do not evict keep the second alternative
(`Admitted.kept`).
-/

namespace Drust.EventStream

open QueryTemplate (isProtectedCollection)
open SchemaTools (Env)
open Transition

variable {env : Env} {coll : String} {c c' : Catalog}

/-! ### What the catalog decides -/

/-- The filter that a select policy is captured as. -/
def policyFilter : Option Policy → AnonSelectFilter
  | none => .passAll
  | some p =>
    match p.usingClause with
    | some ast => .usingClause ast
    | none => .denyAll

theorem capture_anon (schema : CollectionSchema) :
    capture .anon schema = policyFilter schema.policies.select := by
  unfold capture Policy.selectReadAccess
  cases schema.policies.select with
  | none => rfl
  | some p =>
    obtain ⟨usingClause, -⟩ := p
    cases usingClause <;> rfl

theorem gate_anon_eq_ok_iff {d : CollectionDescription} {f : AnonSelectFilter} :
    gate .anon d = .ok f ↔ d.realtimeEnabled = true ∧ .select ∈ d.anonCaps ∧
      d.ownerField = none ∧ f = policyFilter d.policies.select := by
  have hcapture : capture .anon d.schema = policyFilter d.policies.select := capture_anon _
  rw [gate, hcapture]
  cases hrealtime : d.realtimeEnabled with
  | false => simp
  | true =>
    by_cases hcaps : DmlVerb.select ∈ d.anonCaps
    · cases howner : d.ownerField <;> simp [AuthCtx.userId, hcaps, eq_comm]
    · simp [AuthCtx.userId, hcaps]

/-- The catalog admits an anonymous stream, with the filter. -/
structure Admitted (coll : String) (c : Catalog) (f : AnonSelectFilter) : Prop where
  unprotected : isProtectedCollection coll = false
  present : ∃ t, c.table coll = some t
  realtime : (c.row coll).realtimeEnabled = true
  caps : .select ∈ (c.row coll).anonCaps
  owner : (c.row coll).ownerField = none
  filter : f = policyFilter (c.row coll).policies.select

/-- A description with no failures says what the row says. -/
theorem row_of_describes {t : Table} {d : CollectionDescription}
    (h : Describes env.reading c coll t d) :
    d.realtimeEnabled = (c.row coll).realtimeEnabled ∧ d.anonCaps = (c.row coll).anonCaps ∧
      d.ownerField = (c.row coll).ownerField ∧ d.policies = (c.row coll).policies := by
  have hrealtime := h.realtimeEnabled
  have hcaps := h.anonCaps
  have howner := h.ownerField
  have hpolicies := h.policies
  rw [SchemaTools.readRealtimeEnabled_eq] at hrealtime
  rw [SchemaTools.readAnonCaps_eq] at hcaps
  rw [SchemaTools.readOwnerField_eq] at howner
  rw [SchemaTools.readPolicies_eq] at hpolicies
  exact ⟨(Except.ok.inj hrealtime).symm, (Except.ok.inj hcaps).symm,
    (congrArg Prod.fst (Except.ok.inj howner)).symm, (Except.ok.inj hpolicies).symm⟩

theorem admission_eq_ok_iff {f : AnonSelectFilter} :
    admission env coll c .anon = .ok f ↔ Admitted coll c f := by
  rw [admission]
  cases hprotected : isProtectedCollection coll with
  | true =>
    rw [if_pos rfl]
    have hne : ¬ Admitted coll c f := fun h =>
      Bool.false_ne_true (h.unprotected.symm.trans hprotected)
    exact iff_of_false (by simp) hne
  | false =>
    rw [if_neg Bool.false_ne_true]
    cases ht : c.table coll with
    | none =>
      have hnone : describeCollection env.reading c coll = .ok none := by
        rw [describeCollection, show c.tables.lookup coll = none from ht]
        rfl
      rw [hnone]
      refine iff_of_false (by simp) fun h => ?_
      obtain ⟨t, hpresent⟩ := h.present
      cases ht.symm.trans hpresent
    | some t =>
      have hreads : ∀ q ∈ passedOn t, env.reading.fails q = false := fun _ _ => rfl
      obtain ⟨d, hd⟩ := exists_describeCollection ht hreads
      obtain ⟨-, d', hd', hdescribes⟩ := describes_of_describeCollection ht hd
      obtain rfl := Option.some.inj hd'
      obtain ⟨hrealtime, hcaps, howner, hpolicies⟩ := row_of_describes hdescribes
      rw [hd]
      simp only [gate_anon_eq_ok_iff, hrealtime, hcaps, howner, hpolicies]
      constructor
      · rintro ⟨h1, h2, h3, h4⟩
        exact ⟨hprotected, ⟨t, ht⟩, h1, h2, h3, h4⟩
      · exact fun h => ⟨h.realtime, h.caps, h.owner, h.filter⟩

/-- A change that evicts nothing keeps what is admitted, except the drop of the collection. -/
theorem Admitted.kept {change : Change} {f : AnonSelectFilter} (h : Admitted coll c f)
    (hexec : change.exec env coll c = .ok c') (hevicts : change.evicts = false)
    (hdrop : change ≠ .dropCollection) : Admitted coll c' f := by
  cases change with
  | setPolicy op usingClause check => cases hevicts
  | clearPolicy op => cases hevicts
  | setAnonCaps caps => cases hevicts
  | dropCollection => exact absurd rfl hdrop
  | setOwnerField field readScope =>
    -- only a cleared owner field is not followed by an eviction
    have hnone : (field.map SchemaTools.trim).filter (fun f => f != "") = none :=
      Option.not_isSome_iff_eq_none.mp fun h => Bool.false_ne_true (hevicts.symm.trans h)
    rw [Change.exec, SchemaTools.setOwnerField, hnone] at hexec
    obtain rfl := Except.ok.inj hexec
    have hrow : (c.setOwnerField coll none none).row coll
        = { c.row coll with ownerField := none, readScope := none } := by
      rw [Catalog.setOwnerField, Catalog.row_upsertMeta, Function.update_self]
    refine ⟨h.unprotected, h.present, ?_, ?_, ?_, ?_⟩ <;> rw [hrow]
    · exact h.realtime
    · exact h.caps
    · exact h.filter
  | setRealtime enabled =>
    -- switching the broadcast off evicts, so it was switched on
    have henabled : enabled = true := by simpa [Change.evicts] using hevicts
    obtain ⟨htable, hrow⟩ := SchemaTools.setRealtime_effect hexec
    refine ⟨h.unprotected, htable ▸ h.present, ?_, ?_, ?_, ?_⟩ <;>
      rw [hrow, Function.update_self]
    · exact henabled
    · exact h.caps
    · exact h.owner
    · exact h.filter
  | createCollection fields description =>
    -- there is no stream on a collection that does not exist
    obtain ⟨-, habsent, -⟩ := SchemaTools.createCollection_effect hexec
    obtain ⟨t, hpresent⟩ := h.present
    cases habsent.symm.trans hpresent

/-! ### The runs that keep streams in line -/

/-- An anonymous stream that gets what is published. -/
def Listening (channel : Option Nat) : Subscription → Prop
  | .streaming st => st.ctx = .anon ∧ channel = some st.channel
  | _ => False

/-- What a subscription that registers has loaded is in force, as far as its admission goes. -/
def LoadedInForce (env : Env) (coll : String) (c : Catalog) : Subscription → Prop
  | .decided .anon d _ => gate .anon d = admission env coll c .anon
  | _ => True

/-- A change that evicts has altered what the catalog decides on anonymous streams, and has not
evicted yet. -/
def Altered (env : Env) (coll : String) (s : State) : Prop :=
  ∃ x ∈ s.changes, x.change.evicts = true ∧
    admission env coll x.before .anon ≠ admission env coll x.after .anon

/-- A subscription registers on what is in force, no collection is dropped under an anonymous
stream, and nothing is published to one while its eviction is still to come. -/
def Orderly (env : Env) (coll : String) (s : State) : Label → Prop
  | .subscribe i => ∀ x, s.subs[i]? = some x → LoadedInForce env coll s.db x
  | .commit .dropCollection => ∀ x ∈ s.subs, ¬ Listening s.channel x
  | .publish _ => Altered env coll s → ∀ x ∈ s.subs, ¬ Listening s.channel x
  | _ => True

/-- No anonymous stream has been sent an event that the configuration in force at the time of
its publication would not have let it see. -/
def StreamsInForce (env : Env) (coll : String) (s : State) : Prop :=
  ∀ st, .streaming st ∈ s.subs → st.ctx = .anon → ∀ p ∈ st.delivered,
    admits env coll p.inForce p.event = true

/-! ### The invariant -/

/-- What is known of an open stream. The last two fields are about what it was sent: each
event was published under a configuration that admits the stream with its filter. -/
structure StreamInv (env : Env) (coll : String) (s : State) (st : Stream) : Prop where
  lt : st.channel < s.nextChannel
  current : st.ctx = .anon → s.channel = some st.channel →
    Altered env coll s ∨ Admitted coll s.db st.filter
  queue : st.ctx = .anon → ∀ p ∈ st.queue, Admitted coll p.inForce st.filter
  delivered : st.ctx = .anon → ∀ p ∈ st.delivered,
    Admitted coll p.inForce st.filter ∧ st.filter.passes p.event = true

def SubInv (env : Env) (coll : String) (s : State) : Subscription → Prop
  | .decided ctx d f => gate ctx d = .ok f
  | .streaming st => StreamInv env coll s st
  | _ => True

structure Inv (env : Env) (coll : String) (s : State) : Prop where
  channel : ∀ k, s.channel = some k → k < s.nextChannel
  sub : ∀ x ∈ s.subs, SubInv env coll s x

variable {s s' : State}

/-- What a step owes to a subscription that it leaves alone: to an anonymous stream on the
channel, an eviction or an admission. -/
theorem SubInv.next {x : Subscription} (h : SubInv env coll s x)
    (hnext : s.nextChannel ≤ s'.nextChannel)
    (hcurrent : ∀ st, x = .streaming st → st.ctx = .anon → s'.channel = some st.channel →
      Altered env coll s' ∨ Admitted coll s'.db st.filter) : SubInv env coll s' x := by
  cases x with
  | streaming st => exact ⟨h.lt.trans_le hnext, hcurrent st rfl, h.queue, h.delivered⟩
  | decided ctx d f => exact h
  | _ => trivial

/-- A step that leaves the catalog, the bus and the changes alone. -/
theorem Inv.mapSubs (h : Inv env coll s) (hdb : s'.db = s.db) (hchannel : s'.channel = s.channel)
    (hnext : s'.nextChannel = s.nextChannel) (hchanges : s'.changes = s.changes)
    (hsubs : ∀ x ∈ s'.subs, SubInv env coll s x) : Inv env coll s' := by
  refine ⟨?_, ?_⟩
  · rw [hchannel, hnext]
    exact h.channel
  · intro x hx
    have hx := hsubs x hx
    refine hx.next hnext.ge ?_
    rintro st rfl
    rw [hchannel, hdb, Altered, hchanges]
    exact hx.current

theorem Inv.setSub (h : Inv env coll s) {i : Nat} {x : Subscription} (hx : SubInv env coll s x) :
    ∀ y ∈ (s.setSub i x).subs, SubInv env coll s y := by
  intro y hy
  obtain hy | rfl := List.mem_or_eq_of_mem_set hy
  · exact h.sub y hy
  · exact hx

/-- A step of one subscription. -/
theorem Inv.advance (h : Inv env coll s) {i : Nat} {x : Subscription} (hx : SubInv env coll s x) :
    Inv env coll (s.setSub i x) :=
  h.mapSubs rfl rfl rfl rfl (h.setSub hx)

theorem Inv.next (h : Inv env coll s) (hsubs : s'.subs = s.subs)
    (hnext : s.nextChannel ≤ s'.nextChannel)
    (hchannel : ∀ k, s'.channel = some k → k < s'.nextChannel)
    (hcurrent : ∀ st, .streaming st ∈ s.subs → st.ctx = .anon → s'.channel = some st.channel →
      Altered env coll s' ∨ Admitted coll s'.db st.filter) : Inv env coll s' := by
  refine ⟨hchannel, ?_⟩
  intro x hx
  rw [hsubs] at hx
  refine (h.sub x hx).next hnext ?_
  rintro st rfl
  exact hcurrent st hx

/-! ### Changes -/

theorem inv_commit (h : Inv env coll s) {change : Change}
    (horderly : Orderly env coll s (.commit change)) (hexec : change.exec env coll s.db = .ok c) :
    Inv env coll (commit s change c) := by
  refine h.next rfl le_rfl h.channel ?_
  intro st hst hanon hchannel
  obtain ⟨x, hx, haltered⟩ | hadmitted := (h.sub _ hst).current hanon hchannel
  · -- an eviction that was to come is still to come
    exact .inl ⟨x, List.mem_append_left _ hx, haltered⟩
  · by_cases hsame : admission env coll s.db .anon = admission env coll c .anon
    · exact .inr (admission_eq_ok_iff.mp (hsame ▸ admission_eq_ok_iff.mpr hadmitted))
    · cases hevicts : change.evicts with
      | true => exact .inl ⟨_, List.mem_append_right _ List.mem_cons_self, hevicts, hsame⟩
      | false =>
        by_cases hdrop : change = .dropCollection
        · subst hdrop
          exact absurd ⟨hanon, hchannel⟩ (horderly _ hst)
        · exact .inr (hadmitted.kept hexec hevicts hdrop)

theorem inv_invalidate (h : Inv env coll s) {k : Nat} {x : Running} (hk : s.changes[k]? = some x) :
    Inv env coll (invalidate s k x) := by
  refine h.next rfl le_rfl h.channel ?_
  intro st hst hanon hchannel
  refine ((h.sub _ hst).current hanon hchannel).imp ?_ id
  rintro ⟨y, hy, hevicts, haltered⟩
  obtain ⟨j, hj⟩ := List.mem_iff_getElem?.mp hy
  rw [Altered, invalidate]
  -- a change that evicts goes on to its eviction; one that does not has returned
  cases hx : x.change.evicts with
  | true =>
    have hlt : k < s.changes.length := (List.getElem?_eq_some_iff.mp hk).1
    by_cases hjk : j = k
    · subst hjk
      obtain rfl := Option.some.inj (hj.symm.trans hk)
      exact ⟨_, List.mem_set hlt _, hevicts, haltered⟩
    · refine ⟨y, List.mem_of_getElem? (i := j) ?_, hevicts, haltered⟩
      exact (List.getElem?_set_ne (Ne.symm hjk)).trans hj
  | false =>
    -- the change that returns is not the one that is to evict
    have hne : j ≠ k := by
      rintro rfl
      obtain rfl := Option.some.inj (hj.symm.trans hk)
      exact nomatch hevicts.symm.trans hx
    exact ⟨y, List.mem_eraseIdx_iff_getElem?.mpr ⟨j, hne, hj⟩, hevicts, haltered⟩

/-- The eviction leaves no stream on the channel. -/
theorem inv_evict (h : Inv env coll s) (k : Nat) : Inv env coll (evict s k) :=
  h.next rfl le_rfl (fun _ hk => nomatch hk) fun _ _ _ hchannel => nomatch hchannel

/-! ### Subscriptions -/

theorem inv_decide (h : Inv env coll s) (i : Nat) (ctx : AuthCtx) (d : CollectionDescription) :
    Inv env coll (s.setSub i (decide ctx d)) := by
  refine h.advance ?_
  rw [decide]
  split
  · next f hf => exact hf
  · trivial

/-- A stream that registers on what is in force is in line with it. -/
theorem inv_subscribe (h : Inv env coll s) {i : Nat} {ctx : AuthCtx} {d : CollectionDescription}
    {f : AnonSelectFilter} (hi : s.subs[i]? = some (.decided ctx d f))
    (horderly : Orderly env coll s (.subscribe i)) : Inv env coll (subscribe s i ctx f) := by
  have hgate : gate ctx d = .ok f := h.sub _ (List.mem_of_getElem? hi)
  -- the condition: what the loaded schema says is what the catalog says
  have hcurrent : ctx = .anon → Altered env coll s ∨ Admitted coll s.db f := by
    rintro rfl
    have hforce : gate .anon d = admission env coll s.db .anon := horderly _ hi
    rw [hgate] at hforce
    exact .inr (admission_eq_ok_iff.mp hforce.symm)
  rw [subscribe]
  split
  · next k hk =>
    exact h.advance ⟨h.channel k hk, fun hanon _ => hcurrent hanon, fun _ p hp => (nomatch hp),
      fun _ p hp => (nomatch hp)⟩
  · -- the channel is new, so that no other stream is on it
    refine ⟨?_, ?_⟩
    · rintro k ⟨⟩
      exact Nat.lt_succ_self _
    · intro x hx
      obtain hx | rfl := List.mem_or_eq_of_mem_set hx
      · have hold := h.sub x hx
        refine hold.next (Nat.le_succ _) ?_
        rintro st rfl _ hchannel
        exact absurd (Option.some.inj hchannel) hold.lt.ne'
      · exact ⟨Nat.lt_succ_self _, fun hanon _ => hcurrent hanon, fun _ p hp => (nomatch hp),
          fun _ p hp => (nomatch hp)⟩

/-- The filter is applied to what was admitted with it. -/
theorem inv_deliver (h : Inv env coll s) {i : Nat} {st : Stream} {p : Publication}
    {rest : List Publication} (hi : s.subs[i]? = some (.streaming st))
    (hqueue : st.queue = p :: rest) :
    Inv env coll (s.setSub i (.streaming (deliver st p rest))) := by
  have hold : StreamInv env coll s st := h.sub _ (List.mem_of_getElem? hi)
  refine h.advance ⟨hold.lt, hold.current, ?_, ?_⟩
  · intro hanon q hq
    exact hold.queue hanon q (hqueue ▸ List.mem_cons_of_mem _ hq)
  · intro hanon q hq
    simp only [deliver] at hq
    split at hq
    · next hpasses =>
      obtain hq | hq := List.mem_append.mp hq
      · exact hold.delivered hanon q hq
      · obtain rfl := List.mem_singleton.mp hq
        exact ⟨hold.queue hanon q (hqueue ▸ List.mem_cons_self), hpasses⟩
    · exact hold.delivered hanon q hq

theorem mem_of_mem_retain {queue : List Publication} {p : Publication} (hp : p ∈ retain queue) :
    p ∈ queue :=
  List.mem_of_mem_drop hp

/-- A stream may be sent what was published under a configuration that admits it. -/
theorem StreamInv.push {st : Stream} (h : StreamInv env coll s st) {p : Publication}
    (hp : st.ctx = .anon → Admitted coll p.inForce st.filter) :
    StreamInv env coll s (st.push p) := by
  unfold Stream.push
  refine ⟨h.lt, h.current, ?_, h.delivered⟩
  intro hanon q hq
  dsimp only at hq
  obtain hq | hq := List.mem_append.mp (mem_of_mem_retain hq)
  · exact h.queue hanon q hq
  · obtain rfl := List.mem_singleton.mp hq
    exact hp hanon

/-- A publication that finds no eviction to come finds only streams that are in line. -/
theorem inv_publish (h : Inv env coll s) {ev : Event}
    (horderly : Orderly env coll s (.publish ev)) :
    Inv env coll (publish s ev) := by
  refine h.mapSubs rfl rfl rfl rfl ?_
  intro x hx
  obtain ⟨y, hy, rfl⟩ := List.mem_map.mp hx
  have hold := h.sub y hy
  cases y with
  | streaming st =>
    rw [receive]
    split
    · next hchannel =>
      refine StreamInv.push hold ?_
      intro hanon
      -- by the condition no eviction is still to come for this stream
      obtain haltered | hadmitted := hold.current hanon hchannel
      · exact absurd ⟨hanon, hchannel⟩ (horderly haltered _ hy)
      · exact hadmitted
    · exact hold
  | decided ctx d f => exact hold
  | _ => trivial

theorem inv_step (h : Inv env coll s) {l : Label} (horderly : Orderly env coll s l)
    (hstep : step env coll s l = some s') : Inv env coll s' := by
  cases l with
  | arrive ctx =>
    obtain rfl := Option.some.inj hstep
    refine h.mapSubs rfl rfl rfl rfl ?_
    intro x hx
    obtain hx | hx := List.mem_append.mp hx
    · exact h.sub x hx
    · obtain rfl := List.mem_singleton.mp hx
      trivial
  | lookup i =>
    simp only [step] at hstep
    split at hstep
    · obtain rfl := Option.some.inj hstep
      refine h.advance ?_
      rw [lookup]
      split
      · trivial
      · split <;> trivial
    · cases hstep
  | describe i rd =>
    simp only [step] at hstep
    split at hstep
    · obtain rfl := Option.some.inj hstep
      refine h.advance ?_
      rw [describe]
      split <;> trivial
    · cases hstep
  | insert i =>
    simp only [step] at hstep
    split at hstep
    · next ctx d _ =>
      obtain rfl := Option.some.inj hstep
      exact h.mapSubs rfl rfl rfl rfl (h.setSub trivial)
    · cases hstep
  | decide i =>
    simp only [step] at hstep
    split at hstep
    · next ctx d _ =>
      obtain rfl := Option.some.inj hstep
      exact inv_decide h i ctx d
    · cases hstep
  | subscribe i =>
    simp only [step] at hstep
    split at hstep
    · next ctx d f hi =>
      obtain rfl := Option.some.inj hstep
      exact inv_subscribe h hi horderly
    · cases hstep
  | deliver i =>
    simp only [step] at hstep
    split at hstep
    · next hi =>
      obtain rfl := Option.some.inj hstep
      exact inv_deliver h hi rfl
    · cases hstep
  | close i =>
    simp only [step] at hstep
    split at hstep
    · obtain rfl := Option.some.inj hstep
      exact h.advance trivial
    · cases hstep
  | publish ev =>
    obtain rfl := Option.some.inj hstep
    exact inv_publish h horderly
  | commit change =>
    simp only [step] at hstep
    split at hstep
    · next c hexec =>
      obtain rfl := Option.some.inj hstep
      exact inv_commit h horderly hexec
    · cases hstep
  | invalidate k =>
    simp only [step] at hstep
    split at hstep
    · next x hk =>
      split at hstep
      · obtain rfl := Option.some.inj hstep
        exact inv_invalidate h hk
      · cases hstep
    · cases hstep
  | evict k =>
    simp only [step] at hstep
    split at hstep
    · split at hstep
      · obtain rfl := Option.some.inj hstep
        exact inv_evict h k
      · cases hstep
    · cases hstep

theorem inv_init (c : Catalog) : Inv env coll (init c) where
  channel := fun _ hk => nomatch hk
  sub := fun _ hx => nomatch hx

/-- In every run in which subscriptions register on what is in force, no collection is dropped under
an anonymous stream, and nothing is published to one whose eviction is still to come, an event
reaches an anonymous stream only if the configuration in force admits it. -/
theorem streams_inForce {ls : List Label}
    (horderly : Along (step env coll) (Orderly env coll) (init c) ls)
    (hrun : run (step env coll) (init c) ls = some s) : StreamsInForce env coll s := by
  have hinv : Inv env coll s :=
    horderly.invariant (fun hs hC hstep => inv_step hs hC hstep) (inv_init c) hrun
  intro st hst hanon p hp
  obtain ⟨hadmitted, hpasses⟩ := (hinv.sub _ hst).delivered hanon p hp
  rw [admits, admission_eq_ok_iff.mpr hadmitted]
  exact hpasses

/-! ### Runs on a small tenant -/

/-- A tenant with its users' table and no collection. -/
def start : State :=
  init (SchemaTools.init SchemaTools.users)

def tenantStep : State → Label → Option State :=
  step SchemaTools.plainEnv "posts"

def stateAfter (ls : List Label) : State :=
  (run tenantStep start ls).getD start

theorem run_stateAfter {ls : List Label} (h : (run tenantStep start ls).isSome = true) :
    run tenantStep start ls = some (stateAfter ls) := by
  rw [stateAfter]
  cases hrun : run tenantStep start ls with
  | none =>
    rw [hrun] at h
    cases h
  | some s => rfl

/-- A change that evicts nothing, from its commit to its return. -/
def apply (change : Change) : List Label :=
  [.commit change, .invalidate 0]

def applyAndEvict (change : Change) : List Label :=
  [.commit change, .invalidate 0, .evict 0]

def create : Change :=
  .createCollection [{ name := "title", sqlType := "text" }] none

/-- The collection is created and broadcasts. -/
def setUp : List Label :=
  apply create ++ apply (.setRealtime true)

/-- An anonymous client is let in, and has yet to register. -/
def connect : List Label :=
  [.arrive .anon, .lookup 0, .describe 0 SchemaTools.plainEnv.reading, .insert 0, .decide 0]

def post : Event :=
  .created (.object [("id", .number (.posInt 1)), ("title", .string "draft")])

/-- An event is published and sent on. -/
def broadcast : List Label :=
  [.publish post, .deliver 0]

/-- The stream has been sent an event that it should not have seen. -/
def leaked : Subscription → Bool
  | .streaming st => st.ctx = .anon &&
    st.delivered.any fun p => !admits SchemaTools.plainEnv "posts" p.inForce p.event
  | _ => false

def Leaks (ls : List Label) : Prop :=
  ∃ s, run tenantStep start ls = some s ∧ ¬ StreamsInForce SchemaTools.plainEnv "posts" s

theorem leaks_of_leaked {ls : List Label} (hrun : (run tenantStep start ls).isSome = true)
    (hleak : (stateAfter ls).subs.any leaked = true) : Leaks ls := by
  refine ⟨_, run_stateAfter hrun, ?_⟩
  intro hforce
  obtain ⟨x, hx, hleaked⟩ := List.any_eq_true.mp hleak
  cases x with
  | streaming st =>
    simp only [leaked, Bool.and_eq_true, decide_eq_true_eq, List.any_eq_true] at hleaked
    obtain ⟨hanon, p, hp, hhidden⟩ := hleaked
    rw [hforce st hx hanon p hp] at hhidden
    cases hhidden
  | _ => cases hleaked

/-- The stream registers at once. It still gets events while anonymous callers are given the right
to insert, and is evicted by that already. The last change takes the right to read from them. -/
def orderlySubscriber : List Label :=
  setUp ++ connect ++ .subscribe 0 :: broadcast ++
    [.commit (.setAnonCaps {.select, .insert})] ++ broadcast ++ [.invalidate 0, .evict 0] ++
    applyAndEvict (.setAnonCaps ∅) ++ [.publish post]

/-- The decision is to admit a stream to every event. -/
def unfiltered : Except Refusal AnonSelectFilter → Bool
  | .ok .passAll => true
  | _ => false

theorem eq_of_unfiltered {r : Except Refusal AnonSelectFilter} (h : unfiltered r = true) :
    r = .ok .passAll := by
  cases r with
  | error why => cases h
  | ok f =>
    cases f with
    | passAll => rfl
    | denyAll => cases h
    | usingClause ast => cases h

/-- The subscription has loaded a schema without a select policy, and there is none. -/
def loadedOpen (c : Catalog) : Subscription → Bool
  | .decided .anon d _ =>
    unfiltered (gate .anon d) && unfiltered (admission SchemaTools.plainEnv "posts" c .anon)
  | _ => true

theorem loadedInForce_of_open {c : Catalog} {x : Subscription} (h : loadedOpen c x = true) :
    LoadedInForce SchemaTools.plainEnv "posts" c x := by
  cases x with
  | decided ctx d f =>
    cases ctx with
    | anon =>
      obtain ⟨hgate, hadmission⟩ := Bool.and_eq_true_iff.mp h
      exact (eq_of_unfiltered hgate).trans (eq_of_unfiltered hadmission).symm
    | _ => trivial
  | _ => trivial

/-- Anonymous streams see everything before the change and after it. -/
def staysOpen (x : Running) : Bool :=
  unfiltered (admission SchemaTools.plainEnv "posts" x.before .anon) &&
    unfiltered (admission SchemaTools.plainEnv "posts" x.after .anon)

theorem not_altered_of_open {s : State} (h : s.changes.all staysOpen = true) :
    ¬ Altered SchemaTools.plainEnv "posts" s := by
  rintro ⟨x, hx, -, haltered⟩
  obtain ⟨hbefore, hafter⟩ := Bool.and_eq_true_iff.mp (List.all_eq_true.mp h x hx)
  exact haltered ((eq_of_unfiltered hbefore).trans (eq_of_unfiltered hafter).symm)

/-- A stream that is registered or sent an event may see everything. -/
def orderlyOpen (s : State) : Label → Bool
  | .subscribe i => s.subs[i]?.all (loadedOpen s.db)
  | .publish _ => s.changes.all staysOpen
  | .commit .dropCollection => false
  | _ => true

theorem orderly_of_open (s : State) (l : Label) (h : orderlyOpen s l = true) :
    Orderly SchemaTools.plainEnv "posts" s l := by
  unfold Orderly
  split
  · next i =>
    intro x hx
    rw [orderlyOpen, hx] at h
    exact loadedInForce_of_open h
  · cases h
  · exact fun haltered => absurd haltered (not_altered_of_open h)
  · trivial

/-- How many events a stream has been sent. -/
def sent : Subscription → Nat
  | .streaming st => st.delivered.length
  | _ => 0

theorem streams_inForce_orderly :
    StreamsInForce SchemaTools.plainEnv "posts" (stateAfter orderlySubscriber) ∧
      (stateAfter orderlySubscriber).subs.map sent = [2] := by
  have hopen : Along tenantStep (fun s l => orderlyOpen s l = true) start orderlySubscriber := by
    decide
  exact ⟨streams_inForce (hopen.imp orderly_of_open) (run_stateAfter (by decide)), by decide⟩

/-- The stream is let in before anonymous callers lose the right to read, and is registered
after their streams have been evicted. -/
def lateSubscriber : List Label :=
  setUp ++ connect ++ applyAndEvict (.setAnonCaps ∅) ++ [.subscribe 0] ++ broadcast

/-- The collection is dropped and made anew under the stream. The new one does not broadcast. -/
def recreated : List Label :=
  setUp ++ connect ++ [.subscribe 0] ++ apply .dropCollection ++ apply create ++ broadcast

/-- An event is published after anonymous callers have lost the right to read, and before their
streams are evicted. -/
def betweenSteps : List Label :=
  setUp ++ connect ++ [.subscribe 0, .commit (.setAnonCaps ∅)] ++ broadcast

theorem streams_outlive : Leaks lateSubscriber ∧ Leaks recreated ∧ Leaks betweenSteps := by
  refine ⟨?_, ?_, ?_⟩
  · exact leaks_of_leaked (by decide) (by decide +kernel)
  · exact leaks_of_leaked (by decide) (by decide +kernel)
  · exact leaks_of_leaked (by decide) (by decide +kernel)

end Drust.EventStream
