import Drust.Tenant.RoomBus

/-!
# Evictions reach the older sockets

The counter of a tenant is one object for all who have ever looked it up, so the value that a
socket compares has moved exactly by the evictions of its tenant since the capture. The value
has 64 bits: it comes back after `2 ^ 64` evictions of the tenant, and only then.
-/

namespace Drust

namespace RoomBus

open Transition

/-- The step increments the counter of the tenant, for an eviction that covers it. -/
def Label.bumps (tenant : String) : Label → Bool
  | .bump _ t => t == tenant
  | _ => false

/-- The counter that a connection has looked up. -/
def Socket.handle : Socket → Option (String × Nat)
  | .handled tenant epoch => some (tenant, epoch)
  | x => x.baseline.map (fun b => (b.tenant, b.epoch))

/-- Every connection has the counter that the map has for its tenant. -/
def Inv (s : State) : Prop :=
  ∀ a tenant epoch, (s.sockets a).handle = some (tenant, epoch) →
    s.epochs.get tenant = some epoch

section Steps

variable {s s' : State} {l : Label} {a : Nat}

/-- What a step does to the counters. -/
theorem step_epochs (h : step s l = some s') :
    (s'.epochs = s.epochs ∧ ∀ tenant, l.bumps tenant = false) ∨
    (∃ tenant, s'.epochs = (s.epochs.entry tenant).2 ∧ ∀ t, l.bumps t = false) ∨
    (∃ e tenant, l = .bump e tenant ∧ s'.epochs = s.epochs.bump tenant) := by
  cases l with
  | epochInsert a =>
    simp only [step] at h
    split at h
    · next tenant _ =>
      obtain rfl := Option.some.inj h
      exact .inr (.inl ⟨tenant, rfl, fun _ => rfl⟩)
    · cases h
  | bump e tenant =>
    simp only [step] at h
    split at h
    · split at h
      · obtain rfl := Option.some.inj h
        exact .inr (.inr ⟨e, tenant, rfl, rfl⟩)
      · cases h
    · split at h
      · next epoch hget =>
        split at h
        · cases h
        · obtain rfl := Option.some.inj h
          exact .inr (.inr ⟨e, tenant, rfl, (CounterMap.bump_of_get hget).symm⟩)
      · cases h
    · cases h
  | dispatch a ok =>
    simp only [step] at h
    split at h
    · next b frame _ =>
      obtain rfl := Option.some.inj h
      refine .inl ⟨?_, fun _ => rfl⟩
      unfold dispatch
      split <;> first | rfl | (split <;> rfl)
    · cases h
  | _ =>
    -- the other steps leave the map alone
    refine .inl ⟨?_, fun _ => rfl⟩
    simp only [step] at h
    repeat' split at h
    all_goals first | cases h; done | (obtain rfl := Option.some.inj h; rfl)

/-- A counter that has been looked up counts the evictions of its tenant. -/
theorem step_counter (h : step s l = some s') {tenant : String} {epoch : Nat}
    (hget : s.epochs.get tenant = some epoch) :
    s'.epochs.get tenant = some epoch ∧
      s'.epochs.values epoch =
        if l.bumps tenant then s.epochs.values epoch + 1 else s.epochs.values epoch := by
  obtain ⟨hepochs, hl⟩ | ⟨t, hepochs, hl⟩ | ⟨e, t, rfl, hepochs⟩ := step_epochs h
  · rw [hepochs, hl tenant, if_neg Bool.false_ne_true]
    exact ⟨hget, rfl⟩
  · rw [hepochs, hl tenant, if_neg Bool.false_ne_true]
    exact ⟨CounterMap.get_entry_of_get hget, CounterMap.values_entry hget⟩
  · rw [hepochs, CounterMap.values_bump hget]
    simp only [Label.bumps, beq_iff_eq]
    exact ⟨CounterMap.get_bump hget, trivial⟩

/-- What a step can do to a socket. -/
inductive SocketStep (s s' : State) : Socket → Socket → Prop
  | same (x : Socket) : SocketStep s s' x x
  | missed (tenant : String) : SocketStep s s' .idle (.missed tenant)
  | found {tenant : String} {epoch : Nat} (h : s'.epochs.get tenant = some epoch) :
      SocketStep s s' .idle (.handled tenant epoch)
  | inserted {tenant : String} {epoch : Nat} (h : s'.epochs.get tenant = some epoch) :
      SocketStep s s' (.missed tenant) (.handled tenant epoch)
  | load (tenant : String) (epoch : Nat) : SocketStep s s' (.handled tenant epoch)
      (.waiting ⟨tenant, epoch, s.epochs.values epoch⟩)
  | read (b : Baseline) (frame : Frame) : SocketStep s s' (.waiting b) (.read b frame)
  | check {b : Baseline} (frame : Frame) (h : checkEpochEvicted s b = false) :
      SocketStep s s' (.read b frame) (.checked b frame)
  | dispatch (b : Baseline) (frame : Frame) : SocketStep s s' (.checked b frame) (.waiting b)
  | close {x : Socket} {b : Baseline} (h : x.baseline = some b) : SocketStep s s' x .closed

/-- A step that changes one socket. -/
theorem socketStep_update {q : Nat} {x : Socket} (hs' : s'.sockets = Function.update s.sockets q x)
    (hx : SocketStep s s' (s.sockets q) x) (a : Nat) :
    SocketStep s s' (s.sockets a) (s'.sockets a) := by
  rw [hs']
  by_cases ha : a = q
  · subst ha
    rw [Function.update_self]
    exact hx
  · rw [Function.update_of_ne ha]
    exact .same _

theorem step_socket (h : step s l = some s') (a : Nat) :
    SocketStep s s' (s.sockets a) (s'.sockets a) := by
  cases l with
  | epochGet q tenant =>
    simp only [step] at h
    split at h
    · next hq =>
      split at h
      · next epoch hget =>
        obtain rfl := Option.some.inj h
        exact socketStep_update rfl (hq ▸ .found hget) a
      · obtain rfl := Option.some.inj h
        exact socketStep_update rfl (hq ▸ .missed tenant) a
    · cases h
  | epochInsert q =>
    simp only [step] at h
    split at h
    · next tenant hq =>
      obtain rfl := Option.some.inj h
      exact socketStep_update rfl (hq ▸ .inserted (s.epochs.get_entry tenant)) a
    · cases h
  | load q =>
    simp only [step] at h
    split at h
    · next tenant epoch hq =>
      obtain rfl := Option.some.inj h
      exact socketStep_update rfl (hq ▸ .load tenant epoch) a
    · cases h
  | keepalive q =>
    simp only [step] at h
    split at h
    · next b hq =>
      split at h
      · obtain rfl := Option.some.inj h
        exact socketStep_update rfl (hq ▸ .close (b := b) rfl) a
      · obtain rfl := Option.some.inj h
        exact .same _
    · cases h
  | readFrame q frame =>
    simp only [step] at h
    split at h
    · next b hq =>
      obtain rfl := Option.some.inj h
      exact socketStep_update rfl (hq ▸ .read b frame) a
    · cases h
  | check q =>
    simp only [step] at h
    split at h
    · next b frame hq =>
      split at h
      · obtain rfl := Option.some.inj h
        exact socketStep_update rfl (hq ▸ .close (b := b) rfl) a
      · next hpass =>
        obtain rfl := Option.some.inj h
        exact socketStep_update rfl (hq ▸ .check frame (by simpa using hpass)) a
    · cases h
  | dispatch q ok =>
    simp only [step] at h
    split at h
    · next b frame hq =>
      obtain rfl := Option.some.inj h
      have hgo : SocketStep s (dispatch s q b ok frame) (s.sockets q) (.waiting b) :=
        hq ▸ .dispatch b frame
      unfold dispatch at hgo ⊢
      split at hgo
      · exact socketStep_update rfl hgo a
      · exact socketStep_update rfl hgo a
      · refine socketStep_update ?_ hgo a
        split <;> rfl
      · exact socketStep_update rfl (hq ▸ .close (b := b) rfl) a
      · exact socketStep_update rfl hgo a
    · cases h
  | disconnect q =>
    simp only [step] at h
    split at h
    · next b hb =>
      obtain rfl := Option.some.inj h
      exact socketStep_update rfl (.close hb) a
    · cases h
  | _ =>
    -- the steps of the evictions and of the channels change no socket
    simp only [step] at h
    repeat' split at h
    all_goals first | cases h; done | (obtain rfl := Option.some.inj h; exact .same _)

/-- What a step can do to an eviction call. -/
inductive CallStep (e : Nat) (l : Label) : Call → Call → Prop
  | same (x : Call) : CallStep e l x x
  | begin (x : Call) : CallStep e l .idle x
  | bump {tenant : String} (hl : l = .bump e tenant) :
      CallStep e l (.evictTenant tenant) (.bumped (some tenant))
  | pass {present passed : List String} {tenant : String} (hl : l = .bump e tenant) :
      CallStep e l (.evictAll present passed) (.evictAll present (tenant :: passed))
  | endWalk {present passed : List String} (h : present ⊆ passed) :
      CallStep e l (.evictAll present passed) (.bumped none)
  | dropChannels (tenant : Option String) : CallStep e l (.bumped tenant) .returned

theorem callStep_update {q : Nat} {x : Call} (hs' : s'.calls = Function.update s.calls q x)
    (hx : CallStep q l (s.calls q) x) (e : Nat) : CallStep e l (s.calls e) (s'.calls e) := by
  rw [hs']
  by_cases he : e = q
  · subst he
    rw [Function.update_self]
    exact hx
  · rw [Function.update_of_ne he]
    exact .same _

theorem step_call (h : step s l = some s') (e : Nat) : CallStep e l (s.calls e) (s'.calls e) := by
  cases l with
  | evictTenant q tenant =>
    simp only [step] at h
    split at h
    · next hq =>
      obtain rfl := Option.some.inj h
      exact callStep_update rfl (hq ▸ .begin _) e
    · cases h
  | evictAll q =>
    simp only [step] at h
    split at h
    · next hq =>
      obtain rfl := Option.some.inj h
      exact callStep_update rfl (hq ▸ .begin _) e
    · cases h
  | bump q tenant =>
    simp only [step] at h
    split at h
    · next t hq =>
      split at h
      · next ht =>
        subst ht
        obtain rfl := Option.some.inj h
        exact callStep_update rfl (hq ▸ .bump rfl) e
      · cases h
    · next present passed hq =>
      split at h
      · split at h
        · cases h
        · obtain rfl := Option.some.inj h
          exact callStep_update rfl (hq ▸ .pass rfl) e
      · cases h
    · cases h
  | endWalk q =>
    simp only [step] at h
    split at h
    · next present passed hq =>
      split at h
      · next hsub =>
        obtain rfl := Option.some.inj h
        exact callStep_update rfl (hq ▸ .endWalk hsub) e
      · cases h
    · cases h
  | dropChannels q =>
    simp only [step] at h
    split at h
    · next tenant hq =>
      obtain rfl := Option.some.inj h
      exact callStep_update rfl (hq ▸ .dropChannels _) e
    · next hq =>
      obtain rfl := Option.some.inj h
      exact callStep_update rfl (hq ▸ .dropChannels _) e
    · cases h
  | dispatch q ok =>
    simp only [step] at h
    split at h
    · next b frame _ =>
      obtain rfl := Option.some.inj h
      have hcalls : (dispatch s q b ok frame).calls = s.calls := by
        unfold dispatch
        split <;> first | rfl | (split <;> rfl)
      rw [hcalls]
      exact .same _
    · cases h
  | _ =>
    -- the steps of the sockets and of the channels change no call
    simp only [step] at h
    repeat' split at h
    all_goals first | cases h; done | (obtain rfl := Option.some.inj h; exact .same _)

end Steps

/-! ### Handles -/

theorem inv_init : Inv init := by
  intro a tenant epoch h
  cases h

theorem inv_step {s s' : State} {l : Label} (hs : Inv s) (h : step s l = some s') : Inv s' := by
  intro a tenant epoch hhandle
  -- a counter that was in the map before the step is still there
  have hold : (s.sockets a).handle = some (tenant, epoch) → s'.epochs.get tenant = some epoch :=
    fun hbefore => (step_counter h (hs a tenant epoch hbefore)).1
  have hsocket := step_socket h a
  generalize hx : s.sockets a = x at hsocket hold
  generalize s'.sockets a = y at hsocket hhandle
  cases hsocket with
  | same => exact hold hhandle
  | missed => cases hhandle
  | found hget =>
    obtain ⟨rfl, rfl⟩ := Prod.mk.inj (Option.some.inj hhandle)
    exact hget
  | inserted hget =>
    obtain ⟨rfl, rfl⟩ := Prod.mk.inj (Option.some.inj hhandle)
    exact hget
  | load => exact hold hhandle
  | read => exact hold hhandle
  | check => exact hold hhandle
  | dispatch => exact hold hhandle
  | close => cases hhandle

theorem get_of_baseline {s : State} (hs : Inv s) {a : Nat} {b : Baseline}
    (hb : (s.sockets a).baseline = some b) : s.epochs.get b.tenant = some b.epoch := by
  refine hs a b.tenant b.epoch ?_
  generalize s.sockets a = x at hb ⊢
  cases x with
  | handled => cases hb
  | _ => simp [Socket.handle, hb]

/-! ### Runs from the capture on -/

section Runs

variable {s s' : State} {ls : List Label} {b : Baseline}

theorem get_run {tenant : String} {epoch : Nat} (hget : s.epochs.get tenant = some epoch)
    (hrun : run step s ls = some s') : s'.epochs.get tenant = some epoch :=
  @run_invariant State Label step (fun s => s.epochs.get tenant = some epoch)
    (fun hget h => (step_counter h hget).1) s s' ls hget hrun

/-- Since the capture the counter has counted the evictions of the tenant. -/
theorem values_run (hget : s.epochs.get b.tenant = some b.epoch)
    (hrun : run step s ls = some s') :
    s'.epochs.values b.epoch
      = s.epochs.values b.epoch + UInt64.ofNat (ls.countP (Label.bumps b.tenant)) :=
  run_counter (fun s => s.epochs.get b.tenant = some b.epoch) (fun s => s.epochs.values b.epoch)
    (Label.bumps b.tenant) (fun _ _ _ hget h => (step_counter h hget).1)
    (fun _ _ _ hget h => (step_counter h hget).2) hget hrun

theorem evicted_iff (hget : s.epochs.get b.tenant = some b.epoch)
    (hb : s.epochs.values b.epoch = b.epoch0) (hrun : run step s ls = some s') :
    checkEpochEvicted s' b = true ↔ ls.countP (Label.bumps b.tenant) % 2 ^ 64 ≠ 0 := by
  have hcount := run_counter_eq_iff (fun s => s.epochs.get b.tenant = some b.epoch)
    (fun s => s.epochs.values b.epoch) (Label.bumps b.tenant)
    (fun _ _ _ hget h => (step_counter h hget).1) (fun _ _ _ hget h => (step_counter h hget).2)
    hget hrun
  rw [checkEpochEvicted, bne_iff_ne, Ne, ← hb, hcount]

theorem countP_bumps_pos {tenant : String} :
    0 < ls.countP (Label.bumps tenant) ↔ ∃ e, Label.bump e tenant ∈ ls := by
  rw [List.countP_pos_iff]
  constructor
  · rintro ⟨l, hl, hbumps⟩
    cases l with
    | bump e t => exact ⟨e, by rwa [← eq_of_beq hbumps]⟩
    | _ => cases hbumps
  · rintro ⟨e, he⟩
    exact ⟨_, he, beq_self_eq_true tenant⟩

/-- A connection keeps its baseline until it is closed. -/
def Keeps (a : Nat) (b : Baseline) (s : State) : Prop :=
  (s.sockets a).baseline = some b ∨ s.sockets a = .closed

theorem keeps_step {a : Nat} {l : Label} (hs : Keeps a b s) (h : step s l = some s') :
    Keeps a b s' := by
  have hstep := step_socket h a
  unfold Keeps at hs ⊢
  generalize s.sockets a = x at hstep hs
  generalize s'.sockets a = y at hstep ⊢
  cases hstep with
  | same => exact hs
  | close => exact .inr rfl
  | missed => simp [Socket.baseline] at hs
  | found => simp [Socket.baseline] at hs
  | inserted => simp [Socket.baseline] at hs
  | load => simp [Socket.baseline] at hs
  | read => simpa [Socket.baseline] using hs
  | check => simpa [Socket.baseline] using hs
  | dispatch => simpa [Socket.baseline] using hs

/-- A socket that has read a frame after an eviction dispatches it not, nor any later one. -/
theorem not_dispatched {a : Nat} :
    ∀ {s : State}, run step s ls = some s' → s.epochs.get b.tenant = some b.epoch →
      (∃ frame, s.sockets a = .read b frame) ∨ s.sockets a = .closed →
      (∃ n, 0 < n ∧ n + ls.countP (Label.bumps b.tenant) < 2 ^ 64 ∧
        s.epochs.values b.epoch = b.epoch0 + UInt64.ofNat n) →
      ∀ ok, Label.dispatch a ok ∉ ls := by
  induction ls with
  | nil =>
    intro s _ _ _ _ ok hmem
    cases hmem
  | cons l ls ih =>
    intro s hrun hget hsocket hevicted ok hmem
    obtain ⟨t, ht, hrun⟩ := run_cons hrun
    obtain ⟨n, hn, hfew, hvalue⟩ := hevicted
    obtain ⟨hget', hvalue'⟩ := step_counter ht hget
    rw [List.countP_cons] at hfew
    have hcheck : checkEpochEvicted s b = true := by
      rw [checkEpochEvicted, bne_iff_ne, Ne, hvalue, UInt64.add_eq_left, ← UInt64.toNat_inj,
        UInt64.toNat_ofNat', Nat.mod_eq_of_lt (by omega)]
      exact Nat.ne_of_gt hn
    obtain rfl | hmem := List.mem_cons.mp hmem
    · -- neither a frame that is just read nor a closed socket is dispatched
      simp only [step] at ht
      obtain ⟨frame, hread⟩ | hclosed := hsocket
      · rw [hread] at ht
        cases ht
      · rw [hclosed] at ht
        cases ht
    · refine ih hrun hget' ?_ ?_ ok hmem
      · have hstep := step_socket ht a
        obtain ⟨frame, hread⟩ | hclosed := hsocket
        · rw [hread] at hstep
          generalize t.sockets a = y at hstep ⊢
          cases hstep with
          | same => exact .inl ⟨frame, rfl⟩
          | check _ hpass =>
            rw [hcheck] at hpass
            cases hpass
          | close => exact .inr rfl
        · rw [hclosed] at hstep
          generalize t.sockets a = y at hstep ⊢
          cases hstep with
          | same => exact .inr rfl
          | close => exact .inr rfl
      · by_cases hl : l.bumps b.tenant = true
        · rw [if_pos hl] at hvalue' hfew
          refine ⟨n + 1, by omega, by omega, ?_⟩
          rw [hvalue', hvalue, UInt64.ofNat_add, UInt64.add_assoc]
          rfl
        · rw [if_neg hl] at hvalue' hfew
          exact ⟨n, hn, by omega, hvalue'.trans hvalue⟩

/-- An eviction that has passed its increments has incremented what it had to. -/
def Call.finished : Call → Bool
  | .bumped _ | .returned => true
  | _ => false

theorem bump_mem_of_evictTenant {e : Nat} {tenant : String} :
    ∀ {s : State}, run step s ls = some s' → s.calls e = .evictTenant tenant →
      (s'.calls e).finished = true → Label.bump e tenant ∈ ls := by
  induction ls with
  | nil =>
    intro s hrun hcall hfinished
    obtain rfl := Option.some.inj hrun
    rw [hcall] at hfinished
    cases hfinished
  | cons l ls ih =>
    intro s hrun hcall hfinished
    obtain ⟨t, ht, hrun⟩ := run_cons hrun
    have hstep := step_call ht e
    rw [hcall] at hstep
    generalize hy : t.calls e = y at hstep
    cases hstep with
    | same => exact List.mem_cons_of_mem _ (ih hrun hy hfinished)
    | bump hl => exact hl ▸ List.mem_cons_self

theorem bump_mem_of_evictAll {e : Nat} {present : List String} {tenant : String}
    (hpresent : tenant ∈ present) :
    ∀ {s : State} {passed : List String}, run step s ls = some s' →
      s.calls e = .evictAll present passed → (s'.calls e).finished = true →
      tenant ∈ passed ∨ Label.bump e tenant ∈ ls := by
  induction ls with
  | nil =>
    intro s passed hrun hcall hfinished
    obtain rfl := Option.some.inj hrun
    rw [hcall] at hfinished
    cases hfinished
  | cons l ls ih =>
    intro s passed hrun hcall hfinished
    obtain ⟨t, ht, hrun⟩ := run_cons hrun
    have hstep := step_call ht e
    rw [hcall] at hstep
    generalize hy : t.calls e = y at hstep
    cases hstep with
    | same => exact (ih hrun hy hfinished).imp_right (List.mem_cons_of_mem _)
    | pass hl =>
      obtain hpassed | hmem := ih hrun hy hfinished
      · obtain rfl | hpassed := List.mem_cons.mp hpassed
        · exact .inr (hl ▸ List.mem_cons_self)
        · exact .inl hpassed
      · exact .inr (List.mem_cons_of_mem _ hmem)
    | endWalk hsub => exact .inl (hsub hpresent)

end Runs

/-! ### What an eviction does to a connection -/

/-- A connection with its baseline, the steps since its capture, and the state that they lead
to. -/
structure Reached (a : Nat) (b : Baseline) (ls : List Label) (s : State) : Prop where
  /-- A check in the state fails if, and only if, an eviction of the tenant has incremented
  the counter since the capture. -/
  evicted : checkEpochEvicted s b = true ↔ ∃ e, Label.bump e b.tenant ∈ ls
  /-- A frame that is read after the increment is not dispatched, nor any later one. -/
  notDispatched : ∀ {l₁ l₂ frame}, ls = l₁ ++ Label.readFrame a frame :: l₂ →
    (∃ e, Label.bump e b.tenant ∈ l₁) → ∀ ok, Label.dispatch a ok ∉ l₂
  /-- An eviction of the tenant that has begun since the capture and has got past its
  increments has made one. -/
  tenantBumped : ∀ {l₁ l₂ e}, ls = l₁ ++ Label.evictTenant e b.tenant :: l₂ →
    (s.calls e).finished = true → Label.bump e b.tenant ∈ l₂
  /-- So has an eviction of all tenants. -/
  allBumped : ∀ {l₁ l₂ e}, ls = l₁ ++ Label.evictAll e :: l₂ →
    (s.calls e).finished = true → Label.bump e b.tenant ∈ l₂

/-- In every run, from the capture of a connection's baseline on, as long as the counter of
its tenant has not been incremented `2 ^ 64` times. -/
theorem eviction_reached {ls₀ ls : List Label} {s₀ s₁ s : State} {a : Nat} {b : Baseline}
    (hrun₀ : run step init ls₀ = some s₀) (hload : step s₀ (.load a) = some s₁)
    (hb : s₁.sockets a = .waiting b) (hrun : run step s₁ ls = some s)
    (hfew : ls.countP (Label.bumps b.tenant) < 2 ^ 64) : Reached a b ls s := by
  have hinv₁ : Inv s₁ := inv_step (run_invariant inv_step inv_init hrun₀) hload
  have hget : s₁.epochs.get b.tenant = some b.epoch := get_of_baseline hinv₁ (by rw [hb]; rfl)
  -- the value that was captured is that of the counter
  have hvalue : s₁.epochs.values b.epoch = b.epoch0 := by
    simp only [step] at hload
    split at hload
    · next tenant epoch hsocket =>
      obtain rfl := Option.some.inj hload
      rw [setSocket_sockets] at hb
      obtain rfl := Socket.waiting.inj hb
      rfl
    · cases hload
  refine ⟨?_, ?_, ?_, ?_⟩
  · rw [evicted_iff hget hvalue hrun, Nat.mod_eq_of_lt hfew, ← countP_bumps_pos]
    exact Nat.pos_iff_ne_zero.symm
  · rintro l₁ l₂ frame rfl hbump ok
    rw [run_append] at hrun
    obtain ⟨s₂, hrun₁, hrun₂⟩ := Option.bind_eq_some_iff.mp hrun
    obtain ⟨s₃, hread, hrun₃⟩ := run_cons hrun₂
    have hget₂ : s₂.epochs.get b.tenant = some b.epoch :=
      get_run hget hrun₁
    obtain ⟨hget₃, hvalue₃⟩ := step_counter hread hget₂
    have hkeeps : Keeps a b s₂ := run_invariant keeps_step (.inl (by rw [hb]; rfl)) hrun₁
    rw [List.countP_append, List.countP_cons] at hfew
    refine not_dispatched hrun₃ hget₃ (.inl ⟨frame, ?_⟩)
      ⟨l₁.countP (Label.bumps b.tenant), countP_bumps_pos.mpr hbump, by omega, ?_⟩ ok
    · simp only [step] at hread
      split at hread
      · next b' hwaiting =>
        obtain rfl := Option.some.inj hread
        rw [Keeps, hwaiting] at hkeeps
        obtain rfl : b' = b := by simpa [Socket.baseline] using hkeeps
        rw [setSocket_sockets]
      · cases hread
    · rw [hvalue₃, values_run hget hrun₁, hvalue]
      rfl
  · rintro l₁ l₂ e rfl hfinished
    rw [run_append] at hrun
    obtain ⟨s₂, -, hrun₂⟩ := Option.bind_eq_some_iff.mp hrun
    obtain ⟨s₃, hbegin, hrun₃⟩ := run_cons hrun₂
    refine bump_mem_of_evictTenant hrun₃ ?_ hfinished
    simp only [step] at hbegin
    split at hbegin
    · obtain rfl := Option.some.inj hbegin
      rw [setCall_calls]
    · cases hbegin
  · rintro l₁ l₂ e rfl hfinished
    rw [run_append] at hrun
    obtain ⟨s₂, hrun₁, hrun₂⟩ := Option.bind_eq_some_iff.mp hrun
    obtain ⟨s₃, hbegin, hrun₃⟩ := run_cons hrun₂
    have hget₂ : s₂.epochs.get b.tenant = some b.epoch :=
      get_run hget hrun₁
    have hpresent : b.tenant ∈ s₂.epochs.entries.map Prod.fst :=
      List.mem_map_of_mem (CounterMap.mem_of_get hget₂)
    have hcall : s₃.calls e = .evictAll (s₂.epochs.entries.map Prod.fst) [] := by
      simp only [step] at hbegin
      split at hbegin
      · obtain rfl := Option.some.inj hbegin
        rw [setCall_calls]
      · cases hbegin
    exact (bump_mem_of_evictAll hpresent hrun₃ hcall hfinished).resolve_left List.not_mem_nil

/-- A connection of the tenant is captured, and the tenant is evicted by two calls: one for the
tenant and one for all. -/
def evictedRun : List Label :=
  [.readFrame 0 .ping, .check 0, .dispatch 0 true, .evictTenant 0 "t1", .evictAll 1,
   .bump 1 "t1", .endWalk 1, .bump 0 "t1", .readFrame 0 .ping, .check 0]

/-- A connection of the tenant has looked up its counter. -/
def handledState : State :=
  (run step init [.epochGet 0 "t1", .epochInsert 0]).get (by decide)

/-- And has captured its baseline. -/
def capturedState : State :=
  (step handledState (.load 0)).get (by decide)

theorem run_handledState : run step init [.epochGet 0 "t1", .epochInsert 0] = some handledState :=
  (Option.some_get _).symm

theorem step_capturedState : step handledState (.load 0) = some capturedState :=
  (Option.some_get _).symm

theorem eviction_reached_t1 : ∃ s b, capturedState.sockets 0 = .waiting b ∧
    run step capturedState evictedRun = some s ∧ checkEpochEvicted s b = true ∧
    Reached 0 b evictedRun s := by
  have hrun : run step capturedState evictedRun
      = some ((run step capturedState evictedRun).get (by decide)) :=
    (Option.some_get _).symm
  exact ⟨_, ⟨"t1", 0, 0⟩, rfl, hrun, by decide,
    eviction_reached run_handledState step_capturedState rfl hrun (by decide)⟩

/-! ### The wrap of the counter -/

/-- Evictions of one tenant, one after the other. -/
def evictions (tenant : String) : Nat → List Label
  | 0 => []
  | n + 1 => evictions tenant n ++ [.evictTenant n tenant, .bump n tenant]

theorem countP_evictions (tenant : String) (n : Nat) :
    (evictions tenant n).countP (Label.bumps tenant) = n := by
  induction n with
  | zero => rfl
  | succ n ih => simp [evictions, List.countP_append, ih, Label.bumps]

theorem run_evictions {s : State} (hcalls : ∀ e, s.calls e = .idle) (tenant : String) (n : Nat) :
    ∃ s', run step s (evictions tenant n) = some s' ∧ ∀ e, n ≤ e → s'.calls e = .idle := by
  induction n with
  | zero => exact ⟨s, rfl, fun e _ => hcalls e⟩
  | succ n ih =>
    obtain ⟨s', hrun, hidle⟩ := ih
    have hbegin : step s' (.evictTenant n tenant) = some (setCall s' n (.evictTenant tenant)) := by
      simp only [step, hidle n (Nat.le_refl n)]
    have hbump : ∃ s'', step (setCall s' n (.evictTenant tenant)) (.bump n tenant) = some s'' ∧
        ∀ e, e ≠ n → s''.calls e = s'.calls e := by
      refine ⟨_, by simp only [step, setCall_calls, if_true]; rfl, ?_⟩
      intro e he
      simp [setCall, Function.update_of_ne he]
    obtain ⟨s'', hbump, hcalls''⟩ := hbump
    refine ⟨s'', ?_, ?_⟩
    · rw [evictions, run_append, hrun, Option.bind_some, run, hbegin]
      simp only [run, hbump]
    · intro e he
      rw [hcalls'' e (by omega)]
      exact hidle e (by omega)

theorem mem_evictions {tenant : String} {n : Nat} (hn : 0 < n) :
    ∃ e, Label.evictTenant e tenant ∈ evictions tenant n ∧
      Label.bump e tenant ∈ evictions tenant n := by
  cases n with
  | zero => cases hn
  | succ n => exact ⟨n, by simp [evictions]⟩

/-- The check fails after some evictions of the tenant, but not after every number of them. -/
theorem evicted_evictions (n : Nat) : ∃ s, run step capturedState (evictions "t1" n) = some s ∧
    (checkEpochEvicted s ⟨"t1", 0, 0⟩ = true ↔ n % 2 ^ 64 ≠ 0) := by
  obtain ⟨s, hrun, -⟩ := run_evictions (s := capturedState) (fun _ => rfl) "t1" n
  have hevicted := evicted_iff (b := ⟨"t1", 0, 0⟩) rfl rfl hrun
  rw [countP_evictions] at hevicted
  exact ⟨s, hrun, hevicted⟩

/-- A socket that was captured before `2 ^ 64` evictions of its tenant passes the check after
them. -/
theorem passes_after_wrap : ∃ ls s b,
    run step init [.epochGet 0 "t1", .epochInsert 0, .load 0] = some capturedState ∧
    capturedState.sockets 0 = .waiting b ∧ run step capturedState ls = some s ∧
    (∃ e, Label.evictTenant e b.tenant ∈ ls ∧ Label.bump e b.tenant ∈ ls) ∧
    checkEpochEvicted s b = false := by
  obtain ⟨s, hrun, hevicted⟩ := evicted_evictions (2 ^ 64)
  refine ⟨_, s, ⟨"t1", 0, 0⟩, rfl, rfl, hrun, mem_evictions (Nat.two_pow_pos 64), ?_⟩
  rw [Bool.eq_false_iff, Ne, hevicted, Nat.mod_self]
  exact fun h => h rfl

end RoomBus

end Drust
