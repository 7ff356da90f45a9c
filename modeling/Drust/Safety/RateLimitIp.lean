import Drust.Lib.KeyMap
import Drust.Lib.SlidingWindow
import Drust.Lib.Transition

/-!
# The rate limiter of the addresses

A counter for each address, which starts again with a new window once the old one is over. When
the map is full, the address that was seen least recently makes room for a new one, and loses its
count with that.

It takes calls of as many other addresses as the map has entries to make it forget one
(`forgotten_after_others`). An address that is not crowded out between its calls has at most twice
the capacity in any window (`two_windows_budget`).
-/

namespace Drust

namespace RateLimitIp

open SlidingWindow

structure Bucket where
  count : Nat
  windowStart : Nat
  lastSeen : Nat
  deriving DecidableEq, Repr

structure IpRateLimit where
  capacity : Nat
  window : Nat
  maxEntries : Nat
  deriving DecidableEq, Repr

variable {ι : Type} [DecidableEq ι]

/-- A new address finds the map full. -/
def IsFull (rl : IpRateLimit) (m : KeyMap ι Bucket) (ip : ι) : Prop :=
  rl.maxEntries ≤ m.size ∧ ip ∉ m.keys

instance (rl : IpRateLimit) (m : KeyMap ι Bucket) (ip : ι) : Decidable (IsFull rl m ip) :=
  inferInstanceAs (Decidable (_ ∧ _))

/-- One of the addresses that were seen least recently. -/
def IsOldest (m : KeyMap ι Bucket) (victim : ι) : Prop :=
  ∃ e ∈ m.entries, e.1 = victim ∧ ∀ e' ∈ m.entries, e.2.lastSeen ≤ e'.2.lastSeen

instance (m : KeyMap ι Bucket) (victim : ι) : Decidable (IsOldest m victim) :=
  inferInstanceAs (Decidable (∃ e ∈ m.entries, _))

/-- The count starts again when the window is over. -/
def Bucket.roll (rl : IpRateLimit) (now : Nat) (b : Bucket) : Bucket :=
  if rl.window ≤ now - b.windowStart then { b with windowStart := now, count := 0 } else b

/-- The entry of an address, after a call of it. -/
def touch (rl : IpRateLimit) (m : KeyMap ι Bucket) (ip : ι) (now : Nat) : Bucket :=
  { ((m.get ip).getD ⟨0, now, now⟩).roll rl now with lastSeen := now }

/-- The map after the address that makes room is gone. -/
def makeRoom (m : KeyMap ι Bucket) : Option ι → KeyMap ι Bucket
  | some v => m.erase v
  | none => m

/-- Whether the request is allowed. The address that makes room for it is an argument: among those
that were seen least recently, the order of the map decides. -/
def check (rl : IpRateLimit) (m : KeyMap ι Bucket) (ip : ι) (now : Nat) (victim : Option ι) :
    Bool × KeyMap ι Bucket :=
  let m := makeRoom m victim
  let entry := touch rl m ip now
  if rl.capacity ≤ entry.count then (false, m.set ip entry)
  else (true, m.set ip { entry with count := entry.count + 1 })

/-! ### Runs -/

structure State (ι : Type) where
  buckets : KeyMap ι Bucket
  /-- The times at which an address was let through. -/
  log : ι → List Nat := fun _ => []
  /-- The addresses that have called since the last call of an address. -/
  others : ι → List ι := fun _ => []
  /-- The last reading of the clock. -/
  clock : Nat := 0

def start : State ι where
  buckets := ⟨[], List.nodup_nil⟩

structure Call (ι : Type) where
  ip : ι
  now : Nat
  victim : Option ι := none
  deriving DecidableEq

/-- The map makes room when it has to, and for no other reason. -/
def Evicts (rl : IpRateLimit) (m : KeyMap ι Bucket) (c : Call ι) : Prop :=
  match c.victim with
  | some v => IsFull rl m c.ip ∧ IsOldest m v
  | none => ¬ (IsFull rl m c.ip ∧ m.entries ≠ [])

instance (rl : IpRateLimit) (m : KeyMap ι Bucket) (c : Call ι) : Decidable (Evicts rl m c) := by
  unfold Evicts
  split <;> infer_instance

/-- One call, under the lock of the map. -/
def step (rl : IpRateLimit) (s : State ι) (c : Call ι) : Option (State ι) :=
  if Evicts rl s.buckets c then
    let out := check rl s.buckets c.ip c.now c.victim
    some { buckets := out.2
           log := Function.update s.log c.ip
             (if out.1 then s.log c.ip ++ [c.now] else s.log c.ip)
           others := fun j => if j = c.ip then [] else c.ip :: s.others j
           clock := c.now }
  else none

/-- The clock goes forward. It is read before the lock is taken. -/
def Forward (s : State ι) (c : Call ι) : Prop := s.clock < c.now

instance (s : State ι) (c : Call ι) : Decidable (Forward s c) :=
  inferInstanceAs (Decidable (s.clock < c.now))

variable {rl : IpRateLimit} {s s' : State ι} {c : Call ι}

/-! ### The addresses in the order of their calls -/

/-- Whoever was seen later than an address has called since. -/
structure Ordered (s : State ι) : Prop where
  seen : ∀ i b, s.buckets.get i = some b → b.lastSeen ≤ s.clock
  apart : ∀ i j b b', s.buckets.get i = some b → s.buckets.get j = some b' →
    b.lastSeen = b'.lastSeen → i = j
  since : ∀ i j b b', s.buckets.get i = some b → s.buckets.get j = some b' →
    b.lastSeen < b'.lastSeen → j ∈ s.others i

/-- A call changes the entry of its address, and counts when it is allowed. -/
theorem check_spec (rl : IpRateLimit) (m : KeyMap ι Bucket) (ip : ι) (now : Nat) (victim : Option ι) :
    ∃ b, (check rl m ip now victim).2 = (makeRoom m victim).set ip b ∧ b.lastSeen = now ∧
      b.windowStart = (touch rl (makeRoom m victim) ip now).windowStart ∧
      if (check rl m ip now victim).1 then
        (touch rl (makeRoom m victim) ip now).count < rl.capacity ∧
          b.count = (touch rl (makeRoom m victim) ip now).count + 1
      else b.count = (touch rl (makeRoom m victim) ip now).count := by
  unfold check
  dsimp only
  split
  · exact ⟨_, rfl, rfl, rfl, rfl⟩
  · next hlt => exact ⟨_, rfl, rfl, rfl, Nat.lt_of_not_le hlt, rfl⟩

theorem get_of_makeRoom {m : KeyMap ι Bucket} {victim : Option ι} {i : ι} {b : Bucket}
    (h : (makeRoom m victim).get i = some b) : m.get i = some b := by
  cases victim with
  | none => exact h
  | some v =>
    rw [KeyMap.get_eq_some_iff] at h ⊢
    exact List.mem_of_mem_filter h

theorem buckets_step (hstep : step rl s c = some s') :
    Evicts rl s.buckets c ∧ s'.buckets = (check rl s.buckets c.ip c.now c.victim).2 := by
  unfold step at hstep
  split at hstep
  · next hevicts =>
    cases hstep
    exact ⟨hevicts, rfl⟩
  · cases hstep

/-- An entry after a call is that of the caller, or was there before. -/
theorem get_step (hstep : step rl s c = some s') {i : ι} {b : Bucket}
    (hget : s'.buckets.get i = some b) :
    i = c.ip ∧ b.lastSeen = c.now ∨ i ≠ c.ip ∧ s.buckets.get i = some b := by
  obtain ⟨b', hmap, hlast, -, -⟩ := check_spec rl s.buckets c.ip c.now c.victim
  rw [(buckets_step hstep).2, hmap] at hget
  by_cases hi : i = c.ip
  · subst hi
    rw [KeyMap.get_set_self] at hget
    cases hget
    exact Or.inl ⟨rfl, hlast⟩
  · rw [KeyMap.get_set_of_ne hi] at hget
    exact Or.inr ⟨hi, get_of_makeRoom hget⟩

theorem others_step (hstep : step rl s c = some s') (i : ι) :
    s'.others i = if i = c.ip then [] else c.ip :: s.others i := by
  unfold step at hstep
  split at hstep
  · cases hstep
    rfl
  · cases hstep

theorem clock_step (hstep : step rl s c = some s') : s'.clock = c.now := by
  unfold step at hstep
  split at hstep
  · cases hstep
    rfl
  · cases hstep

theorem Ordered.step (h : Ordered s) (hforward : Forward s c) (hstep : step rl s c = some s') :
    Ordered s' := by
  have hclock := clock_step hstep
  -- every entry of before was seen before this call
  have hbefore : ∀ i b, s.buckets.get i = some b → b.lastSeen < c.now :=
    fun i b hget => Nat.lt_of_le_of_lt (h.seen i b hget) hforward
  constructor
  · intro i b hget
    obtain ⟨-, hlast⟩ | ⟨-, hget⟩ := get_step hstep hget
    · omega
    · have := hbefore i b hget
      omega
  · intro i j b b' hi hj heq
    obtain ⟨rfl, hlast⟩ | ⟨-, hi⟩ := get_step hstep hi
    · obtain ⟨rfl, -⟩ | ⟨-, hj⟩ := get_step hstep hj
      · rfl
      · have := hbefore j b' hj
        omega
    · obtain ⟨-, hlast⟩ | ⟨-, hj⟩ := get_step hstep hj
      · have := hbefore i b hi
        omega
      · exact h.apart i j b b' hi hj heq
  · intro i j b b' hi hj hlt
    rw [others_step hstep]
    obtain ⟨rfl, hlast⟩ | ⟨hne, hi⟩ := get_step hstep hi
    · -- nobody was seen after the caller
      obtain ⟨-, hlast'⟩ | ⟨-, hj⟩ := get_step hstep hj
      · omega
      · have := hbefore j b' hj
        omega
    · rw [if_neg hne]
      obtain ⟨rfl, -⟩ | ⟨-, hj⟩ := get_step hstep hj
      · exact List.mem_cons_self
      · exact List.mem_cons_of_mem _ (h.since i j b b' hi hj hlt)

/-- Whoever makes room for a call is outnumbered by those who called since. -/
theorem Ordered.crowded (h : Ordered s) {v : ι} (hfull : IsFull rl s.buckets c.ip)
    (holdest : IsOldest s.buckets v) :
    rl.maxEntries ≤ (insert c.ip (s.others v).toFinset).card := by
  obtain ⟨⟨v', b⟩, hmem, rfl, hmin⟩ := holdest
  have hv := KeyMap.get_eq_some_iff.mpr hmem
  have hsub : s.buckets.keys.toFinset.erase v' ⊆ (s.others v').toFinset := by
    intro j hj
    obtain ⟨hne, hj⟩ := Finset.mem_erase.mp hj
    obtain ⟨b', hget⟩ := KeyMap.mem_keys.mp (List.mem_toFinset.mp hj)
    have hle := hmin _ (KeyMap.get_eq_some_iff.mp hget)
    have hdiffer : b.lastSeen ≠ b'.lastSeen := fun heq => hne (h.apart v' j b b' hv hget heq).symm
    exact List.mem_toFinset.mpr (h.since v' j b b' hv hget (Nat.lt_of_le_of_ne hle hdiffer))
  have hcard : s.buckets.keys.toFinset.card = s.buckets.size := by
    exact (List.toFinset_card_of_nodup s.buckets.nodup).trans (List.length_map _)
  have hvmem : v' ∈ s.buckets.keys.toFinset :=
    List.mem_toFinset.mpr (KeyMap.mem_keys.mpr ⟨b, hv⟩)
  have hnew : c.ip ∉ s.buckets.keys.toFinset.erase v' :=
    fun hmem => hfull.2 (List.mem_toFinset.mp (Finset.mem_of_mem_erase hmem))
  calc rl.maxEntries ≤ s.buckets.size := hfull.1
    _ = (insert c.ip (s.buckets.keys.toFinset.erase v')).card := by
        rw [Finset.card_insert_of_notMem hnew, Finset.card_erase_add_one hvmem, hcard]
    _ ≤ (insert c.ip (s.others v').toFinset).card := Finset.card_le_card (Finset.insert_subset_insert _ hsub)

theorem ordered_start : Ordered (start : State ι) := by
  constructor
  · intro i b hget
    cases hget
  · intro i j b b' hget
    cases hget
  · intro i j b b' hget
    cases hget

theorem Ordered.run {ls : List (Call ι)}
    (hrun : Transition.run (RateLimitIp.step rl) start ls = some s)
    (hforward : Transition.Along (RateLimitIp.step rl) Forward start ls) : Ordered s :=
  hforward.invariant (fun h hC hstep => h.step hC hstep) ordered_start hrun

/-- An address is forgotten only after as many others have called as the map has entries. -/
theorem forgotten_after_others (rl : IpRateLimit) (ls : List (Call ι)) (c : Call ι) (ip : ι)
    (s s' : State ι) (hrun : Transition.run (step rl) start ls = some s)
    (hforward : Transition.Along (step rl) Forward start ls) (hstep : step rl s c = some s')
    (hwas : ip ∈ s.buckets.keys) (hnot : ip ∉ s'.buckets.keys) :
    rl.maxEntries ≤ (s'.others ip).toFinset.card := by
  have h := Ordered.run hrun hforward
  obtain ⟨hevicts, hbuckets⟩ := buckets_step hstep
  obtain ⟨b', hmap, -, -, -⟩ := check_spec rl s.buckets c.ip c.now c.victim
  rw [hbuckets, hmap] at hnot
  -- the caller has an entry afterwards, so it is another address that lost its own
  have hip : ip ≠ c.ip := by
    rintro rfl
    exact hnot (KeyMap.mem_keys.mpr ⟨b', KeyMap.get_set_self⟩)
  have hgone : ∀ b, (makeRoom s.buckets c.victim).get ip ≠ some b := by
    intro b hget
    refine hnot (KeyMap.mem_keys.mpr ⟨b, ?_⟩)
    rwa [KeyMap.get_set_of_ne hip]
  obtain ⟨b, hget⟩ := KeyMap.mem_keys.mp hwas
  rw [others_step hstep, if_neg hip, List.toFinset_cons]
  unfold Evicts at hevicts
  cases hv : c.victim with
  | none =>
    rw [hv] at hgone
    exact absurd hget (hgone b)
  | some v =>
    rw [hv] at hgone hevicts
    by_cases hvip : ip = v
    · subst hvip
      exact h.crowded hevicts.1 hevicts.2
    · refine absurd ?_ (hgone b)
      rwa [makeRoom, KeyMap.get_erase_of_ne hvip]

/-! ### The budget of an address -/

/-- Once the address has been let through, not as many others call between its calls as the map
has entries. -/
def NotCrowded (rl : IpRateLimit) (ip : ι) (s : State ι) (c : Call ι) : Prop :=
  s.log ip ≠ [] → c.ip ≠ ip → (insert c.ip (s.others ip).toFinset).card < rl.maxEntries

instance (ip : ι) (s : State ι) (c : Call ι) : Decidable (NotCrowded rl ip s c) :=
  inferInstanceAs (Decidable (_ → _))

/-- The entry of an address counts what its log has in the window. -/
def Tracked (rl : IpRateLimit) (ip : ι) (s : State ι) : Prop :=
  match s.buckets.get ip with
  | none => s.log ip = []
  | some b => Counted rl.window rl.capacity (s.log ip) b.windowStart b.count ∧
      b.windowStart ≤ s.clock

/-- What a call finds in its entry counts the log up to now. -/
theorem Tracked.touch {ip : ι} (h : Tracked rl ip s) (hwindow : 0 < rl.window) {now : Nat}
    (hnow : s.clock < now) :
    let b := touch rl s.buckets ip now
    Counted rl.window rl.capacity (s.log ip) b.windowStart b.count ∧ b.windowStart ≤ now ∧
      now < b.windowStart + rl.window := by
  unfold Tracked at h
  unfold RateLimitIp.touch Bucket.roll
  cases hget : s.buckets.get ip with
  | none =>
    rw [hget] at h
    dsimp only at h
    simp only [Option.getD_none, Nat.sub_self, Nat.le_zero_eq, if_neg (Nat.ne_of_gt hwindow)]
    rw [h]
    exact ⟨.open now, Nat.le_refl _, by omega⟩
  | some b =>
    rw [hget] at h
    obtain ⟨hcounted, hstart⟩ := h
    dsimp only [Option.getD_some]
    split
    · have hover : b.windowStart + rl.window ≤ now := by omega
      exact ⟨hcounted.roll hover, Nat.le_refl now, Nat.lt_add_of_pos_right hwindow⟩
    · exact ⟨hcounted, by omega, by omega⟩

/-- Nobody makes room for an address that is in the map. -/
theorem get_makeRoom_caller (hevicts : Evicts rl s.buckets c) :
    (makeRoom s.buckets c.victim).get c.ip = s.buckets.get c.ip := by
  unfold Evicts at hevicts
  cases hv : c.victim with
  | none => rfl
  | some v =>
    rw [hv] at hevicts
    have hnone : ∀ b, s.buckets.get c.ip ≠ some b :=
      fun b hget => hevicts.1.2 (KeyMap.mem_keys.mpr ⟨b, hget⟩)
    rw [Option.eq_none_iff_forall_ne_some.mpr hnone, Option.eq_none_iff_forall_ne_some]
    exact fun b hget => hnone b (get_of_makeRoom hget)

theorem get_makeRoom_other {ip : ι} (hordered : Ordered s) (hevicts : Evicts rl s.buckets c)
    (hip : c.ip ≠ ip) (hlog : s.log ip ≠ []) (hcrowded : NotCrowded rl ip s c) :
    (makeRoom s.buckets c.victim).get ip = s.buckets.get ip := by
  unfold Evicts at hevicts
  cases hv : c.victim with
  | none => rfl
  | some v =>
    rw [hv] at hevicts
    refine KeyMap.get_erase_of_ne ?_
    rintro rfl
    exact absurd (hordered.crowded hevicts.1 hevicts.2) (Nat.not_le.mpr (hcrowded hlog hip))

theorem log_step (hstep : step rl s c = some s') : s'.log = Function.update s.log c.ip
    (if (check rl s.buckets c.ip c.now c.victim).1 then s.log c.ip ++ [c.now] else s.log c.ip) := by
  unfold step at hstep
  split at hstep
  · cases hstep
    rfl
  · cases hstep

theorem Tracked.step {ip : ι} (h : Tracked rl ip s) (hwindow : 0 < rl.window) (hordered : Ordered s)
    (hforward : Forward s c) (hcrowded : NotCrowded rl ip s c) (hstep : step rl s c = some s') :
    Tracked rl ip s' := by
  obtain ⟨hevicts, hbuckets⟩ := buckets_step hstep
  obtain ⟨b, hmap, -, hstart, hcount⟩ := check_spec rl s.buckets c.ip c.now c.victim
  unfold Tracked
  rw [hbuckets, hmap, log_step hstep, clock_step hstep]
  by_cases hip : c.ip = ip
  · subst hip
    -- making room takes no entry of the caller
    have htouch : RateLimitIp.touch rl (makeRoom s.buckets c.victim) c.ip c.now =
        RateLimitIp.touch rl s.buckets c.ip c.now := by
      unfold RateLimitIp.touch
      rw [get_makeRoom_caller hevicts]
    rw [htouch] at hstart hcount
    obtain ⟨hcounted, hle, hin⟩ := h.touch hwindow hforward
    rw [KeyMap.get_set_self, Function.update_self]
    dsimp only
    rw [hstart]
    refine ⟨?_, hle⟩
    split at hcount
    · next hok =>
      rw [if_pos hok, hcount.2]
      exact hcounted.add hle hin hcount.1
    · next hno =>
      rw [if_neg hno, hcount]
      exact hcounted
  · have hkept : ∀ b, (makeRoom s.buckets c.victim).get ip = some b →
        Counted rl.window rl.capacity (s.log ip) b.windowStart b.count ∧ b.windowStart ≤ c.now := by
      intro b hget
      unfold Tracked at h
      rw [get_of_makeRoom hget] at h
      exact ⟨h.1, h.2.trans (Nat.le_of_lt hforward)⟩
    rw [KeyMap.get_set_of_ne (Ne.symm hip), Function.update_of_ne (Ne.symm hip)]
    split
    · next hnone =>
      -- an address that has been let through keeps its entry
      by_contra hlog
      rw [get_makeRoom_other hordered hevicts hip hlog hcrowded] at hnone
      unfold Tracked at h
      rw [hnone] at h
      exact hlog h
    · next b hget => exact hkept b hget

/-- An address that is not crowded out has at most twice the capacity in any window. -/
theorem two_windows_budget (rl : IpRateLimit) (ls : List (Call ι)) (ip : ι) (s : State ι) (t : Nat)
    (hrun : Transition.run (step rl) start ls = some s)
    (hforward : Transition.Along (step rl) Forward start ls)
    (hcrowded : Transition.Along (step rl) (NotCrowded rl ip) start ls) :
    (s.log ip).countP (fun x => t < x + rl.window ∧ x ≤ t) ≤ 2 * rl.capacity := by
  by_cases hwindow : 0 < rl.window
  · have hboth : Ordered s ∧ Tracked rl ip s := by
      have hkept : ∀ {u c u'}, Ordered u ∧ Tracked rl ip u → Forward u c ∧ NotCrowded rl ip u c →
          step rl u c = some u' → Ordered u' ∧ Tracked rl ip u' :=
        fun h hC hstep => ⟨h.1.step hC.1 hstep, h.2.step hwindow h.1 hC.1 hC.2 hstep⟩
      exact (hforward.and hcrowded).invariant hkept ⟨ordered_start, rfl⟩ hrun
    have htracked := hboth.2
    unfold Tracked at htracked
    split at htracked
    · rw [htracked]
      exact Nat.zero_le _
    · exact htracked.1.length_le t
  · have hzero : rl.window = 0 := by omega
    rw [hzero, List.countP_eq_zero.mpr]
    · exact Nat.zero_le _
    · intro x _
      simp only [decide_eq_true_eq]
      omega

/-- One request in ten seconds, and room for two addresses. -/
def smallLimit : IpRateLimit where
  capacity := 1
  window := 10
  maxEntries := 2

/-- The third address makes the limiter forget the first one, which then has its request again. -/
def threeAddresses : List (Call Nat) :=
  [{ ip := 1, now := 1 }, { ip := 2, now := 2 }, { ip := 3, now := 3, victim := some 1 },
    { ip := 1, now := 4, victim := some 2 }]

theorem forgotten_after_others_third :
    ∃ s s', Transition.run (step smallLimit) start (threeAddresses.take 2) = some s ∧
      step smallLimit s { ip := 3, now := 3, victim := some 1 } = some s' ∧
      2 ≤ (s'.others 1).toFinset.card := by
  have hsome : ((Transition.run (step smallLimit) start (threeAddresses.take 2)).bind fun s =>
      (step smallLimit s { ip := 3, now := 3, victim := some 1 }).map fun s' =>
        decide (1 ∈ s.buckets.keys ∧ 1 ∉ s'.buckets.keys)) = some true := by decide
  obtain ⟨s, hrun, hstep⟩ := Option.bind_eq_some_iff.mp hsome
  obtain ⟨s', hstep, hkeys⟩ := Option.map_eq_some_iff.mp hstep
  obtain ⟨hwas, hnot⟩ := of_decide_eq_true hkeys
  exact ⟨s, s', hrun, hstep,
    forgotten_after_others smallLimit _ _ 1 s s' hrun (by decide) hstep hwas hnot⟩

/-- At the end of one window and at the start of the next one. -/
def acrossWindows : List (Call Nat) :=
  [{ ip := 1, now := 1 }, { ip := 2, now := 5 }, { ip := 1, now := 11 }, { ip := 1, now := 12 }]

theorem two_windows_budget_across :
    ∃ s, Transition.run (step { smallLimit with maxEntries := 3 }) start acrossWindows = some s ∧
      s.log 1 = [1, 11] ∧ (s.log 1).countP (fun x => 11 < x + 10 ∧ x ≤ 11) ≤ 2 := by
  have hsome : (Transition.run (step { smallLimit with maxEntries := 3 }) start acrossWindows).map
      (fun s => s.log 1) = some [1, 11] := by decide
  obtain ⟨s, hrun, hlog⟩ := Option.map_eq_some_iff.mp hsome
  exact ⟨s, hrun, hlog, two_windows_budget _ acrossWindows 1 s 11 hrun (by decide) (by decide)⟩

end RateLimitIp

end Drust
