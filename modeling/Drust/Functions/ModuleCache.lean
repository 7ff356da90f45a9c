import Drust.Lib.Transition
import Mathlib.Data.List.Nodup
import Mathlib.Logic.Function.Basic

/-!
# The cache of compiled modules

Compiled modules are kept by the sha of their artifact, the least recently used one first. A
call looks its sha up under the lock, compiles without it on a miss, and takes it again to
insert; a full cache drops its first entry before. A panic under the lock poisons it, and every
later use of the lock panics too.

The model has any number of calls. A compiled module is known by the artifact that it was
compiled from. `used` is history: the shas in the order in which they were hit or inserted.
-/

namespace Drust

namespace ModuleCache

open Transition

structure Artifact where
  tenant : String
  /-- The stem of its file name. -/
  sha : String
  deriving DecidableEq, Repr

structure InstancePre where
  artifact : Artifact
  deriving DecidableEq, Repr

abbrev Entries := List (String × InstancePre)

inductive Call where
  | idle
  | compiling (artifact : Artifact)
  | compiled (artifact : Artifact) (pre : InstancePre)
  | returned (artifact : Artifact) (result : Except String InstancePre)
  | panicked
  deriving DecidableEq

structure State where
  entries : Entries
  poisoned : Bool
  calls : Nat → Call
  used : List String

def init : State where
  entries := []
  poisoned := false
  calls := fun _ => .idle
  used := []

def setCall (s : State) (c : Nat) (x : Call) : State :=
  { s with calls := Function.update s.calls c x }

@[simp] theorem setCall_self (s : State) (c : Nat) (x : Call) : (setCall s c x).calls c = x :=
  Function.update_self ..

theorem setCall_of_ne (s : State) {c p : Nat} (h : c ≠ p) (x : Call) :
    (setCall s p x).calls c = s.calls c :=
  Function.update_of_ne h ..

/-! ### Steps -/

/-- The first entry of the sha, and what is left without it. -/
def removeHit (sha : String) : Entries → Option (InstancePre × Entries)
  | [] => none
  | (k, pre) :: v =>
    if k = sha then some (pre, v)
    else (removeHit sha v).map (fun r => (r.1, (k, pre) :: r.2))

/-- What an insertion leaves of the cache; `none` where there is no entry to remove. -/
def evict (cap : Nat) (v : Entries) : Option Entries :=
  if cap ≤ v.length then
    match v with
    | [] => none
    | _ :: rest => some rest
  else some v

inductive Label where
  | lookup (c : Nat) (artifact : Artifact)
  /-- The compilation, or its error. -/
  | compile (c : Nat) (error : Option String)
  | insert (c : Nat)
  deriving DecidableEq, Repr

def step (cap : Nat) (s : State) : Label → Option State
  | .lookup c artifact =>
    match s.calls c with
    | .idle =>
      if s.poisoned then some (setCall s c .panicked)
      else
        match removeHit artifact.sha s.entries with
        | some (pre, v) =>
          -- a hit moves to the end
          some (setCall { s with entries := v ++ [(artifact.sha, pre)],
                                 used := s.used ++ [artifact.sha] } c
            (.returned artifact (.ok pre)))
        | none => some (setCall s c (.compiling artifact))
    | _ => none
  | .compile c error =>
    match s.calls c with
    | .compiling artifact =>
      match error with
      | none => some (setCall s c (.compiled artifact ⟨artifact⟩))
      | some e => some (setCall s c (.returned artifact (.error e)))
    | _ => none
  | .insert c =>
    match s.calls c with
    | .compiled artifact pre =>
      if s.poisoned then some (setCall s c .panicked)
      else
        match evict cap s.entries with
        | some v =>
          some (setCall { s with entries := v ++ [(artifact.sha, pre)],
                                 used := s.used ++ [artifact.sha] } c
            (.returned artifact (.ok pre)))
        | none => some (setCall { s with poisoned := true } c .panicked)
    | _ => none

def keys (v : Entries) : List String :=
  v.map (·.1)

/-! ### Sound -/

/-- The second sha has been used since the last use of the first. -/
def UsedBefore (used : List String) (x y : String) : Prop :=
  ∃ before after, used = before ++ x :: after ∧ x ∉ after ∧ y ∈ after

structure Sound (cap : Nat) (s : State) : Prop where
  alive : s.poisoned = false
  calls : ∀ c, s.calls c ≠ .panicked
  nodup : (keys s.entries).Nodup
  bounded : s.entries.length ≤ cap
  own : ∀ c artifact pre, s.calls c = .returned artifact (.ok pre) →
    pre.artifact.sha = artifact.sha

/-- An insertion that drops an entry drops the one that was used least recently. -/
def EvictsOldest (cap : Nat) (s : State) : Label → Prop
  | .insert c => ∀ artifact pre e v, s.calls c = .compiled artifact pre → s.entries = e :: v →
      evict cap s.entries = some v → ∀ k ∈ keys v, UsedBefore s.used e.1 k
  | _ => True

def SoundStep (cap : Nat) (s : State) (l : Label) : Prop :=
  ∀ s', step cap s l = some s' → Sound cap s' ∧ EvictsOldest cap s l

/-- The cache has room for an entry, and an insertion adds the only one of its sha. -/
def Fresh (cap : Nat) (s : State) : Label → Prop
  | .insert c => ∀ artifact pre, s.calls c = .compiled artifact pre →
      0 < cap ∧ ∀ v, evict cap s.entries = some v → artifact.sha ∉ keys v
  | _ => True

/-- What holds beside: modules are kept under their own sha, in the order of their last use. -/
structure Inv (cap : Nat) (s : State) : Prop extends Sound cap s where
  keyed : ∀ e ∈ s.entries, e.2.artifact.sha = e.1
  compiled : ∀ c artifact pre, s.calls c = .compiled artifact pre → pre.artifact = artifact
  seen : ∀ k ∈ keys s.entries, k ∈ s.used
  ordered : (keys s.entries).Pairwise (UsedBefore s.used)

theorem inv_init (cap : Nat) : Inv cap init where
  alive := rfl
  calls := fun _ => nofun
  nodup := List.nodup_nil
  bounded := Nat.zero_le cap
  own := fun _ _ _ => nofun
  keyed := nofun
  compiled := fun _ _ _ => nofun
  seen := nofun
  ordered := List.Pairwise.nil

section Order

variable {used : List String} {x y sha : String}

/-- A sha that has been used has a last use. -/
theorem exists_last_use (h : x ∈ used) : ∃ before after, used = before ++ x :: after ∧ x ∉ after := by
  obtain ⟨before, after, hused, hnot⟩ :=
    List.eq_append_cons_of_mem (List.mem_reverse.mpr h)
  refine ⟨after.reverse, before.reverse, ?_, by rwa [List.mem_reverse]⟩
  rw [← List.reverse_reverse used, hused]
  simp

theorem UsedBefore.append (h : UsedBefore used x y) (hx : x ≠ sha) :
    UsedBefore (used ++ [sha]) x y := by
  obtain ⟨before, after, rfl, hnot, hy⟩ := h
  refine ⟨before, after ++ [sha], by simp, ?_, List.mem_append_left _ hy⟩
  rw [List.mem_append, List.mem_singleton, not_or]
  exact ⟨hnot, hx⟩

theorem UsedBefore.last (h : x ∈ used) (hx : x ≠ sha) : UsedBefore (used ++ [sha]) x sha := by
  obtain ⟨before, after, rfl, hnot⟩ := exists_last_use h
  refine ⟨before, after ++ [sha], by simp, ?_, by simp⟩
  rw [List.mem_append, List.mem_singleton, not_or]
  exact ⟨hnot, hx⟩

end Order

section Entries

variable {sha : String} {v v' : Entries} {pre : InstancePre}

theorem removeHit_eq (h : removeHit sha v = some (pre, v')) : ∃ left right,
    v = left ++ (sha, pre) :: right ∧ v' = left ++ right ∧ sha ∉ keys left := by
  induction v generalizing v' with
  | nil => cases h
  | cons e v ih =>
    obtain ⟨k, p⟩ := e
    rw [removeHit] at h
    split at h
    · next hk =>
      obtain ⟨rfl, rfl⟩ := Prod.mk.inj (Option.some.inj h)
      exact ⟨[], v, by rw [hk]; rfl, rfl, nofun⟩
    · next hk =>
      obtain ⟨⟨p', w⟩, hr, heq⟩ := Option.map_eq_some_iff.mp h
      obtain ⟨rfl, rfl⟩ := Prod.mk.inj heq
      obtain ⟨left, right, rfl, rfl, hnot⟩ := ih hr
      refine ⟨(k, p) :: left, right, rfl, rfl, ?_⟩
      show sha ∉ k :: keys left
      rw [List.mem_cons, not_or]
      exact ⟨Ne.symm hk, hnot⟩

theorem evict_sublist {cap : Nat} (h : evict cap v = some v') : v'.Sublist v := by
  unfold evict at h
  split at h
  · split at h
    · cases h
    · obtain rfl := Option.some.inj h
      exact List.sublist_cons_self _ _
  · obtain rfl := Option.some.inj h
    exact List.Sublist.refl v

theorem evict_length {cap : Nat} (hv : v.length ≤ cap) (h : evict cap v = some v') :
    v'.length < cap := by
  unfold evict at h
  split at h
  · split at h
    · cases h
    · obtain rfl := Option.some.inj h
      rw [List.length_cons] at hv
      omega
  · obtain rfl := Option.some.inj h
    omega

theorem evict_isSome {cap : Nat} (hcap : 0 < cap) (v : Entries) :
    ∃ v', evict cap v = some v' := by
  unfold evict
  split
  · next hfull =>
    cases v with
    | nil => exact absurd hfull (Nat.not_le_of_lt hcap)
    | cons e rest => exact ⟨rest, rfl⟩
  · exact ⟨v, rfl⟩

end Entries

/-! ### Every step -/

section Steps

variable {cap : Nat} {s s' : State} {l : Label}

theorem keys_append (v v' : Entries) : keys (v ++ v') = keys v ++ keys v' :=
  List.map_append

/-- What is left of the entries, with one more behind them. -/
theorem inv_push (hs : Inv cap s) {v : Entries} (hv : v.Sublist s.entries) {sha : String}
    (hsha : sha ∉ keys v) (hlength : v.length < cap) {pre : InstancePre}
    (hpre : pre.artifact.sha = sha) :
    Inv cap { s with entries := v ++ [(sha, pre)], used := s.used ++ [sha] } where
  alive := hs.alive
  calls := hs.calls
  own := hs.own
  compiled := hs.compiled
  nodup := by
    show (keys (v ++ [(sha, pre)])).Nodup
    rw [keys_append, List.nodup_append]
    refine ⟨hs.nodup.sublist (hv.map _), List.nodup_singleton sha, ?_⟩
    rintro k hk k' hk' rfl
    obtain rfl : k = sha := List.mem_singleton.mp hk'
    exact hsha hk
  bounded := by
    show (v ++ [(sha, pre)]).length ≤ cap
    rw [List.length_append]
    exact hlength
  keyed := by
    intro e he
    obtain he | he := List.mem_append.mp he
    · exact hs.keyed e (hv.subset he)
    · rw [List.mem_singleton.mp he]
      exact hpre
  seen := by
    intro k hk
    rw [keys_append] at hk
    obtain hk | hk := List.mem_append.mp hk
    · exact List.mem_append_left _ (hs.seen k ((hv.map _).subset hk))
    · exact List.mem_append_right _ hk
  ordered := by
    show (keys (v ++ [(sha, pre)])).Pairwise _
    have hne : ∀ k ∈ keys v, k ≠ sha := by
      rintro k hk rfl
      exact hsha hk
    rw [keys_append, List.pairwise_append]
    refine ⟨?_, List.pairwise_singleton _ _, ?_⟩
    · -- the others keep their order
      refine (hs.ordered.sublist (hv.map _)).imp_of_mem ?_
      exact fun hk _ hused => hused.append (hne _ hk)
    · intro k hk k' hk'
      obtain rfl : k' = sha := List.mem_singleton.mp hk'
      exact .last (hs.seen k ((hv.map _).subset hk)) (hne k hk)

theorem inv_setCall (hs : Inv cap s) (c : Nat) {x : Call} (hx : x ≠ .panicked)
    (hown : ∀ artifact pre, x = .returned artifact (.ok pre) → pre.artifact.sha = artifact.sha)
    (hcompiled : ∀ artifact pre, x = .compiled artifact pre → pre.artifact = artifact) :
    Inv cap (setCall s c x) := by
  have hcases : ∀ p, (setCall s c x).calls p = s.calls p ∨ (setCall s c x).calls p = x := by
    intro p
    obtain rfl | hp := eq_or_ne p c
    · exact .inr (setCall_self s p x)
    · exact .inl (setCall_of_ne s hp x)
  refine ⟨⟨hs.alive, fun p => ?_, hs.nodup, hs.bounded, fun p artifact pre hp => ?_⟩, hs.keyed,
    fun p artifact pre hp => ?_, hs.seen, hs.ordered⟩
  · obtain h | h := hcases p
    · rw [h]
      exact hs.calls p
    · rw [h]
      exact hx
  · obtain h | h := hcases p
    · exact hs.own p artifact pre (h ▸ hp)
    · exact hown artifact pre (h ▸ hp)
  · obtain h | h := hcases p
    · exact hs.compiled p artifact pre (h ▸ hp)
    · exact hcompiled artifact pre (h ▸ hp)

/-- A hit, or a call that goes on to compile. -/
theorem inv_lookup (hs : Inv cap s) {c : Nat} {artifact : Artifact}
    (h : step cap s (.lookup c artifact) = some s') : Inv cap s' := by
  rw [step] at h
  split at h
  · rw [if_neg (by rw [hs.alive]; exact Bool.false_ne_true)] at h
    split at h
    · next pre v hhit =>
      obtain rfl := Option.some.inj h
      obtain ⟨left, right, hentries, rfl, -⟩ := removeHit_eq hhit
      have hsub : (left ++ right).Sublist s.entries := by
        rw [hentries]
        exact List.Sublist.append_left (List.sublist_cons_self _ _) left
      have hsha : artifact.sha ∉ keys (left ++ right) := by
        have hnodup := hs.nodup
        rw [hentries, keys_append] at hnodup
        have hperm := hnodup.perm List.perm_middle
        rw [keys_append]
        exact (List.nodup_cons.mp hperm).1
      have hlength : (left ++ right).length < cap := by
        have hbounded := hs.bounded
        rw [hentries, List.length_append, List.length_cons] at hbounded
        rw [List.length_append]
        omega
      have hpre : pre.artifact.sha = artifact.sha :=
        hs.keyed (artifact.sha, pre) (by rw [hentries]; simp)
      refine inv_setCall (inv_push hs hsub hsha hlength hpre) c nofun ?_ (fun _ _ => nofun)
      intro artifact' pre' heq
      obtain ⟨rfl, hok⟩ := Call.returned.inj heq
      obtain rfl := Except.ok.inj hok
      exact hpre
    · obtain rfl := Option.some.inj h
      exact inv_setCall hs c nofun (fun _ _ => nofun) (fun _ _ => nofun)
  · cases h

theorem inv_compile (hs : Inv cap s) {c : Nat} {error : Option String}
    (h : step cap s (.compile c error) = some s') : Inv cap s' := by
  rw [step] at h
  split at h
  · next artifact hc =>
    cases error with
    | none =>
      obtain rfl := Option.some.inj h
      refine inv_setCall hs c nofun (fun _ _ => nofun) ?_
      intro artifact' pre heq
      obtain ⟨rfl, rfl⟩ := Call.compiled.inj heq
      rfl
    | some e =>
      obtain rfl := Option.some.inj h
      refine inv_setCall hs c nofun ?_ (fun _ _ => nofun)
      intro artifact' pre heq
      cases (Call.returned.inj heq).2
  · cases h

theorem inv_insert (hs : Inv cap s) {c : Nat} (hl : Fresh cap s (.insert c))
    (h : step cap s (.insert c) = some s') : Inv cap s' := by
  rw [step] at h
  split at h
  · next artifact pre hc =>
    obtain ⟨hcap, hfresh⟩ := hl artifact pre hc
    obtain ⟨v, hv⟩ := evict_isSome hcap s.entries
    have hpre : pre.artifact.sha = artifact.sha := by
      rw [hs.compiled c artifact pre hc]
    rw [if_neg (by rw [hs.alive]; exact Bool.false_ne_true), hv] at h
    obtain rfl := Option.some.inj h
    refine inv_setCall (inv_push hs (evict_sublist hv) (hfresh v hv) (evict_length hs.bounded hv)
      hpre) c nofun ?_ (fun _ _ => nofun)
    intro artifact' pre' heq
    obtain ⟨rfl, hok⟩ := Call.returned.inj heq
    obtain rfl := Except.ok.inj hok
    exact hpre
  · cases h

theorem inv_step (hs : Inv cap s) (hl : Fresh cap s l) (h : step cap s l = some s') :
    Inv cap s' := by
  cases l with
  | lookup c artifact => exact inv_lookup hs h
  | compile c error => exact inv_compile hs h
  | insert c => exact inv_insert hs hl h

/-- The first entry is the one whose last use is the oldest. -/
theorem evictsOldest_of_inv (hs : Inv cap s) (l : Label) : EvictsOldest cap s l := by
  cases l with
  | insert c =>
    intro artifact pre e v _ hentries _ k hk
    have hordered := hs.ordered
    rw [hentries] at hordered
    exact (List.pairwise_cons.mp hordered).1 k hk
  | _ => trivial

/-- An insertion into a cache without room panics, and one beside an entry of its sha makes a
second one. -/
theorem fresh_of_sound (hs : Inv cap s) (hl : SoundStep cap s l) (h : step cap s l = some s') :
    Fresh cap s l := by
  cases l with
  | insert c =>
    intro artifact pre hc
    obtain ⟨hsound, -⟩ := hl s' h
    rw [step, hc] at h
    simp only at h
    rw [if_neg (by rw [hs.alive]; exact Bool.false_ne_true)] at h
    cases hevict : evict cap s.entries with
    | none =>
      rw [hevict] at h
      obtain rfl := Option.some.inj h
      exact absurd (setCall_self ..) (hsound.calls c)
    | some v =>
      rw [hevict] at h
      obtain rfl := Option.some.inj h
      have hbounded : (v ++ [(artifact.sha, pre)]).length ≤ cap := hsound.bounded
      have hnodup : (keys (v ++ [(artifact.sha, pre)])).Nodup := hsound.nodup
      rw [List.length_append, List.length_singleton] at hbounded
      refine ⟨by omega, fun v' hv' => ?_⟩
      obtain rfl := Option.some.inj hv'
      rw [keys_append] at hnodup
      intro hmem
      exact (List.nodup_append.mp hnodup).2.2 _ hmem _ List.mem_cons_self rfl
  | _ => trivial

end Steps

/-- In every run of calls, for every size, the cache is sound at every step, or an insertion
finds a cache without room or another entry of its sha. -/
theorem moduleCache_sound_iff {cap : Nat} {ls : List Label} {s : State}
    (hrun : run (step cap) init ls = some s) :
    Along (step cap) (SoundStep cap) init ls ↔ Along (step cap) (Fresh cap) init ls := by
  refine Along.iff_of_invariant (Inv cap) ?_ (inv_init cap) hrun
  intro s l t _ hs ht
  have hiff : SoundStep cap s l ↔ Fresh cap s l := by
    constructor
    · exact fun hl => fresh_of_sound hs hl ht
    · intro hl s' hs'
      exact ⟨(inv_step hs hl hs').toSound, evictsOldest_of_inv hs l⟩
  exact ⟨hiff, fun hl => inv_step hs (hiff.mp hl) ht⟩

/-- Two functions share a cache of one entry. -/
def sharedRun : List Label :=
  [.lookup 0 ⟨"t", "a"⟩, .lookup 1 ⟨"t", "b"⟩, .compile 0 none, .compile 1 none, .insert 0,
   .insert 1]

theorem moduleCache_sound_shared : Along (step 1) (SoundStep 1) init sharedRun := by
  obtain ⟨s, hrun⟩ : ∃ s, run (step 1) init sharedRun = some s :=
    Option.isSome_iff_exists.mp (by decide)
  refine (moduleCache_sound_iff hrun).mpr ⟨trivial, trivial, trivial, trivial, ?_, ?_, trivial⟩
  · intro artifact pre hc
    obtain ⟨rfl, -⟩ := Call.compiled.inj hc
    refine ⟨by decide, fun v hv => ?_⟩
    obtain rfl := Option.some.inj hv
    decide
  · intro artifact pre hc
    obtain ⟨rfl, -⟩ := Call.compiled.inj hc
    refine ⟨by decide, fun v hv => ?_⟩
    obtain rfl := Option.some.inj hv
    decide

/-- A cache of size zero panics at its first insertion, and two calls that miss the same sha
insert it twice. -/
theorem moduleCache_unsound :
    (∃ ls s, run (step 0) init ls = some s ∧ s.poisoned = true ∧ s.calls 0 = .panicked ∧
      ¬ Along (step 0) (SoundStep 0) init ls) ∧
    ∃ ls s, run (step 32) init ls = some s ∧ keys s.entries = ["a", "a"] ∧
      ¬ Along (step 32) (SoundStep 32) init ls := by
  constructor
  · refine ⟨[.lookup 0 ⟨"t", "a"⟩, .compile 0 none, .insert 0], _, rfl, rfl, rfl, ?_⟩
    rintro ⟨-, -, hsound, -⟩
    exact absurd (hsound _ rfl).1.alive (by decide)
  · refine ⟨[.lookup 0 ⟨"t", "a"⟩, .lookup 1 ⟨"t", "a"⟩, .compile 0 none, .compile 1 none,
      .insert 0, .insert 1], _, rfl, rfl, ?_⟩
    rintro ⟨-, -, -, -, -, hsound, -⟩
    exact absurd (hsound _ rfl).1.nodup (by decide)

end ModuleCache

end Drust
