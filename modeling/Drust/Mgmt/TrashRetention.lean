import Drust.Mgmt.TenantCreation
import Drust.Mgmt.Trash

/-!
# How long recovery copies are kept

A copy stays in `_trash` as it was made until a sweep finds its directory older than the
retention (`snapshots_kept`). Nothing else touches it: the name of a new copy is one that no
entry has, so a rename goes over no other copy and into none, and using the id again only
works on the live directory.

The age is that of the directory and not that of the copy. A tenant that has been idle for
longer than the retention when it is soft-deleted loses its copy at the next sweep
(`idleTenant_swept_at_once`).
-/

namespace Drust

namespace Trash

open Tenants

variable {days : UInt64} {defaultCap : Int} {hashToken : String → String}
  {timestamp : Nat → String} {s s' : State}

/-! ### The name of a copy -/

/-- The probe ends at a free name, or has none left to try. -/
theorem destination_free {trash : String → Option Dir} {base uuid : String}
    (h : isThere trash (fallback base uuid) = false) :
    isThere trash (destination trash base uuid) = false := by
  unfold destination
  simp only
  split
  · exact h
  · next hfree => exact Bool.eq_false_iff.mpr hfree

theorem rename_eq_some {faults : MoveFaults} {trash trash' : String → Option Dir} {dst : String}
    {src : Dir} (h : rename faults trash dst src = some trash') :
    trash' = Function.update trash dst (some src) := by
  rw [rename] at h
  split at h
  · cases h
  · exact (Option.some.inj h).symm

/-! ### The invariant -/

/-- Every copy is where it was made, or a sweep has found it expired. -/
structure Inv (days : UInt64) (s : State) : Prop where
  kept : ∀ m ∈ s.made, m ∈ s.swept ∨ s.trash m.name = some m.dir
  swept : ∀ m ∈ s.swept, m.dir.mtime + maxAge days < s.now

theorem Inv.congr (h : Inv days s) (hmade : s'.made = s.made) (hswept : s'.swept = s.swept)
    (htrash : s'.trash = s.trash) (hnow : s.now ≤ s'.now) : Inv days s' where
  kept := by
    rw [hmade, hswept, htrash]
    exact h.kept
  swept := by
    rw [hswept]
    exact fun m hm => (h.swept m hm).trans_le hnow

theorem makeTenant_eq (defaultCap : Int) (hashToken : String → String) (faults : Faults)
    (inp : MakeInput) (touched : Bool) (s : State) :
    ∃ db live, makeTenant defaultCap hashToken faults inp touched s
      = { s with db := db, live := live } := by
  unfold makeTenant
  simp only
  split
  · exact ⟨_, _, rfl⟩
  · exact ⟨_, _, rfl⟩

/-- The new copy gets a name that none has. -/
theorem Inv.move (h : Inv days s) {faults : MoveFaults} {id ts uuid : String}
    (hfresh : isThere s.trash (fallback (id ++ "-" ++ ts) uuid) = false) :
    Inv days (moveTenantToTrash faults s id ts uuid) := by
  unfold moveTenantToTrash
  split
  · exact h
  · next src hsrc =>
    split
    · exact h
    · simp only
      split
      · exact h
      · next trash hrename =>
        have hfree := destination_free hfresh
        refine ⟨fun m hm => ?_, h.swept⟩
        obtain rfl | hm := List.mem_cons.mp hm
        · refine .inr ?_
          show trash _ = _
          rw [rename_eq_some hrename, Function.update_self]
        · refine (h.kept m hm).imp_right fun hthere => ?_
          have hne : m.name ≠ destination s.trash (id ++ "-" ++ ts) uuid := by
            intro heq
            rw [← heq, isThere, hthere] at hfree
            cases hfree
          show trash _ = _
          rw [rename_eq_some hrename, Function.update_of_ne hne, hthere]

theorem expired_iff {now : Nat} {d : Dir} :
    expired days now d = true ↔ d.mtime + maxAge days < now := by
  rw [expired, Bool.and_eq_true, decide_eq_true_iff, decide_eq_true_iff]
  omega

/-- The sweep takes what it finds expired, and leaves the other entries. -/
theorem Inv.sweep (h : Inv days s) (faults : SweepFaults) :
    Inv days { s with
      trash := sweepTrash faults days s.now s.trash
      swept := s.made.filter (fun m => takes faults days s.now s.trash m.name) ++ s.swept } := by
  refine ⟨fun m hm => ?_, fun m hm => ?_⟩
  · cases htakes : takes faults days s.now s.trash m.name with
    | true => exact .inl (List.mem_append_left _ (List.mem_filter.mpr ⟨hm, htakes⟩))
    | false =>
      refine (h.kept m hm).imp (List.mem_append_right _) fun hthere => ?_
      show sweepTrash faults days s.now s.trash m.name = _
      rw [sweepTrash, htakes]
      exact hthere
  · obtain hm | hm := List.mem_append.mp hm
    · obtain ⟨hmade, htakes⟩ := List.mem_filter.mp hm
      obtain hswept | hthere := h.kept m hmade
      · exact h.swept m hswept
      · -- the entry that the sweep looked at is the copy
        rw [takes, hthere, Option.any_some, Bool.and_eq_true] at htakes
        exact expired_iff.mp htakes.2
    · exact h.swept m hm

theorem Inv.step {l : Label} (h : Inv days s)
    (hstep : step days defaultCap hashToken timestamp s l = some s') : Inv days s' := by
  cases l with
  | make faults inp touched =>
    obtain rfl := Option.some.inj hstep
    obtain ⟨db, live, heq⟩ := makeTenant_eq defaultCap hashToken faults inp touched s
    rw [heq]
    exact h.congr rfl rfl rfl le_rfl
  | softDelete faults id uuid =>
    rw [Trash.step] at hstep
    split at hstep
    · cases hstep
    · next hfresh =>
      split at hstep
      · cases hstep
      · next db hdb =>
        obtain rfl := Option.some.inj hstep
        have hmarked : Inv days { s with db := db } := h.congr rfl rfl rfl le_rfl
        exact hmarked.move (Bool.eq_false_iff.mpr hfresh)
  | sweep faults =>
    obtain rfl := Option.some.inj hstep
    exact h.sweep faults
  | write id content touched =>
    rw [Trash.step] at hstep
    split at hstep
    · cases hstep
    · obtain rfl := Option.some.inj hstep
      exact h.congr rfl rfl rfl le_rfl
  | tick now =>
    rw [Trash.step] at hstep
    split at hstep
    · next hle =>
      obtain rfl := Option.some.inj hstep
      exact h.congr rfl rfl rfl hle
    · cases hstep

/-! ### Recovery copies are kept -/

/-- A state in which no copy has been made yet. -/
def start (db : MetaDb) (live trash : String → Option Dir) (now : Nat) : State where
  db := db
  live := live
  trash := trash
  now := now

def day : Nat := 24 * 60 * 60 * 10 ^ 9

theorem maxAge_eq (h : days.toNat * (24 * 60 * 60) < 2 ^ 64) : maxAge days = days.toNat * day := by
  have hmul : (days * 24 * 60 * 60).toNat = days.toNat * (24 * 60 * 60) := by
    simp only [UInt64.toNat_mul]
    show days.toNat * 24 % 2 ^ 64 * 60 % 2 ^ 64 * 60 % 2 ^ 64 = _
    omega
  rw [maxAge, hmul, day]
  ring

/-- In every run, a copy is in `_trash` with the contents that the directory had when it was
moved, unless a sweep has found it expired. It is there for as long as the directory's own
modification time is not older than the retention. -/
theorem snapshots_kept (days : UInt64) (hdays : days.toNat * (24 * 60 * 60) < 2 ^ 64)
    (defaultCap : Int) (hashToken : String → String) (timestamp : Nat → String) (db : MetaDb)
    (live trash : String → Option Dir) (now : Nat) (ls : List Label) (s : State)
    (hrun : Transition.run (step days defaultCap hashToken timestamp) (start db live trash now) ls
      = some s) :
    ∀ m ∈ s.made, (m ∈ s.swept ∨ s.trash m.name = some m.dir) ∧
      (s.now ≤ m.dir.mtime + days.toNat * day → s.trash m.name = some m.dir) := by
  have hinit : Inv days (start db live trash now) :=
    ⟨fun m hm => absurd hm List.not_mem_nil, fun m hm => absurd hm List.not_mem_nil⟩
  have hI : Inv days s := Transition.run_invariant (fun h hstep => h.step hstep) hinit hrun
  intro m hm
  refine ⟨hI.kept m hm, fun hnow => (hI.kept m hm).resolve_left fun hswept => ?_⟩
  have hexpired := hI.swept m hswept
  rw [maxAge_eq hdays] at hexpired
  omega

/-- A tenant is created, and soft-deleted after a number of days. -/
def deletedAfter (days : Nat) : List Label :=
  [.make { fails := fun _ => false, leaves := fun _ => none } shop false, .tick (days * day),
    .softDelete {} "shop" "uuid", .sweep {}]

def noDir : String → Option Dir := fun _ => none

/-- A tenant that was written to within the retention keeps its copy. -/
theorem snapshots_kept_shop :
    ∃ s, Transition.run (step 7 3 id (fun _ => "ts")) (start oneMember noDir noDir 0)
        (deletedAfter 6) = some s ∧
      ∃ m ∈ s.made, (m ∈ s.swept ∨ s.trash m.name = some m.dir) ∧
        (s.now ≤ m.dir.mtime + (7 : UInt64).toNat * day → s.trash m.name = some m.dir) := by
  refine ⟨_, rfl, _, List.mem_cons_self, ?_⟩
  exact snapshots_kept 7 (by decide) 3 id (fun _ => "ts") oneMember noDir noDir 0 (deletedAfter 6)
    _ rfl _ List.mem_cons_self

/-- The copy of an idle tenant is gone in the second in which it was made. -/
theorem idleTenant_swept_at_once :
    ∃ s, Transition.run (step 7 3 id (fun _ => "ts")) (start oneMember noDir noDir 0)
        (deletedAfter 8) = some s ∧
      ∃ m ∈ s.made, s.now < m.deletedAt + 7 * day ∧ s.trash m.name = none := by
  refine ⟨_, rfl, _, List.mem_cons_self, ?_, rfl⟩
  decide

end Trash

end Drust
