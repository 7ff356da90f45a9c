import Mathlib.Data.List.Perm.Lattice
import Mathlib.Data.List.Nodup

/-!
# A bag that mirrors keyed items

Items with a key each, and a bag with one entry for every item, in any order (`Mirrors`). An item
is the only one of its key, so taking it out leaves the items of the other keys
(`perm_cons_without`), and the bag follows as long as what is taken out of it is the entry of that
item (`Mirrors.erase`). A bag with as many entries as there are items stays so only when none of
the items goes away unnoticed (`Mirrors.length`).
-/

namespace Mirror

variable {α β κ : Type}

/-- One entry for each item. -/
def Mirrors (f : α → β) (entries : List β) (items : List α) : Prop :=
  entries.Perm (items.map f)

section Keys

variable [DecidableEq κ] {key : α → κ} {items : List α} {a : α}

/-- The items of the other keys. -/
def without (key : α → κ) (k : κ) (items : List α) : List α :=
  items.filter fun b => key b != k

theorem mem_without {k : κ} {b : α} : b ∈ without key k items ↔ b ∈ items ∧ key b ≠ k := by
  simp [without]

/-- An item and the items of the other keys are all there is. -/
theorem perm_cons_without (hnodup : (items.map key).Nodup) (ha : a ∈ items) :
    items.Perm (a :: without key (key a) items) := by
  obtain ⟨before, after, rfl⟩ := List.append_of_mem ha
  rw [List.map_append, List.map_cons, List.nodup_middle, List.nodup_cons] at hnodup
  have hother : ∀ b ∈ before ++ after, (key b != key a) = true := by
    intro b hb
    rw [bne_iff_ne]
    intro hkey
    refine hnodup.1 ?_
    rw [← List.map_append, ← hkey]
    exact List.mem_map_of_mem hb
  have hwithout : without key (key a) (before ++ a :: after) = before ++ after := by
    have hbefore : before.filter (fun b => key b != key a) = before :=
      List.filter_eq_self.mpr fun b hb => hother b (List.mem_append_left _ hb)
    have hafter : after.filter (fun b => key b != key a) = after :=
      List.filter_eq_self.mpr fun b hb => hother b (List.mem_append_right _ hb)
    simp [without, List.filter_append, hbefore, hafter]
  rw [hwithout]
  exact List.perm_middle

theorem nodup_without (hnodup : (items.map key).Nodup) (k : κ) :
    ((without key k items).map key).Nodup :=
  (List.filter_sublist.map key).nodup hnodup

/-- A list over the items in which only one of them has a share. -/
theorem flatMap_eq_of_only {g : α → List β} (hnodup : items.Nodup) (ha : a ∈ items)
    (honly : ∀ b ∈ items, b ≠ a → g b = []) : items.flatMap g = g a := by
  obtain ⟨before, after, rfl⟩ := List.append_of_mem ha
  rw [List.nodup_middle, List.nodup_cons] at hnodup
  have hnone : ∀ b ∈ before ++ after, g b = [] := by
    intro b hb
    have hmem : b ∈ before ++ a :: after := by
      rw [List.mem_append] at hb ⊢
      exact hb.imp_right (List.mem_cons_of_mem a)
    exact honly b hmem (fun heq => hnodup.1 (heq ▸ hb))
  have hbefore : before.flatMap g = [] :=
    List.flatMap_eq_nil_iff.mpr fun b hb => hnone b (List.mem_append_left _ hb)
  have hafter : after.flatMap g = [] :=
    List.flatMap_eq_nil_iff.mpr fun b hb => hnone b (List.mem_append_right _ hb)
  rw [List.flatMap_append, List.flatMap_cons, hbefore, hafter, List.nil_append, List.append_nil]

end Keys

section Mirrors

variable {f : α → β} {entries : List β} {items items' : List α} {a : α}

theorem mirrors_rebuild (f : α → β) (items : List α) : Mirrors f (items.map f) items :=
  List.Perm.refl _

theorem Mirrors.perm (h : Mirrors f entries items) (hperm : items.Perm items') :
    Mirrors f entries items' :=
  List.Perm.trans h (hperm.map f)

theorem Mirrors.insert (h : Mirrors f entries items) (a : α) :
    Mirrors f (f a :: entries) (a :: items) :=
  List.Perm.cons (f a) h

theorem Mirrors.length (h : Mirrors f entries items) : entries.length = items.length := by
  rw [List.Perm.length_eq h, List.length_map]

theorem Mirrors.mem (h : Mirrors f entries items) (ha : a ∈ items) : f a ∈ entries :=
  (List.Perm.mem_iff h).mpr (List.mem_map_of_mem ha)

theorem Mirrors.erase [DecidableEq β] (h : Mirrors f entries items)
    (hperm : items.Perm (a :: items')) : Mirrors f (entries.erase (f a)) items' := by
  have herase := List.Perm.erase (f a) (h.perm hperm)
  rwa [List.map_cons, List.erase_cons_head] at herase

end Mirrors

end Mirror
