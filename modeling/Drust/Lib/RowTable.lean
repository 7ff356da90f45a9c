import Mathlib

/-!
# Tables with an integer primary key

A table is a list of rows under keys, no two under one key, and a row that is inserted gets the
key above the highest one. So a key is used again when the last row is deleted, and what still
names the key then names another row.

A partial unique index is a function that gives the entry of a row, if the row has one. A table
that satisfies it still does after rows are deleted, after rows are changed so that their entries
stay or go away, and after a row is inserted whose entry is free (`Unique.insert`).
-/

/-- Rows under their keys. -/
structure RowTable (ρ : Type) where
  entries : List (Int × ρ)
  nodup : (entries.map Prod.fst).Nodup

namespace RowTable

variable {ρ κ : Type} {t : RowTable ρ} {i : Int} {r r' : ρ}

def ids (t : RowTable ρ) : List Int :=
  t.entries.map Prod.fst

def rows (t : RowTable ρ) : List ρ :=
  t.entries.map Prod.snd

def empty : RowTable ρ := ⟨[], List.nodup_nil⟩

/-- The row under a key. -/
def get (t : RowTable ρ) (i : Int) : Option ρ :=
  (t.entries.find? fun e => e.1 == i).map Prod.snd

theorem mem_ids : i ∈ t.ids ↔ ∃ r, (i, r) ∈ t.entries := by
  simp [ids]

theorem mem_rows : r ∈ t.rows ↔ ∃ i, (i, r) ∈ t.entries := by
  simp [rows]

/-- There is one row under a key. -/
theorem eq_of_mem (h : (i, r) ∈ t.entries) (h' : (i, r') ∈ t.entries) : r = r' :=
  congrArg Prod.snd (List.inj_on_of_nodup_map t.nodup h h' rfl)

theorem get_eq_some_iff : t.get i = some r ↔ (i, r) ∈ t.entries := by
  unfold get
  rw [Option.map_eq_some_iff]
  constructor
  · rintro ⟨⟨j, r⟩, hfind, rfl⟩
    obtain rfl : j = i := by simpa using List.find?_some hfind
    exact List.mem_of_find?_eq_some hfind
  · intro hmem
    have hsome : (t.entries.find? fun e => e.1 == i).isSome := by
      rw [List.find?_isSome]
      exact ⟨(i, r), hmem, beq_self_eq_true i⟩
    obtain ⟨⟨j, r'⟩, hfind⟩ := Option.isSome_iff_exists.mp hsome
    obtain rfl : j = i := by simpa using List.find?_some hfind
    exact ⟨(j, r'), hfind, eq_of_mem (List.mem_of_find?_eq_some hfind) hmem⟩

/-! ### Inserting a row -/

/-- The key of the next row. -/
def nextId (t : RowTable ρ) : Int :=
  match t.ids.max? with
  | some i => i + 1
  | none => 1

theorem nextId_notMem : t.nextId ∉ t.ids := by
  unfold nextId
  split
  · next m hm =>
    intro hmem
    have := (List.max?_eq_some_iff.mp hm).2 _ hmem
    omega
  · next hnone =>
    rw [List.max?_eq_none_iff.mp hnone]
    exact List.not_mem_nil

def insert (t : RowTable ρ) (r : ρ) : RowTable ρ where
  entries := t.entries ++ [(t.nextId, r)]
  nodup := by
    rw [List.map_append, List.map_singleton, List.nodup_append_comm]
    exact List.nodup_cons.mpr ⟨nextId_notMem, t.nodup⟩

theorem mem_entries_insert {e : Int × ρ} :
    e ∈ (t.insert r).entries ↔ e ∈ t.entries ∨ e = (t.nextId, r) := by
  simp [insert]

theorem rows_insert : (t.insert r).rows = t.rows ++ [r] := by
  simp [rows, insert]

theorem ids_insert : (t.insert r).ids = t.ids ++ [t.nextId] := by
  simp [ids, insert]

theorem get_insert_self : (t.insert r).get t.nextId = some r :=
  get_eq_some_iff.mpr (mem_entries_insert.mpr (Or.inr rfl))

/-- The rows that were there stay where they are. -/
theorem get_insert (h : t.get i = some r') : (t.insert r).get i = some r' :=
  get_eq_some_iff.mpr (mem_entries_insert.mpr (Or.inl (get_eq_some_iff.mp h)))

/-! ### Changing and deleting rows -/

/-- The rows that are selected are changed. -/
def update (t : RowTable ρ) (p : Int → ρ → Bool) (f : ρ → ρ) : RowTable ρ where
  entries := t.entries.map fun e => if p e.1 e.2 then (e.1, f e.2) else e
  nodup := by
    have hkeys : Prod.fst ∘ (fun e : Int × ρ => if p e.1 e.2 then (e.1, f e.2) else e) = Prod.fst := by
      funext e
      by_cases h : p e.1 e.2 = true <;> simp [h]
    rw [List.map_map, hkeys]
    exact t.nodup

/-- The number of rows that are selected. -/
def count (t : RowTable ρ) (p : Int → ρ → Bool) : Nat :=
  t.entries.countP fun e => p e.1 e.2

def delete (t : RowTable ρ) (p : Int → ρ → Bool) : RowTable ρ where
  entries := t.entries.filter fun e => !p e.1 e.2
  nodup := (List.filter_sublist.map Prod.fst).nodup t.nodup

variable {p : Int → ρ → Bool} {f : ρ → ρ}

theorem mem_entries_update :
    (i, r) ∈ (t.update p f).entries ↔
      ∃ r', (i, r') ∈ t.entries ∧ r = if p i r' then f r' else r' := by
  simp only [update, List.mem_map, Prod.exists]
  constructor
  · rintro ⟨j, r', hmem, heq⟩
    by_cases h : p j r' = true
    · rw [if_pos h] at heq
      cases heq
      exact ⟨r', hmem, (if_pos h).symm⟩
    · rw [if_neg h] at heq
      cases heq
      exact ⟨r, hmem, (if_neg h).symm⟩
  · rintro ⟨r', hmem, rfl⟩
    refine ⟨i, r', hmem, ?_⟩
    by_cases h : p i r' = true
    · rw [if_pos h, if_pos h]
    · rw [if_neg h, if_neg h]

theorem mem_entries_delete :
    (i, r) ∈ (t.delete p).entries ↔ (i, r) ∈ t.entries ∧ p i r = false := by
  simp [delete]

theorem ids_update : (t.update p f).ids = t.ids := by
  unfold ids update
  rw [List.map_map]
  refine List.map_congr_left ?_
  intro e _
  by_cases h : p e.1 e.2 = true <;> simp [h]

theorem rows_update : (t.update p f).rows = t.entries.map fun e => if p e.1 e.2 then f e.2 else e.2 := by
  unfold rows update
  rw [List.map_map]
  refine List.map_congr_left ?_
  intro e _
  by_cases h : p e.1 e.2 = true <;> simp [h]

theorem get_update : (t.update p f).get i = (t.get i).map fun r => if p i r then f r else r := by
  cases h : t.get i with
  | some r =>
    rw [Option.map_some, get_eq_some_iff, mem_entries_update]
    exact ⟨r, get_eq_some_iff.mp h, rfl⟩
  | none =>
    rw [Option.map_none, Option.eq_none_iff_forall_ne_some]
    intro r hr
    obtain ⟨r', hmem, -⟩ := mem_entries_update.mp (get_eq_some_iff.mp hr)
    rw [get_eq_some_iff.mpr hmem] at h
    cases h

theorem get_delete (h : t.get i = some r) (hp : p i r = false) : (t.delete p).get i = some r :=
  get_eq_some_iff.mpr (mem_entries_delete.mpr ⟨get_eq_some_iff.mp h, hp⟩)

theorem rows_delete_sublist : (t.delete p).rows.Sublist t.rows :=
  List.filter_sublist.map Prod.snd

/-- A count of one says that a row was selected, and no other one. -/
theorem count_pos (h : t.count p ≠ 0) : ∃ e ∈ t.entries, p e.1 e.2 = true := by
  have := List.countP_pos_iff.mp (Nat.pos_of_ne_zero h)
  exact this

/-! ### Unique indexes -/

/-- No two rows have one entry in the index. -/
def Unique (key : ρ → Option κ) (t : RowTable ρ) : Prop :=
  (t.rows.filterMap key).Nodup

variable {key : ρ → Option κ}

instance [DecidableEq κ] : Decidable (t.Unique key) :=
  inferInstanceAs (Decidable (t.rows.filterMap key).Nodup)

/-- The rows of one entry are one row. -/
theorem Unique.eq_of_mem (h : t.Unique key) {j : Int} {k : κ} (hi : (i, r) ∈ t.entries)
    (hj : (j, r') ∈ t.entries) (hr : key r = some k) (hr' : key r' = some k) : i = j ∧ r = r' := by
  unfold Unique rows at h
  rw [List.filterMap_map] at h
  obtain ⟨before, after, hsplit⟩ := List.append_of_mem hi
  rw [hsplit] at h hj
  rw [List.filterMap_append, List.filterMap_cons_some (by exact hr), List.nodup_middle,
    List.nodup_cons] at h
  have hother : (j, r') ∈ before ++ after → False := by
    intro hmem
    refine h.1 ?_
    rw [← List.filterMap_append, List.mem_filterMap]
    exact ⟨(j, r'), hmem, hr'⟩
  obtain hmem | hmem := List.mem_append.mp hj
  · exact (hother (List.mem_append_left _ hmem)).elim
  · obtain heq | hmem := List.mem_cons.mp hmem
    · cases heq
      exact ⟨rfl, rfl⟩
    · exact (hother (List.mem_append_right _ hmem)).elim

theorem Unique.insert (h : t.Unique key) (hfree : ∀ k, key r = some k → k ∉ t.rows.filterMap key) :
    (t.insert r).Unique key := by
  unfold Unique
  rw [rows_insert, List.filterMap_append, List.nodup_append_comm]
  cases hr : key r with
  | none =>
    rw [List.filterMap_cons_none hr]
    exact h
  | some k =>
    rw [List.filterMap_cons_some hr]
    exact List.nodup_cons.mpr ⟨hfree k hr, h⟩

theorem Unique.delete (h : t.Unique key) : (t.delete p).Unique key :=
  (rows_delete_sublist.filterMap key).nodup h

/-! ### What a change does to a list of entries -/

variable {g : ρ → Option κ} {x : κ}

/-- Changed rows keep their entries or lose them. -/
theorem filterMap_changed_sublist (hf : ∀ r, g (f r) = g r ∨ g (f r) = none)
    (es : List (Int × ρ)) :
    (es.filterMap (g ∘ fun e => if p e.1 e.2 then f e.2 else e.2)).Sublist
      (es.filterMap (g ∘ Prod.snd)) := by
  induction es with
  | nil => exact List.Sublist.refl _
  | cons e es ih =>
    rw [List.filterMap_cons, List.filterMap_cons]
    have hhead : (g ∘ fun e : Int × ρ => if p e.1 e.2 then f e.2 else e.2) e = g e.2 ∨
        (g ∘ fun e : Int × ρ => if p e.1 e.2 then f e.2 else e.2) e = none := by
      by_cases hp : p e.1 e.2 = true
      · simp only [Function.comp_apply, hp, if_true]
        exact hf e.2
      · simp [hp]
    obtain hhead | hhead := hhead
    · rw [hhead, Function.comp_apply]
      cases g e.2 with
      | none => exact ih
      | some k => exact ih.cons_cons k
    · rw [hhead]
      cases (g ∘ Prod.snd) e with
      | none => exact ih
      | some k => exact ih.cons k

theorem filterMap_update_sublist (hf : ∀ r, g (f r) = g r ∨ g (f r) = none) :
    ((t.update p f).rows.filterMap g).Sublist (t.rows.filterMap g) := by
  rw [rows_update, rows, List.filterMap_map, List.filterMap_map]
  exact filterMap_changed_sublist hf t.entries

theorem Unique.update (h : t.Unique key) (hf : ∀ r, key (f r) = key r ∨ key (f r) = none) :
    (t.update p f).Unique key :=
  (filterMap_update_sublist hf).nodup h

theorem filterMap_delete_sublist :
    ((t.delete p).rows.filterMap g).Sublist (t.rows.filterMap g) :=
  rows_delete_sublist.filterMap g

/-- What a filter keeps, when it keeps none of the rows that are changed, before or after. -/
theorem filter_update {q : ρ → Bool}
    (hq : ∀ i r, (i, r) ∈ t.entries → p i r = true → q (f r) = false ∧ q r = false) :
    ((t.update p f).entries.filter fun e => q e.2) = t.entries.filter fun e => q e.2 := by
  unfold update
  dsimp only
  generalize t.entries = es at hq
  induction es with
  | nil => rfl
  | cons e es ih =>
    have ih := ih fun i r hmem => hq i r (List.mem_cons_of_mem _ hmem)
    rw [List.map_cons, List.filter_cons, List.filter_cons, ih]
    by_cases hp : p e.1 e.2 = true
    · obtain ⟨hnew, hold⟩ := hq e.1 e.2 List.mem_cons_self hp
      simp [hp, hnew, hold]
    · simp [hp]

/-- The entry of a row that loses it was one more. -/
theorem cons_filterMap_update_subperm (hmem : (i, r) ∈ t.entries) (hp : p i r = true)
    (hx : g r = some x) (hf : ∀ r, g (f r) = none) :
    (x :: (t.update p f).rows.filterMap g).Subperm (t.rows.filterMap g) := by
  rw [rows_update, rows, List.filterMap_map, List.filterMap_map]
  obtain ⟨before, after, hsplit⟩ := List.append_of_mem hmem
  rw [hsplit, List.filterMap_append, List.filterMap_append,
    List.filterMap_cons_none (by simp [hp, hf]), List.filterMap_cons_some (by exact hx)]
  have hchanged := fun es => filterMap_changed_sublist (p := p) (fun r => Or.inr (hf r)) es
  have hrest := ((hchanged before).append (hchanged after)).subperm
  exact ((List.subperm_cons x).mpr hrest).trans List.perm_middle.symm.subperm

/-- When one row is changed, its new entry is at most one more. -/
theorem filterMap_update_subperm_cons (hmem : (i, r) ∈ t.entries) (hp : p i r = true)
    (honly : ∀ j r', p j r' = true → j = i) (hx : g (f r) = some x) :
    ((t.update p f).rows.filterMap g).Subperm (x :: t.rows.filterMap g) := by
  rw [rows_update, rows, List.filterMap_map, List.filterMap_map]
  have hnodup := t.nodup
  obtain ⟨before, after, hsplit⟩ := List.append_of_mem hmem
  rw [hsplit, List.map_append, List.map_cons, List.nodup_middle, List.nodup_cons] at hnodup
  have hother : ∀ e ∈ before ++ after,
      (g ∘ fun e : Int × ρ => if p e.1 e.2 then f e.2 else e.2) e = (g ∘ Prod.snd) e := by
    intro e he
    have hne : ¬ p e.1 e.2 = true := by
      intro hp'
      refine hnodup.1 ?_
      rw [← honly _ _ hp', ← List.map_append]
      exact List.mem_map.mpr ⟨e, he, rfl⟩
    simp [hne]
  rw [hsplit, List.filterMap_append, List.filterMap_append,
    List.filterMap_cons_some (b := x) (by simp [hp, hx]),
    List.filterMap_congr fun e he => hother e (List.mem_append_left _ he),
    List.filterMap_congr fun e he => hother e (List.mem_append_right _ he)]
  refine List.perm_middle.subperm.trans ((List.subperm_cons x).mpr ?_)
  refine (List.Sublist.append_left ?_ _).subperm
  rw [List.filterMap_cons]
  cases (g ∘ Prod.snd) (i, r) with
  | none => exact List.Sublist.refl _
  | some k => exact List.sublist_cons_self k _

end RowTable
