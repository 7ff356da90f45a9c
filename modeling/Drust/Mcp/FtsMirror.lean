import Drust.Lib.Mirror
import Drust.Lib.Transition
import Drust.Mcp.FtsTriggers

/-!
# The full-text indexes mirror their table

The triggers give each index the commands of its own row changes (`sync_eq`), so that a row change
can be read off the state before it (`insertRow_cases`, `updateRow_cases`, `deleteRow_cases`). What
an index has to hold for a row comes and goes with the row, also when the update of `updated_at`
follows, and so the indexes mirror the rows as long as no row is taken away to make room for
another. Such a row stays in the indexes for good: then they hold more than there are rows
(`mirrored_step_iff`).
-/

namespace Drust

namespace FtsTriggers

open Transition Mirror
open Sql (Value)

/-! ### What the triggers do to an index -/

/-- The commands of an event for an index. -/
def commandsFor (i : FtsIndex) : Event → List Command
  | .insert new => [.insert (entry i.fields new)]
  | .update old new => [.delete (entry i.fields old), .insert (entry i.fields new)]
  | .delete old => [.delete (entry i.fields old)]

def Index.run (i : Index) (cs : List Command) : Index :=
  cs.foldl Index.exec i

/-- An index after the triggers of an event. -/
def Index.after (ev : Event) (i : Index) : Index :=
  i.run (commandsFor i.toFtsIndex ev)

section Sync

variable {s : State} {i : Index}

@[simp] theorem Index.exec_toFtsIndex (i : Index) (c : Command) :
    (i.exec c).toFtsIndex = i.toFtsIndex := by
  cases c with
  | insert e => rfl
  | delete e =>
    simp only [Index.exec]
    split <;> rfl

@[simp] theorem Index.run_toFtsIndex (i : Index) (cs : List Command) :
    (i.run cs).toFtsIndex = i.toFtsIndex := by
  induction cs generalizing i with
  | nil => rfl
  | cons c cs ih => rw [Index.run, List.foldl_cons, ← Index.run, ih, Index.exec_toFtsIndex]

@[simp] theorem Index.after_toFtsIndex (i : Index) (ev : Event) :
    (i.after ev).toFtsIndex = i.toFtsIndex :=
  Index.run_toFtsIndex ..

/-- Each index runs the commands under its own name. -/
theorem execAll_eq (cs : List (String × Command)) (s : State) :
    s.execAll cs = { s with
      indexes := s.indexes.map fun i => i.run ((cs.filter (·.1 == i.name)).map Prod.snd) } := by
  induction cs generalizing s with
  | nil => simp [State.execAll, Index.run]
  | cons c cs ih =>
    rw [State.execAll, List.foldl_cons, ← State.execAll, ih]
    simp only [State.exec, List.map_map]
    congr 1
    refine List.map_congr_left fun i _ => ?_
    simp only [Function.comp_apply]
    by_cases hname : i.name = c.1
    · have hown : (c.1 == i.name) = true := beq_iff_eq.mpr hname.symm
      simp only [if_pos hname, Index.exec_toFtsIndex, List.filter_cons, if_pos hown, List.map_cons,
        Index.run, List.foldl_cons]
    · have hother : ¬ (c.1 == i.name) = true := fun h => hname (beq_iff_eq.mp h).symm
      simp only [if_neg hname, List.filter_cons, if_neg hother]

/-- What the triggers ask of the indexes, the newest index first. -/
theorem triggers_commands (s : State) (ev : Event) :
    s.triggers.reverse.flatMap (Trigger.commands · ev) = s.indexes.reverse.flatMap fun i =>
      (commandsFor i.toFtsIndex ev).map fun c => (i.name, c) := by
  have htriggers : s.triggers.reverse = (s.indexes.reverse.flatMap fun i =>
      [.au i.toFtsIndex, .ad i.toFtsIndex, .ai i.toFtsIndex]) ++ [.updatedAt] := by
    simp [State.triggers, List.reverse_flatMap, Function.comp_def]
  rw [htriggers, List.flatMap_append, List.flatMap_assoc]
  cases ev <;> simp [Trigger.commands, commandsFor]

/-- The triggers of an event give each index its own commands. -/
theorem sync_eq (hnames : (s.indexes.map fun i => i.name).Nodup) (ev : Event) :
    s.sync ev = { s with indexes := s.indexes.map (Index.after ev) } := by
  rw [State.sync, execAll_eq, triggers_commands]
  congr 1
  refine List.map_congr_left fun i hi => ?_
  have hfilter : (s.indexes.reverse.flatMap fun j => ((commandsFor j.toFtsIndex ev).map
      fun c => (j.name, c)).filter (·.1 == i.name))
        = (commandsFor i.toFtsIndex ev).map fun c => (i.name, c) := by
    have hnodup : s.indexes.reverse.Nodup := List.nodup_reverse.mpr (List.Nodup.of_map _ hnames)
    rw [flatMap_eq_of_only hnodup (List.mem_reverse.mpr hi)]
    · simp
    · intro j hj hji
      have hne : j.name ≠ i.name := fun heq =>
        hji (List.inj_on_of_nodup_map hnames (List.mem_reverse.mp hj) hi heq)
      simp [hne]
  rw [List.filter_flatMap, hfilter, List.map_map, Index.after]
  simp [Function.comp_def]

end Sync

/-! ### Row changes, read off the state before them -/

/-- The ids of the rows and the names of the indexes are distinct. -/
structure WellFormed (s : State) : Prop where
  ids : (s.rows.map Row.id).Nodup
  names : (s.indexes.map fun i => i.name).Nodup

section Changes

variable {keys : Keys} {policy : OnConflict} {now : Value} {old new : Row} {s t : State}
  {others rows : List Row}

theorem names_after (indexes : List Index) (ev : Event) :
    ((indexes.map (Index.after ev)).map fun i => i.name) = indexes.map fun i => i.name := by
  simp [List.map_map, Function.comp_def]

theorem foldlM_sync {ev : Event} {ts : List Trigger} (hts : .updatedAt ∉ ts) (s : State) :
    ts.foldlM (fun s t => runTrigger keys policy now ev s t) s
      = some (s.execAll (ts.flatMap (Trigger.commands · ev))) := by
  induction ts generalizing s with
  | nil => rfl
  | cons t ts ih =>
    obtain ⟨hne, hts⟩ := List.ne_and_not_mem_of_not_mem_cons hts
    have hrun : runTrigger keys policy now ev s t = some (s.execAll (t.commands ev)) := by
      cases t with
      | updatedAt => exact absurd rfl hne
      | ai | ad | au => rfl
    have happend : s.execAll (t.commands ev ++ ts.flatMap (Trigger.commands · ev))
        = (s.execAll (t.commands ev)).execAll (ts.flatMap (Trigger.commands · ev)) :=
      List.foldl_append
    rw [List.foldlM_cons, hrun, List.flatMap_cons, happend]
    exact ih hts _

/-- The trigger for `updated_at` is the last to run. -/
theorem fire_eq (ev : Event) (s : State) :
    fire keys policy now ev s = runTrigger keys policy now ev (s.sync ev) .updatedAt := by
  have htriggers : s.triggers.reverse = (s.indexes.flatMap fun i =>
      [.ai i.toFtsIndex, .ad i.toFtsIndex, .au i.toFtsIndex]).reverse ++ [.updatedAt] := by
    rw [State.triggers, List.reverse_cons]
  have hsync : Trigger.updatedAt ∉ (s.indexes.flatMap fun i =>
      [Trigger.ai i.toFtsIndex, .ad i.toFtsIndex, .au i.toFtsIndex]).reverse := by
    simp
  have hcommands : s.sync ev = s.execAll ((s.indexes.flatMap fun i =>
      [Trigger.ai i.toFtsIndex, .ad i.toFtsIndex, .au i.toFtsIndex]).reverse.flatMap
        (Trigger.commands · ev)) := by
    rw [State.sync, htriggers, List.flatMap_append]
    simp [Trigger.commands]
  rw [fire, htriggers, List.foldlM_append, foldlM_sync hsync, hcommands]
  simp

/-- Room is made by taking away what clashes, or there is none. -/
theorem makeRoom_spec (h : makeRoom keys policy new others = some rows) :
    rows.Sublist others ∧ (∀ r ∈ rows, clashes keys new r = false) ∧
      (rows.length = others.length ↔
        (policy = .replace → ∀ r ∈ others, clashes keys new r = false)) := by
  cases policy with
  | abort =>
    simp only [makeRoom] at h
    split at h
    · cases h
    · next hany =>
      obtain rfl := Option.some.inj h
      refine ⟨List.Sublist.refl _, ?_, by simp⟩
      simpa using hany
  | replace =>
    obtain rfl := Option.some.inj h
    refine ⟨List.filter_sublist, fun r hr => ?_, ?_⟩
    · simpa using (List.mem_filter.mp hr).2
    · rw [List.length_filter_eq_length_iff]
      simp

theorem insertRow_cases (hs : WellFormed s) (h : insertRow keys policy now new s = some t) :
    ∃ others, makeRoom keys policy new s.rows = some others ∧
      t = ⟨others ++ [new], s.indexes.map (Index.after (.insert new))⟩ := by
  unfold insertRow at h
  split at h
  · next others hroom =>
    refine ⟨others, hroom, ?_⟩
    rw [fire_eq, sync_eq (s := ⟨others ++ [new], s.indexes⟩) hs.names] at h
    exact (Option.some.inj h).symm
  · cases h

theorem deleteRow_cases (hs : WellFormed s) (h : deleteRow keys now old s = some t) :
    t = ⟨s.without old.id, s.indexes.map (Index.after (.delete old))⟩ := by
  unfold deleteRow at h
  rw [fire_eq, sync_eq (s := ⟨s.without old.id, s.indexes⟩) hs.names] at h
  exact (Option.some.inj h).symm

theorem id_ne_of_mem_without {r : Row} {id : Int64} (h : r ∈ s.without id) : r.id ≠ id :=
  (mem_without.mp h).2

/-- The row of an id, when it is the last one or there is none. -/
theorem row_append {rows : List Row} {indexes : List Index} {id : Int64}
    (h : ∀ r ∈ rows, r.id ≠ id) :
    State.row ⟨rows ++ [new], indexes⟩ id = if new.id = id then some new else none := by
  have hnone : rows.find? (fun r => r.id == id) = none := by
    rw [List.find?_eq_none]
    intro r hr
    simpa using h r hr
  rw [State.row, List.find?_append, hnone, Option.none_or]
  by_cases hid : new.id = id
  · simp [hid]
  · simp [hid]

/-- The update of `updated_at` finds the row that was updated, unless its id is another. -/
theorem updateRow_cases (hs : WellFormed s) (h : updateRow keys policy now old new s = some t) :
    ∃ others, makeRoom keys policy new (s.without old.id) = some others ∧
      ((new.id ≠ old.id ∧
        t = ⟨others ++ [new], s.indexes.map (Index.after (.update old new))⟩) ∨
      (new.id = old.id ∧ ∃ others', makeRoom keys policy (new.stamp now) others = some others' ∧
        t = ⟨others' ++ [new.stamp now], (s.indexes.map (Index.after (.update old new))).map
          (Index.after (.update new (new.stamp now)))⟩)) := by
  unfold updateRow putRow at h
  cases hroom : makeRoom keys policy new (s.without old.id) with
  | none =>
    rw [hroom] at h
    cases h
  | some others =>
    refine ⟨others, rfl, ?_⟩
    have hothers : ∀ r ∈ others, r.id ≠ old.id := fun r hr =>
      id_ne_of_mem_without ((makeRoom_spec hroom).1.subset hr)
    rw [hroom] at h
    simp only at h
    rw [fire_eq, sync_eq (s := ⟨others ++ [new], s.indexes⟩) hs.names] at h
    simp only [runTrigger, setUpdatedAt, row_append hothers] at h
    by_cases hid : new.id = old.id
    · right
      refine ⟨hid, ?_⟩
      rw [if_pos hid] at h
      -- the other rows are those that were left
      have hwithout : State.without
          ⟨others ++ [new], s.indexes.map (Index.after (.update old new))⟩ new.id = others := by
        have hkeep : others.filter (fun r => r.id != new.id) = others := by
          rw [List.filter_eq_self]
          intro r hr
          rw [hid]
          exact bne_iff_ne.mpr (hothers r hr)
        simp [State.without, List.filter_append, hkeep]
      simp only [putRow, hwithout] at h
      cases hroom' : makeRoom keys policy (new.stamp now) others with
      | none =>
        rw [hroom'] at h
        cases h
      | some others' =>
        rw [hroom'] at h
        have hnames : ((s.indexes.map (Index.after (.update old new))).map fun i => i.name).Nodup := by
          rw [names_after]
          exact hs.names
        refine ⟨others', rfl, ?_⟩
        rw [Option.map_some, sync_eq (s := ⟨others' ++ [new.stamp now], _⟩) hnames] at h
        exact (Option.some.inj h).symm
    · left
      rw [if_neg hid] at h
      exact ⟨hid, (Option.some.inj h).symm⟩

theorem row_spec {r : Row} {id : Int64} (h : s.row id = some r) : r ∈ s.rows ∧ r.id = id :=
  ⟨List.mem_of_find?_eq_some h, by simpa using List.find?_some h⟩

theorem nodup_append_room (hothers : (others.map Row.id).Nodup)
    (hroom : makeRoom keys policy new others = some rows) : ((rows ++ [new]).map Row.id).Nodup := by
  obtain ⟨hsublist, hclash, -⟩ := makeRoom_spec hroom
  have hids : (rows.map Row.id).Nodup := (hsublist.map Row.id).nodup hothers
  have hnew : new.id ∉ rows.map Row.id := by
    intro hmem
    obtain ⟨r, hr, hid⟩ := List.mem_map.mp hmem
    have hfree := hclash r hr
    simp [clashes, hid] at hfree
  rw [List.map_append, List.map_singleton, ← List.concat_eq_append]
  exact hids.concat hnew

theorem nodup_without_ids (hs : WellFormed s) (id : Int64) :
    ((s.without id).map Row.id).Nodup :=
  nodup_without hs.ids id

theorem wellFormed_insertRow (hs : WellFormed s) (h : insertRow keys policy now new s = some t) :
    WellFormed t := by
  obtain ⟨others, hroom, rfl⟩ := insertRow_cases hs h
  refine ⟨nodup_append_room hs.ids hroom, ?_⟩
  rw [names_after]
  exact hs.names

theorem wellFormed_updateRow (hs : WellFormed s)
    (h : updateRow keys policy now old new s = some t) : WellFormed t := by
  obtain ⟨others, hroom, ⟨-, rfl⟩ | ⟨-, others', hroom', rfl⟩⟩ := updateRow_cases hs h
  · refine ⟨nodup_append_room (nodup_without_ids hs old.id) hroom, ?_⟩
    rw [names_after]
    exact hs.names
  · have hothers : (others.map Row.id).Nodup :=
      ((makeRoom_spec hroom).1.map Row.id).nodup (nodup_without_ids hs old.id)
    refine ⟨nodup_append_room hothers hroom', ?_⟩
    rw [names_after, names_after]
    exact hs.names

theorem wellFormed_step {d : CollectionDescription} {l : Label} (hs : WellFormed s)
    (h : step d keys s l = some t) : WellFormed t := by
  cases l with
  | insert policy now new => exact wellFormed_insertRow hs h
  | update policy now id set =>
    simp only [step] at h
    split at h
    · exact wellFormed_updateRow hs h
    · cases h
  | delete now id =>
    simp only [step] at h
    split at h
    · next old _ =>
      rw [deleteRow_cases hs h]
      refine ⟨nodup_without_ids hs old.id, ?_⟩
      rw [names_after]
      exact hs.names
    · cases h
  | upsert target now new set =>
    simp only [step] at h
    split at h
    · exact wellFormed_updateRow hs h
    · exact wellFormed_insertRow hs h
  | createIndex i =>
    simp only [step] at h
    split at h
    · next haccepts =>
      obtain rfl := Option.some.inj h
      refine ⟨hs.ids, ?_⟩
      -- the validation refuses a name that is there already
      have hfresh : i.name ∉ s.indexes.map fun j => j.name := by
        simp only [accepts, Bool.and_eq_true, Bool.not_eq_true', List.any_eq_false, beq_iff_eq]
          at haccepts
        intro hmem
        obtain ⟨j, hj, hname⟩ := List.mem_map.mp hmem
        exact haccepts.2 j hj hname
      rw [List.map_append, List.map_singleton, ← List.concat_eq_append]
      exact hs.names.concat hfresh
    · cases h
  | dropIndex name =>
    simp only [step] at h
    split at h
    · obtain rfl := Option.some.inj h
      exact ⟨hs.ids, (List.filter_sublist.map fun i : Index => i.name).nodup hs.names⟩
    · cases h

end Changes

/-! ### Mirrors -/

/-- The index holds one entry for each row, with the row's values, and every `'delete'` command
named values that it held. -/
structure Index.Right (i : Index) (rows : List Row) : Prop where
  mirrors : Mirrors (entry i.fields) i.entries rows
  unmisled : i.misled = false

/-- Every index mirrors the table. -/
def Mirrored (s : State) : Prop :=
  ∀ i ∈ s.indexes, i.Right s.rows

section Right

variable {i : Index} {rows rest : List Row} {old new : Row}

theorem after_update (i : Index) (old new : Row) :
    i.after (.update old new) = (i.after (.delete old)).after (.insert new) := by
  simp [Index.after, commandsFor, Index.run]

theorem Index.Right.insert (h : i.Right rows) (new : Row) :
    (i.after (.insert new)).Right (rows ++ [new]) where
  mirrors := (h.mirrors.insert new).perm (List.perm_append_singleton new rows).symm
  unmisled := h.unmisled

/-- The command of a row that is there names what the index holds. -/
theorem Index.Right.delete (h : i.Right rows) (hperm : rows.Perm (old :: rest)) :
    (i.after (.delete old)).Right rest := by
  have hold : old ∈ rows := hperm.mem_iff.mpr List.mem_cons_self
  have hmem : entry i.fields old ∈ i.entries := h.mirrors.mem hold
  have hafter : i.after (.delete old) =
      { i with entries := i.entries.erase (entry i.fields old) } := by
    simp [Index.after, commandsFor, Index.run, Index.exec, hmem]
  rw [hafter]
  exact ⟨h.mirrors.erase hperm, h.unmisled⟩

theorem Index.Right.update (h : i.Right rows) (hperm : rows.Perm (old :: rest)) (new : Row) :
    (i.after (.update old new)).Right (rest ++ [new]) := by
  rw [after_update]
  exact (h.delete hperm).insert new

theorem Index.Right.length (h : i.Right rows) : i.entries.length = rows.length :=
  h.mirrors.length

theorem length_after_insert (i : Index) (new : Row) :
    (i.after (.insert new)).entries.length = i.entries.length + 1 := rfl

/-- An update does not make an index smaller, whatever it holds. -/
theorem length_after_update (i : Index) (old new : Row) :
    i.entries.length ≤ (i.after (.update old new)).entries.length := by
  have hdelete : i.entries.length ≤ (i.after (.delete old)).entries.length + 1 := by
    simp only [Index.after, commandsFor, Index.run, List.foldl_cons, List.foldl_nil, Index.exec]
    split
    · next hmem =>
      simp only [List.length_erase_of_mem hmem]
      omega
    · simp
  rw [after_update, length_after_insert]
  exact hdelete

end Right

/-! ### When a row change keeps the mirrors -/

/-- No other row has to go. -/
def Unobstructed (keys : Keys) (policy : OnConflict) (new : Row) (others : List Row) : Prop :=
  policy = .replace → ∀ r ∈ others, clashes keys new r = false

/-- While there is an index, no row is taken away to make room for the row that is written, nor
when its `updated_at` is set. -/
def Keeps (keys : Keys) (s : State) : Label → Prop
  | .insert policy _ new => s.indexes ≠ [] → Unobstructed keys policy new s.rows
  | .update policy now id set => s.indexes ≠ [] → ∀ old ∈ s.row id,
      Unobstructed keys policy (set old) (s.without id) ∧
      ((set old).id = id → Unobstructed keys policy ((set old).stamp now) (s.without id))
  | _ => True

instance Unobstructed.decidable (keys : Keys) (policy : OnConflict) (new : Row)
    (others : List Row) : Decidable (Unobstructed keys policy new others) :=
  inferInstanceAs (Decidable (policy = .replace → ∀ r ∈ others, clashes keys new r = false))

instance Keeps.decidable (keys : Keys) (s : State) : ∀ l, Decidable (Keeps keys s l)
  | .insert policy _ new =>
    inferInstanceAs (Decidable (s.indexes ≠ [] → Unobstructed keys policy new s.rows))
  | .update policy now id set =>
    inferInstanceAs (Decidable (s.indexes ≠ [] → ∀ old ∈ s.row id,
      Unobstructed keys policy (set old) (s.without id) ∧
      ((set old).id = id → Unobstructed keys policy ((set old).stamp now) (s.without id))))
  | .delete _ _ | .upsert _ _ _ _ | .createIndex _ | .dropIndex _ =>
    inferInstanceAs (Decidable True)

section Keeps

variable {keys : Keys} {policy : OnConflict} {now : Value} {old new : Row} {s t : State}

theorem mirrored_insertRow_iff (hs : WellFormed s) (hm : Mirrored s)
    (h : insertRow keys policy now new s = some t) :
    Mirrored t ↔ (s.indexes ≠ [] → Unobstructed keys policy new s.rows) := by
  obtain ⟨others, hroom, rfl⟩ := insertRow_cases hs h
  obtain ⟨hsublist, -, hlength⟩ := makeRoom_spec hroom
  constructor
  · intro ht hindexes
    obtain ⟨i, hi⟩ := List.exists_mem_of_ne_nil _ hindexes
    have hi' : (i.after (.insert new)).Right (others ++ [new]) := ht _ (List.mem_map_of_mem hi)
    have hbefore := (hm i hi).length
    have hafter := hi'.length
    rw [length_after_insert, List.length_append, List.length_singleton] at hafter
    exact hlength.mp (by omega)
  · intro hkeeps i' hi'
    obtain ⟨i, hi, rfl⟩ := List.mem_map.mp hi'
    obtain rfl : others = s.rows :=
      hsublist.eq_of_length (hlength.mpr (hkeeps (List.ne_nil_of_mem hi)))
    exact (hm i hi).insert new

theorem mirrored_updateRow_iff (hs : WellFormed s) (hm : Mirrored s) (hold : old ∈ s.rows)
    (h : updateRow keys policy now old new s = some t) :
    Mirrored t ↔ (s.indexes ≠ [] → Unobstructed keys policy new (s.without old.id) ∧
      (new.id = old.id → Unobstructed keys policy (new.stamp now) (s.without old.id))) := by
  have hperm : s.rows.Perm (old :: s.without old.id) := perm_cons_without hs.ids hold
  have hcount : s.rows.length = (s.without old.id).length + 1 := hperm.length_eq
  obtain ⟨others, hroom, ⟨hid, rfl⟩ | ⟨hid, others', hroom', rfl⟩⟩ := updateRow_cases hs h
  · -- the row has another id, and `updated_at` is not set
    obtain ⟨hsublist, -, hlength⟩ := makeRoom_spec hroom
    have hle := hsublist.length_le
    constructor
    · intro ht hindexes
      obtain ⟨i, hi⟩ := List.exists_mem_of_ne_nil _ hindexes
      have hi' : (i.after (.update old new)).Right (others ++ [new]) :=
        ht _ (List.mem_map_of_mem hi)
      have hbefore := (hm i hi).length
      have hgrows := length_after_update i old new
      have hafter := hi'.length
      rw [List.length_append, List.length_singleton] at hafter
      exact ⟨hlength.mp (by omega), fun hsame => absurd hsame hid⟩
    · intro hkeeps i' hi'
      obtain ⟨i, hi, rfl⟩ := List.mem_map.mp hi'
      obtain rfl : others = s.without old.id :=
        hsublist.eq_of_length (hlength.mpr (hkeeps (List.ne_nil_of_mem hi)).1)
      exact (hm i hi).update hperm new
  · obtain ⟨hsublist, -, hlength⟩ := makeRoom_spec hroom
    obtain ⟨hsublist', -, hlength'⟩ := makeRoom_spec hroom'
    have hle := hsublist.length_le
    have hle' := hsublist'.length_le
    constructor
    · intro ht hindexes
      obtain ⟨i, hi⟩ := List.exists_mem_of_ne_nil _ hindexes
      have hi' : ((i.after (.update old new)).after (.update new (new.stamp now))).Right
          (others' ++ [new.stamp now]) := ht _ (List.mem_map_of_mem (List.mem_map_of_mem hi))
      have hbefore := (hm i hi).length
      have hgrows := length_after_update i old new
      have hgrows' := length_after_update (i.after (.update old new)) new (new.stamp now)
      have hafter := hi'.length
      rw [List.length_append, List.length_singleton] at hafter
      -- none of the two writes can have taken a row away
      obtain rfl : others = s.without old.id := hsublist.eq_of_length (by omega)
      exact ⟨hlength.mp rfl, fun _ => hlength'.mp (by omega)⟩
    · intro hkeeps i' hi'
      obtain ⟨i₁, hi₁, rfl⟩ := List.mem_map.mp hi'
      obtain ⟨i, hi, rfl⟩ := List.mem_map.mp hi₁
      obtain ⟨hfirst, hsecond⟩ := hkeeps (List.ne_nil_of_mem hi)
      obtain rfl : others = s.without old.id := hsublist.eq_of_length (hlength.mpr hfirst)
      obtain rfl : others' = s.without old.id :=
        hsublist'.eq_of_length (hlength'.mpr (hsecond hid))
      -- the row is updated twice, and is the last one in between
      have hbetween : (s.without old.id ++ [new]).Perm (new :: s.without old.id) :=
        List.perm_append_singleton new _
      exact ((hm i hi).update hperm new).update hbetween (new.stamp now)

theorem mirrored_deleteRow (hs : WellFormed s) (hm : Mirrored s) (hold : old ∈ s.rows)
    (h : deleteRow keys now old s = some t) : Mirrored t := by
  rw [deleteRow_cases hs h]
  intro i' hi'
  obtain ⟨i, hi, rfl⟩ := List.mem_map.mp hi'
  exact (hm i hi).delete (perm_cons_without hs.ids hold)

theorem unobstructed_abort (new : Row) (others : List Row) :
    Unobstructed keys .abort new others := by
  intro hreplace
  cases hreplace

/-- A step keeps the mirrors exactly if it takes no row away to make room. -/
theorem mirrored_step_iff {d : CollectionDescription} {l : Label} (hs : WellFormed s)
    (hm : Mirrored s) (h : step d keys s l = some t) : Mirrored t ↔ Keeps keys s l := by
  cases l with
  | insert policy now new => exact mirrored_insertRow_iff hs hm h
  | update policy now id set =>
    simp only [step] at h
    split at h
    · next old hrow =>
      obtain ⟨hold, rfl⟩ := row_spec hrow
      rw [mirrored_updateRow_iff hs hm hold h, Keeps, hrow]
      simp
    · cases h
  | delete now id =>
    simp only [step] at h
    split at h
    · next old hrow => exact iff_of_true (mirrored_deleteRow hs hm (row_spec hrow).1 h) trivial
    · cases h
  | upsert target now new set =>
    simp only [step] at h
    refine iff_of_true ?_ trivial
    split at h
    · next old hrow =>
      rw [mirrored_updateRow_iff hs hm (List.mem_of_find?_eq_some hrow) h]
      exact fun _ => ⟨unobstructed_abort _ _, fun _ => unobstructed_abort _ _⟩
    · rw [mirrored_insertRow_iff hs hm h]
      exact fun _ => unobstructed_abort _ _
  | createIndex i =>
    simp only [step] at h
    refine iff_of_true ?_ trivial
    split at h
    · obtain rfl := Option.some.inj h
      intro j hj
      obtain hj | hj := List.mem_append.mp hj
      · exact hm j hj
      · -- the new index is built from the rows
        rw [List.mem_singleton.mp hj]
        exact ⟨mirrors_rebuild _ s.rows, rfl⟩
    · cases h
  | dropIndex name =>
    simp only [step] at h
    refine iff_of_true ?_ trivial
    split at h
    · obtain rfl := Option.some.inj h
      exact fun j hj => hm j (List.mem_of_mem_filter hj)
    · cases h

/-! ### Runs -/

/-- After the step every index mirrors the table. -/
def MirrorsAfter (d : CollectionDescription) (keys : Keys) (s : State) (l : Label) : Prop :=
  ∀ t, step d keys s l = some t → Mirrored t

theorem indexes_mirror_iff {d : CollectionDescription} {ls : List Label} {s : State}
    (hrun : run (step d keys) init ls = some s) :
    Along (step d keys) (MirrorsAfter d keys) init ls ↔ Along (step d keys) (Keeps keys) init ls := by
  refine Along.iff_of_invariant (fun s => WellFormed s ∧ Mirrored s) ?_ ⟨⟨.nil, .nil⟩, ?_⟩ hrun
  · intro s l t _ hs ht
    have hiff : MirrorsAfter d keys s l ↔ Keeps keys s l := by
      constructor
      · exact fun hafter => (mirrored_step_iff hs.1 hs.2 ht).mp (hafter t ht)
      · exact fun hkeeps t' ht' => (mirrored_step_iff hs.1 hs.2 ht').mpr hkeeps
    exact ⟨hiff, fun hafter => ⟨wellFormed_step hs.1 ht, hafter t ht⟩⟩
  · exact List.forall_mem_nil _

end Keeps

def articles : CollectionDescription where
  name := "articles"
  fields := ["id", "title", "created_at", "updated_at"].map fun name =>
    { name := name, sqlType := if name = "id" then "INTEGER" else "TEXT", nullable := name = "title",
      pk := name = "id", defaultValue := none, foreignKey := none, description := none,
      constraints := none }
  indices := []
  rowCount := 0
  anonCaps := {.select}
  userCaps := {.select}
  ownerField := none
  readScope := none
  vectorFields := []
  ftsIndexes := []
  realtimeEnabled := true
  auditEnabled := true
  description := none
  policies := {}

def titled (id : Int64) (title : String) : Row where
  id := id
  cell := fun col => if col = "title" then .text title else .null

/-- A row comes before the index, the others after it, one of them twice. -/
def editRun : List Label :=
  [.insert .abort .null (titled 1 "alpha"),
   .createIndex ⟨"main", ["title"], "trigram"⟩,
   .insert .replace .null (titled 2 "bravo"),
   .update .replace (.text "noon") 1 fun r => { r with cell := (titled 1 "charlie").cell },
   .update .abort (.text "one") 2 fun r => { r with id := 3 },
   .upsert (fun r new => r.id == new.id) (.text "two") (titled 3 "delta") fun _ => titled 3 "delta",
   .delete .null 1]

theorem indexes_mirror_edits :
    (run (step articles fun _ _ => false) init editRun).isSome = true ∧
      Along (step articles fun _ _ => false) (MirrorsAfter articles fun _ _ => false) init editRun := by
  have hrun : run (step articles fun _ _ => false) init editRun
      = some ((run (step articles fun _ _ => false) init editRun).get (by decide)) :=
    (Option.some_get _).symm
  exact ⟨by decide, (indexes_mirror_iff hrun).mpr (by decide)⟩

/-- A row takes the place of another of its id. -/
def replaceRun : List Label :=
  [.createIndex ⟨"main", ["title"], "trigram"⟩,
   .insert .abort .null (titled 1 "alpha"),
   .insert .replace .null (titled 1 "bravo")]

/-- The index still holds the row that is gone. -/
theorem replaced_row_stays : ∃ s,
    run (step articles fun _ _ => false) init replaceRun = some s ∧
    s.rows.map (entry ["title"]) = [⟨1, [.text "bravo"]⟩] ∧
    s.indexes.map Index.entries = [[⟨1, [.text "bravo"]⟩, ⟨1, [.text "alpha"]⟩]] := by
  have hrun : run (step articles fun _ _ => false) init replaceRun
      = some ((run (step articles fun _ _ => false) init replaceRun).get (by decide)) :=
    (Option.some_get _).symm
  exact ⟨_, hrun, by decide, by decide⟩

end FtsTriggers

end Drust
