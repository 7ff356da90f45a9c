import Drust.Mcp.SchemaEffects

/-!
# The entries of the fields

A collection's row keeps three things about its fields: a map of structured constraints, a
map of descriptions and a list of vector fields. The constraints are also compiled into the
table, where they are checked; a write is validated against the map, and a client is told
what the map says.

`Matched` says of one collection that the checks of the table say what the map of constraints
says, and that no entry is about a column that is not there. Creating and extending a collection
keeps it if the bounds survive being printed and read again, and no number of a check lies outside
the integers that it is written as. Dropping a collection keeps it, since the row goes too. Dropping
a field takes its vector entry along and leaves the other two, so it keeps `Matched` only for a
field that has none; an entry that stays behind is found again by the next field of that name.
-/

namespace Drust.FieldEntries

open Transition SchemaTools
open QueryTemplate (isProtectedCollection)

/-- The bounds come back as they were written. -/
def BoundsSurvive (env : Env) (fc : FieldConstraints) : Prop :=
  ∀ b ∈ fc.min.toList ++ fc.max.toList, env.reread b = some b

instance (env : Env) (fc : FieldConstraints) : Decidable (BoundsSurvive env fc) :=
  inferInstanceAs (Decidable (∀ b ∈ fc.min.toList ++ fc.max.toList, env.reread b = some b))

/-- The entries of one collection are those of its table. -/
structure Matched (env : Env) (table : Option Table) (m : CollectionMeta) : Prop where
  nodup : ∀ t, table = some t → t.columnNames.Nodup
  said : ∀ k fc, m.fieldConstraints.lookup k = some fc → fc.isEmpty = false ∧
    ∃ t, table = some t ∧ ∃ col ∈ t.columns, col.name = k ∧ Says env col.sqlType fc col.check
  kept : ∀ t, table = some t → ∀ col ∈ t.columns, col.check ≠ [] →
    (m.fieldConstraints.lookup col.name).isSome
  survive : ∀ k fc, m.fieldConstraints.lookup k = some fc → BoundsSurvive env fc
  descs : ∀ k, (m.fieldDescriptions.lookup k).isSome → ∃ t, table = some t ∧ k ∈ t.columnNames
  vectors : ∀ v ∈ m.vectorFields, ∃ t, table = some t ∧ v.name ∈ t.columnNames

def Inv (env : Env) (c : Catalog) : Prop :=
  ∀ coll, Matched env (c.table coll) (c.row coll)

/-- The constraints of a field are stored and compiled as they are. -/
def Faithful (env : Env) (f : FieldSpec) : Prop :=
  BoundsSurvive env f.constraints ∧ NumbersInRange env f

instance (env : Env) (f : FieldSpec) : Decidable (Faithful env f) :=
  inferInstanceAs (Decidable (_ ∧ _))

/-- The constraints of new fields are stored and compiled as they are, and a field that is dropped
has neither constraints nor a description. -/
def EntriesKept (env : Env) (c : Catalog) : Op → Prop
  | .createCollection _ fields _ => ∀ f ∈ fields, Faithful env f
  | .addField _ field => Faithful env field
  | .dropField coll field => (c.row coll).fieldConstraints.lookup field = none ∧
    (c.row coll).fieldDescriptions.lookup field = none
  | _ => True

instance (env : Env) (c : Catalog) : ∀ op, Decidable (EntriesKept env c op)
  | .createCollection _ fields _ => inferInstanceAs (Decidable (∀ f ∈ fields, Faithful env f))
  | .addField _ field => inferInstanceAs (Decidable (Faithful env field))
  | .dropField coll field => inferInstanceAs (Decidable
      ((c.row coll).fieldConstraints.lookup field = none ∧
        (c.row coll).fieldDescriptions.lookup field = none))
  | .setPolicy _ _ _ _ | .dropCollection _ | .clearPolicy _ _ | .setOwnerField _ _ _
  | .putOwnerField _ _ _ _ | .deleteOwnerField _ _ => inferInstanceAs (Decidable True)

/-! ### Reading the maps -/

section Maps

variable {env : Env}

theorem rereadConstraints_eq {fc : FieldConstraints} (h : BoundsSurvive env fc) :
    rereadConstraints env.reading fc = some fc := by
  obtain ⟨min, max, enumValues, maxLength⟩ := fc
  have hmin : min.mapM env.reading.reread = some min := by
    cases min with
    | none => rfl
    | some b =>
      have hb : env.reread b = some b := h b (by simp)
      simp [Option.mapM, Env.reading, hb]
  have hmax : max.mapM env.reading.reread = some max := by
    cases max with
    | none => rfl
    | some b =>
      have hb : env.reread b = some b := h b (by simp)
      simp [Option.mapM, Env.reading, hb]
  simp only [rereadConstraints, hmin, hmax]
  rfl

theorem rereadEntries_eq {es : List (Sigma fun _ : String => FieldConstraints)}
    (h : ∀ e ∈ es, BoundsSurvive env e.2) : rereadEntries env.reading es = some es := by
  induction es with
  | nil => rfl
  | cons e es ih =>
    obtain ⟨he, hes⟩ := List.forall_mem_cons.mp h
    rw [rereadEntries, rereadConstraints_eq he, ih hes]
    rfl

theorem lookup_parseConstraints {map : StringMap FieldConstraints}
    (h : ∀ k fc, map.lookup k = some fc → BoundsSurvive env fc) (k : String) :
    (parseConstraints env.reading map).lookup k = map.lookup k := by
  have hentries : ∀ e ∈ map.entries, BoundsSurvive env e.2 := by
    intro e he
    exact h e.1 e.2 (AList.mem_lookup_iff.mpr he)
  have hkept : ∀ es : List (Sigma fun _ : String => FieldConstraints),
      (es.filter fun e => !env.reading.malformed (.fieldConstraint e.1)) = es :=
    fun es => List.filter_eq_self.mpr fun _ _ => rfl
  rw [parseConstraints, rereadEntries_eq hentries]
  simp only [hkept]
  exact AList.lookup_to_alist _

/-- The constraints of a list of fields, written one after the other over what was there. -/
theorem lookup_constrainedRows {es : List (String × FieldConstraints)}
    (hes : ∀ e ∈ es, e.2.isEmpty = false ∧ BoundsSurvive env e.2) (hnodup : (es.map Prod.fst).Nodup) :
    ∀ {m : CollectionMeta},
      (∀ k fc, m.fieldConstraints.lookup k = some fc → BoundsSurvive env fc) → ∀ k fc,
      (constrainedRows env es m).fieldConstraints.lookup k = some fc ↔
        (k, fc) ∈ es ∨ k ∉ es.map Prod.fst ∧ m.fieldConstraints.lookup k = some fc := by
  induction es with
  | nil =>
    intro m _ k fc
    simp [constrainedRows]
  | cons e es ih =>
    intro m hm k fc
    obtain ⟨⟨hempty, hsurvive⟩, hes⟩ := List.forall_mem_cons.mp hes
    rw [List.map_cons, List.nodup_cons] at hnodup
    -- the write keeps what is there, as it reads back as itself
    have hwrite : ∀ k, (constrainedRow env m e.1 e.2).fieldConstraints.lookup k
        = if k = e.1 then some e.2 else m.fieldConstraints.lookup k := by
      intro k
      rw [constrainedRow]
      simp only [hempty, Bool.false_eq_true, if_false]
      split
      · next hk =>
        subst hk
        exact AList.lookup_insert _
      · next hk =>
        rw [AList.lookup_insert_ne hk]
        exact lookup_parseConstraints hm k
    have hrow : ∀ k fc, (constrainedRow env m e.1 e.2).fieldConstraints.lookup k = some fc →
        BoundsSurvive env fc := by
      intro k fc hk
      rw [hwrite] at hk
      split at hk
      · rw [← Option.some.inj hk]
        exact hsurvive
      · exact hm k fc hk
    rw [constrainedRows, List.foldl_cons, ← constrainedRows, ih hes hnodup.2 hrow, hwrite]
    simp only [List.mem_cons, List.map_cons, not_or]
    by_cases hk : k = e.1
    · -- the later entries are about other fields
      subst hk
      have hlater : ∀ fc, (e.1, fc) ∉ es := fun fc hmem =>
        hnodup.1 (List.mem_map.mpr ⟨_, hmem, rfl⟩)
      simp only [if_true, hlater, hnodup.1, not_false_eq_true, true_and, false_or, or_false,
        Option.some.injEq, not_true_eq_false, false_and, Prod.ext_iff]
      exact eq_comm
    · simp [hk, Prod.ext_iff]

/-- Every description is new or was there. -/
theorem lookup_describedRows {descs : List (String × String)} :
    ∀ {m : CollectionMeta} {k : String},
      ((describedRows env descs m).fieldDescriptions.lookup k).isSome →
        k ∈ descs.map Prod.fst ∨ (m.fieldDescriptions.lookup k).isSome := by
  induction descs with
  | nil => exact fun h => .inr h
  | cons e descs ih =>
    intro m k h
    rw [describedRows, List.foldl_cons, ← describedRows] at h
    rw [List.map_cons, List.mem_cons]
    obtain hk | hk := ih h
    · exact .inl (.inr hk)
    · by_cases hek : k = e.1
      · exact .inl (.inl hek)
      · rw [describedRow, AList.lookup_insert_ne hek, lookup_parseTexts] at hk
        exact .inr hk

end Maps

/-! ### One collection -/

section Matched

variable {env : Env} {c c' : Catalog} {coll : String} {t : Table} {m m' : CollectionMeta}

theorem Inv.update (hinv : Inv env c) {table : Option Table}
    (htable : c'.table = Function.update c.table coll table)
    (hrow : c'.row = Function.update c.row coll m) (hcoll : Matched env table m) : Inv env c' := by
  intro coll'
  rw [htable, hrow]
  obtain rfl | hne := eq_or_ne coll' coll
  · rw [Function.update_self, Function.update_self]
    exact hcoll
  · rw [Function.update_of_ne hne, Function.update_of_ne hne]
    exact hinv coll'

/-- An operation that leaves the tables and the entries alone. -/
theorem Inv.updateRow (hinv : Inv env c) (htable : c'.table = c.table)
    (hrow : c'.row = Function.update c.row coll m)
    (hentries : m.fieldConstraints = (c.row coll).fieldConstraints ∧
      m.fieldDescriptions = (c.row coll).fieldDescriptions ∧
      m.vectorFields = (c.row coll).vectorFields) : Inv env c' := by
  refine hinv.update (htable.trans (Function.update_eq_self coll _).symm) hrow ?_
  obtain ⟨hconstraints, hdescs, hvectors⟩ := hentries
  obtain ⟨nodup, said, kept, survive, descs, vectors⟩ := hinv coll
  exact ⟨nodup, hconstraints ▸ said, hconstraints ▸ kept, hconstraints ▸ survive, hdescs ▸ descs,
    hvectors ▸ vectors⟩

/-- The check of a new column says the constraints of the field. -/
theorem says_of_columnExpr {field : FieldSpec} {col : Column} (h : columnExpr env field = .ok col)
    (hfaithful : Faithful env field) : Says env col.sqlType field.constraints col.check := by
  obtain ⟨-, hty, hparts⟩ := columnExpr_spec h
  exact says_of_checkParts hty hparts hfaithful.2

/-- The columns of the new fields. -/
theorem columnExprs_forall₂ {fields : List FieldSpec} : ∀ {columns : List Column},
    columnExprs env fields = .ok columns →
      List.Forall₂ (fun f col => columnExpr env f = .ok col) fields columns := by
  induction fields with
  | nil =>
    intro columns h
    rw [← Except.ok.inj h]
    exact .nil
  | cons f fs ih =>
    intro columns h
    rw [columnExprs] at h
    obtain ⟨col, hcol, h⟩ := Except.bind_eq_ok_iff.mp h
    obtain ⟨cols, hcols, h⟩ := Except.bind_eq_ok_iff.mp h
    rw [← Except.ok.inj h]
    exact .cons hcol (ih hcols)

theorem columnExprs_names {fields : List FieldSpec} {columns : List Column}
    (h : List.Forall₂ (fun f col => columnExpr env f = .ok col) fields columns) :
    columns.map Column.name = fields.map FieldSpec.name := by
  induction h with
  | nil => rfl
  | cons hcol _ ih => rw [List.map_cons, List.map_cons, ih, (columnExpr_spec hcol).1]

theorem mem_constraintsOf {fields : List FieldSpec} {k : String} {fc : FieldConstraints} :
    (k, fc) ∈ constraintsOf fields ↔
      fc.isEmpty = false ∧ (k, fc) ∈ fields.map fun f => (f.name, f.constraints) := by
  rw [constraintsOf, List.mem_filterMap, List.mem_map]
  constructor
  · rintro ⟨f, hf, h⟩
    split at h
    · cases h
    · next hempty =>
      obtain ⟨rfl, rfl⟩ := Prod.mk.inj (Option.some.inj h)
      exact ⟨Bool.eq_false_iff.mpr hempty, f, hf, rfl⟩
  · rintro ⟨hempty, f, hf, h⟩
    obtain ⟨rfl, rfl⟩ := Prod.mk.inj h
    exact ⟨f, hf, by simp [hempty]⟩

theorem constraintsOf_sublist (fields : List FieldSpec) :
    ((constraintsOf fields).map Prod.fst).Sublist (fields.map FieldSpec.name) := by
  rw [constraintsOf, List.map_filterMap]
  induction fields with
  | nil => exact List.Sublist.refl _
  | cons f fs ih =>
    cases hempty : f.constraints.isEmpty with
    | true => simpa [hempty] using ih.cons f.name
    | false => simpa [hempty] using ih

/-- A new collection: what was there before is about no table, so there was nothing. -/
theorem Matched.create (h : Matched env none m) {name : String} {fields : List FieldSpec}
    {columns : List Column} {collDesc : Option String} {descs : List (String × String)}
    (hcolumns : columnExprs env fields = .ok columns)
    (hdescs : validatedFieldDescs fields = .ok descs)
    (hnodup : (newTable name fields columns).columnNames.Nodup)
    (hfaithful : ∀ f ∈ fields, Faithful env f) :
    Matched env (some (newTable name fields columns)) (createdRow env fields collDesc descs m) := by
  have hforall := columnExprs_forall₂ hcolumns
  have hnames := columnExprs_names hforall
  have hcolumnNames : (newTable name fields columns).columnNames
      = "id" :: fields.map FieldSpec.name ++ ["created_at", "updated_at"] := by
    rw [← hnames]
    simp [newTable, Table.columnNames, idColumn, timestampColumn]
  have hfields : ∀ k ∈ fields.map FieldSpec.name, k ∈ (newTable name fields columns).columnNames := by
    intro k hk
    rw [hcolumnNames]
    simp [List.mem_map.mp hk]
  -- without a table there was no entry
  have hno : ∀ k fc, m.fieldConstraints.lookup k ≠ some fc := by
    intro k fc hlookup
    obtain ⟨-, t, ht, -⟩ := h.said k fc hlookup
    cases ht
  have hes : ∀ e ∈ constraintsOf fields, e.2.isEmpty = false ∧ BoundsSurvive env e.2 := by
    rintro ⟨k, fc⟩ he
    obtain ⟨hempty, hmem⟩ := mem_constraintsOf.mp he
    obtain ⟨f, hf, heq⟩ := List.mem_map.mp hmem
    rw [← (Prod.mk.inj heq).2] at hempty ⊢
    exact ⟨hempty, (hfaithful f hf).1⟩
  have hkeys : ((constraintsOf fields).map Prod.fst).Nodup := by
    rw [hcolumnNames, List.cons_append, List.nodup_cons] at hnodup
    exact hnodup.2.sublist ((constraintsOf_sublist fields).trans (List.sublist_append_left _ _))
  have hlookup : ∀ k fc, (createdRow env fields collDesc descs m).fieldConstraints.lookup k = some fc ↔
      (k, fc) ∈ constraintsOf fields := by
    intro k fc
    have hseeded : (describedRows env descs (seededRow env fields collDesc m)).fieldConstraints
        = m.fieldConstraints := describedRows_frame CollectionMeta.fieldConstraints (fun _ _ => rfl) ..
    rw [createdRow, lookup_constrainedRows hes hkeys (by
      intro k fc hk
      rw [hseeded] at hk
      exact absurd hk (hno k fc)), hseeded]
    simp [hno]
  refine ⟨?_, ?_, ?_, ?_, ?_, ?_⟩
  · rintro _ ⟨⟩
    exact hnodup
  · intro k fc hk
    obtain ⟨hempty, hmem⟩ := mem_constraintsOf.mp ((hlookup k fc).mp hk)
    obtain ⟨f, hf, heq⟩ := List.mem_map.mp hmem
    obtain ⟨rfl, rfl⟩ := Prod.mk.inj heq
    obtain ⟨col, hcol, hexpr⟩ := hforall.exists_of_mem hf
    exact ⟨hempty, _, rfl, col, by simp [newTable, hcol], (columnExpr_spec hexpr).1,
      says_of_columnExpr hexpr (hfaithful f hf)⟩
  · rintro _ ⟨⟩ col hcol hcheck
    -- the columns of the tools themselves have no check
    simp only [newTable, List.cons_append, List.mem_cons, List.mem_append, List.not_mem_nil,
      or_false] at hcol
    obtain rfl | hcol | rfl | rfl := hcol
    · exact absurd rfl hcheck
    · obtain ⟨f, hf, hexpr⟩ := hforall.flip.exists_of_mem hcol
      have hempty : f.constraints.isEmpty = false := by
        rw [Bool.eq_false_iff, Ne, ← (says_of_columnExpr hexpr (hfaithful f hf)).eq_nil_iff]
        exact hcheck
      rw [(columnExpr_spec hexpr).1, (hlookup _ f.constraints).mpr (mem_constraintsOf.mpr
        ⟨hempty, List.mem_map.mpr ⟨f, hf, rfl⟩⟩)]
      rfl
    · exact absurd rfl hcheck
    · exact absurd rfl hcheck
  · intro k fc hk
    exact (hes _ ((hlookup k fc).mp hk)).2
  · intro k hk
    rw [createdRow, constrainedRows_frame CollectionMeta.fieldDescriptions (fun _ _ => rfl)] at hk
    obtain hk | hk := lookup_describedRows hk
    · obtain ⟨e, he, rfl⟩ := List.mem_map.mp hk
      exact ⟨_, rfl, hfields _ (mem_validatedFieldDescs hdescs e he).2⟩
    · obtain ⟨_, ⟨⟩, -⟩ := h.descs k hk
  · intro v hv
    rw [createdRow_frame CollectionMeta.vectorFields (fun _ _ => rfl) (fun _ _ => rfl)] at hv
    unfold seededRow at hv
    simp only at hv
    split at hv
    · obtain ⟨_, ⟨⟩, -⟩ := h.vectors v hv
    · obtain ⟨f, hf, rfl⟩ := List.mem_map.mp hv
      exact ⟨_, rfl, hfields _ (List.mem_map_of_mem (List.mem_of_mem_filter hf))⟩

/-- A new field. -/
theorem Matched.extend (h : Matched env (some t) m) {field : FieldSpec} {col : Column}
    {desc : Option String} (hcol : columnExpr env field = .ok col)
    (hnew : col.name ∉ t.columnNames) (hfaithful : Faithful env field) :
    Matched env (some { t with columns := t.columns ++ [col] }) (extendedRow env field desc m) := by
  have hname := (columnExpr_spec hcol).1
  have hsays := says_of_columnExpr hcol hfaithful
  have hlast : field.name ∈ Table.columnNames { t with columns := t.columns ++ [col] } := by
    rw [← hname, Table.columnNames, List.map_append]
    exact List.mem_append_right _ List.mem_cons_self
  have hes : ∀ e ∈ constraintsOf [field], e.2.isEmpty = false ∧ BoundsSurvive env e.2 := by
    rintro ⟨k, fc⟩ he
    obtain ⟨hempty, hmem⟩ := mem_constraintsOf.mp he
    obtain ⟨rfl, rfl⟩ := Prod.mk.inj (List.mem_singleton.mp hmem)
    exact ⟨hempty, hfaithful.1⟩
  have hmid : (describedRows env (desc.map fun text => (field.name, text)).toList
      (vectorRow field m)).fieldConstraints = m.fieldConstraints := by
    rw [describedRows_frame CollectionMeta.fieldConstraints (fun _ _ => rfl),
      vectorRow_frame CollectionMeta.fieldConstraints (fun _ _ => rfl)]
  have hlookup : ∀ k fc, (extendedRow env field desc m).fieldConstraints.lookup k = some fc ↔
      (k, fc) ∈ constraintsOf [field] ∨ k ∉ (constraintsOf [field]).map Prod.fst ∧
        m.fieldConstraints.lookup k = some fc := by
    intro k fc
    have hkeys : ((constraintsOf [field]).map Prod.fst).Nodup :=
      (List.nodup_singleton field.name).sublist (constraintsOf_sublist [field])
    rw [extendedRow, lookup_constrainedRows hes hkeys (hmid ▸ h.survive), hmid]
  refine ⟨?_, ?_, ?_, ?_, ?_, ?_⟩
  · rintro _ ⟨⟩
    rw [Table.columnNames, List.map_append]
    refine List.nodup_append.mpr ⟨h.nodup t rfl, by simp, ?_⟩
    rintro k hk k' hk' rfl
    exact hnew (List.mem_singleton.mp hk' ▸ hk)
  · intro k fc hk
    obtain hmem | ⟨-, hk⟩ := (hlookup k fc).mp hk
    · obtain ⟨hempty, hmem⟩ := mem_constraintsOf.mp hmem
      obtain ⟨rfl, rfl⟩ := Prod.mk.inj (List.mem_singleton.mp hmem)
      exact ⟨hempty, _, rfl, col, by simp, hname, hsays⟩
    · obtain ⟨hempty, _, ⟨⟩, col', hcol', hcol''⟩ := h.said k fc hk
      exact ⟨hempty, _, rfl, col', List.mem_append_left _ hcol', hcol''⟩
  · rintro _ ⟨⟩ col' hcol' hcheck
    obtain hcol' | hcol' := List.mem_append.mp hcol'
    · obtain ⟨fc, hfc⟩ := Option.isSome_iff_exists.mp (h.kept t rfl col' hcol' hcheck)
      rw [(hlookup _ fc).mpr (.inr ⟨?_, hfc⟩)]
      · rfl
      · -- an older column has another name
        intro hmem
        have hfield : col'.name = field.name :=
          List.mem_singleton.mp ((constraintsOf_sublist [field]).subset hmem)
        rw [← hfield] at hname
        exact hnew (hname ▸ List.mem_map_of_mem hcol')
    · obtain rfl := List.mem_singleton.mp hcol'
      have hempty : field.constraints.isEmpty = false := by
        rw [Bool.eq_false_iff, Ne, ← hsays.eq_nil_iff]
        exact hcheck
      rw [hname, (hlookup _ field.constraints).mpr (.inl (mem_constraintsOf.mpr
        ⟨hempty, List.mem_singleton.mpr rfl⟩))]
      rfl
  · intro k fc hk
    obtain hmem | ⟨-, hk⟩ := (hlookup k fc).mp hk
    · exact (hes _ hmem).2
    · exact h.survive k fc hk
  · intro k hk
    rw [extendedRow, constrainedRows_frame CollectionMeta.fieldDescriptions (fun _ _ => rfl)] at hk
    obtain hk | hk := lookup_describedRows hk
    · obtain ⟨e, he, rfl⟩ := List.mem_map.mp hk
      cases desc with
      | none => cases he
      | some text =>
        obtain rfl := List.mem_singleton.mp he
        exact ⟨_, rfl, hlast⟩
    · rw [vectorRow_frame CollectionMeta.fieldDescriptions (fun _ _ => rfl)] at hk
      obtain ⟨_, ⟨⟩, hmem⟩ := h.descs k hk
      exact ⟨_, rfl, mem_columnNames_append col hmem⟩
  · intro v hv
    rw [extendedRow_frame CollectionMeta.vectorFields (fun _ _ => rfl) (fun _ _ => rfl)] at hv
    obtain hv | hv := mem_vectorRow hv
    · obtain ⟨_, ⟨⟩, hmem⟩ := h.vectors v hv
      exact ⟨_, rfl, mem_columnNames_append col hmem⟩
    · exact ⟨_, rfl, hv ▸ hlast⟩

/-- A field less that has no entry left. -/
theorem Matched.shrink (h : Matched env (some t) m) {field : String}
    (hconstraints : m.fieldConstraints.lookup field = none)
    (hdescs : m.fieldDescriptions.lookup field = none) :
    Matched env (some { t with columns := t.columns.filter fun col => col.name != field })
      { m with vectorFields := m.vectorFields.filter fun v => v.name != field } := by
  refine ⟨?_, ?_, ?_, h.survive, ?_, ?_⟩
  · rintro _ ⟨⟩
    exact (h.nodup t rfl).sublist (List.filter_sublist.map _)
  · intro k fc hk
    obtain ⟨hempty, _, ⟨⟩, col, hcol, rfl, hsays⟩ := h.said k fc hk
    refine ⟨hempty, _, rfl, col, List.mem_filter.mpr ⟨hcol, ?_⟩, rfl, hsays⟩
    -- the column has an entry, so it is not the one that goes
    rw [bne_iff_ne]
    rintro rfl
    rw [hconstraints] at hk
    cases hk
  · rintro _ ⟨⟩ col hcol hcheck
    exact h.kept t rfl col (List.mem_of_mem_filter hcol) hcheck
  · intro k hk
    obtain ⟨_, ⟨⟩, hmem⟩ := h.descs k hk
    refine ⟨_, rfl, mem_columnNames_filter hmem ?_⟩
    rintro rfl
    rw [hdescs] at hk
    cases hk
  · intro v hv
    obtain ⟨hv, hne⟩ := List.mem_filter.mp hv
    obtain ⟨_, ⟨⟩, hmem⟩ := h.vectors v hv
    exact ⟨_, rfl, mem_columnNames_filter hmem (bne_iff_ne.mp hne)⟩

/-- Where there are no entries, no column may have been compiled with constraints. -/
theorem matched_default {table : Option Table} (hnodup : ∀ t, table = some t → t.columnNames.Nodup)
    (hunchecked : ∀ t, table = some t → ∀ col ∈ t.columns, col.check = []) :
    Matched env table {} := by
  refine ⟨hnodup, fun k fc hk => (nomatch hk), ?_, fun k fc hk => (nomatch hk),
    fun k hk => (nomatch hk), fun v hv => (nomatch hv)⟩
  intro t ht col hcol hcheck
  exact absurd (hunchecked t ht col hcol) hcheck

end Matched

/-! ### Runs -/

section Runs

variable {env : Env} {c c' : Catalog}

theorem inv_step (hinv : Inv env c) {op : Op} (hkept : EntriesKept env c op)
    (h : step env c op = some c') : Inv env c' := by
  have h := exec_of_step h
  cases op with
  | createCollection name fields description =>
    obtain ⟨-, hnew, columns, collDesc, descs, hcolumns, hdescs, hnodup, htable, hrow⟩ :=
      createCollection_effect h
    have hold := hinv name
    rw [hnew] at hold
    exact hinv.update htable hrow (hold.create hcolumns hdescs hnodup hkept)
  | addField coll field =>
    obtain ⟨t, col, desc, ht, hcol, -, hnew, htable, hrow⟩ := addField_effect h
    have hold := hinv coll
    rw [ht] at hold
    exact hinv.update htable hrow (hold.extend hcol hnew hkept)
  | dropField coll field =>
    -- the condition: the column has no entry that would be left behind
    obtain ⟨-, t, ht, -, htable, hrow⟩ := dropField_effect h
    have hold := hinv coll
    rw [ht] at hold
    exact hinv.update htable hrow (hold.shrink hkept.1 hkept.2)
  | dropCollection name =>
    obtain ⟨htable, hrow⟩ := dropCollection_effect h
    exact hinv.update htable hrow (matched_default (fun t ht => nomatch ht) (fun t ht => nomatch ht))
  | setPolicy coll op usingJson checkJson =>
    obtain ⟨-, verb, p, t, d, -, -, -, -, -, -, htable, hrow⟩ := setPolicy_effect h
    exact hinv.updateRow htable hrow ⟨rfl, rfl, rfl⟩
  | clearPolicy coll op =>
    obtain ⟨verb, htable, hrow⟩ := clearPolicy_effect h
    exact hinv.updateRow htable hrow ⟨rfl, rfl, rfl⟩
  | setOwnerField coll field readScope =>
    obtain ⟨htable, owner, scope, hrow, -⟩ := setOwnerField_effect h
    exact hinv.updateRow htable hrow ⟨rfl, rfl, rfl⟩
  | putOwnerField service coll field readScope =>
    obtain ⟨htable, scope, hrow, -⟩ := setOwnerFieldHandler_effect h
    exact hinv.updateRow htable hrow ⟨rfl, rfl, rfl⟩
  | deleteOwnerField service coll =>
    obtain ⟨htable, hrow⟩ := clearOwnerFieldHandler_effect h
    exact hinv.updateRow htable hrow ⟨rfl, rfl, rfl⟩

theorem inv_init (sys : SystemTables) : Inv env (init sys) := by
  intro coll
  exact matched_default (sys.nodup coll) (sys.unchecked coll)

/-- The field is described with the constraints that the check of its column says, or with none when
the column has no check. -/
def Reports (env : Env) (f : FieldInfo) (col : Column) : Prop :=
  f.name = col.name ∧ match f.constraints with
    | none => col.check = []
    | some fc => fc.isEmpty = false ∧ Says env col.sqlType fc col.check

instance (env : Env) (f : FieldInfo) (col : Column) : Decidable (Reports env f col) :=
  have : Decidable (match f.constraints with
      | none => col.check = []
      | some fc => fc.isEmpty = false ∧ Says env col.sqlType fc col.check) :=
    match f.constraints with
    | none => inferInstanceAs (Decidable (col.check = []))
    | some fc => inferInstanceAs (Decidable (fc.isEmpty = false ∧ Says env col.sqlType fc col.check))
  inferInstanceAs (Decidable (_ ∧ _))

/-- A field of the collection is one that its table has. -/
def HasColumn (c : Catalog) (coll k : String) : Prop :=
  ∃ t, c.table coll = some t ∧ k ∈ t.columnNames

/-- Every collection is described with the constraints that were compiled into its columns,
and no entry of a row is about a column that its table does not have. -/
def EntriesMatch (env : Env) (c : Catalog) : Prop :=
  ∀ coll, (∀ t, c.table coll = some t → ∃ d, describeCollection env.reading c coll = .ok (some d) ∧
      List.Forall₂ (Reports env) d.fields t.columns) ∧
    (∀ k, ((c.row coll).fieldConstraints.lookup k).isSome → HasColumn c coll k) ∧
    (∀ k, ((c.row coll).fieldDescriptions.lookup k).isSome → HasColumn c coll k) ∧
    ∀ v ∈ (c.row coll).vectorFields, HasColumn c coll v.name

/-- A column is described with what its check says. -/
theorem Matched.reports {t : Table} {m : CollectionMeta} (h : Matched env (some t) m)
    {col : Column} (hcol : col ∈ t.columns) {f : FieldInfo} (hname : f.name = col.name)
    (hf : f.constraints = m.fieldConstraints.lookup col.name) : Reports env f col := by
  refine ⟨hname, ?_⟩
  rw [hf]
  cases hlookup : m.fieldConstraints.lookup col.name with
  | none =>
    show col.check = []
    by_contra hcheck
    have hkept := h.kept t rfl col hcol hcheck
    rw [hlookup] at hkept
    cases hkept
  | some fc =>
    obtain ⟨hempty, _, ⟨⟩, col', hcol', hname', hsays⟩ := h.said _ _ hlookup
    -- the column that the entry is about is this one
    obtain rfl := List.inj_on_of_nodup_map (h.nodup t rfl) hcol' hcol hname'
    exact ⟨hempty, hsays⟩

theorem Inv.entriesMatch (hinv : Inv env c) : EntriesMatch env c := by
  intro coll
  have hmatched := hinv coll
  refine ⟨?_, ?_, hmatched.descs, hmatched.vectors⟩
  · intro t ht
    have hreads : ∀ q ∈ passedOn t, env.reading.fails q = false := fun _ _ => rfl
    obtain ⟨d, hdescribe⟩ := exists_describeCollection ht hreads
    obtain ⟨-, d', hd', hd⟩ := describes_of_describeCollection ht hdescribe
    obtain rfl := Option.some.inj hd'
    obtain ⟨fkMap, descs, constraints, -, hconstraints, hfields⟩ := hd.fields
    rw [readFieldConstraints_eq] at hconstraints
    refine ⟨d, hdescribe, ?_⟩
    rw [hfields, List.forall₂_map_left_iff, List.forall₂_same]
    intro col hcol
    rw [ht] at hmatched
    refine hmatched.reports hcol rfl ?_
    show constraints.lookup col.name = _
    rw [← Except.ok.inj hconstraints, lookup_parseConstraints hmatched.survive]
  · intro k hk
    obtain ⟨fc, hfc⟩ := Option.isSome_iff_exists.mp hk
    obtain ⟨-, t, ht, col, hcol, rfl, -⟩ := hmatched.said k fc hfc
    exact ⟨t, ht, List.mem_map_of_mem hcol⟩

/-- In every run of successful calls that store and compile the constraints of new fields as they
are, and that drop no field with constraints or a description, the entries match the tables. -/
theorem entries_match {sys : SystemTables} {ops : List Op}
    (hkept : Along (step env) (EntriesKept env) (init sys) ops)
    (hrun : run (step env) (init sys) ops = some c) : EntriesMatch env c :=
  (hkept.invariant (fun hinv hC hstep => inv_step hinv hC hstep) (inv_init sys) hrun).entriesMatch

end Runs

/-! ### Entries that do not match -/

/-- Whole numbers are read as doubles. -/
def wholeEnv : Env :=
  { plainEnv with
    parseF64 := fun s => (writtenInteger s).map fun m =>
      some (.ofInt (Int64.ofInt m).toInt (Json.Number.natAbs_int64_lt _)) }

/-- Titles are short, and there are few ranks. -/
def createPosts : Op :=
  .createCollection "posts"
    [{ name := "title", sqlType := "text", maxLength := some 80 },
      { name := "body", sqlType := "text" },
      { name := "rank", sqlType := "integer", min := some (.ofInt 0 (by decide)),
        enumValues := some ["1", "+02", "3.0"] }] none

/-- A plain field goes, a described one comes. -/
def plainRun : List Op :=
  [createPosts, .dropField "posts" "body",
    .addField "posts" { name := "score", sqlType := "real", description := some "votes" }]

theorem entries_match_plain : ∃ c, run (step wholeEnv) (init users) plainRun = some c ∧
    EntriesMatch wholeEnv c := by
  obtain ⟨c, hc⟩ := Option.isSome_iff_exists.mp
    (show (run (step wholeEnv) (init users) plainRun).isSome = true by decide +kernel)
  exact ⟨c, hc, entries_match (by decide +kernel) hc⟩

/-- The title is dropped, and a title without constraints is added. -/
def titleRun : List Op :=
  [createPosts, .dropField "posts" "title", .addField "posts" { name := "title", sqlType := "text" }]

/-- A bound that is no 64-bit integer. -/
def saturatedRun : List Op :=
  [createPosts, .addField "posts"
    { name := "score", sqlType := "real", min := some (.ofInt (10 ^ 19) (by decide)) }]

/-- A value of an enumeration that is no double. -/
def roundedRun : List Op :=
  [createPosts, .addField "posts"
    { name := "serial", sqlType := "integer", enumValues := some ["9007199254740993"] }]

/-- Some column of the collection is not described with what its check says. -/
def misreported (env : Env) (c : Catalog) (coll : String) : Bool :=
  match describeCollection env.reading c coll, c.table coll with
  | .ok (some d), some t => !decide (List.Forall₂ (Reports env) d.fields t.columns)
  | _, _ => false

theorem not_entriesMatch {env : Env} {c : Catalog} (coll : String)
    (h : misreported env c coll = true) : ¬ EntriesMatch env c := by
  intro hmatch
  unfold misreported at h
  split at h
  · next d t hd ht =>
    obtain ⟨d', hd', hreports⟩ := (hmatch coll).1 t ht
    obtain rfl := Option.some.inj (Except.ok.inj (hd.symm.trans hd'))
    simp [hreports] at h
  · cases h

/-- The run leaves a column of the posts that is not described with what its check says. -/
def Mismatches (ops : List Op) : Prop :=
  ∃ c, run (step wholeEnv) (init users) ops = some c ∧ ¬ EntriesMatch wholeEnv c

theorem mismatches_of_misreported {ops : List Op}
    (h : (run (step wholeEnv) (init users) ops).any (misreported wholeEnv · "posts") = true) :
    Mismatches ops := by
  obtain ⟨c, hc, hmis⟩ := (Option.any_eq_true _ _).mp h
  exact ⟨c, hc, not_entriesMatch "posts" hmis⟩

/-- The new title is described with the bound of the old one, which its table does not have. A
bound and a value of an enumeration are described as they were sent, and compiled into others. -/
theorem entries_match_title :
    Mismatches titleRun ∧ Mismatches saturatedRun ∧ Mismatches roundedRun := by
  refine ⟨?_, ?_, ?_⟩
  · exact mismatches_of_misreported (by decide +kernel)
  · exact mismatches_of_misreported (by decide +kernel)
  · exact mismatches_of_misreported (by decide +kernel)

end Drust.FieldEntries
