import Drust.Mcp.SchemaEffects
import Drust.Query.PolicyColumns

/-!
# Row gates and columns

The gates on the rows of a collection, its owner field and its policies, name columns of its
table. They are checked when they are set; the table changes under them afterwards.

`Gated` says of one collection that its gates fit its table. Every operation keeps it for
every collection, with three exceptions: `dropField` does not look at the gates before it drops
a column, the check of a policy accepts any name in a `$data` reference, and the HTTP route of the
owner field takes the name of a collection in other letters than its own. As long as no
call takes one of these three ways (`GatesKept`), every run keeps the gates in place, and then
a stored clause compiles and the evaluator only reads columns that are there.
-/

namespace Drust.RowGates

open Transition SchemaTools
open QueryTemplate (isProtectedCollection)

/-- The clauses of a policy, each with whether it sees the row that is written. -/
def clauses (p : Policy) : List (FilterAst × Bool) :=
  (p.usingClause.map fun ast => (ast, false)).toList ++
    (p.checkClause.map fun ast => (ast, true)).toList

/-- A clause fits a table: the columns it names are there, those it looks at are scalar, and
it has compiled once. -/
structure Fits (t : Table) (vectors : List VectorField) (cl : FilterAst × Bool) : Prop where
  named : ∀ k ∈ Policy.namedColumns cl.1, k ∈ t.columnNames
  scalar : ∀ kb ∈ Policy.leaves cl.1, ∀ v ∈ vectors, v.name ≠ kb.1
  compiles : ∃ schema probe sql, (probe.data.isSome → cl.2 = true) ∧
    Policy.compilePolicyUsing schema cl.1 probe = .ok sql

/-- The gates of one collection fit its table. -/
structure Gated (coll : String) (table : Option Table) (m : CollectionMeta) : Prop where
  system : ∀ t, table = some t → isProtectedCollection coll = false →
    ∀ k ∈ systemColumns, k ∈ t.columnNames
  owner : ∀ f, m.ownerField = some f → ∃ t, table = some t ∧ f ∈ t.columnNames
  clause : ∀ op p, m.policies.get op = some p → ∀ cl ∈ clauses p,
    ∃ t, table = some t ∧ Fits t m.vectorFields cl

def Inv (c : Catalog) : Prop :=
  ∀ coll, Gated coll (c.table coll) (c.row coll)

/-- The clauses that are stored for a collection. -/
def storedClauses (m : CollectionMeta) : List (FilterAst × Bool) :=
  [DmlVerb.select, .insert, .update, .delete].flatMap fun op => (m.policies.get op).elim [] clauses

/-- The columns that the gates of a collection name. -/
def gateColumns (m : CollectionMeta) : List String :=
  m.ownerField.toList ++ (storedClauses m).flatMap fun cl => Policy.namedColumns cl.1

/-- The `$data` references of the policy that a caller sends. -/
def requestedRefs (env : Env) (usingJson checkJson : Option Json) : List String :=
  match parseClause env "using" usingJson, parseClause env "check" checkJson with
  | .ok usingClause, .ok checkClause =>
    (clauses { usingClause, checkClause }).flatMap fun cl => Policy.dataRefs cl.1
  | _, _ => []

/-- The call takes none of the three ways around the gates: it does not drop a column that a
gate of the collection names, a policy that it sets refers to columns that are there, and a
collection whose owner field it sets by the HTTP route has that very name. -/
def GatesKept (env : Env) (c : Catalog) : Op → Prop
  | .dropField coll field => field ∉ gateColumns (c.row coll)
  | .setPolicy coll _ usingJson checkJson =>
    ∀ k ∈ requestedRefs env usingJson checkJson, k ∈ ((c.table coll).map Table.columnNames).getD []
  | .putOwnerField _ coll _ _ => collectionExists c coll = true
  | _ => True

instance (env : Env) (c : Catalog) : ∀ op, Decidable (GatesKept env c op)
  | .dropField coll field => inferInstanceAs (Decidable (field ∉ gateColumns (c.row coll)))
  | .setPolicy coll _ usingJson checkJson =>
    inferInstanceAs (Decidable (∀ k ∈ requestedRefs env usingJson checkJson,
      k ∈ ((c.table coll).map Table.columnNames).getD []))
  | .putOwnerField _ coll _ _ => inferInstanceAs (Decidable (collectionExists c coll = true))
  | .createCollection _ _ _ | .addField _ _ | .dropCollection _ | .clearPolicy _ _
  | .setOwnerField _ _ _ | .deleteOwnerField _ _ => inferInstanceAs (Decidable True)

theorem mem_storedClauses {m : CollectionMeta} {cl : FilterAst × Bool} :
    cl ∈ storedClauses m ↔ ∃ op p, m.policies.get op = some p ∧ cl ∈ clauses p := by
  rw [storedClauses, List.mem_flatMap]
  constructor
  · rintro ⟨op, -, hcl⟩
    cases hp : m.policies.get op with
    | none =>
      rw [hp] at hcl
      cases hcl
    | some p =>
      rw [hp] at hcl
      exact ⟨op, p, hp, hcl⟩
  · rintro ⟨op, p, hp, hcl⟩
    refine ⟨op, ?_, by rw [hp]; exact hcl⟩
    cases op <;> simp

/-! ### One collection -/

section Gated

variable {env : Env} {c c' : Catalog} {coll : String} {t t' : Table} {m m' : CollectionMeta}

/-- An operation changes the table and the row of one collection. -/
theorem Inv.update (hinv : Inv c) {table : Option Table}
    (htable : c'.table = Function.update c.table coll table)
    (hrow : c'.row = Function.update c.row coll m) (hcoll : Gated coll table m) : Inv c' := by
  intro coll'
  rw [htable, hrow]
  obtain rfl | hne := eq_or_ne coll' coll
  · rw [Function.update_self, Function.update_self]
    exact hcoll
  · rw [Function.update_of_ne hne, Function.update_of_ne hne]
    exact hinv coll'

/-- An operation changes the row of one collection. -/
theorem Inv.updateRow (hinv : Inv c) (htable : c'.table = c.table)
    (hrow : c'.row = Function.update c.row coll m) (hcoll : Gated coll (c.table coll) m) :
    Inv c' :=
  hinv.update (htable.trans (Function.update_eq_self coll _).symm) hrow hcoll

theorem Fits.mono {vectors vectors' : List VectorField} {cl : FilterAst × Bool}
    (h : Fits t vectors cl) (hnamed : ∀ k ∈ Policy.namedColumns cl.1, k ∈ t'.columnNames)
    (hvectors : ∀ v ∈ vectors', v ∈ vectors ∨ v.name ∉ t.columnNames) : Fits t' vectors' cl := by
  refine ⟨hnamed, ?_, h.compiles⟩
  intro kb hkb v hv
  obtain hold | hnew := hvectors v hv
  · exact h.scalar kb hkb v hold
  · -- the leaf looks at a column of the table, the new vector is none
    intro hname
    have hmem : kb.1 ∈ (Policy.leaves cl.1).map Prod.fst := List.mem_map_of_mem hkb
    exact hnew (hname ▸ h.named kb.1 (List.mem_append_left _ hmem))

/-- A new column, and perhaps a new vector field of its name. -/
theorem Gated.extend (h : Gated coll (some t) m) {col : Column} (hnew : col.name ∉ t.columnNames)
    (howner : m'.ownerField = m.ownerField) (hpolicies : m'.policies = m.policies)
    (hvectors : ∀ v ∈ m'.vectorFields, v ∈ m.vectorFields ∨ v.name = col.name) :
    Gated coll (some { t with columns := t.columns ++ [col] }) m' := by
  refine ⟨?_, ?_, ?_⟩
  · rintro _ ⟨⟩ hprotected k hk
    exact mem_columnNames_append col (h.system t rfl hprotected k hk)
  · intro f hf
    obtain ⟨_, ⟨⟩, hmem⟩ := h.owner f (howner ▸ hf)
    exact ⟨_, rfl, mem_columnNames_append col hmem⟩
  · intro op p hp cl hcl
    obtain ⟨_, ⟨⟩, hfits⟩ := h.clause op p (hpolicies ▸ hp) cl hcl
    refine ⟨_, rfl, hfits.mono (fun k hk => mem_columnNames_append col (hfits.named k hk)) ?_⟩
    intro v hv
    -- a vector of the table is no column of a clause, and the new one has a new name
    obtain hold | hname := hvectors v hv
    · exact .inl hold
    · exact .inr (hname ▸ hnew)

/-- A column less that no gate names. -/
theorem Gated.shrink (h : Gated coll (some t) m) {field : String} (hsystem : field ∉ systemColumns)
    (hgates : field ∉ gateColumns m) :
    Gated coll (some { t with columns := t.columns.filter fun col => col.name != field })
      { m with vectorFields := m.vectorFields.filter fun v => v.name != field } := by
  refine ⟨?_, ?_, ?_⟩
  · rintro _ ⟨⟩ hprotected k hk
    exact mem_columnNames_filter (h.system t rfl hprotected k hk) fun heq => hsystem (heq ▸ hk)
  · intro f hf
    obtain ⟨_, ⟨⟩, hmem⟩ := h.owner f hf
    refine ⟨_, rfl, mem_columnNames_filter hmem ?_⟩
    rintro rfl
    exact hgates (List.mem_append_left _ (Option.mem_toList.mpr hf))
  · intro op p hp cl hcl
    obtain ⟨_, ⟨⟩, hfits⟩ := h.clause op p hp cl hcl
    refine ⟨_, rfl, hfits.mono ?_ fun v hv => .inl (List.mem_of_mem_filter hv)⟩
    intro k hk
    refine mem_columnNames_filter (hfits.named k hk) ?_
    rintro rfl
    have hstored : cl ∈ storedClauses m := mem_storedClauses.mpr ⟨op, p, hp, hcl⟩
    exact hgates (List.mem_append_right _ (List.mem_flatMap.mpr ⟨cl, hstored, hk⟩))

/-- A new table has no gates yet. -/
theorem Gated.create (h : Gated coll none m)
    (hsystem : ∀ k ∈ systemColumns, k ∈ t.columnNames) (howner : m'.ownerField = m.ownerField)
    (hpolicies : m'.policies = m.policies) : Gated coll (some t) m' := by
  refine ⟨?_, ?_, ?_⟩
  · rintro _ ⟨⟩ - k hk
    exact hsystem k hk
  · intro f hf
    obtain ⟨_, ⟨⟩, -⟩ := h.owner f (howner ▸ hf)
  · intro op p hp cl hcl
    obtain ⟨_, ⟨⟩, -⟩ := h.clause op p (hpolicies ▸ hp) cl hcl

theorem gated_empty (coll : String) : Gated coll none {} := by
  refine ⟨fun t ht => (nomatch ht), fun f hf => (nomatch hf), ?_⟩
  intro op p hp
  cases op <;> cases hp

/-- What validation says of the clauses of a policy. -/
theorem fits_of_validatePolicy {d : CollectionDescription} (hd : Describes env.reading c coll t d)
    (hsystem : ∀ k ∈ systemColumns, k ∈ t.columnNames) {verb : DmlVerb} {p : Policy}
    (hvalid : Policy.validatePolicy d.schema verb p = .ok ())
    (hrefs : ∀ cl ∈ clauses p, ∀ k ∈ Policy.dataRefs cl.1, k ∈ t.columnNames) :
    ∀ cl ∈ clauses p, Fits t (c.row coll).vectorFields cl := by
  -- both clauses have been compiled, each with its probe
  have hcompiles : ∀ cl ∈ clauses p, ∃ probe sql, (probe.data.isSome → cl.2 = true) ∧
      Policy.compilePolicyUsing d.schema cl.1 probe = .ok sql := by
    rw [Policy.validatePolicy] at hvalid
    split at hvalid
    · cases hvalid
    · obtain ⟨_, husing, hcheck⟩ := Except.bind_eq_ok_iff.mp hvalid
      intro cl hcl
      obtain hcl | hcl := List.mem_append.mp hcl
      · obtain ⟨ast, hast, rfl⟩ := Option.mem_map.mp (Option.mem_toList.mp hcl)
        rw [Option.mem_def.mp hast] at husing
        obtain ⟨sql, hsql, -⟩ := Except.bind_eq_ok_iff.mp husing
        exact ⟨Policy.usingProbe, sql, fun h => absurd h Bool.false_ne_true, hsql⟩
      · obtain ⟨ast, hast, rfl⟩ := Option.mem_map.mp (Option.mem_toList.mp hcl)
        rw [Option.mem_def.mp hast] at hcheck
        obtain ⟨sql, hsql, -⟩ := Except.bind_eq_ok_iff.mp hcheck
        exact ⟨Policy.checkProbe d.schema, sql, fun _ => rfl, hsql⟩
  intro cl hcl
  obtain ⟨probe, sql, hprobe, hsql⟩ := hcompiles cl hcl
  have hfields := Policy.validateField_of_compilePolicyUsing hsql
  refine ⟨?_, ?_, d.schema, probe, sql, hprobe, hsql⟩
  · intro k hk
    obtain hk | hk := List.mem_append.mp hk
    · obtain ⟨kb, hkb, rfl⟩ := List.mem_map.mp hk
      have hcolumn := Policy.mem_columns_of_validateField (hfields kb hkb)
      rw [CollectionSchema.columns, names_of_describes hd] at hcolumn
      exact (List.mem_append.mp hcolumn).elim (hsystem _) id
    · exact hrefs cl hcl k hk
  · intro kb hkb v hv hname
    have hvalid := hfields kb hkb
    rw [← vectorFields_of_describes hd] at hv
    have hvector : d.schema.vectorFields.any (fun v => v.name == kb.1) = true :=
      List.any_eq_true.mpr ⟨v, hv, by simpa using hname⟩
    rw [Policy.validateField, if_pos hvector] at hvalid
    cases hvalid

/-- A new policy of one operation. -/
theorem Gated.setPolicy (h : Gated coll (some t) m) {verb : DmlVerb} {p : Policy}
    (hfits : ∀ cl ∈ clauses p, Fits t m.vectorFields cl) :
    Gated coll (some t) { m with policies := m.policies.set verb (some p) } := by
  refine ⟨h.system, h.owner, ?_⟩
  intro op p' hp' cl hcl
  rw [CollectionPolicies.get_set] at hp'
  split at hp'
  · obtain rfl := Option.some.inj hp'
    exact ⟨t, rfl, hfits cl hcl⟩
  · exact h.clause op p' hp' cl hcl

theorem Gated.clearPolicy {table : Option Table} (h : Gated coll table m) (verb : DmlVerb) :
    Gated coll table { m with policies := m.policies.set verb none } := by
  refine ⟨h.system, h.owner, ?_⟩
  intro op p hp cl hcl
  rw [CollectionPolicies.get_set] at hp
  split at hp
  · cases hp
  · exact h.clause op p hp cl hcl

end Gated

/-! ### Runs -/

section Runs

variable {env : Env} {c c' : Catalog}

theorem inv_step (hinv : Inv c) {op : Op} (hkept : GatesKept env c op)
    (h : step env c op = some c') : Inv c' := by
  have h := exec_of_step h
  cases op with
  | createCollection name fields description =>
    obtain ⟨-, hnew, columns, collDesc, descs, -, -, -, htable, hrow⟩ := createCollection_effect h
    refine hinv.update htable hrow ?_
    have hold := hinv name
    rw [hnew] at hold
    exact hold.create (mem_newTable name fields columns)
      (createdRow_frame CollectionMeta.ownerField (fun _ _ => rfl) (fun _ _ => rfl) ..)
      (createdRow_frame CollectionMeta.policies (fun _ _ => rfl) (fun _ _ => rfl) ..)
  | addField coll field =>
    obtain ⟨t, col, desc, ht, hcol, -, hnew, htable, hrow⟩ := addField_effect h
    refine hinv.update htable hrow ?_
    have hold := hinv coll
    rw [ht] at hold
    refine hold.extend hnew ?_ ?_ ?_
    · rw [extendedRow_frame CollectionMeta.ownerField (fun _ _ => rfl) (fun _ _ => rfl),
        vectorRow_frame CollectionMeta.ownerField (fun _ _ => rfl)]
    · rw [extendedRow_frame CollectionMeta.policies (fun _ _ => rfl) (fun _ _ => rfl),
        vectorRow_frame CollectionMeta.policies (fun _ _ => rfl)]
    · rw [extendedRow_frame CollectionMeta.vectorFields (fun _ _ => rfl) (fun _ _ => rfl),
        (columnExpr_spec hcol).1]
      exact fun v hv => mem_vectorRow hv
  | dropField coll field =>
    -- the condition: no gate names the column
    obtain ⟨hsystem, t, ht, -, htable, hrow⟩ := dropField_effect h
    refine hinv.update htable hrow ?_
    have hold := hinv coll
    rw [ht] at hold
    exact hold.shrink hsystem hkept
  | dropCollection name =>
    obtain ⟨htable, hrow⟩ := dropCollection_effect h
    exact hinv.update htable hrow (gated_empty name)
  | setPolicy coll op usingJson checkJson =>
    obtain ⟨hprotected, verb, p, t, d, -, husing, hcheck, ht, hd, hvalid, htable, hrow⟩ :=
      setPolicy_effect h
    refine hinv.updateRow htable hrow ?_
    have hold := hinv coll
    rw [ht] at hold ⊢
    -- the fields have been validated, the references are columns by the condition
    have hrefs : ∀ cl ∈ clauses p, ∀ k ∈ Policy.dataRefs cl.1, k ∈ t.columnNames := by
      intro cl hcl k hk
      have hmem : k ∈ requestedRefs env usingJson checkJson := by
        rw [requestedRefs, husing, hcheck]
        exact List.mem_flatMap.mpr ⟨cl, hcl, hk⟩
      have hcolumn := hkept k hmem
      rwa [ht] at hcolumn
    have hsystem := hold.system t rfl hprotected
    exact hold.setPolicy (fits_of_validatePolicy hd hsystem hvalid hrefs)
  | clearPolicy coll op =>
    obtain ⟨verb, htable, hrow⟩ := clearPolicy_effect h
    exact hinv.updateRow htable hrow ((hinv coll).clearPolicy verb)
  | setOwnerField coll field readScope =>
    obtain ⟨htable, owner, scope, hrow, howner⟩ := setOwnerField_effect h
    exact hinv.updateRow htable hrow ⟨(hinv coll).system, howner, (hinv coll).clause⟩
  | putOwnerField service coll field readScope =>
    -- the table that the route has looked into is that of the name, which is written exactly
    obtain ⟨htable, scope, hrow, t, hfind, hmem⟩ := setOwnerFieldHandler_effect h
    obtain ⟨t', ht⟩ := Option.isSome_iff_exists.mp hkept
    obtain rfl := Option.some.inj (hfind.symm.trans (findTable_of_table ht))
    refine hinv.updateRow htable hrow ⟨(hinv coll).system, ?_, (hinv coll).clause⟩
    rintro f ⟨⟩
    exact ⟨t, ht, hmem⟩
  | deleteOwnerField service coll =>
    obtain ⟨htable, hrow⟩ := clearOwnerFieldHandler_effect h
    refine hinv.updateRow htable hrow ⟨(hinv coll).system, ?_, (hinv coll).clause⟩
    rintro f ⟨⟩

theorem inv_init (sys : SystemTables) : Inv (init sys) := by
  intro coll
  refine ⟨?_, fun f hf => (nomatch hf), ?_⟩
  · intro t ht hprotected
    rw [sys.reserved coll t ht] at hprotected
    cases hprotected
  · intro op p hp
    cases op <;> cases hp

/-- The context that a clause is evaluated in: a check sees the row. -/
def evalCtx (checks : Bool) (authId : Option String) (row : Json.Map) : PolicyCtx where
  authId := authId
  data := if checks then some row else none

/-- The gates name columns that are there, so that a stored clause compiles, and is evaluated
on what the row has: two rows with the same columns are the same to it. -/
def GatesNamed (env : Env) (c : Catalog) : Prop :=
  ∀ coll, (∀ k ∈ gateColumns (c.row coll), ∃ t, c.table coll = some t ∧ k ∈ t.columnNames) ∧
    ∀ cl ∈ storedClauses (c.row coll), ∃ t d, c.table coll = some t ∧
      describeCollection env.reading c coll = .ok (some d) ∧
      (∀ ctx, (cl.2 = true → ctx.data.isSome) →
        ∃ sql, Policy.compilePolicyUsing d.schema cl.1 ctx = .ok sql) ∧
      ∀ row row' authId, (∀ k ∈ t.columnNames, Json.Map.get row k = Json.Map.get row' k) →
        Policy.evalPolicy cl.1 row (evalCtx cl.2 authId row)
          = Policy.evalPolicy cl.1 row' (evalCtx cl.2 authId row')

/-- A column that a clause looks at passes the compiler's check. -/
theorem Fits.validateField {coll : String} {t : Table} {d : CollectionDescription}
    {cl : FilterAst × Bool} (hfits : Fits t (c.row coll).vectorFields cl)
    (hd : Describes env.reading c coll t d) :
    ∀ kb ∈ Policy.leaves cl.1, Policy.validateField d.schema kb.1 = .ok () := by
  intro kb hkb
  have hnamed : kb.1 ∈ t.columnNames :=
    hfits.named kb.1 (List.mem_append_left _ (List.mem_map_of_mem hkb))
  rw [← names_of_describes hd] at hnamed
  obtain ⟨f, hf, hname⟩ := List.mem_map.mp hnamed
  have hscalar : d.schema.vectorFields.any (fun v => v.name == kb.1) = false := by
    rw [List.any_eq_false]
    intro v hv
    have hv : v ∈ d.vectorFields := hv
    rw [vectorFields_of_describes hd] at hv
    simpa using hfits.scalar kb hkb v hv
  have hfield : d.schema.fields.any (fun f => f.name == kb.1) = true :=
    List.any_eq_true.mpr ⟨f, hf, by simpa using hname⟩
  rw [Policy.validateField, hscalar, hfield]
  simp

theorem agreeOn_evalCtx {ks : List String} {row row' : Json.Map}
    (h : ∀ k ∈ ks, Json.Map.get row k = Json.Map.get row' k) (checks : Bool)
    (authId : Option String) :
    Policy.AgreeOn ks row row' (evalCtx checks authId row) (evalCtx checks authId row') := by
  have hmember : ∀ k ∈ ks, Policy.memberValue row k = Policy.memberValue row' k := by
    intro k hk
    rw [Policy.memberValue, Policy.memberValue, h k hk]
  refine ⟨rfl, hmember, ?_⟩
  intro k hk
  cases checks with
  | false => rfl
  | true => exact congrArg some (hmember k hk)

theorem Inv.gatesNamed (hinv : Inv c) : GatesNamed env c := by
  intro coll
  constructor
  · intro k hk
    obtain hk | hk := List.mem_append.mp hk
    · exact (hinv coll).owner k (Option.mem_toList.mp hk)
    · obtain ⟨cl, hcl, hk⟩ := List.mem_flatMap.mp hk
      obtain ⟨op, p, hp, hcl⟩ := mem_storedClauses.mp hcl
      obtain ⟨t, ht, hfits⟩ := (hinv coll).clause op p hp cl hcl
      exact ⟨t, ht, hfits.named k hk⟩
  · intro cl hcl
    obtain ⟨op, p, hp, hcl⟩ := mem_storedClauses.mp hcl
    obtain ⟨t, ht, hfits⟩ := (hinv coll).clause op p hp cl hcl
    have hreads : ∀ q ∈ passedOn t, env.reading.fails q = false := fun _ _ => rfl
    obtain ⟨d, hdescribe⟩ := exists_describeCollection ht hreads
    obtain ⟨-, d', hd', hd⟩ := describes_of_describeCollection ht hdescribe
    obtain rfl := Option.some.inj hd'
    refine ⟨t, d, ht, hdescribe, ?_, ?_⟩
    · intro ctx hctx
      obtain ⟨schema, probe, sql, hprobe, hsql⟩ := hfits.compiles
      exact Policy.exists_compilePolicyUsing (fun h => hctx (hprobe h)) hsql
        (hfits.validateField hd)
    · intro row row' authId hagree
      have hnamed := agreeOn_evalCtx (fun k hk => hagree k (hfits.named k hk)) cl.2 authId
      exact Policy.evalPolicy_congr hnamed

/-- In every run of successful calls that take no way around the gates, the gates of
every collection name columns that are there. -/
theorem gates_named {sys : SystemTables} {ops : List Op}
    (hkept : Along (step env) (GatesKept env) (init sys) ops)
    (hrun : run (step env) (init sys) ops = some c) : GatesNamed env c :=
  (hkept.invariant (fun hinv hC hstep => inv_step hinv hC hstep) (inv_init sys) hrun).gatesNamed

end Runs

/-! ### The ways around the gates -/

/-- Posts with a draft flag. -/
def createPosts : Op :=
  .createCollection "posts" [{ name := "title", sqlType := "text" },
    { name := "draft", sqlType := "integer" }] none

/-- Readers do not see drafts. -/
def hideDrafts : Op :=
  .setPolicy "posts" "select" (some (.object [("draft", .object [("is_null", .bool true)])])) none

/-- The state after a run that is enabled. -/
def stateAfter (ops : List Op) : Catalog :=
  (run (step plainEnv) (init users) ops).getD (init users)

theorem run_stateAfter (ops : List Op)
    (h : (run (step plainEnv) (init users) ops).isSome = true) :
    run (step plainEnv) (init users) ops = some (stateAfter ops) := by
  obtain ⟨c, hc⟩ := Option.isSome_iff_exists.mp h
  rw [stateAfter, hc]
  rfl

/-- Authors set by either way, and a title that goes. -/
def ownedRun : List Op :=
  [createPosts, hideDrafts,
    .addField "posts" { name := "author", sqlType := "text", foreignKey := some "_system_users" },
    .setOwnerField "posts" (some " author ") "own", .putOwnerField true "posts" "author" none,
    .dropField "posts" "title"]

theorem gates_named_title : GatesNamed plainEnv (stateAfter ownedRun) :=
  gates_named (by decide) (run_stateAfter _ (by decide))

/-- Some gate of the collection names a column that its table does not have. -/
def dangling (c : Catalog) (coll : String) : Bool :=
  (gateColumns (c.row coll)).any fun k => !decide (k ∈ ((c.table coll).map Table.columnNames).getD [])

theorem not_gatesNamed {env : Env} {c : Catalog} (coll : String) (h : dangling c coll = true) :
    ¬ GatesNamed env c := by
  intro hnamed
  obtain ⟨k, hk, hmissing⟩ := List.any_eq_true.mp h
  obtain ⟨t, ht, hmem⟩ := (hnamed coll).1 k hk
  rw [ht] at hmissing
  simp [hmem] at hmissing

/-- The column that a policy looks at is dropped under it. -/
def dropPolicyColumn : List Op :=
  [createPosts, hideDrafts, .dropField "posts" "draft"]

/-- Posts with an owner. -/
def createOwned : Op :=
  .createCollection "posts"
    [{ name := "owner", sqlType := "text", foreignKey := some "_system_users" }] none

/-- The owner field is dropped. -/
def dropOwnerColumn : List Op :=
  [createOwned, .setOwnerField "posts" (some "owner") "own", .dropField "posts" "owner"]

/-- The owner field is set for a collection that is written otherwise. -/
def misspelledOwner : List Op :=
  [createOwned, .putOwnerField true "Posts" "owner" none]

/-- A check refers to a column that never was. -/
def referToNothing : List Op :=
  [createPosts,
    .setPolicy "posts" "insert" none
      (some (.object [("title", .object [("$data", .string "headline")])]))]

/-- The run leaves a gate that names a missing column. -/
def Dangles (ops : List Op) : Prop :=
  ∃ c, run (step plainEnv) (init users) ops = some c ∧ ¬ GatesNamed plainEnv c

theorem dangles_of_dangling {ops : List Op} (coll : String)
    (hruns : (run (step plainEnv) (init users) ops).isSome = true)
    (hgate : dangling (stateAfter ops) coll = true) : Dangles ops :=
  ⟨_, run_stateAfter ops hruns, not_gatesNamed coll hgate⟩

theorem gates_dangle : Dangles dropPolicyColumn ∧ Dangles dropOwnerColumn ∧
    Dangles misspelledOwner ∧ Dangles referToNothing := by
  refine ⟨?_, ?_, ?_, ?_⟩
  · exact dangles_of_dangling "posts" (by decide) (by decide)
  · exact dangles_of_dangling "posts" (by decide) (by decide)
  · exact dangles_of_dangling "Posts" (by decide) (by decide)
  · exact dangles_of_dangling "posts" (by decide) (by decide)

end Drust.RowGates
