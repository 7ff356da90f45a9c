import Drust.Functions.Enforce
import Drust.Lib.Rounding
import Drust.Tenant.RecordRules

/-!
# The enforcement core and REST

The enforcement core performs the same relations as the REST handlers, so that the two agree on
every write: they succeed together, with the same answer, and leave the same rows. They differ in
the order of their checks, in where an owner is required, and in the order of the columns that an
update sets, since one removes the owner from the body by shifting and the other by swapping.

Beyond the checks of REST the core looks at the constraints of the fields before it writes, which
is nothing new as long as this check agrees with the constraints of the table
(`PrecheckAgrees`). A list is another matter. REST runs every full-text expression of the filter
by itself before the list, and refuses a request with an expression that FTS5 cannot parse. The
core does not, and answers when the list never gets to the expression.
-/

namespace Drust.Enforce

open Sql RecordStore RecordHistory Records
open QueryTemplate (isProtectedCollection)
open ExecWrite (checkTenantQuota)

/-! ### The steps of the core -/

section Steps

variable {site : Site} {ctx : AuthCtx} {d : CollectionDescription} {db db' : Db} {id : Int64}

theorem loadSchema_eq_ok_iff :
    loadSchema site = .ok d ↔
      isProtectedCollection site.coll = false ∧ site.description = .ok (some d) := by
  unfold loadSchema
  cases hp : isProtectedCollection site.coll with
  | true => simp
  | false =>
    rw [if_neg Bool.false_ne_true]
    cases hd : site.description with
    | error e => simp
    | ok o =>
      cases o with
      | none => simp
      | some d' => simp

theorem gateWrite_eq_ok_iff {verb : DmlVerb} :
    gateWrite site ctx verb = .ok d ↔ Admitted site ctx verb d := by
  unfold gateWrite
  constructor
  · intro h
    obtain ⟨d', hd, h⟩ := Except.bind_eq_ok_iff.mp h
    obtain ⟨hprotected, hdescribed⟩ := loadSchema_eq_ok_iff.mp hd
    split at h
    · cases h
    · next howned =>
      split at h
      · next hcap =>
        cases h
        exact ⟨hprotected, hdescribed, howned, hcap⟩
      · cases h
  · rintro ⟨hprotected, hdescribed, howned, hcap⟩
    refine Except.bind_eq_ok_iff.mpr ⟨d, loadSchema_eq_ok_iff.mpr ⟨hprotected, hdescribed⟩, ?_⟩
    rw [if_neg howned, if_pos hcap]

theorem settleOwner_object {m : Json.Map} {v : Json} :
    settleOwner ctx d (.object m) = .ok v ↔
      OwnerNamed ctx d m ∧ .object (stampOwner ctx d m) = v := by
  unfold settleOwner OwnerNamed stampOwner
  cases hfield : d.ownerField with
  | none => simp
  | some field =>
    cases ctx with
    | anon => simp
    | user userId tokenHash => simp
    | service adminId =>
      simp only [Option.some.injEq, AuthCtx.service.injEq]
      split
      · next h => simp [h]
      · next h => simp [h]

/-- What is no object stays none. -/
theorem settleOwner_eq_ok {data v : Json} {m' : Json.Map} (h : settleOwner ctx d data = .ok v)
    (hv : v = .object m') : ∃ m, data = .object m := by
  cases data with
  | object m => exact ⟨m, rfl⟩
  | null | bool | number | string | array =>
    subst hv
    unfold settleOwner at h
    split at h <;> simp at h

theorem prepare_eq_ok_iff {data : Json} {m : Json.Map} :
    prepare site data = .ok (m, d) ↔
      isProtectedCollection site.coll = false ∧ data = .object m ∧
        site.description = .ok (some d) := by
  unfold prepare describeOutside
  cases hp : isProtectedCollection site.coll with
  | true => simp
  | false =>
    rw [if_neg Bool.false_ne_true]
    cases data with
    | object m' =>
      cases hd : site.description with
      | error e => simp [requireObject]
      | ok o =>
        cases o with
        | none => simp [requireObject]
        | some d' => simp [requireObject]
    | null => simp [requireObject]
    | bool b => simp [requireObject]
    | number n => simp [requireObject]
    | string s => simp [requireObject]
    | array xs => simp [requireObject]

theorem mapCheckViolation_eq_ok_iff {α : Type} {x : Except SqlFailure α} {a : α} :
    mapCheckViolation x = .ok a ↔ x = .ok a := by
  unfold mapCheckViolation
  split
  · simp
  · simp
  · simp

theorem validateFields_eq_ok_iff {data : Json.Map} :
    validateFields site d data = .ok () ↔
      unknownKey d data = none ∧ checkConstraints site.parseF64 data d.fields = .ok () := by
  unfold validateFields
  cases unknownKey d data with
  | some k => simp
  | none => simp [Except.mapError_eq_ok_iff]

theorem requireOwnerInTx_eq_ok_iff {data : Json.Map} :
    requireOwnerInTx site d data = .ok () ↔
      ∀ field, d.ownerField = some field → suppliesOwner field data = true := by
  unfold requireOwnerInTx
  cases d.ownerField with
  | none => simp
  | some field =>
    simp only [Option.some.injEq, forall_eq']
    split
    · next h => simp [h]
    · next h => simp [h]

/-- A row that may be inserted has an owner, where it needs one. -/
theorem suppliesOwner_stampOwner {m : Json.Map} (hd : Admitted site ctx .insert d)
    (hnamed : OwnerNamed ctx d m) (huser : ctx.userId ≠ some "") :
    ∀ field, d.ownerField = some field → suppliesOwner field (stampOwner ctx d m) = true := by
  intro field hfield
  unfold stampOwner
  rw [hfield]
  cases hctx : ctx with
  | anon => exact absurd ⟨hctx, by rw [hfield]; rfl⟩ hd.notAnonOwned
  | service adminId => exact hnamed field adminId hfield hctx
  | user userId tokenHash =>
    rw [hctx] at huser
    have hne : userId ≠ "" := fun heq => huser (congrArg some heq)
    simp only [suppliesOwner, Json.Map.get_insert_self, Option.bind_some, Json.asStr, bne_iff_ne]
    exact hne

end Steps

/-! ### The values as they are bound -/

theorem lookup_bindValues (printJson : Json → String) (bytes : List (String × List UInt8))
    (m : Json.Map) (k : String) :
    (bindValues printJson bytes m).lookup k = (m.get k).map fun v =>
      match bytes.lookup k with
      | some b => .blob b
      | none => jsonToSqlValue printJson v := by
  induction m with
  | nil => rfl
  | cons kv m ih =>
    obtain ⟨k', v⟩ := kv
    rw [Json.Map.get_cons, bindValues, List.map_cons, List.lookup_cons]
    by_cases h : k' = k
    · rw [if_pos h, h, beq_self_eq_true]
      rfl
    · rw [if_neg h, beq_false_of_ne (Ne.symm h)]
      exact ih

/-! ### The order of the values -/

section Order

variable {site : Site} {d : CollectionDescription} {m m' : Json.Map}

theorem get_eq_of_perm (hnodup : (m.map Prod.fst).Nodup) (h : m.Perm m') (k : String) :
    m.get k = m'.get k := by
  rw [Json.Map.get_eq_lookup, Json.Map.get_eq_lookup, AssocList.lookup_eq_of_perm hnodup h]

theorem preEncodeVectors_congr {f32Bytes : Binary64 → List UInt8} (h : ∀ k, m.get k = m'.get k)
    (fields : List VectorField) :
    preEncodeVectors f32Bytes m fields = preEncodeVectors f32Bytes m' fields := by
  induction fields with
  | nil => rfl
  | cons vf rest ih => rw [preEncodeVectors, preEncodeVectors, h, ih]

theorem checkConstraints_congr {parseF64 : String → Option Binary64}
    (h : ∀ k, m.get k = m'.get k) (fields : List FieldInfo) :
    checkConstraints parseF64 m fields = checkConstraints parseF64 m' fields := by
  induction fields with
  | nil => rfl
  | cons f rest ih => rw [checkConstraints, checkConstraints, h, ih]

theorem unknownKey_eq_none_of_perm (h : m.Perm m') :
    unknownKey d m = none ↔ unknownKey d m' = none := by
  unfold unknownKey
  rw [List.find?_eq_none, List.find?_eq_none]
  have hmem : ∀ k, k ∈ m.map Prod.fst ↔ k ∈ m'.map Prod.fst := fun k => (h.map Prod.fst).mem_iff
  simp only [hmem]

theorem updateRow_eq_of_perm {eng : Sqlite} {now : String} {db : Db} {id : Int64}
    {owner : Option (String × String)} {printJson : Json → String}
    {bytes : List (String × List UInt8)} (hnodup : (m.map Prod.fst).Nodup) (h : m.Perm m') :
    updateRow eng now db id owner (bindValues printJson bytes m)
      = updateRow eng now db id owner (bindValues printJson bytes m') := by
  have hkeys : ((bindValues printJson bytes m).map Prod.fst).Nodup := by
    rw [bindValues, List.map_map]
    exact hnodup
  have hstored : storeAll eng (bindValues printJson bytes m)
      = storeAll eng (bindValues printJson bytes m') := storeAll_eq_of_perm hkeys (h.map _)
  unfold updateRow
  rw [hstored]

/-- The two ways to take the owner out of the values. -/
theorem stripOwner_object (ctx : AuthCtx) (d : CollectionDescription) (m : Json.Map) :
    ∃ m', stripOwner ctx d (.object m) = .object m' ∧ m'.Perm (Records.stripOwner ctx d m) := by
  unfold stripOwner Records.stripOwner
  cases ctx with
  | anon => exact ⟨m, rfl, .refl m⟩
  | service adminId => exact ⟨m, rfl, .refl m⟩
  | user userId tokenHash =>
    cases d.ownerField with
    | none => exact ⟨m, rfl, .refl m⟩
    | some field => exact ⟨_, rfl, AssocList.swapRemove_perm m field⟩

theorem nodup_stripOwner {ctx : AuthCtx} (hnodup : (m.map Prod.fst).Nodup) :
    ((Records.stripOwner ctx d m).map Prod.fst).Nodup := by
  unfold Records.stripOwner
  split
  · exact AssocList.nodup_shiftRemove hnodup _
  · exact hnodup

end Order

/-! ### Writes -/

section Writes

variable {site : Site} {ctx : AuthCtx} {d : CollectionDescription} {db db' : Db} {id : Int64}
  {p : EdgePlan}

theorem insertRowInTx_eq_ok_iff {out : Int64 × Json.Map} (hnames : p.vectorNames = vectorNames d)
    (hcheck : p.check = Policy.effectivePolicyCheck ctx d.schema .insert)
    (hauth : p.authId = ctx.userId) (hactor : p.actor = .fromAuthCtx ctx) :
    insertRowInTx site d p db = .ok (out, db') ↔
      ∃ usage row db₁, site.engine.usage db = .ok usage ∧
        checkTenantQuota usage 0 site.tier = none ∧
        (∀ field, d.ownerField = some field → suppliesOwner field p.data = true) ∧
        unknownKey d p.data = none ∧ checkConstraints site.parseF64 p.data d.fields = .ok () ∧
        insertRow site.engine db (bindValues site.printJson p.vectorBytes p.data) = .ok (row, db₁) ∧
        PassesCheck ctx d .insert (recordOf d row) ∧
        out = (recordId (recordOf d row) row, recordOf d row) ∧
        db' = capture site.coll .insert (recordId (recordOf d row) row) none
          (some (recordOf d row)) (.fromAuthCtx ctx) d.auditEnabled db₁ := by
  unfold insertRowInTx
  rw [hnames, hcheck, hauth, hactor]
  constructor
  · intro h
    obtain ⟨usage, husage, h⟩ := Except.bind_eq_ok_iff.mp h
    obtain ⟨⟨⟩, hquota, h⟩ := Except.bind_eq_ok_iff.mp h
    obtain ⟨⟨⟩, howner, h⟩ := Except.bind_eq_ok_iff.mp h
    obtain ⟨⟨⟩, hfields, h⟩ := Except.bind_eq_ok_iff.mp h
    obtain ⟨⟨row, db₁⟩, hrow, h⟩ := Except.bind_eq_ok_iff.mp h
    obtain ⟨⟨⟩, hpasses, h⟩ := Except.bind_eq_ok_iff.mp h
    obtain ⟨hknown, hconstraints⟩ := validateFields_eq_ok_iff.mp hfields
    cases h
    exact ⟨usage, row, db₁, execute_eq_ok_iff.mp husage, quotaGate_eq_ok_iff.mp hquota,
      requireOwnerInTx_eq_ok_iff.mp howner, hknown, hconstraints,
      mapCheckViolation_eq_ok_iff.mp hrow, enforceCheck_eq_ok_iff.mp hpasses, rfl, rfl⟩
  · rintro ⟨usage, row, db₁, husage, hquota, howner, hknown, hconstraints, hrow, hpasses, rfl, rfl⟩
    refine Except.bind_eq_ok_iff.mpr ⟨usage, execute_eq_ok_iff.mpr husage, ?_⟩
    refine Except.bind_eq_ok_iff.mpr ⟨(), quotaGate_eq_ok_iff.mpr hquota, ?_⟩
    refine Except.bind_eq_ok_iff.mpr ⟨(), requireOwnerInTx_eq_ok_iff.mpr howner, ?_⟩
    refine Except.bind_eq_ok_iff.mpr
      ⟨(), validateFields_eq_ok_iff.mpr ⟨hknown, hconstraints⟩, ?_⟩
    refine Except.bind_eq_ok_iff.mpr ⟨(row, db₁), mapCheckViolation_eq_ok_iff.mpr hrow, ?_⟩
    exact Except.bind_eq_ok_iff.mpr ⟨(), enforceCheck_eq_ok_iff.mpr hpasses, rfl⟩

theorem insertDecision_eq_ok_iff {body : DataBody} {v : Json} :
    insertDecision site ctx body = .ok (d, v) ↔
      Admitted site ctx .insert d ∧ settleOwner ctx d body.data = .ok v := by
  unfold insertDecision
  constructor
  · intro h
    obtain ⟨d', hd, h⟩ := Except.bind_eq_ok_iff.mp h
    obtain ⟨v', hsettle, h⟩ := Except.bind_eq_ok_iff.mp h
    cases h
    exact ⟨gateWrite_eq_ok_iff.mp hd, hsettle⟩
  · rintro ⟨hd, hsettle⟩
    refine Except.bind_eq_ok_iff.mpr ⟨d, gateWrite_eq_ok_iff.mpr hd, ?_⟩
    exact Except.bind_eq_ok_iff.mpr ⟨v, hsettle, rfl⟩

theorem insertPlan_eq_ok_iff {v : Json} {check : Option FilterAst} {authId : Option String}
    {actor : AuditActor} :
    insertPlan site v check authId actor = .ok p ↔
      ∃ m d bytes, isProtectedCollection site.coll = false ∧ v = .object m ∧
        site.description = .ok (some d) ∧
        preEncodeVectors site.f32Bytes m d.vectorFields = .ok bytes ∧
        p = { data := m, vectorBytes := bytes, vectorNames := vectorNames d, check := check,
              authId := authId, actor := actor } := by
  unfold insertPlan
  constructor
  · intro h
    obtain ⟨⟨m, d⟩, hprepare, h⟩ := Except.bind_eq_ok_iff.mp h
    obtain ⟨bytes, hbytes, h⟩ := Except.bind_eq_ok_iff.mp h
    obtain ⟨hprotected, hm, hd⟩ := prepare_eq_ok_iff.mp hprepare
    exact ⟨m, d, bytes, hprotected, hm, hd, Except.mapError_eq_ok_iff.mp hbytes,
      (Except.ok.inj h).symm⟩
  · rintro ⟨m, d, bytes, hprotected, hm, hd, hbytes, rfl⟩
    refine Except.bind_eq_ok_iff.mpr ⟨(m, d), prepare_eq_ok_iff.mpr ⟨hprotected, hm, hd⟩, ?_⟩
    exact Except.bind_eq_ok_iff.mpr ⟨bytes, Except.mapError_eq_ok_iff.mpr hbytes, rfl⟩

/-- The decision and the plan of an insertion go through exactly on these requests. -/
theorem insertion_fit {body : DataBody} {out : Int64 × Json.Map}
    (h : Inserts site ctx body db out db') :
    ∃ m d bytes, body.data = .object m ∧
      insertDecision site ctx body = .ok (d, .object (stampOwner ctx d m)) ∧
      insertPlan site (.object (stampOwner ctx d m))
          (Policy.effectivePolicyCheck ctx d.schema .insert) ctx.userId (.fromAuthCtx ctx)
        = .ok { data := stampOwner ctx d m, vectorBytes := bytes, vectorNames := vectorNames d,
                check := Policy.effectivePolicyCheck ctx d.schema .insert, authId := ctx.userId,
                actor := .fromAuthCtx ctx } := by
  obtain ⟨m, d, bytes, usage, row, db₁, hm, hins, -, -⟩ := h
  have hsettle : settleOwner ctx d body.data = .ok (.object (stampOwner ctx d m)) := by
    rw [hm]
    exact settleOwner_object.mpr ⟨hins.ownerNamed, rfl⟩
  refine ⟨m, d, bytes, hm, insertDecision_eq_ok_iff.mpr ⟨hins.admitted, hsettle⟩, ?_⟩
  exact insertPlan_eq_ok_iff.mpr ⟨_, d, bytes, hins.admitted.unprotected, rfl,
    hins.admitted.described, hins.vectors, rfl⟩

/-- The values of an insertion pass the checks that REST does not have. -/
def InsertChecked (site : Site) (ctx : AuthCtx) (body : DataBody) : Prop :=
  ∀ m d, body.data = .object m → site.description = .ok (some d) →
    (∀ field, d.ownerField = some field → suppliesOwner field (stampOwner ctx d m) = true) ∧
    checkConstraints site.parseF64 (stampOwner ctx d m) d.fields = .ok ()

theorem enforcedInsert_performs (site : Site) (ctx : AuthCtx) (body : DataBody) (db : Db) :
    Performs (enforcedInsert site ctx body db) db fun out db' =>
      InsertChecked site ctx body ∧ Inserts site ctx body db out db' := by
  unfold enforcedInsert insertRecordChecked
  cases hdecision : insertDecision site ctx body with
  | error e =>
    refine performs_refused fun out db' h => ?_
    obtain ⟨m, d, bytes, -, hok, -⟩ := insertion_fit h.2
    rw [hdecision] at hok
    cases hok
  | ok dv =>
    obtain ⟨d, v⟩ := dv
    dsimp only
    obtain ⟨hd, hsettle⟩ := insertDecision_eq_ok_iff.mp hdecision
    cases hplan : insertPlan site v (Policy.effectivePolicyCheck ctx d.schema .insert) ctx.userId
        (.fromAuthCtx ctx) with
    | error e =>
      refine performs_refused fun out db' h => ?_
      obtain ⟨m, d', bytes, -, hdecision', hok⟩ := insertion_fit h.2
      rw [hdecision] at hdecision'
      cases hdecision'
      rw [hplan] at hok
      cases hok
    | ok p =>
      obtain ⟨m', d', bytes, -, rfl, hd', hbytes, rfl⟩ := insertPlan_eq_ok_iff.mp hplan
      obtain rfl : d' = d := Option.some.inj (Except.ok.inj (hd'.symm.trans hd.described))
      obtain ⟨m, hm⟩ := settleOwner_eq_ok hsettle rfl
      rw [hm] at hsettle
      obtain ⟨hnamed, hstamped⟩ := settleOwner_object.mp hsettle
      obtain rfl := Json.object.inj hstamped
      refine performs_withWriterTx fun out db' => ?_
      rw [insertInTx, describeInTx_eq_ok_iff.mpr hd', Except.ok_bind,
        insertRowInTx_eq_ok_iff rfl rfl rfl rfl]
      constructor
      · rintro ⟨usage, row, db₁, husage, hquota, howner, hknown, hconstraints, hrow, hpasses, hout,
          hdb⟩
        refine ⟨fun m₂ d₂ hm₂ hd₂ => ?_, m, d', bytes, usage, row, db₁, hm,
          ⟨hd, hnamed, hbytes, husage, hquota, hknown, hrow, hpasses⟩, hout, hdb⟩
        obtain rfl : m₂ = m := Json.object.inj (hm₂.symm.trans hm)
        obtain rfl : d₂ = d' := Option.some.inj (Except.ok.inj (hd₂.symm.trans hd'))
        exact ⟨howner, hconstraints⟩
      · rintro ⟨hchecked, m', d, bytes', usage, row, db₁, hm', hins, hout, hdb⟩
        obtain rfl : m' = m := Json.object.inj (hm'.symm.trans hm)
        obtain rfl : d = d' := by
          have heq := hins.admitted.described.symm.trans hd'
          exact Option.some.inj (Except.ok.inj heq)
        obtain rfl : bytes' = bytes := Except.ok.inj (hins.vectors.symm.trans hbytes)
        obtain ⟨howner, hconstraints⟩ := hchecked m' d hm hd'
        exact ⟨usage, row, db₁, hins.measured, hins.quota, howner, hins.known, hconstraints,
          hins.inserted, hins.check, hout, hdb⟩

theorem updateInTx_eq_ok_iff {out : Json.Map} (hd : site.description = .ok (some d))
    (hnames : p.vectorNames = vectorNames d)
    (hcheck : p.check = Policy.effectivePolicyCheck ctx d.schema .update)
    (hauth : p.authId = ctx.userId) (hactor : p.actor = .fromAuthCtx ctx) :
    updateInTx site id p db = .ok (out, db') ↔
      ∃ before row db₁, site.engine.usage db = .ok before ∧ unknownKey d p.data = none ∧
        checkConstraints site.parseF64 p.data d.fields = .ok () ∧
        (∀ clause, p.usingSql = some clause →
          selectOne site.engine (columnNames d) db id clause = .ok true) ∧
        updateRow site.engine site.now db id p.owner
          (bindValues site.printJson p.vectorBytes p.data) = .ok (some (row, db₁)) ∧
        PassesCheck ctx d .update (recordOf d row) ∧ out = recordOf d row ∧
        db' = capture site.coll .update id (preImage d (vectorNames d) db id p.owner)
          (some (recordOf d row)) (.fromAuthCtx ctx) d.auditEnabled db₁ ∧
        checkUpdateGrowth site before db' = .ok () := by
  unfold updateInTx
  rw [hnames, hcheck, hauth, hactor]
  constructor
  · intro h
    obtain ⟨before, hbefore, h⟩ := Except.bind_eq_ok_iff.mp h
    obtain ⟨d', hd', h⟩ := Except.bind_eq_ok_iff.mp h
    rw [describeInTx_eq_ok_iff, hd, Except.ok.injEq, Option.some.injEq] at hd'
    subst hd'
    obtain ⟨⟨⟩, hfields, h⟩ := Except.bind_eq_ok_iff.mp h
    obtain ⟨hknown, hconstraints⟩ := validateFields_eq_ok_iff.mp hfields
    obtain ⟨found, hfound, h⟩ := Except.bind_eq_ok_iff.mp h
    cases found with
    | false => cases h
    | true =>
      obtain ⟨updated, hupdated, h⟩ := Except.bind_eq_ok_iff.mp h
      cases updated with
      | none => cases h
      | some rd =>
        obtain ⟨row, db₁⟩ := rd
        obtain ⟨⟨⟩, hpasses, h⟩ := Except.bind_eq_ok_iff.mp h
        obtain ⟨⟨⟩, hgrowth, h⟩ := Except.bind_eq_ok_iff.mp h
        cases h
        exact ⟨before, row, db₁, execute_eq_ok_iff.mp hbefore, hknown, hconstraints,
          usingPreflight_eq_ok_true_iff.mp hfound, mapCheckViolation_eq_ok_iff.mp hupdated,
          enforceCheck_eq_ok_iff.mp hpasses, rfl, rfl, hgrowth⟩
  · rintro ⟨before, row, db₁, hbefore, hknown, hconstraints, hfound, hupdated, hpasses, rfl, rfl,
      hgrowth⟩
    refine Except.bind_eq_ok_iff.mpr ⟨before, execute_eq_ok_iff.mpr hbefore, ?_⟩
    refine Except.bind_eq_ok_iff.mpr ⟨d, describeInTx_eq_ok_iff.mpr hd, ?_⟩
    refine Except.bind_eq_ok_iff.mpr
      ⟨(), validateFields_eq_ok_iff.mpr ⟨hknown, hconstraints⟩, ?_⟩
    refine Except.bind_eq_ok_iff.mpr ⟨true, usingPreflight_eq_ok_true_iff.mpr hfound, ?_⟩
    refine Except.bind_eq_ok_iff.mpr ⟨some (row, db₁), mapCheckViolation_eq_ok_iff.mpr hupdated, ?_⟩
    refine Except.bind_eq_ok_iff.mpr ⟨(), enforceCheck_eq_ok_iff.mpr hpasses, ?_⟩
    exact Except.bind_eq_ok_iff.mpr ⟨(), hgrowth, rfl⟩

theorem normaliseNoRows_performs {α : Type} {x : Except EdgeError α × Db} {P : α → Db → Prop}
    (h : Performs x db P) : Performs (normaliseNoRows x) db P := by
  unfold normaliseNoRows
  split
  · next db₁ =>
    obtain rfl := h.error _ db₁ rfl
    refine performs_refused fun a db' hP => ?_
    have heq := (h.ok_iff a db').mpr hP
    cases heq
  · exact h

theorem updateDecision_eq_ok_iff {body : DataBody} {v : Json} {usingSql : Option Compiled} :
    updateDecision site ctx body = .ok (d, v, usingSql) ↔
      Admitted site ctx .update d ∧ isEmptyObject v = false ∧
        Policy.policyUsingSql ctx d.schema .update = .ok usingSql ∧
        v = stripOwner ctx d body.data := by
  unfold updateDecision
  constructor
  · intro h
    obtain ⟨d', hd, h⟩ := Except.bind_eq_ok_iff.mp h
    split at h
    · cases h
    · next hne =>
      obtain ⟨usingSql', husing, h⟩ := Except.bind_eq_ok_iff.mp h
      cases h
      exact ⟨gateWrite_eq_ok_iff.mp hd, by simpa using hne, Except.mapError_eq_ok_iff.mp husing, rfl⟩
  · rintro ⟨hd, hne, husing, rfl⟩
    refine Except.bind_eq_ok_iff.mpr ⟨d, gateWrite_eq_ok_iff.mpr hd, ?_⟩
    rw [hne, if_neg Bool.false_ne_true]
    exact Except.bind_eq_ok_iff.mpr ⟨usingSql, Except.mapError_eq_ok_iff.mpr husing, rfl⟩

theorem updatePlan_eq_ok_iff {v : Json} {owner : Option (String × String)}
    {usingSql : Option Compiled} {check : Option FilterAst} {authId : Option String}
    {actor : AuditActor} :
    updatePlan site v owner usingSql check authId actor = .ok p ↔
      ∃ m d bytes, isProtectedCollection site.coll = false ∧ v = .object m ∧
        site.description = .ok (some d) ∧ m.isEmpty = false ∧
        preEncodeVectors site.f32Bytes m d.vectorFields = .ok bytes ∧
        p = { data := m, vectorBytes := bytes, vectorNames := vectorNames d, owner := owner,
              usingSql := usingSql, check := check, authId := authId, actor := actor } := by
  unfold updatePlan
  constructor
  · intro h
    obtain ⟨⟨m, d⟩, hprepare, h⟩ := Except.bind_eq_ok_iff.mp h
    obtain ⟨hprotected, hm, hd⟩ := prepare_eq_ok_iff.mp hprepare
    dsimp only at h
    split at h
    · cases h
    · next hne =>
      obtain ⟨bytes, hbytes, h⟩ := Except.bind_eq_ok_iff.mp h
      exact ⟨m, d, bytes, hprotected, hm, hd, by simpa using hne,
        Except.mapError_eq_ok_iff.mp hbytes, (Except.ok.inj h).symm⟩
  · rintro ⟨m, d, bytes, hprotected, hm, hd, hne, hbytes, rfl⟩
    refine Except.bind_eq_ok_iff.mpr ⟨(m, d), prepare_eq_ok_iff.mpr ⟨hprotected, hm, hd⟩, ?_⟩
    dsimp only
    rw [hne, if_neg Bool.false_ne_true]
    exact Except.bind_eq_ok_iff.mpr ⟨bytes, Except.mapError_eq_ok_iff.mpr hbytes, rfl⟩

/-- The values of an update in the order of the core. -/
structure Stripped (ctx : AuthCtx) (d : CollectionDescription) (m m' : Json.Map) : Prop where
  strip : stripOwner ctx d (.object m) = .object m'
  perm : (Records.stripOwner ctx d m).Perm m'
  nodup : ((Records.stripOwner ctx d m).map Prod.fst).Nodup
  isEmpty_eq : m'.isEmpty = (Records.stripOwner ctx d m).isEmpty
  get_eq : ∀ k, (Records.stripOwner ctx d m).get k = m'.get k

theorem exists_stripped {m : Json.Map} (hnodup : (m.map Prod.fst).Nodup) :
    ∃ m', Stripped ctx d m m' := by
  obtain ⟨m', hstrip, hperm⟩ := stripOwner_object ctx d m
  have hnodup' : ((Records.stripOwner ctx d m).map Prod.fst).Nodup := nodup_stripOwner hnodup
  refine ⟨m', hstrip, hperm.symm, hnodup', ?_, get_eq_of_perm hnodup' hperm.symm⟩
  rw [Bool.eq_iff_iff, List.isEmpty_iff_length_eq_zero, List.isEmpty_iff_length_eq_zero,
    hperm.length_eq]

/-- The decision and the plan of an update go through on these requests. -/
theorem update_fit {body : DataBody} {out : Json.Map} (h : Updates site ctx id body db out db') :
    ∃ m m' d bytes usingSql, body.data = .object m ∧ Stripped ctx d m m' ∧
      updateDecision site ctx body = .ok (d, .object m', usingSql) ∧
      updatePlan site (.object m') (computeOwnerWriteFilter ctx d) usingSql
          (Policy.effectivePolicyCheck ctx d.schema .update) ctx.userId (.fromAuthCtx ctx)
        = .ok { data := m', vectorBytes := bytes, vectorNames := vectorNames d,
                owner := computeOwnerWriteFilter ctx d, usingSql := usingSql,
                check := Policy.effectivePolicyCheck ctx d.schema .update, authId := ctx.userId,
                actor := .fromAuthCtx ctx } := by
  obtain ⟨m, d, bytes, before, row, db₁, hm, hupd, -⟩ := h
  obtain ⟨usingSql, husing, -⟩ := hupd.target
  obtain ⟨m', hstripped⟩ : ∃ m', Stripped ctx d m m' := exists_stripped (body.distinct m hm)
  have hne : m'.isEmpty = false := hstripped.isEmpty_eq.trans hupd.nonempty
  have hv : .object m' = stripOwner ctx d body.data := by
    rw [hm]
    exact hstripped.strip.symm
  refine ⟨m, m', d, bytes, usingSql, hm, hstripped,
    updateDecision_eq_ok_iff.mpr ⟨hupd.admitted, hne, husing, hv⟩, ?_⟩
  refine updatePlan_eq_ok_iff.mpr ⟨m', d, bytes, hupd.admitted.unprotected, rfl,
    hupd.admitted.described, hne, ?_, rfl⟩
  rw [← preEncodeVectors_congr hstripped.get_eq]
  exact hupd.vectors

/-- What is no object stays none. -/
theorem stripOwner_eq_object {data : Json} {m' : Json.Map} (h : stripOwner ctx d data = .object m') :
    ∃ m, data = .object m := by
  cases data with
  | object m => exact ⟨m, rfl⟩
  | null | bool | number | string | array =>
    unfold stripOwner at h
    split at h <;> cases h

/-- The values of an update pass the check that REST does not have. -/
def UpdateChecked (site : Site) (ctx : AuthCtx) (body : DataBody) : Prop :=
  ∀ m d, body.data = .object m → site.description = .ok (some d) →
    checkConstraints site.parseF64 (Records.stripOwner ctx d m) d.fields = .ok ()

theorem enforcedUpdate_performs (site : Site) (ctx : AuthCtx) (id : Int64) (body : DataBody)
    (db : Db) :
    Performs (enforcedUpdate site ctx id body db) db fun out db' =>
      UpdateChecked site ctx body ∧ Updates site ctx id body db out db' := by
  unfold enforcedUpdate updateRecordChecked
  cases hdecision : updateDecision site ctx body with
  | error e =>
    refine performs_refused fun out db' h => ?_
    obtain ⟨m, m', d, bytes, usingSql, -, -, hok, -⟩ := update_fit h.2
    rw [hdecision] at hok
    cases hok
  | ok dvu =>
    obtain ⟨d, v, usingSql⟩ := dvu
    dsimp only
    obtain ⟨hd, hne, husing, hv⟩ := updateDecision_eq_ok_iff.mp hdecision
    refine normaliseNoRows_performs ?_
    cases hplan : updatePlan site v (computeOwnerWriteFilter ctx d) usingSql
        (Policy.effectivePolicyCheck ctx d.schema .update) ctx.userId (.fromAuthCtx ctx) with
    | error e =>
      refine performs_refused fun out db' h => ?_
      obtain ⟨m, m', d', bytes, usingSql', -, -, hdecision', hok⟩ := update_fit h.2
      rw [hdecision] at hdecision'
      cases hdecision'
      rw [hplan] at hok
      cases hok
    | ok p =>
      obtain ⟨m', d', bytes, -, rfl, hd', hne', hbytes, rfl⟩ := updatePlan_eq_ok_iff.mp hplan
      obtain rfl : d' = d := Option.some.inj (Except.ok.inj (hd'.symm.trans hd.described))
      obtain ⟨m, hm⟩ := stripOwner_eq_object hv.symm
      obtain ⟨m'', hstripped⟩ : ∃ m'', Stripped ctx d' m m'' := exists_stripped (body.distinct m hm)
      obtain rfl : m'' = m' := by
        rw [hm, hstripped.strip] at hv
        exact (Json.object.inj hv).symm
      refine performs_withWriterTx fun out db' => ?_
      -- the transaction, over the values in the order of the body
      rw [updateInTx_eq_ok_iff hd' rfl rfl rfl rfl,
        ← updateRow_eq_of_perm hstripped.nodup hstripped.perm,
        ← unknownKey_eq_none_of_perm hstripped.perm, ← checkConstraints_congr hstripped.get_eq]
      rw [← preEncodeVectors_congr hstripped.get_eq] at hbytes
      rw [hstripped.isEmpty_eq] at hne'
      constructor
      · rintro ⟨before, row, db₁, hbefore, hknown, hconstraints, hfound, hrow, hpasses, hout, hdb,
          hgrowth⟩
        refine ⟨fun m₂ d₂ hm₂ hd₂ => ?_, m, d', bytes, before, row, db₁, hm,
          ⟨hd, hne', hbytes, hbefore, hknown, ⟨usingSql, husing, hfound⟩, hrow, hpasses⟩, hout,
          hdb, hgrowth⟩
        obtain rfl : m₂ = m := Json.object.inj (hm₂.symm.trans hm)
        obtain rfl : d₂ = d' := Option.some.inj (Except.ok.inj (hd₂.symm.trans hd'))
        exact hconstraints
      · rintro ⟨hchecked, m₂, d₂, bytes₂, before, row, db₁, hm₂, hupd, hout, hdb, hgrowth⟩
        obtain rfl : m₂ = m := Json.object.inj (hm₂.symm.trans hm)
        obtain rfl : d₂ = d' := by
          have heq := hupd.admitted.described.symm.trans hd'
          exact Option.some.inj (Except.ok.inj heq)
        obtain rfl : bytes₂ = bytes := Except.ok.inj (hupd.vectors.symm.trans hbytes)
        obtain ⟨usingSql₂, husing₂, hfound⟩ := hupd.target
        obtain rfl : usingSql₂ = usingSql := Except.ok.inj (husing₂.symm.trans husing)
        exact ⟨before, row, db₁, hupd.measured, hupd.known, hchecked m₂ d₂ hm hd', hfound,
          hupd.updated, hupd.check, hout, hdb, hgrowth⟩

theorem deleteInTx_eq_deleteTx (hd : site.description = .ok (some d))
    (owner : Option (String × String)) (usingSql : Option Compiled) :
    deleteInTx site id owner usingSql (.fromAuthCtx ctx) db
      = deleteTx site ctx d id owner usingSql db := by
  have hprojection : deleteProjection site
      = .ok (d.auditEnabled, columnNames d, vectorNames d) := by
    unfold deleteProjection
    rw [hd]
  unfold deleteInTx deleteTx
  rw [hprojection, Except.ok_bind]
  cases usingSql with
  | none => rfl
  | some clause => rfl

theorem deleteDecision_eq_ok_iff {usingSql : Option Compiled} :
    deleteDecision site ctx = .ok (d, usingSql) ↔
      Admitted site ctx .delete d ∧ Policy.policyUsingSql ctx d.schema .delete = .ok usingSql := by
  unfold deleteDecision
  constructor
  · intro h
    obtain ⟨d', hd, h⟩ := Except.bind_eq_ok_iff.mp h
    obtain ⟨usingSql', husing, h⟩ := Except.bind_eq_ok_iff.mp h
    cases h
    exact ⟨gateWrite_eq_ok_iff.mp hd, Except.mapError_eq_ok_iff.mp husing⟩
  · rintro ⟨hd, husing⟩
    refine Except.bind_eq_ok_iff.mpr ⟨d, gateWrite_eq_ok_iff.mpr hd, ?_⟩
    exact Except.bind_eq_ok_iff.mpr ⟨usingSql, Except.mapError_eq_ok_iff.mpr husing, rfl⟩

/-- The constraints of the fields reject nothing that the table accepts. -/
structure PrecheckAgrees (site : Site) : Prop where
  insert : ∀ {d data bytes db r}, site.description = .ok (some d) →
    insertRow site.engine db (bindValues site.printJson bytes data) = .ok r →
    checkConstraints site.parseF64 data d.fields = .ok ()
  update : ∀ {d data bytes db id owner r}, site.description = .ok (some d) →
    updateRow site.engine site.now db id owner (bindValues site.printJson bytes data)
      = .ok (some r) →
    checkConstraints site.parseF64 data d.fields = .ok ()

theorem insertChecked_of_inserts {body : DataBody} {out : Int64 × Json.Map}
    (hprecheck : PrecheckAgrees site) (huser : ctx.userId ≠ some "")
    (h : Inserts site ctx body db out db') : InsertChecked site ctx body := by
  obtain ⟨m, d, bytes, usage, row, db₁, hm, hins, -, -⟩ := h
  intro m₂ d₂ hm₂ hd₂
  obtain rfl : m₂ = m := Json.object.inj (hm₂.symm.trans hm)
  obtain rfl : d₂ = d := Option.some.inj (Except.ok.inj (hd₂.symm.trans hins.admitted.described))
  exact ⟨suppliesOwner_stampOwner hins.admitted hins.ownerNamed huser,
    hprecheck.insert hd₂ hins.inserted⟩

theorem updateChecked_of_updates {body : DataBody} {out : Json.Map}
    (hprecheck : PrecheckAgrees site) (h : Updates site ctx id body db out db') :
    UpdateChecked site ctx body := by
  obtain ⟨m, d, bytes, before, row, db₁, hm, hupd, -⟩ := h
  intro m₂ d₂ hm₂ hd₂
  obtain rfl : m₂ = m := Json.object.inj (hm₂.symm.trans hm)
  obtain rfl : d₂ = d := Option.some.inj (Except.ok.inj (hd₂.symm.trans hupd.admitted.described))
  exact hprecheck.update hd₂ hupd.updated

theorem enforcedInsert_agrees (hprecheck : PrecheckAgrees site) (huser : ctx.userId ≠ some "")
    (body : DataBody) (db : Db) :
    Agrees (enforcedInsert site ctx body db) (createHandler site ctx body db) := by
  refine ((enforcedInsert_performs site ctx body db).congr fun out db' => ?_).agrees
    (createHandler_performs site ctx body db)
  exact and_iff_right_of_imp (insertChecked_of_inserts hprecheck huser)

theorem enforcedUpdate_agrees (hprecheck : PrecheckAgrees site) (id : Int64) (body : DataBody)
    (db : Db) :
    Agrees (enforcedUpdate site ctx id body db) (updateHandler site ctx id body db) := by
  refine ((enforcedUpdate_performs site ctx id body db).congr fun out db' => ?_).agrees
    (updateHandler_performs site ctx id body db)
  exact and_iff_right_of_imp (updateChecked_of_updates hprecheck)

/-- The core answers a deletion as REST does. -/
theorem enforcedDelete_agrees (site : Site) (ctx : AuthCtx) (id : Int64) (db : Db) :
    Agrees (enforcedDelete site ctx id db) (deleteHandler site ctx id db) := by
  unfold enforcedDelete deleteHandler deleteRecordFiltered
  cases hdecision : deleteDecision site ctx with
  | error e =>
    cases hplan : deletePlan site ctx with
    | error e' => exact ⟨rfl, rfl⟩
    | ok plan =>
      obtain ⟨d, usingSql⟩ := plan
      rw [deleteDecision_eq_ok_iff.mpr (deletePlan_eq_ok_iff.mp hplan)] at hdecision
      cases hdecision
  | ok decision =>
    obtain ⟨d, usingSql⟩ := decision
    obtain ⟨hd, husing⟩ := deleteDecision_eq_ok_iff.mp hdecision
    rw [deletePlan_eq_ok_iff.mpr ⟨hd, husing⟩]
    have htx : deleteInTx site id (computeOwnerWriteFilter ctx d) usingSql (.fromAuthCtx ctx)
        = deleteTx site ctx d id (computeOwnerWriteFilter ctx d) usingSql := by
      funext db
      exact deleteInTx_eq_deleteTx hd.described _ _
    dsimp only
    rw [hd.unprotected, if_neg Bool.false_ne_true, htx]
    rcases withWriterTx db (deleteTx site ctx d id (computeOwnerWriteFilter ctx d) usingSql) with
      ⟨_ | n, db₁⟩
    · exact ⟨rfl, rfl⟩
    · cases n with
      | zero => exact ⟨rfl, rfl⟩
      | succ n => exact ⟨rfl, rfl⟩

end Writes

/-! ### Lists -/

section Lists

variable {site : Site} {ctx : AuthCtx} {d : CollectionDescription} {db : Db} {req : ListRequest}
  {page : ListPage}

/-- A list that can be answered: the caller may read, the request has a statement, and the engine
runs it. -/
structure Listing (site : Site) (ctx : AuthCtx) (req : ListRequest) (db : Db)
    (d : CollectionDescription) (rows : List (List (String × Value))) (total : Int64) : Prop where
  unprotected : isProtectedCollection site.coll = false
  described : site.description = .ok (some d)
  runs : ∃ owner policyClause sql, readOwner site ctx .collection d = .ok owner ∧
    Policy.policyUsingSql ctx d.schema .select = .ok policyClause ∧
    ListBuilder.buildStructuredListSql d.schema req owner policyClause = .ok sql ∧
    site.engine.select db sql.listSql sql.binds = .ok rows ∧ runCount site db sql = .ok total

def pageOf (req : ListRequest) (d : CollectionDescription) (rows : List (List (String × Value)))
    (total : Int64) : ListPage :=
  { records := hideVectors d rows, total := total, page := req.page.getD 1,
    perPage := req.perPage.getD 20 }

theorem listOwner_eq_ok_iff {owner : Option (String × String)} :
    listOwner site ctx d = .ok owner ↔ readOwner site ctx .collection d = .ok owner := by
  unfold listOwner readOwner
  cases ctx with
  | service adminId => simp
  | anon =>
    cases d.ownerField with
    | none =>
      by_cases hcap : .select ∈ d.anonCaps
      · simp [hcap]
      · simp [hcap]
    | some field => simp
  | user userId tokenHash =>
    cases d.ownerField with
    | none =>
      by_cases hcap : .select ∈ d.userCaps
      · simp [hcap]
      · simp [hcap]
    | some field =>
      cases d.readScope with
      | none =>
        by_cases hcap : .select ∈ d.userCaps
        · simp [hcap]
        · simp [hcap]
      | some scope =>
        by_cases hown : scope = "own"
        · subst hown
          simp
        · by_cases hcap : .select ∈ d.userCaps
          · simp [hcap, hown]
          · simp [hcap, hown]

theorem enforcedList_eq_ok_iff :
    enforcedList site ctx req db = .ok page ↔
      ∃ d rows total, Listing site ctx req db d rows total ∧ page = pageOf req d rows total := by
  unfold enforcedList
  constructor
  · intro h
    obtain ⟨d, hd, h⟩ := Except.bind_eq_ok_iff.mp h
    obtain ⟨owner, howner, h⟩ := Except.bind_eq_ok_iff.mp h
    obtain ⟨policyClause, hpolicy, h⟩ := Except.bind_eq_ok_iff.mp h
    obtain ⟨sql, hsql, h⟩ := Except.bind_eq_ok_iff.mp h
    obtain ⟨rows, hrows, h⟩ := Except.bind_eq_ok_iff.mp h
    obtain ⟨total, htotal, h⟩ := Except.bind_eq_ok_iff.mp h
    obtain ⟨hprotected, hdescribed⟩ := loadSchema_eq_ok_iff.mp hd
    refine ⟨d, rows, total, ⟨hprotected, hdescribed, owner, policyClause, sql, ?_⟩,
      (Except.ok.inj h).symm⟩
    exact ⟨listOwner_eq_ok_iff.mp howner, Except.mapError_eq_ok_iff.mp hpolicy,
      Except.mapError_eq_ok_iff.mp hsql, Except.mapError_eq_ok_iff.mp hrows,
      Except.mapError_eq_ok_iff.mp htotal⟩
  · rintro ⟨d, rows, total, hlist, rfl⟩
    obtain ⟨owner, policyClause, sql, howner, hpolicy, hsql, hrows, htotal⟩ := hlist.runs
    refine Except.bind_eq_ok_iff.mpr
      ⟨d, loadSchema_eq_ok_iff.mpr ⟨hlist.unprotected, hlist.described⟩, ?_⟩
    refine Except.bind_eq_ok_iff.mpr ⟨owner, listOwner_eq_ok_iff.mpr howner, ?_⟩
    refine Except.bind_eq_ok_iff.mpr ⟨policyClause, Except.mapError_eq_ok_iff.mpr hpolicy, ?_⟩
    refine Except.bind_eq_ok_iff.mpr ⟨sql, Except.mapError_eq_ok_iff.mpr hsql, ?_⟩
    refine Except.bind_eq_ok_iff.mpr ⟨rows, Except.mapError_eq_ok_iff.mpr hrows, ?_⟩
    exact Except.bind_eq_ok_iff.mpr ⟨total, Except.mapError_eq_ok_iff.mpr htotal, rfl⟩

/-- The engine can run the expression of a probe. -/
def ProbeRuns (site : Site) (db : Db) (p : VectorFilter.FtsProbe) : Prop :=
  ∃ rows, site.engine.select db p.sql [.text p.query] = .ok rows

theorem probeFtsQueries_eq_ok_iff {ps : List VectorFilter.FtsProbe} :
    probeFtsQueries site db ps = .ok () ↔ ∀ p ∈ ps, ProbeRuns site db p := by
  induction ps with
  | nil => exact ⟨fun _ p hp => absurd hp List.not_mem_nil, fun _ => rfl⟩
  | cons p ps ih =>
    rw [probeFtsQueries, Except.bind_eq_ok_iff, List.forall_mem_cons]
    constructor
    · rintro ⟨rows, hrows, hrest⟩
      exact ⟨⟨rows, hrows⟩, ih.mp hrest⟩
    · rintro ⟨⟨rows, hrows⟩, hrest⟩
      exact ⟨rows, hrows, ih.mpr hrest⟩

theorem computeReadAuthInner_eq_ok_iff {cap : CapMode} {owner : Option (String × String)}
    {policyClause : Option Compiled} :
    computeReadAuthInner site ctx cap d = .ok (owner, policyClause) ↔
      readOwner site ctx cap d = .ok owner ∧
        Policy.policyUsingSql ctx d.schema .select = .ok policyClause := by
  unfold computeReadAuthInner
  constructor
  · intro h
    obtain ⟨owner', howner, h⟩ := Except.bind_eq_ok_iff.mp h
    obtain ⟨policyClause', hpolicy, h⟩ := Except.bind_eq_ok_iff.mp h
    cases h
    exact ⟨howner, Except.mapError_eq_ok_iff.mp hpolicy⟩
  · rintro ⟨howner, hpolicy⟩
    refine Except.bind_eq_ok_iff.mpr ⟨owner, howner, ?_⟩
    exact Except.bind_eq_ok_iff.mpr ⟨policyClause, Except.mapError_eq_ok_iff.mpr hpolicy, rfl⟩

theorem postList_eq_ok_iff :
    postList site ctx req db = .ok page ↔
      ∃ d rows total, Listing site ctx req db d rows total ∧
        (∀ p ∈ requestProbes d req, ProbeRuns site db p) ∧ page = pageOf req d rows total := by
  unfold postList runStructuredListInner
  cases hprotected : isProtectedCollection site.coll with
  | true =>
    refine iff_of_false (fun h => (nomatch h)) ?_
    rintro ⟨d, rows, total, hlist, -⟩
    rw [hlist.unprotected] at hprotected
    cases hprotected
  | false =>
    simp only [Bool.false_eq_true, if_false]
    constructor
    · intro h
      split at h
      · cases h
      · cases h
      · next d hdescribed =>
        obtain ⟨⟨owner, policyClause⟩, hauth, h⟩ := Except.bind_eq_ok_iff.mp h
        obtain ⟨sql, hsql, h⟩ := Except.bind_eq_ok_iff.mp h
        obtain ⟨⟨⟩, hprobes, h⟩ := Except.bind_eq_ok_iff.mp h
        obtain ⟨rows, hrows, h⟩ := Except.bind_eq_ok_iff.mp h
        obtain ⟨total, htotal, h⟩ := Except.bind_eq_ok_iff.mp h
        obtain ⟨howner, hpolicy⟩ := computeReadAuthInner_eq_ok_iff.mp hauth
        refine ⟨d, rows, total, ⟨hprotected, hdescribed, owner, policyClause, sql, howner, hpolicy,
          Except.mapError_eq_ok_iff.mp hsql, Except.mapError_eq_ok_iff.mp hrows,
          Except.mapError_eq_ok_iff.mp htotal⟩, ?_, (Except.ok.inj h).symm⟩
        exact probeFtsQueries_eq_ok_iff.mp (Except.mapError_eq_ok_iff.mp hprobes)
    · rintro ⟨d, rows, total, hlist, hprobes, rfl⟩
      obtain ⟨owner, policyClause, sql, howner, hpolicy, hsql, hrows, htotal⟩ := hlist.runs
      rw [hlist.described]
      refine Except.bind_eq_ok_iff.mpr
        ⟨(owner, policyClause), computeReadAuthInner_eq_ok_iff.mpr ⟨howner, hpolicy⟩, ?_⟩
      refine Except.bind_eq_ok_iff.mpr ⟨sql, Except.mapError_eq_ok_iff.mpr hsql, ?_⟩
      refine Except.bind_eq_ok_iff.mpr
        ⟨(), Except.mapError_eq_ok_iff.mpr (probeFtsQueries_eq_ok_iff.mpr hprobes), ?_⟩
      refine Except.bind_eq_ok_iff.mpr ⟨rows, Except.mapError_eq_ok_iff.mpr hrows, ?_⟩
      exact Except.bind_eq_ok_iff.mpr ⟨total, Except.mapError_eq_ok_iff.mpr htotal, rfl⟩

/-- A list that can be answered has no full-text expression that the engine cannot run. -/
def MatchesParse (site : Site) (ctx : AuthCtx) (req : ListRequest) (db : Db) : Prop :=
  ∀ d rows total, Listing site ctx req db d rows total →
    ∀ p ∈ requestProbes d req, ProbeRuns site db p

theorem list_agrees_iff :
    (enforcedList site ctx req db).toOption = (postList site ctx req db).toOption ↔
      MatchesParse site ctx req db := by
  constructor
  · intro h d rows total hlist
    have hedge := enforcedList_eq_ok_iff.mpr ⟨d, rows, total, hlist, rfl⟩
    rw [Except.toOption_eq_some_iff.mpr hedge] at h
    obtain ⟨d', rows', total', hlist', hprobes, -⟩ :=
      postList_eq_ok_iff.mp (Except.toOption_eq_some_iff.mp h.symm)
    obtain rfl : d' = d :=
      Option.some.inj (Except.ok.inj (hlist'.described.symm.trans hlist.described))
    exact hprobes
  · intro h
    ext page
    rw [Except.toOption_eq_some_iff, Except.toOption_eq_some_iff, enforcedList_eq_ok_iff,
      postList_eq_ok_iff]
    constructor
    · rintro ⟨d, rows, total, hlist, rfl⟩
      exact ⟨d, rows, total, hlist, h d rows total hlist, rfl⟩
    · rintro ⟨d, rows, total, hlist, -, rfl⟩
      exact ⟨d, rows, total, hlist, rfl⟩

end Lists

/-! ### Parity -/

/-- The requests of a caller, one of each kind. -/
structure Requests where
  insert : DataBody
  updateId : Int64
  update : DataBody
  deleteId : Int64
  list : ListRequest

/-- The core answers the requests as REST does, and leaves the same rows. -/
def SameAsRest (site : Site) (ctx : AuthCtx) (db : Db) (r : Requests) : Prop :=
  Agrees (enforcedInsert site ctx r.insert db) (createHandler site ctx r.insert db) ∧
  Agrees (enforcedUpdate site ctx r.updateId r.update db)
    (updateHandler site ctx r.updateId r.update db) ∧
  Agrees (enforcedDelete site ctx r.deleteId db) (deleteHandler site ctx r.deleteId db) ∧
  (enforcedList site ctx r.list db).toOption = (postList site ctx r.list db).toOption

theorem sameAsRest_iff_matchesParse (site : Site) (ctx : AuthCtx) (db : Db) (r : Requests)
    (hprecheck : PrecheckAgrees site) (huser : ctx.userId ≠ some "") :
    SameAsRest site ctx db r ↔ MatchesParse site ctx r.list db := by
  constructor
  · rintro ⟨-, -, -, hlist⟩
    exact list_agrees_iff.mp hlist
  · intro h
    exact ⟨enforcedInsert_agrees hprecheck huser r.insert db,
      enforcedUpdate_agrees hprecheck r.updateId r.update db,
      enforcedDelete_agrees site ctx r.deleteId db, list_agrees_iff.mpr h⟩

/-! ### An expression that is never reached -/

/-- A collection with a full-text index over one column. -/
def notes : CollectionDescription where
  name := "notes"
  fields := ["id", "title"].map fun name =>
    { name := name, sqlType := if name = "id" then "integer" else "text", nullable := name != "id",
      pk := name == "id", defaultValue := none, foreignKey := none, description := none,
      constraints := none }
  indices := []
  rowCount := 0
  anonCaps := {.select}
  userCaps := {.select}
  ownerField := none
  readScope := none
  vectorFields := []
  ftsIndexes := [{ name := "main", fields := ["title"], tokenizer := "unicode61" }]
  realtimeEnabled := false
  auditEnabled := false
  description := none
  policies := {}

def noRows : Db where
  table :=
    { rows := [], nextKey := 0, ids_nodup := List.nodup_nil, keys_nodup := List.nodup_nil,
      key_lt := fun _ h => absurd h List.not_mem_nil }
  history := []

/-- The condition "title is not null, or the text matches". -/
def titleOrMatch : String :=
  "((\"title\" IS NOT NULL OR \"id\" IN (SELECT rowid FROM \"_system_search_fts$notes$main\" " ++
    "WHERE \"_system_search_fts$notes$main\" MATCH ?)))"

/-- SQLite on the empty collection. By itself the expression `"` is a syntax error; in the list
it is not evaluated, since there is no row. -/
def notesEngine : Sqlite where
  like _ _ := .unknown
  default _ := .null
  store _ v := some v
  store_text h _ := (Option.some.inj h).symm
  nextId _ := some 1
  violated _ _ := none
  releases _ _ := true
  select _ text binds :=
    if text = "SELECT rowid FROM \"_system_search_fts$notes$main\" WHERE " ++
        "\"_system_search_fts$notes$main\" MATCH ? LIMIT 1" ∧ binds = [.text "\""] then
      .error .other
    else if text = "SELECT COUNT(*) FROM \"notes\" WHERE " ++ titleOrMatch then
      .ok [[("COUNT(*)", .integer 0)]]
    else .ok []
  usage _ := .ok 4096

def notesSite : Site where
  coll := "notes"
  description := .ok (some notes)
  engine := notesEngine
  tier := 1
  now := "2026-01-01 00:00:00"
  printJson _ := ""
  parseF64 _ := none
  f32Bytes _ := []

def emptyBody : DataBody where
  data := .object []
  distinct m h := by
    cases h
    exact List.nodup_nil

def openQuote : Requests where
  insert := emptyBody
  updateId := 1
  update := emptyBody
  deleteId := 1
  list :=
    { filter := some (.or [.leaf [("title", .object [("is_not_null", .bool true)])],
        .leaf [("$fts", .object [("index", .string "main"), ("query", .string "\"")])]]) }

theorem checkConstraints_notes (data : Json.Map) :
    checkConstraints notesSite.parseF64 data notes.fields = .ok () := rfl

theorem precheckAgrees_notes : PrecheckAgrees notesSite where
  insert hd _ := by
    obtain rfl := Option.some.inj (Except.ok.inj hd)
    exact checkConstraints_notes _
  update hd _ := by
    obtain rfl := Option.some.inj (Except.ok.inj hd)
    exact checkConstraints_notes _

theorem answers_openQuote :
    PrecheckAgrees notesSite ∧ AuthCtx.anon.userId ≠ some "" ∧
      ((enforcedList notesSite .anon openQuote.list noRows).toOption).isSome = true ∧
      (postList notesSite .anon openQuote.list noRows).toOption = none ∧
      ¬ SameAsRest notesSite .anon noRows openQuote := by
  have hedge : ((enforcedList notesSite .anon openQuote.list noRows).toOption).isSome = true := by
    decide +kernel
  have hrest : (postList notesSite .anon openQuote.list noRows).toOption = none := rfl
  refine ⟨precheckAgrees_notes, nofun, hedge, hrest, fun h => ?_⟩
  obtain ⟨-, -, -, hlist⟩ := h
  rw [hlist, hrest] at hedge
  cases hedge

/-! ### The requests of an owner -/

def taskField (name sqlType : String) (constraints : Option FieldConstraints) : FieldInfo where
  name := name
  sqlType := sqlType
  nullable := true
  pk := name == "id"
  defaultValue := none
  foreignKey := none
  description := none
  constraints := constraints

def shortTitle : FieldConstraints where
  maxLength := some 40

def rankRange : FieldConstraints where
  min := some (Json.Number.posInt 1).asF64
  max := some (Json.Number.posInt 5).asF64

/-- A collection whose rows are owned. An open task can be changed and deleted, and a new one
has to be the caller's. -/
def tasks : CollectionDescription where
  name := "tasks"
  fields := [taskField "id" "INTEGER" none, taskField "title" "TEXT" (some shortTitle),
    taskField "rank" "INTEGER" (some rankRange), taskField "state" "TEXT" none,
    taskField "owner" "TEXT" none, taskField "created_at" "TEXT" none,
    taskField "updated_at" "TEXT" none]
  indices := []
  rowCount := 2
  anonCaps := {}
  userCaps := {.select, .insert, .update, .delete}
  ownerField := some "owner"
  readScope := some "own"
  vectorFields := []
  ftsIndexes := [{ name := "main", fields := ["title"], tokenizer := "unicode61" }]
  realtimeEnabled := false
  auditEnabled := true
  description := none
  policies :=
    { insert := some
        { usingClause := none
          checkClause := some (.leaf [("owner", .object [("$auth", .string "id")])]) }
      update := some
        { usingClause := some (.leaf [("state", .string "open")]), checkClause := none }
      delete := some
        { usingClause := some (.leaf [("state", .string "open")]), checkClause := none } }

def openTask (key : Nat) (id rank : Int64) (title owner : String) : RecordStore.Row where
  key := key
  id := id
  cell col :=
    if col = "title" then .text title
    else if col = "rank" then .integer rank
    else if col = "state" then .text "open"
    else if col = "owner" then .text owner
    else .null

/-- A task of the caller, and one of somebody else. -/
def twoTasks : Db where
  table :=
    { rows := [openTask 0 1 2 "buy milk" "u-1", openTask 1 2 5 "sell milk" "u-2"]
      nextKey := 2
      ids_nodup := by decide
      keys_nodup := by decide
      key_lt := by
        intro r hr
        rcases List.mem_pair.mp hr with rfl | rfl
        · exact Nat.zero_lt_two
        · exact Nat.one_lt_two }
  history := []

/-- The `CHECK` of the title. -/
def titleHolds : Value → Bool
  | .text s => decide (s.length ≤ 40)
  | _ => true

/-- The `CHECK` of the rank. -/
def rankHolds : Value → Bool
  | .integer i => decide (1 ≤ i.toInt ∧ i.toInt ≤ 5)
  | _ => true

/-- A column takes the values of its own class. -/
def taskStore (col : String) : Value → Option Value
  | .null => some .null
  | .integer i => if col = "rank" ∨ col = "id" then some (.integer i) else none
  | .text s => if col = "rank" ∨ col = "id" then none else some (.text s)
  | _ => none

/-- The tasks that a user finds with "milk". -/
def milkTasks (db : Db) (owner : String) : List RecordStore.Row :=
  db.table.rows.filter fun r =>
    r.get "owner" == .text owner && r.get "title" ∈ [.text "buy milk", .text "sell milk"]

def milkProbe : String :=
  "SELECT rowid FROM \"_system_search_fts$tasks$main\" WHERE " ++
    "\"_system_search_fts$tasks$main\" MATCH ? LIMIT 1"

def milkClause : String :=
  "(\"id\" IN (SELECT rowid FROM \"_system_search_fts$tasks$main\" WHERE " ++
    "\"_system_search_fts$tasks$main\" MATCH ?)) AND \"owner\" = ?"

def milkList : String :=
  "SELECT \"id\", \"title\", \"rank\", \"state\", \"owner\", \"created_at\", \"updated_at\" " ++
    "FROM \"tasks\" WHERE " ++ milkClause ++ " ORDER BY \"created_at\" DESC LIMIT 20 OFFSET 0"

def tasksEngine : Sqlite where
  like _ _ := .unknown
  default _ := .null
  store := taskStore
  store_text {col s v} h _ := by
    unfold taskStore at h
    dsimp only at h
    split at h
    · cases h
    · exact (Option.some.inj h).symm
  nextId db := some (Int64.ofNat (db.table.rows.length + 1))
  violated _ r :=
    if titleHolds (r.cell "title") && rankHolds (r.cell "rank") then none else some .check
  releases _ _ := true
  select db text binds :=
    if text = milkProbe ∧ binds = [.text "milk"] then .ok [[("rowid", .integer 1)]]
    else if text = milkList ∧ binds = [.text "milk", .text "u-1"] then
      .ok ((milkTasks db "u-1").map fun r => (columnNames tasks).map fun col => (col, r.get col))
    else if text = "SELECT COUNT(*) FROM \"tasks\" WHERE " ++ milkClause then
      .ok [[("COUNT(*)", .integer (Int64.ofNat (milkTasks db "u-1").length))]]
    else .error .other
  usage _ := .ok 4096

def tasksSite : Site where
  coll := "tasks"
  description := .ok (some tasks)
  engine := tasksEngine
  tier := 1
  now := "2026-01-01 00:00:00"
  printJson _ := ""
  parseF64 _ := none
  f32Bytes _ := []

/-- A new task, a new rank for the first one, its deletion, and a search. -/
def errands : Requests where
  insert :=
    { data := .object [("title", .string "buy bread"), ("rank", .number (.posInt 3)),
        ("state", .string "open")]
      distinct := fun m h => by
        cases h
        decide }
  updateId := 1
  update :=
    { data := .object [("rank", .number (.posInt 4)), ("owner", .string "u-2")]
      distinct := fun m h => by
        cases h
        decide }
  deleteId := 1
  list :=
    { filter := some (.leaf [("$fts",
        .object [("index", .string "main"), ("query", .string "milk")])]) }

section Tasks

variable {printJson : Json → String} {parseF64 : String → Option Binary64} {data : Json.Map}
  {v : Json} {w : Value}

theorem checkValue_title (hstored : taskStore "title" (jsonToSqlValue printJson v) = some w)
    (hholds : titleHolds w = true) :
    checkValue parseF64 (taskField "title" "TEXT" (some shortTitle)) shortTitle v = .ok () := by
  cases v with
  | string s =>
    obtain rfl : .text s = w := Option.some.inj hstored
    have hle : s.length ≤ 40 := of_decide_eq_true hholds
    have hlength : ¬(40 : UInt32) < UInt32.ofNat s.length := by
      rw [UInt32.lt_iff_toNat_lt, UInt32.toNat_ofNat']
      exact Nat.not_lt.mpr ((Nat.mod_le _ _).trans hle)
    exact if_neg hlength
  | null | bool | number | array | object => rfl

theorem checkValue_of_between {x : Int} {h : x.natAbs < 2 ^ 65}
    (hv : asNum v = some (.ofInt x h)) (hmin : 1 ≤ x) (hmax : x ≤ 5) :
    checkValue parseF64 (taskField "rank" "INTEGER" (some rankRange)) rankRange v = .ok () := by
  have hlow : checkMin "rank" rankRange.min v = .ok () := by
    unfold checkMin
    rw [hv]
    exact if_neg (Binary64.cmp_ofInt_ne_lt h (m := 1) rfl hmin)
  have hhigh : checkMax "rank" rankRange.max v = .ok () := by
    unfold checkMax
    rw [hv]
    exact if_neg (Binary64.cmp_ofInt_ne_gt h (m := 5) rfl hmax)
  have hlength : checkLength "rank" rankRange.maxLength v = .ok () := by
    unfold checkLength
    split
    · next hlen => cases hlen
    · rfl
  unfold checkValue taskField
  dsimp only
  rw [hlow, hhigh, hlength]
  rfl

/-- A number that the column stores is an integer. -/
theorem checkValue_rank (hstored : taskStore "rank" (jsonToSqlValue printJson v) = some w)
    (hholds : rankHolds w = true) :
    checkValue parseF64 (taskField "rank" "INTEGER" (some rankRange)) rankRange v = .ok () := by
  cases v with
  | null | string | array | object => rfl
  | bool b =>
    cases b with
    | true => exact checkValue_of_between (x := 1) (h := by decide) rfl le_rfl (by decide)
    | false =>
      cases Option.some.inj hstored
      cases hholds
  | number n =>
    cases n with
    | float f => cases hstored
    | negInt i =>
      obtain rfl : .integer i = w := Option.some.inj hstored
      obtain ⟨hmin, hmax⟩ := of_decide_eq_true hholds
      exact checkValue_of_between (h := Json.Number.natAbs_int64_lt i) rfl hmin hmax
    | posInt n =>
      by_cases hlt : n.toNat < 2 ^ 63
      · have hbound : jsonToSqlValue printJson (.number (.posInt n))
            = .integer (Int64.ofNat n.toNat) := by
          simp only [jsonToSqlValue, Json.Number.asI64, if_pos hlt]
        rw [hbound] at hstored
        obtain rfl : .integer (Int64.ofNat n.toNat) = w := Option.some.inj hstored
        obtain ⟨hmin, hmax⟩ := of_decide_eq_true hholds
        rw [Int64.toInt_ofNat_of_lt hlt] at hmin hmax
        exact checkValue_of_between (h := Json.Number.natAbs_uint64_lt n) rfl hmin hmax
      · have hbound : jsonToSqlValue printJson (.number (.posInt n))
            = .real (Json.Number.posInt n).asF64 := by
          simp only [jsonToSqlValue, Json.Number.asI64, if_neg hlt]
        rw [hbound] at hstored
        cases hstored

theorem checkConstraints_cons {f : FieldInfo} {c : FieldConstraints} {rest : List FieldInfo}
    (hc : f.constraints = some c)
    (hf : ∀ v, data.get f.name = some v → checkValue parseF64 f c v = .ok ())
    (hrest : checkConstraints parseF64 data rest = .ok ()) :
    checkConstraints parseF64 data (f :: rest) = .ok () := by
  rw [checkConstraints, hc]
  cases hv : data.get f.name with
  | none => exact hrest
  | some v =>
    dsimp only
    split
    · exact hrest
    · rw [hf v hv]
      exact hrest

/-- What the columns store has passed the `CHECK`s, and so have the values. -/
theorem checkConstraints_tasks {bytes : List (String × List UInt8)}
    {stored : String → Option Value}
    (hstored : storeAll tasksEngine (bindValues printJson bytes data) = .ok stored)
    (htitle : ∀ w, stored "title" = some w → titleHolds w = true)
    (hrank : ∀ w, stored "rank" = some w → rankHolds w = true) :
    checkConstraints parseF64 data tasks.fields = .ok () := by
  -- no column takes the bytes of a vector
  have hvalue : ∀ k v, data.get k = some v →
      ∃ w, taskStore k (jsonToSqlValue printJson v) = some w ∧ stored k = some w := by
    intro k v hv
    have hlookup := lookup_bindValues printJson bytes data k
    rw [hv, Option.map_some] at hlookup
    obtain ⟨w, hw, hk⟩ := (storeAll_eq_ok hstored k).2 _ hlookup
    cases hbytes : bytes.lookup k with
    | none =>
      rw [hbytes] at hw
      exact ⟨w, hw, hk⟩
    | some b =>
      rw [hbytes] at hw
      cases hw
  have hranked : checkConstraints parseF64 data (tasks.fields.drop 2) = .ok () := by
    refine checkConstraints_cons rfl (fun v hv => ?_) rfl
    obtain ⟨w, hw, hk⟩ := hvalue "rank" v hv
    exact checkValue_rank hw (hrank w hk)
  refine checkConstraints_cons (f := taskField "title" "TEXT" (some shortTitle)) rfl
    (fun v hv => ?_) hranked
  obtain ⟨w, hw, hk⟩ := hvalue "title" v hv
  exact checkValue_title hw (htitle w hk)

theorem holds_of_not_violated {db : Db} {row : RecordStore.Row}
    (h : tasksEngine.violated db row = none) :
    titleHolds (row.cell "title") = true ∧ rankHolds (row.cell "rank") = true := by
  by_contra hnot
  rw [← Bool.and_eq_true] at hnot
  have hviolated : tasksEngine.violated db row = some .check := if_neg hnot
  rw [hviolated] at h
  cases h

theorem precheckAgrees_tasks : PrecheckAgrees tasksSite where
  insert {d data bytes db r} hd h := by
    obtain rfl : tasks = d := Option.some.inj (Except.ok.inj hd)
    obtain ⟨row, db'⟩ := r
    obtain ⟨⟨newId, stored, hstored, rfl⟩, -, -⟩ := insertRow_eq_ok h
    obtain ⟨htitle, hrank⟩ := holds_of_not_violated (violated_of_insertRow h)
    refine checkConstraints_tasks hstored (fun w hw => ?_) fun w hw => ?_
    · simpa [insertedRow, hw] using htitle
    · simpa [insertedRow, hw] using hrank
  update {d data bytes db id owner r} hd h := by
    obtain rfl : tasks = d := Option.some.inj (Except.ok.inj hd)
    obtain ⟨row, db'⟩ := r
    obtain ⟨x, -, -, ⟨newId, stored, hstored, rfl⟩, -, -⟩ := updateRow_eq_ok_some h
    obtain ⟨htitle, hrank⟩ := holds_of_not_violated (violated_of_updateRow h)
    refine checkConstraints_tasks hstored (fun w hw => ?_) fun w hw => ?_
    · simpa [updatedRow, hw] using htitle
    · simpa [updatedRow, hw] using hrank

end Tasks

/-- Each of the requests is carried out, and the search finds the task of the caller. -/
theorem sameAsRest_errands :
    ((createHandler tasksSite (.user "u-1" "5f2c") errands.insert twoTasks).2.table.rows.map
        fun r => (r.get "title", r.get "owner")) =
      [(.text "buy milk", .text "u-1"), (.text "sell milk", .text "u-2"),
        (.text "buy bread", .text "u-1")] ∧
      ((updateHandler tasksSite (.user "u-1" "5f2c") 1 errands.update twoTasks).2.table.rows.map
        fun r => (r.get "rank", r.get "owner")) =
      [(.integer 4, .text "u-1"), (.integer 5, .text "u-2")] ∧
      ((deleteHandler tasksSite (.user "u-1" "5f2c") 1 twoTasks).2.table.rows.map
        RecordStore.Row.id) = [2] ∧
      (requestProbes tasks errands.list).map VectorFilter.FtsProbe.query = ["milk"] ∧
      ((postList tasksSite (.user "u-1" "5f2c") errands.list twoTasks).toOption.map
        fun page => page.total) = some 1 ∧
      SameAsRest tasksSite (.user "u-1" "5f2c") twoTasks errands := by
  refine ⟨by decide +kernel, by decide +kernel, by decide +kernel, by decide +kernel,
    by decide +kernel, ?_⟩
  refine (sameAsRest_iff_matchesParse tasksSite (.user "u-1" "5f2c") twoTasks errands
    precheckAgrees_tasks (by decide)).mpr ?_
  intro d rows total hlist p hp
  obtain rfl : tasks = d := Option.some.inj (Except.ok.inj hlist.described)
  have hruns : ∀ p ∈ requestProbes tasks errands.list,
      (tasksSite.engine.select twoTasks p.sql [.text p.query]).toOption.isSome = true := by
    decide +kernel
  obtain ⟨rows, hrows⟩ := Option.isSome_iff_exists.mp (hruns p hp)
  exact ⟨rows, Except.toOption_eq_some_iff.mp hrows⟩

end Drust.Enforce
