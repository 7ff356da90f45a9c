import Drust.Tenant.Records

/-!
# What a write request does

The meaning of the record handlers, apart from the order of their checks and the errors they
return. `Inserts`, `Updates` and `Deletes` relate a request and the rows it finds to its answer
and the rows it leaves; a request that fails leaves everything as it was (`Performs`). Two
implementations of one relation agree (`Performs.agrees`).
-/

namespace Drust.Records

open Sql RecordStore RecordHistory
open QueryTemplate (isProtectedCollection)
open ExecWrite (checkTenantQuota)

/-! ### Requests that perform a relation -/

section Performs

variable {ε ε' α : Type} {x : Except ε α × Db} {y : Except ε' α × Db} {db : Db} {P : α → Db → Prop}

/-- The request does what the relation says, or fails and does nothing. -/
structure Performs (x : Except ε α × Db) (db : Db) (P : α → Db → Prop) : Prop where
  ok_iff : ∀ a db', x = (.ok a, db') ↔ P a db'
  error : ∀ e db', x = (.error e, db') → db' = db

/-- The two requests succeed together, with the same answer, and leave the same rows. -/
def Agrees (x : Except ε α × Db) (y : Except ε' α × Db) : Prop :=
  x.1.toOption = y.1.toOption ∧ x.2 = y.2

theorem Performs.agrees (hx : Performs x db P) (hy : Performs y db P) : Agrees x y := by
  obtain ⟨rx, dbx⟩ := x
  obtain ⟨ry, dby⟩ := y
  cases rx with
  | ok a =>
    have hP : P a dbx := (hx.ok_iff a dbx).mp rfl
    have heq := (hy.ok_iff a dbx).mpr hP
    rw [heq]
    exact ⟨rfl, rfl⟩
  | error e =>
    cases ry with
    | ok b =>
      have hP : P b dby := (hy.ok_iff b dby).mp rfl
      have heq := (hx.ok_iff b dby).mpr hP
      cases heq
    | error e' => exact ⟨rfl, (hx.error e dbx rfl).trans (hy.error e' dby rfl).symm⟩

theorem Performs.congr {Q : α → Db → Prop} (hx : Performs x db P)
    (h : ∀ a db', P a db' ↔ Q a db') : Performs x db Q where
  ok_iff a db' := (hx.ok_iff a db').trans (h a db')
  error := hx.error

/-- A request either does nothing or what the relation says. -/
theorem Performs.cases (hx : Performs x db P) : x.2 = db ∨ ∃ a, P a x.2 := by
  obtain ⟨rx, dbx⟩ := x
  cases rx with
  | ok a => exact .inr ⟨a, (hx.ok_iff a dbx).mp rfl⟩
  | error e => exact .inl (hx.error e dbx rfl)

end Performs

/-! ### The relations -/

section Relations

variable (site : Site) (ctx : AuthCtx)

/-- The caller may use the operation on the collection. -/
structure Admitted (verb : DmlVerb) (d : CollectionDescription) : Prop where
  unprotected : isProtectedCollection site.coll = false
  described : site.description = .ok (some d)
  notAnonOwned : ¬ (ctx = .anon ∧ d.ownerField.isSome)
  capable : hasDmlCap ctx.role verb d = true

/-- A service token names the owner of a new row. -/
def OwnerNamed (d : CollectionDescription) (m : Json.Map) : Prop :=
  ∀ field adminId, d.ownerField = some field → ctx = .service adminId → suppliesOwner field m = true

/-- The record satisfies the policy of the operation. -/
def PassesCheck (d : CollectionDescription) (verb : DmlVerb) (record : Json.Map) : Prop :=
  ∀ ast, Policy.effectivePolicyCheck ctx d.schema verb = some ast →
    Policy.evalPolicy ast record { authId := ctx.userId, data := some record } = true

/-- The row satisfies the clause of the operation, where there is one. -/
def PassesUsing (d : CollectionDescription) (verb : DmlVerb) (id : Int64) (db : Db) : Prop :=
  ∃ usingSql, Policy.policyUsingSql ctx d.schema verb = .ok usingSql ∧
    ∀ clause, usingSql = some clause →
      selectOne site.engine (columnNames d) db id clause = .ok true

/-- The row as the caller sees it. -/
def recordOf (d : CollectionDescription) (row : RecordStore.Row) : Json.Map :=
  materializeRow (columnNames d) (vectorNames d) row

/-- An insertion of the values `m`, which leaves the row `row`. -/
structure Insertion (m : Json.Map) (db : Db) (d : CollectionDescription)
    (bytes : List (String × List UInt8)) (usage : Nat) (row : RecordStore.Row) (db₁ : Db) :
    Prop where
  admitted : Admitted site ctx .insert d
  ownerNamed : OwnerNamed ctx d m
  vectors : preEncodeVectors site.f32Bytes (stampOwner ctx d m) d.vectorFields = .ok bytes
  measured : site.engine.usage db = .ok usage
  quota : checkTenantQuota usage 0 site.tier = none
  known : unknownKey d (stampOwner ctx d m) = none
  inserted : insertRow site.engine db (bindValues site.printJson bytes (stampOwner ctx d m))
    = .ok (row, db₁)
  check : PassesCheck ctx d .insert (recordOf d row)

def Inserts (body : DataBody) (db : Db) (out : Int64 × Json.Map) (db' : Db) : Prop :=
  ∃ m d bytes usage row db₁, body.data = .object m ∧
    Insertion site ctx m db d bytes usage row db₁ ∧
    out = (recordId (recordOf d row) row, recordOf d row) ∧
    db' = capture site.coll .insert (recordId (recordOf d row) row) none (some (recordOf d row))
      (.fromAuthCtx ctx) d.auditEnabled db₁

/-- An update of the row with the id by the values `m`, which leaves the row `row`. -/
structure Updating (id : Int64) (m : Json.Map) (db : Db) (d : CollectionDescription)
    (bytes : List (String × List UInt8)) (before : Nat) (row : RecordStore.Row) (db₁ : Db) :
    Prop where
  admitted : Admitted site ctx .update d
  nonempty : (stripOwner ctx d m).isEmpty = false
  vectors : preEncodeVectors site.f32Bytes (stripOwner ctx d m) d.vectorFields = .ok bytes
  measured : site.engine.usage db = .ok before
  known : unknownKey d (stripOwner ctx d m) = none
  target : PassesUsing site ctx d .update id db
  updated : updateRow site.engine site.now db id (computeOwnerWriteFilter ctx d)
    (bindValues site.printJson bytes (stripOwner ctx d m)) = .ok (some (row, db₁))
  check : PassesCheck ctx d .update (recordOf d row)

def Updates (id : Int64) (body : DataBody) (db : Db) (out : Json.Map) (db' : Db) : Prop :=
  ∃ m d bytes before row db₁, body.data = .object m ∧
    Updating site ctx id m db d bytes before row db₁ ∧ out = recordOf d row ∧
    db' = capture site.coll .update id
      (preImage d (vectorNames d) db id (computeOwnerWriteFilter ctx d))
      (some (recordOf d row)) (.fromAuthCtx ctx) d.auditEnabled db₁ ∧
    checkUpdateGrowth site before db' = .ok ()

def Deletes (id : Int64) (db : Db) (_ : Unit) (db' : Db) : Prop :=
  ∃ d n db₁, Admitted site ctx .delete d ∧ PassesUsing site ctx d .delete id db ∧
    deleteRow site.engine db id (computeOwnerWriteFilter ctx d) = .ok (n, db₁) ∧ 0 < n ∧
    db' = capture site.coll .delete id
      (preImage d (vectorNames d) db id (computeOwnerWriteFilter ctx d)) none
      (.fromAuthCtx ctx) d.auditEnabled db₁

end Relations

/-! ### The steps of a handler -/

section Steps

variable {site : Site} {ctx : AuthCtx} {d : CollectionDescription} {db : Db} {id : Int64}

theorem requireWriteCap_eq_ok_iff {verb : DmlVerb} :
    requireWriteCap site ctx verb = .ok d ↔ Admitted site ctx verb d := by
  unfold requireWriteCap
  constructor
  · intro h
    split at h
    · cases h
    · next hprotected =>
      split at h
      · cases h
      · cases h
      · next d' hd =>
        split at h
        · cases h
        · next howned =>
          split at h
          · next hcap =>
            cases h
            exact ⟨by simpa using hprotected, hd, howned, hcap⟩
          · cases h
  · rintro ⟨hprotected, hd, howned, hcap⟩
    rw [hprotected, hd, if_neg Bool.false_ne_true]
    simp only
    rw [if_neg howned, if_pos hcap]

theorem requireOwner_eq_ok_iff {m : Json.Map} :
    requireOwner site ctx d (.object m) = .ok () ↔ OwnerNamed ctx d m := by
  unfold requireOwner OwnerNamed
  cases hfield : d.ownerField with
  | none => simp
  | some field =>
    cases ctx with
    | anon => simp
    | user userId tokenHash => simp
    | service adminId =>
      simp only [Option.some.injEq, AuthCtx.service.injEq]
      split
      · next h => simp [h]
      · next h => simp [h]

theorem requireObject_eq_ok_iff {v : Json} {m : Json.Map} :
    requireObject v = .ok m ↔ v = .object m := by
  cases v with
  | object kvs => exact ⟨fun h => congrArg Json.object (Except.ok.inj h), fun h => by cases h; rfl⟩
  | null => exact ⟨fun h => (nomatch h), fun h => (nomatch h)⟩
  | bool b => exact ⟨fun h => (nomatch h), fun h => (nomatch h)⟩
  | number n => exact ⟨fun h => (nomatch h), fun h => (nomatch h)⟩
  | string s => exact ⟨fun h => (nomatch h), fun h => (nomatch h)⟩
  | array xs => exact ⟨fun h => (nomatch h), fun h => (nomatch h)⟩

theorem execute_eq_ok_iff {α : Type} {x : Except SqlFailure α} {a : α} :
    execute x = .ok a ↔ x = .ok a :=
  Except.mapError_eq_ok_iff

theorem describeInTx_eq_ok_iff {missing : TxError} :
    describeInTx site missing = .ok d ↔ site.description = .ok (some d) := by
  unfold describeInTx
  split
  · next h => simp [h]
  · next h => simp [h]
  · next h => simp [h]

theorem quotaGate_eq_ok_iff {violation : Option ExecWrite.QuotaExceeded} :
    quotaGate violation = .ok () ↔ violation = none := by
  cases violation with
  | some q => exact ⟨fun h => (nomatch h), fun h => (nomatch h)⟩
  | none => exact ⟨fun _ => rfl, fun _ => rfl⟩

theorem enforceCheck_eq_ok_iff {verb : DmlVerb} {record : Json.Map} :
    enforceCheck (Policy.effectivePolicyCheck ctx d.schema verb) ctx.userId record = .ok () ↔
      PassesCheck ctx d verb record := by
  unfold enforceCheck PassesCheck
  cases Policy.effectivePolicyCheck ctx d.schema verb with
  | none => simp
  | some ast =>
    simp only [Option.some.injEq, forall_eq']
    split
    · next h => simp [h]
    · next h => simp [h]

theorem usingPreflight_eq_ok_true_iff {usingSql : Option Compiled} :
    usingPreflight site d db id usingSql = .ok true ↔
      ∀ clause, usingSql = some clause →
        selectOne site.engine (columnNames d) db id clause = .ok true := by
  cases usingSql with
  | none => simp [usingPreflight]
  | some clause => simp [usingPreflight, execute_eq_ok_iff]

theorem withWriterTx_eq_ok_iff {α : Type} {body : Db → Except TxError (α × Db)} {a : α} {db' : Db} :
    withWriterTx db body = (.ok a, db') ↔ body db = .ok (a, db') := by
  unfold withWriterTx
  split
  · next h => simp [h]
  · next h => simp [h]

theorem withWriterTx_error {α : Type} {body : Db → Except TxError (α × Db)} {e : TxError} {db' : Db}
    (h : withWriterTx db body = (.error e, db')) : db' = db := by
  unfold withWriterTx at h
  split at h
  · cases h
  · cases h
    rfl

/-- The record that a handler answers with, vectors hidden afterwards. -/
theorem filter_rowToJson_eq_recordOf (row : RecordStore.Row) :
    ((rowToJson (columnNames d) row).filter fun kv => !(vectorNames d).contains kv.1)
      = recordOf d row :=
  filter_rowToJson ..

end Steps

/-! ### The handlers -/

section Handlers

variable {site : Site} {ctx : AuthCtx} {d : CollectionDescription} {db db' : Db} {id : Int64}
  {body : DataBody} {p : WritePlan}

theorem createPlan_eq_ok_iff :
    createPlan site ctx body = .ok p ↔
      ∃ d m bytes, Admitted site ctx .insert d ∧ body.data = .object m ∧ OwnerNamed ctx d m ∧
        preEncodeVectors site.f32Bytes (stampOwner ctx d m) d.vectorFields = .ok bytes ∧
        p = { data := stampOwner ctx d m, vectorBytes := bytes, vectorNames := vectorNames d,
              check := Policy.effectivePolicyCheck ctx d.schema .insert } := by
  unfold createPlan
  constructor
  · intro h
    obtain ⟨d, hd, h⟩ := Except.bind_eq_ok_iff.mp h
    obtain ⟨⟨⟩, howner, h⟩ := Except.bind_eq_ok_iff.mp h
    obtain ⟨m, hm, h⟩ := Except.bind_eq_ok_iff.mp h
    obtain ⟨bytes, hbytes, h⟩ := Except.bind_eq_ok_iff.mp h
    rw [requireObject_eq_ok_iff] at hm
    rw [hm, requireOwner_eq_ok_iff] at howner
    exact ⟨d, m, bytes, requireWriteCap_eq_ok_iff.mp hd, hm, howner,
      Except.mapError_eq_ok_iff.mp hbytes, (Except.ok.inj h).symm⟩
  · rintro ⟨d, m, bytes, hd, hm, howner, hbytes, rfl⟩
    refine Except.bind_eq_ok_iff.mpr ⟨d, requireWriteCap_eq_ok_iff.mpr hd, ?_⟩
    rw [hm]
    refine Except.bind_eq_ok_iff.mpr ⟨(), requireOwner_eq_ok_iff.mpr howner, ?_⟩
    refine Except.bind_eq_ok_iff.mpr ⟨m, requireObject_eq_ok_iff.mpr rfl, ?_⟩
    exact Except.bind_eq_ok_iff.mpr ⟨bytes, Except.mapError_eq_ok_iff.mpr hbytes, rfl⟩

theorem createTx_eq_ok_iff {out : Int64 × Json.Map} (hd : site.description = .ok (some d))
    (hnames : p.vectorNames = vectorNames d)
    (hcheck : p.check = Policy.effectivePolicyCheck ctx d.schema .insert) :
    createTx site ctx p db = .ok (out, db') ↔
      ∃ usage row db₁, site.engine.usage db = .ok usage ∧
        checkTenantQuota usage 0 site.tier = none ∧ unknownKey d p.data = none ∧
        insertRow site.engine db (bindValues site.printJson p.vectorBytes p.data) = .ok (row, db₁) ∧
        PassesCheck ctx d .insert (recordOf d row) ∧
        out = (recordId (recordOf d row) row, recordOf d row) ∧
        db' = capture site.coll .insert (recordId (recordOf d row) row) none
          (some (recordOf d row)) (.fromAuthCtx ctx) d.auditEnabled db₁ := by
  unfold createTx
  rw [hnames, hcheck]
  constructor
  · intro h
    obtain ⟨usage, husage, h⟩ := Except.bind_eq_ok_iff.mp h
    obtain ⟨⟨⟩, hquota, h⟩ := Except.bind_eq_ok_iff.mp h
    obtain ⟨d', hd', h⟩ := Except.bind_eq_ok_iff.mp h
    rw [describeInTx_eq_ok_iff, hd, Except.ok.injEq, Option.some.injEq] at hd'
    subst hd'
    split at h
    · cases h
    · next hknown =>
      obtain ⟨⟨row, db₁⟩, hrow, h⟩ := Except.bind_eq_ok_iff.mp h
      obtain ⟨⟨⟩, hpasses, h⟩ := Except.bind_eq_ok_iff.mp h
      rw [filter_rowToJson_eq_recordOf] at hpasses h
      cases h
      exact ⟨usage, row, db₁, execute_eq_ok_iff.mp husage, quotaGate_eq_ok_iff.mp hquota, hknown,
        execute_eq_ok_iff.mp hrow, enforceCheck_eq_ok_iff.mp hpasses, rfl, rfl⟩
  · rintro ⟨usage, row, db₁, husage, hquota, hknown, hrow, hpasses, rfl, rfl⟩
    refine Except.bind_eq_ok_iff.mpr ⟨usage, execute_eq_ok_iff.mpr husage, ?_⟩
    refine Except.bind_eq_ok_iff.mpr ⟨(), quotaGate_eq_ok_iff.mpr hquota, ?_⟩
    refine Except.bind_eq_ok_iff.mpr ⟨d, describeInTx_eq_ok_iff.mpr hd, ?_⟩
    rw [hknown]
    refine Except.bind_eq_ok_iff.mpr ⟨(row, db₁), execute_eq_ok_iff.mpr hrow, ?_⟩
    simp only [filter_rowToJson_eq_recordOf]
    exact Except.bind_eq_ok_iff.mpr ⟨(), enforceCheck_eq_ok_iff.mpr hpasses, rfl⟩

/-- A transaction whose errors are renamed. -/
theorem performs_withWriterTx {ε α : Type} {tx : Db → Except TxError (α × Db)} {f : TxError → ε}
    {P : α → Db → Prop} (h : ∀ a db', tx db = .ok (a, db') ↔ P a db') :
    Performs ((withWriterTx db tx).1.mapError f, (withWriterTx db tx).2) db P where
  ok_iff a db' := by
    rw [← h, ← withWriterTx_eq_ok_iff, Prod.ext_iff, Prod.ext_iff, Except.mapError_eq_ok_iff]
  error e db' heq := by
    obtain ⟨he, hdb⟩ := Prod.ext_iff.mp heq
    cases hres : (withWriterTx db tx).1 with
    | ok a =>
      rw [hres] at he
      cases he
    | error e' =>
      exact withWriterTx_error (Prod.ext hres hdb)

/-- A request that is refused. -/
theorem performs_refused {ε α : Type} {e : ε} {P : α → Db → Prop} (h : ∀ a db', ¬ P a db') :
    Performs (.error e, db) db P where
  ok_iff a db' := ⟨fun heq => (nomatch heq), fun hP => (h a db' hP).elim⟩
  error _ _ heq := ((Prod.ext_iff.mp heq).2).symm

theorem createHandler_performs (site : Site) (ctx : AuthCtx) (body : DataBody) (db : Db) :
    Performs (createHandler site ctx body db) db (Inserts site ctx body db) := by
  unfold createHandler
  cases hplan : createPlan site ctx body with
  | error e =>
    refine performs_refused ?_
    rintro out db' ⟨m, d, bytes, usage, row, db₁, hm, hins, -, -⟩
    have hok := createPlan_eq_ok_iff.mpr
      ⟨d, m, bytes, hins.admitted, hm, hins.ownerNamed, hins.vectors, rfl⟩
    rw [hplan] at hok
    cases hok
  | ok p =>
    obtain ⟨d, m, bytes, hd, hm, howner, hbytes, rfl⟩ := createPlan_eq_ok_iff.mp hplan
    refine performs_withWriterTx fun out db' => ?_
    rw [createTx_eq_ok_iff hd.described rfl rfl]
    constructor
    · rintro ⟨usage, row, db₁, husage, hquota, hknown, hrow, hpasses, hout, hdb⟩
      exact ⟨m, d, bytes, usage, row, db₁, hm,
        ⟨hd, howner, hbytes, husage, hquota, hknown, hrow, hpasses⟩, hout, hdb⟩
    · rintro ⟨m', d', bytes', usage, row, db₁, hm', hins, hout, hdb⟩
      -- the values and the description of the two sides are the same
      obtain rfl : m' = m := Json.object.inj (hm'.symm.trans hm)
      obtain rfl : d' = d := by
        have heq := hins.admitted.described.symm.trans hd.described
        exact Option.some.inj (Except.ok.inj heq)
      obtain rfl : bytes' = bytes := Except.ok.inj (hins.vectors.symm.trans hbytes)
      exact ⟨usage, row, db₁, hins.measured, hins.quota, hins.known, hins.inserted, hins.check,
        hout, hdb⟩

theorem updatePlan_eq_ok_iff :
    updatePlan site ctx body = .ok p ↔
      ∃ d usingSql m bytes, Admitted site ctx .update d ∧
        Policy.policyUsingSql ctx d.schema .update = .ok usingSql ∧ body.data = .object m ∧
        (stripOwner ctx d m).isEmpty = false ∧
        preEncodeVectors site.f32Bytes (stripOwner ctx d m) d.vectorFields = .ok bytes ∧
        p = { data := stripOwner ctx d m, vectorBytes := bytes, vectorNames := vectorNames d,
              owner := computeOwnerWriteFilter ctx d, usingSql := usingSql,
              check := Policy.effectivePolicyCheck ctx d.schema .update } := by
  unfold updatePlan
  constructor
  · intro h
    obtain ⟨d, hd, h⟩ := Except.bind_eq_ok_iff.mp h
    obtain ⟨usingSql, husing, h⟩ := Except.bind_eq_ok_iff.mp h
    obtain ⟨m, hm, h⟩ := Except.bind_eq_ok_iff.mp h
    dsimp only at h
    split at h
    · cases h
    · next hne =>
      obtain ⟨bytes, hbytes, h⟩ := Except.bind_eq_ok_iff.mp h
      exact ⟨d, usingSql, m, bytes, requireWriteCap_eq_ok_iff.mp hd,
        Except.mapError_eq_ok_iff.mp husing, requireObject_eq_ok_iff.mp hm, by simpa using hne,
        Except.mapError_eq_ok_iff.mp hbytes, (Except.ok.inj h).symm⟩
  · rintro ⟨d, usingSql, m, bytes, hd, husing, hm, hne, hbytes, rfl⟩
    refine Except.bind_eq_ok_iff.mpr ⟨d, requireWriteCap_eq_ok_iff.mpr hd, ?_⟩
    refine Except.bind_eq_ok_iff.mpr ⟨usingSql, Except.mapError_eq_ok_iff.mpr husing, ?_⟩
    refine Except.bind_eq_ok_iff.mpr ⟨m, requireObject_eq_ok_iff.mpr hm, ?_⟩
    simp only [hne]
    exact Except.bind_eq_ok_iff.mpr ⟨bytes, Except.mapError_eq_ok_iff.mpr hbytes, rfl⟩

theorem updateTx_eq_ok_iff {out : Json.Map} (hd : site.description = .ok (some d))
    (hnames : p.vectorNames = vectorNames d)
    (hcheck : p.check = Policy.effectivePolicyCheck ctx d.schema .update) :
    updateTx site ctx id p db = .ok (out, db') ↔
      ∃ before row db₁, site.engine.usage db = .ok before ∧ unknownKey d p.data = none ∧
        (∀ clause, p.usingSql = some clause →
          selectOne site.engine (columnNames d) db id clause = .ok true) ∧
        updateRow site.engine site.now db id p.owner
          (bindValues site.printJson p.vectorBytes p.data) = .ok (some (row, db₁)) ∧
        PassesCheck ctx d .update (recordOf d row) ∧ out = recordOf d row ∧
        db' = capture site.coll .update id (preImage d (vectorNames d) db id p.owner)
          (some (recordOf d row)) (.fromAuthCtx ctx) d.auditEnabled db₁ ∧
        checkUpdateGrowth site before db' = .ok () := by
  unfold updateTx
  rw [hnames, hcheck]
  constructor
  · intro h
    obtain ⟨before, hbefore, h⟩ := Except.bind_eq_ok_iff.mp h
    obtain ⟨d', hd', h⟩ := Except.bind_eq_ok_iff.mp h
    rw [describeInTx_eq_ok_iff, hd, Except.ok.injEq, Option.some.injEq] at hd'
    subst hd'
    split at h
    · cases h
    · next hknown =>
      obtain ⟨found, hfound, h⟩ := Except.bind_eq_ok_iff.mp h
      cases found with
      | false => cases h
      | true =>
        obtain ⟨updated, hupdated, h⟩ := Except.bind_eq_ok_iff.mp h
        cases updated with
        | none => cases h
        | some rd =>
          obtain ⟨row, db₁⟩ := rd
          obtain ⟨⟨⟩, hpasses, h⟩ := Except.bind_eq_ok_iff.mp h
          obtain ⟨⟨⟩, hgrowth, h⟩ := Except.bind_eq_ok_iff.mp h
          rw [filter_rowToJson_eq_recordOf] at hpasses hgrowth h
          cases h
          exact ⟨before, row, db₁, execute_eq_ok_iff.mp hbefore, hknown,
            usingPreflight_eq_ok_true_iff.mp hfound, execute_eq_ok_iff.mp hupdated,
            enforceCheck_eq_ok_iff.mp hpasses, rfl, rfl, hgrowth⟩
  · rintro ⟨before, row, db₁, hbefore, hknown, hfound, hupdated, hpasses, rfl, rfl, hgrowth⟩
    refine Except.bind_eq_ok_iff.mpr ⟨before, execute_eq_ok_iff.mpr hbefore, ?_⟩
    refine Except.bind_eq_ok_iff.mpr ⟨d, describeInTx_eq_ok_iff.mpr hd, ?_⟩
    rw [hknown]
    refine Except.bind_eq_ok_iff.mpr ⟨true, usingPreflight_eq_ok_true_iff.mpr hfound, ?_⟩
    refine Except.bind_eq_ok_iff.mpr ⟨some (row, db₁), execute_eq_ok_iff.mpr hupdated, ?_⟩
    simp only [filter_rowToJson_eq_recordOf]
    refine Except.bind_eq_ok_iff.mpr ⟨(), enforceCheck_eq_ok_iff.mpr hpasses, ?_⟩
    exact Except.bind_eq_ok_iff.mpr ⟨(), hgrowth, rfl⟩

theorem updateHandler_performs (site : Site) (ctx : AuthCtx) (id : Int64) (body : DataBody)
    (db : Db) :
    Performs (updateHandler site ctx id body db) db (Updates site ctx id body db) := by
  unfold updateHandler
  cases hplan : updatePlan site ctx body with
  | error e =>
    refine performs_refused ?_
    rintro out db' ⟨m, d, bytes, before, row, db₁, hm, hupd, -, -⟩
    obtain ⟨usingSql, husing, -⟩ := hupd.target
    have hok := updatePlan_eq_ok_iff.mpr
      ⟨d, usingSql, m, bytes, hupd.admitted, husing, hm, hupd.nonempty, hupd.vectors, rfl⟩
    rw [hplan] at hok
    cases hok
  | ok p =>
    obtain ⟨d, usingSql, m, bytes, hd, husing, hm, hne, hbytes, rfl⟩ :=
      updatePlan_eq_ok_iff.mp hplan
    refine performs_withWriterTx fun out db' => ?_
    rw [updateTx_eq_ok_iff hd.described rfl rfl]
    constructor
    · rintro ⟨before, row, db₁, hbefore, hknown, hfound, hrow, hpasses, hout, hdb, hgrowth⟩
      exact ⟨m, d, bytes, before, row, db₁, hm,
        ⟨hd, hne, hbytes, hbefore, hknown, ⟨usingSql, husing, hfound⟩, hrow, hpasses⟩, hout, hdb,
        hgrowth⟩
    · rintro ⟨m', d', bytes', before, row, db₁, hm', hupd, hout, hdb, hgrowth⟩
      obtain rfl : m' = m := Json.object.inj (hm'.symm.trans hm)
      obtain rfl : d' = d := by
        have heq := hupd.admitted.described.symm.trans hd.described
        exact Option.some.inj (Except.ok.inj heq)
      obtain rfl : bytes' = bytes := Except.ok.inj (hupd.vectors.symm.trans hbytes)
      obtain ⟨usingSql', husing', hfound⟩ := hupd.target
      obtain rfl : usingSql' = usingSql := Except.ok.inj (husing'.symm.trans husing)
      exact ⟨before, row, db₁, hupd.measured, hupd.known, hfound, hupd.updated, hupd.check, hout,
        hdb, hgrowth⟩

/-- A deletion of at least one row, or nothing. -/
theorem deleteTx_eq_ok_iff {owner : Option (String × String)} {usingSql : Option Compiled} {n : Nat} :
    deleteTx site ctx d id owner usingSql db = .ok (n + 1, db') ↔
      (∀ clause, usingSql = some clause →
        selectOne site.engine (columnNames d) db id clause = .ok true) ∧
      ∃ db₁, deleteRow site.engine db id owner = .ok (n + 1, db₁) ∧
        db' = capture site.coll .delete id (preImage d (vectorNames d) db id owner) none
          (.fromAuthCtx ctx) d.auditEnabled db₁ := by
  unfold deleteTx
  constructor
  · intro h
    obtain ⟨found, hfound, h⟩ := Except.bind_eq_ok_iff.mp h
    cases found with
    | false => cases h
    | true =>
      obtain ⟨⟨k, db₁⟩, hrow, h⟩ := Except.bind_eq_ok_iff.mp h
      refine ⟨usingPreflight_eq_ok_true_iff.mp hfound, db₁, ?_⟩
      dsimp only at h
      split at h
      · cases h
        exact ⟨execute_eq_ok_iff.mp hrow, rfl⟩
      · next hzero =>
        cases h
        exact absurd (Nat.succ_pos n) hzero
  · rintro ⟨hfound, db₁, hrow, rfl⟩
    refine Except.bind_eq_ok_iff.mpr ⟨true, usingPreflight_eq_ok_true_iff.mpr hfound, ?_⟩
    refine Except.bind_eq_ok_iff.mpr ⟨(n + 1, db₁), execute_eq_ok_iff.mpr hrow, ?_⟩
    exact if_pos (Nat.succ_pos n)

theorem eq_of_deleteTx_zero {owner : Option (String × String)} {usingSql : Option Compiled}
    (h : deleteTx site ctx d id owner usingSql db = .ok (0, db')) : db' = db := by
  unfold deleteTx at h
  obtain ⟨found, hfound, h⟩ := Except.bind_eq_ok_iff.mp h
  cases found with
  | false =>
    cases h
    rfl
  | true =>
    obtain ⟨⟨k, db₁⟩, hrow, h⟩ := Except.bind_eq_ok_iff.mp h
    dsimp only at h
    split at h
    · next hpos =>
      cases h
      exact absurd hpos (Nat.lt_irrefl 0)
    · cases h
      exact eq_of_deleteRow_zero (execute_eq_ok_iff.mp hrow)

theorem deletePlan_eq_ok_iff {usingSql : Option Compiled} :
    deletePlan site ctx = .ok (d, usingSql) ↔
      Admitted site ctx .delete d ∧ Policy.policyUsingSql ctx d.schema .delete = .ok usingSql := by
  unfold deletePlan
  constructor
  · intro h
    obtain ⟨d', hd, h⟩ := Except.bind_eq_ok_iff.mp h
    obtain ⟨usingSql', husing, h⟩ := Except.bind_eq_ok_iff.mp h
    cases h
    exact ⟨requireWriteCap_eq_ok_iff.mp hd, Except.mapError_eq_ok_iff.mp husing⟩
  · rintro ⟨hd, husing⟩
    refine Except.bind_eq_ok_iff.mpr ⟨d, requireWriteCap_eq_ok_iff.mpr hd, ?_⟩
    exact Except.bind_eq_ok_iff.mpr ⟨usingSql, Except.mapError_eq_ok_iff.mpr husing, rfl⟩

/-- A transaction that counts the rows it deletes; no row is an error. -/
theorem performs_counted {ε : Type} {tx : Db → Except TxError (Nat × Db)} {f : TxError → ε}
    {missing : ε} {P : Unit → Db → Prop}
    (h : ∀ db', (∃ n, tx db = .ok (n + 1, db')) ↔ P () db')
    (hzero : ∀ db', tx db = .ok (0, db') → db' = db) :
    Performs
      (match withWriterTx db tx with
        | (.error e, db) => (.error (f e), db)
        | (.ok n, db) => if n = 0 then (.error missing, db) else (.ok (), db))
      db P := by
  have hcount : ∀ n db', withWriterTx db tx = (.ok n, db') → tx db = .ok (n, db') :=
    fun n db' heq => withWriterTx_eq_ok_iff.mp heq
  rcases hres : withWriterTx db tx with ⟨_ | n, db₁⟩
  · next e =>
    obtain rfl := withWriterTx_error hres
    refine performs_refused fun a db' hP => ?_
    obtain ⟨n, htx⟩ := (h db').mpr hP
    rw [withWriterTx_eq_ok_iff.mpr htx] at hres
    cases hres
  · cases n with
    | zero =>
      obtain rfl := hzero db₁ (hcount 0 db₁ hres)
      refine performs_refused fun a db' hP => ?_
      obtain ⟨n, htx⟩ := (h db').mpr hP
      rw [withWriterTx_eq_ok_iff.mpr htx] at hres
      cases hres
    | succ n =>
      refine ⟨fun a db' => ?_, fun e db' heq => ?_⟩
      · rw [← h db']
        constructor
        · intro heq
          cases heq
          exact ⟨n, hcount (n + 1) db₁ hres⟩
        · rintro ⟨k, htx⟩
          rw [withWriterTx_eq_ok_iff.mpr htx] at hres
          cases hres
          rfl
      · cases heq

theorem deleteHandler_performs (site : Site) (ctx : AuthCtx) (id : Int64) (db : Db) :
    Performs (deleteHandler site ctx id db) db (Deletes site ctx id db) := by
  unfold deleteHandler
  cases hplan : deletePlan site ctx with
  | error e =>
    refine performs_refused ?_
    rintro out db' ⟨d, n, db₁, hd, ⟨usingSql, husing, -⟩, -, -⟩
    rw [deletePlan_eq_ok_iff.mpr ⟨hd, husing⟩] at hplan
    cases hplan
  | ok plan =>
    obtain ⟨d, usingSql⟩ := plan
    obtain ⟨hd, husing⟩ := deletePlan_eq_ok_iff.mp hplan
    refine performs_counted (fun db' => ?_) fun db' => eq_of_deleteTx_zero
    constructor
    · rintro ⟨n, h⟩
      obtain ⟨hfound, db₁, hrow, hdb⟩ := deleteTx_eq_ok_iff.mp h
      exact ⟨d, n + 1, db₁, hd, ⟨usingSql, husing, hfound⟩, hrow, Nat.succ_pos n, hdb⟩
    · rintro ⟨d', n, db₁, hd', ⟨usingSql', husing', hfound⟩, hrow, hpos, hdb⟩
      obtain rfl : d' = d := by
        have heq := hd'.described.symm.trans hd.described
        exact Option.some.inj (Except.ok.inj heq)
      obtain rfl : usingSql' = usingSql := Except.ok.inj (husing'.symm.trans husing)
      obtain ⟨k, rfl⟩ := Nat.exists_eq_succ_of_ne_zero hpos.ne'
      exact ⟨k, deleteTx_eq_ok_iff.mpr ⟨hfound, db₁, hrow, hdb⟩⟩

end Handlers

end Drust.Records
