import Drust.Rpc.Prepare

/-!
# When the configuration guards refuse for cause

A collection gets a policy only while no stored call that anonymous callers may use touches
it, and an owner field only while each such call that touches it compares the field with the
caller. The two guards go over the stored calls and compile each body again
(`scanAnonRpcs_eq_ok_iff`).

A body that does not compile any more, because it names a table or a column that has been
dropped since, ends the scan with an error, whatever it names. One such call in the registry
and no collection gets a policy or an owner field. So the guards refuse only for cause exactly
while every body that they look at compiles, or there is a cause anyway.
-/

namespace Drust.Prepare

variable (lite : Sqlite) (db : TenantDb)

/-- A stored call that the guards look at. -/
def RpcRow.isAnonSql (row : RpcRow) : Bool :=
  row.kind = .sql && row.anonCallable

/-- A statement of the body compiles, and touches the collection. -/
def References (row : RpcRow) (collection : String) : Prop :=
  ∃ stmts, splitSql lite row.sql = .ok stmts ∧ ∃ stmt ∈ stmts, ∃ asked,
    compile lite (sqlSchema db) stmt = .ok asked ∧
      collection ∈ asked.filterMap (capturedTable row.mode)

/-- Every statement of the body compiles, and none does more than read and write rows. -/
def Compiles (row : RpcRow) : Prop :=
  ∃ tables, referencedUserTables lite db row.sql row.mode = .ok tables

/-- The body compares the field with the caller's id, which is a declared parameter. -/
def BindsOwner (row : RpcRow) (field : String) : Prop :=
  ∃ params, lite.parseParamsJson row.paramsJson = .ok params ∧ hasUserId params = true ∧
    sqlBindsOwnerToUserId row.sql field = true

variable {lite db}

/-! ### Tables of a body -/

theorem prepare_eq_ok {authorizer : AuthContext → Authorization} {schema : SqlSchema}
    {stmt : String} {asked : List AuthContext}
    (h : prepare lite authorizer schema stmt = .ok asked) :
    compile lite schema stmt = .ok asked ∧ ∀ ctx ∈ asked, authorizer ctx ≠ .deny := by
  obtain ⟨asked', hcompile, h⟩ := Except.bind_eq_ok_iff.mp h
  split at h
  · cases h
  · next hallowed =>
    obtain rfl := Except.ok.inj h
    refine ⟨hcompile, fun ctx hctx hdeny => hallowed ?_⟩
    exact List.any_eq_true.mpr ⟨ctx, hctx, decide_eq_true hdeny⟩

theorem sqlError_eq_ok_iff {α : Type} {x : Except String α} {a : α} :
    sqlError x = .ok a ↔ x = .ok a :=
  Except.mapError_eq_ok_iff

/-- The recorded tables are those that the statements touch. -/
theorem mem_captureTables {schema : SqlSchema} {mode : RpcMode} {stmts : List String} :
    ∀ {tables : List String}, captureTables lite schema mode stmts = .ok tables →
      ∀ t, t ∈ tables ↔ ∃ stmt ∈ stmts, ∃ asked, compile lite schema stmt = .ok asked ∧
        t ∈ asked.filterMap (capturedTable mode) := by
  induction stmts with
  | nil =>
    intro tables h t
    obtain rfl := Except.ok.inj h
    simp
  | cons stmt stmts ih =>
    intro tables h t
    obtain ⟨asked, hasked, h⟩ := Except.bind_eq_ok_iff.mp h
    obtain ⟨rest, hrest, h⟩ := Except.bind_eq_ok_iff.mp h
    obtain rfl := Except.ok.inj h
    have hcompile := (prepare_eq_ok (sqlError_eq_ok_iff.mp hasked)).1
    rw [List.mem_append, ih hrest t]
    constructor
    · rintro (ht | ⟨stmt', hstmt', ht⟩)
      · exact ⟨stmt, List.mem_cons_self, asked, hcompile, ht⟩
      · exact ⟨stmt', List.mem_cons_of_mem _ hstmt', ht⟩
    · rintro ⟨stmt', hstmt', asked', hasked', ht⟩
      obtain rfl | hstmt' := List.mem_cons.mp hstmt'
      · rw [hcompile] at hasked'
        obtain rfl := Except.ok.inj hasked'
        exact .inl ht
      · exact .inr ⟨stmt', hstmt', asked', hasked', ht⟩

/-- Of a body that compiles, the guards see what it touches. -/
theorem references_iff_mem {row : RpcRow} {tables : List String}
    (h : referencedUserTables lite db row.sql row.mode = .ok tables) (collection : String) :
    References lite db row collection ↔ collection ∈ tables := by
  obtain ⟨stmts, hsplit, h⟩ := Except.bind_eq_ok_iff.mp h
  rw [mem_captureTables h]
  constructor
  · rintro ⟨stmts', hsplit', ht⟩
    rw [hsplit] at hsplit'
    obtain rfl := Except.ok.inj hsplit'
    exact ht
  · exact fun ht => ⟨stmts, hsplit, ht⟩

/-! ### The scan -/

theorem registryList_cons {row : RpcRow} {rows : List RpcRow} {rpcs : List StoredRpc}
    (h : registryList lite (row :: rows) = .ok rpcs) :
    ∃ rpc rest, storedRpc lite row = .ok rpc ∧ registryList lite rows = .ok rest ∧
      rpcs = rpc :: rest := by
  obtain ⟨rpc, hrpc, h⟩ := Except.bind_eq_ok_iff.mp h
  obtain ⟨rest, hrest, h⟩ := Except.bind_eq_ok_iff.mp h
  exact ⟨rpc, rest, Except.mapError_eq_ok_iff.mp hrpc, hrest, (Except.ok.inj h).symm⟩

theorem exists_registryList_iff {rows : List RpcRow} :
    (∃ rpcs, registryList lite rows = .ok rpcs) ↔
      ∀ row ∈ rows, ∃ params, lite.parseParamsJson row.paramsJson = .ok params := by
  induction rows with
  | nil => exact ⟨fun _ => by simp, fun _ => ⟨[], rfl⟩⟩
  | cons row rows ih =>
    rw [List.forall_mem_cons, ← ih]
    constructor
    · rintro ⟨rpcs, h⟩
      obtain ⟨rpc, rest, hrpc, hrest, -⟩ := registryList_cons h
      obtain ⟨params, hparams, -⟩ := Except.bind_eq_ok_iff.mp hrpc
      exact ⟨⟨params, hparams⟩, rest, hrest⟩
    · rintro ⟨⟨params, hparams⟩, rest, hrest⟩
      rw [registryList, storedRpc, hparams, hrest]
      exact ⟨_, rfl⟩

/-- What the scan asks of one row. -/
def Passes (lite : Sqlite) (db : TenantDb) (refuse : StoredRpc → List String → Option PrepareError)
    (row : RpcRow) : Prop :=
  ∃ rpc tables, storedRpc lite row = .ok rpc ∧
    referencedUserTables lite db row.sql row.mode = .ok tables ∧ refuse rpc tables = none

theorem storedRpc_eq_ok {row : RpcRow} {rpc : StoredRpc} (h : storedRpc lite row = .ok rpc) :
    lite.parseParamsJson row.paramsJson = .ok rpc.params ∧ rpc.sql = row.sql ∧
      rpc.mode = row.mode ∧ StoredRpc.isAnonSql rpc = RpcRow.isAnonSql row := by
  obtain ⟨params, hparams, h⟩ := Except.bind_eq_ok_iff.mp h
  obtain rfl := Except.ok.inj h
  exact ⟨hparams, rfl, rfl, rfl⟩

/-- The scan ends well when each row that it looks at passes. -/
theorem scanAnonRpcs_eq_ok_iff {refuse : StoredRpc → List String → Option PrepareError}
    {rows : List RpcRow} : ∀ {rpcs : List StoredRpc}, registryList lite rows = .ok rpcs →
      (scanAnonRpcs lite db refuse rpcs = .ok () ↔
        ∀ row ∈ rows, RpcRow.isAnonSql row = true → Passes lite db refuse row) := by
  induction rows with
  | nil =>
    intro rpcs h
    obtain rfl := Except.ok.inj h
    simp [scanAnonRpcs]
  | cons row rows ih =>
    intro rpcs h
    obtain ⟨rpc, rest, hrpc, hrest, rfl⟩ := registryList_cons h
    obtain ⟨-, hsql, hmode, hanon⟩ := storedRpc_eq_ok hrpc
    rw [scanAnonRpcs, List.forall_mem_cons, ← ih hrest, hanon, hsql, hmode]
    cases hlooked : RpcRow.isAnonSql row with
    | false => simp
    | true =>
      simp only [if_true, true_implies]
      have hpasses : Passes lite db refuse row ↔
          ∃ tables, referencedUserTables lite db row.sql row.mode = .ok tables ∧
            refuse rpc tables = none := by
        constructor
        · rintro ⟨rpc', tables, hrpc', htables, hrefuse⟩
          rw [hrpc] at hrpc'
          obtain rfl := Except.ok.inj hrpc'
          exact ⟨tables, htables, hrefuse⟩
        · rintro ⟨tables, htables, hrefuse⟩
          exact ⟨rpc, tables, hrpc, htables, hrefuse⟩
      rw [hpasses]
      constructor
      · intro h
        obtain ⟨tables, htables, h⟩ := Except.bind_eq_ok_iff.mp h
        cases hrefuse : refuse rpc tables with
        | some e =>
          simp only [hrefuse] at h
          cases h
        | none =>
          simp only [hrefuse] at h
          exact ⟨⟨tables, htables, hrefuse⟩, h⟩
      · rintro ⟨⟨tables, htables, hrefuse⟩, hscan⟩
        refine Except.bind_eq_ok_iff.mpr ⟨tables, htables, ?_⟩
        simp only [hrefuse]
        exact hscan

/-- The registry can be read, and every body that the guards look at compiles. -/
structure Sound (lite : Sqlite) (db : TenantDb) : Prop where
  parses : ∀ row ∈ db.rpcs, ∃ params, lite.parseParamsJson row.paramsJson = .ok params
  compiles : ∀ row ∈ db.rpcs, RpcRow.isAnonSql row = true → Compiles lite db row

/-- A stored call that anonymous callers may use touches the collection. -/
def Cause (lite : Sqlite) (db : TenantDb) (collection : String) : Prop :=
  ∃ row ∈ db.rpcs, RpcRow.isAnonSql row = true ∧ References lite db row collection

/-- One does, and does not compare the field with the caller. -/
def OwnerCause (lite : Sqlite) (db : TenantDb) (collection field : String) : Prop :=
  ∃ row ∈ db.rpcs, RpcRow.isAnonSql row = true ∧ References lite db row collection ∧
    ¬ BindsOwner lite row field

/-- Rows whose parameters parse are stored calls. -/
theorem Sound.storedRpc (h : Sound lite db) {row : RpcRow} (hrow : row ∈ db.rpcs) :
    ∃ rpc, storedRpc lite row = .ok rpc := by
  obtain ⟨params, hparams⟩ := h.parses row hrow
  rw [Prepare.storedRpc, hparams]
  exact ⟨_, rfl⟩

/-- A guard that goes over the registry lets a change pass when the registry is sound and it
refuses none of the calls. -/
theorem guard_eq_ok_iff (refuse : StoredRpc → List String → Option PrepareError) :
    (registryList lite db.rpcs >>= scanAnonRpcs lite db refuse) = .ok () ↔
      Sound lite db ∧ ∀ row ∈ db.rpcs, RpcRow.isAnonSql row = true →
        ∀ rpc tables, storedRpc lite row = .ok rpc →
          referencedUserTables lite db row.sql row.mode = .ok tables → refuse rpc tables = none := by
  constructor
  · intro h
    obtain ⟨rpcs, hlist, h⟩ := Except.bind_eq_ok_iff.mp h
    have hpass := (scanAnonRpcs_eq_ok_iff hlist).mp h
    refine ⟨⟨exists_registryList_iff.mp ⟨rpcs, hlist⟩, ?_⟩, ?_⟩
    · intro row hrow hanon
      obtain ⟨-, tables, -, htables, -⟩ := hpass row hrow hanon
      exact ⟨tables, htables⟩
    · intro row hrow hanon rpc tables hrpc htables
      obtain ⟨rpc', tables', hrpc', htables', hrefuse⟩ := hpass row hrow hanon
      rw [hrpc] at hrpc'
      rw [htables] at htables'
      rw [Except.ok.inj hrpc', Except.ok.inj htables']
      exact hrefuse
  · rintro ⟨hsound, hnone⟩
    obtain ⟨rpcs, hlist⟩ := exists_registryList_iff.mpr hsound.parses
    refine Except.bind_eq_ok_iff.mpr ⟨rpcs, hlist, (scanAnonRpcs_eq_ok_iff hlist).mpr ?_⟩
    intro row hrow hanon
    obtain ⟨tables, htables⟩ := hsound.compiles row hrow hanon
    obtain ⟨rpc, hrpc⟩ := hsound.storedRpc hrow
    exact ⟨rpc, tables, hrpc, htables, hnone row hrow hanon rpc tables hrpc htables⟩

/-- The policy guard lets a change pass when the registry is sound and there is no cause. -/
theorem guardPolicyChange_eq_ok_iff (collection : String) :
    guardPolicyChangeAgainstAnonRpcs lite db collection = .ok () ↔
      Sound lite db ∧ ¬ Cause lite db collection := by
  unfold guardPolicyChangeAgainstAnonRpcs
  rw [guard_eq_ok_iff]
  refine and_congr_right fun hsound => ?_
  constructor
  · rintro hnone ⟨row, hrow, hanon, href⟩
    obtain ⟨rpc, hrpc⟩ := hsound.storedRpc hrow
    obtain ⟨tables, htables⟩ := hsound.compiles row hrow hanon
    have hrefuse := hnone row hrow hanon rpc tables hrpc htables
    rw [references_iff_mem htables] at href
    rw [if_pos (List.contains_iff_mem.mpr href)] at hrefuse
    cases hrefuse
  · intro hcause row hrow hanon rpc tables hrpc htables
    refine if_neg fun hmem => hcause ⟨row, hrow, hanon, ?_⟩
    rw [references_iff_mem htables]
    exact List.contains_iff_mem.mp hmem

theorem bindsOwner_iff {row : RpcRow} {rpc : StoredRpc} (h : storedRpc lite row = .ok rpc)
    (field : String) : BindsOwner lite row field ↔ bindsOwner rpc field = true := by
  obtain ⟨hparams, hsql, -⟩ := storedRpc_eq_ok h
  rw [bindsOwner, Bool.and_eq_true, hsql]
  constructor
  · rintro ⟨params, hparams', huser, hbinds⟩
    rw [hparams] at hparams'
    obtain rfl := Except.ok.inj hparams'
    exact ⟨huser, hbinds⟩
  · rintro ⟨huser, hbinds⟩
    exact ⟨rpc.params, hparams, huser, hbinds⟩

/-- So does the guard of the owner field. -/
theorem guardOwnerScopeChange_eq_ok_iff (collection field : String) :
    guardOwnerScopeChangeAgainstAnonRpcs lite db collection field = .ok () ↔
      Sound lite db ∧ ¬ OwnerCause lite db collection field := by
  unfold guardOwnerScopeChangeAgainstAnonRpcs
  rw [guard_eq_ok_iff]
  refine and_congr_right fun hsound => ?_
  constructor
  · rintro hnone ⟨row, hrow, hanon, href, hunbound⟩
    obtain ⟨rpc, hrpc⟩ := hsound.storedRpc hrow
    obtain ⟨tables, htables⟩ := hsound.compiles row hrow hanon
    have hrefuse := hnone row hrow hanon rpc tables hrpc htables
    rw [references_iff_mem htables, ← List.contains_iff_mem] at href
    rw [bindsOwner_iff hrpc, Bool.not_eq_true] at hunbound
    rw [href, hunbound] at hrefuse
    cases hrefuse
  · intro hcause row hrow hanon rpc tables hrpc htables
    refine if_neg ?_
    rw [Bool.and_eq_true, List.contains_iff_mem, Bool.not_eq_true']
    rintro ⟨ht, hunbound⟩
    refine hcause ⟨row, hrow, hanon, (references_iff_mem htables collection).mpr ht, ?_⟩
    rw [bindsOwner_iff hrpc, hunbound]
    exact Bool.false_ne_true

/-! ### Refusals for cause -/

/-- A guard that passes exactly when the registry is sound and there is no cause refuses only
for cause exactly when the registry is sound, or there is a cause anyway. -/
theorem refuses_for_cause_iff {guard : Except PrepareError Unit} {cause : Prop}
    (h : guard = .ok () ↔ Sound lite db ∧ ¬ cause) :
    ((∃ e, guard = .error e) → cause) ↔ Sound lite db ∨ cause := by
  have hrefuses : (∃ e, guard = .error e) ↔ ¬ (guard = .ok ()) := by
    cases guard with
    | error e => exact ⟨fun _ => nofun, fun _ => ⟨e, rfl⟩⟩
    | ok u => exact ⟨fun h => (nomatch h.choose_spec), fun hne => absurd rfl hne⟩
  rw [hrefuses, h]
  tauto

/-- The guards refuse only for cause. For every registry, every set of tables and every
collection: the policy guard refuses only if a call that anonymous callers may use touches the
collection, and the guard of the owner field only if one touches it without comparing the
field with the caller, exactly when the registry can be read and each of these calls still
compiles, or there is such a call anyway. -/
theorem configGuards_refuse_for_cause_iff (lite : Sqlite) (db : TenantDb)
    (collection field : String) :
    (((∃ e, guardPolicyChangeAgainstAnonRpcs lite db collection = .error e) →
        Cause lite db collection) ↔ Sound lite db ∨ Cause lite db collection) ∧
    (((∃ e, guardOwnerScopeChangeAgainstAnonRpcs lite db collection field = .error e) →
        OwnerCause lite db collection field) ↔
      Sound lite db ∨ OwnerCause lite db collection field) :=
  ⟨refuses_for_cause_iff (guardPolicyChange_eq_ok_iff collection),
    refuses_for_cause_iff (guardOwnerScopeChange_eq_ok_iff collection field)⟩

/-- A parser that knows two statements. -/
def twoStatements : Sqlite where
  complete _ := true
  parse s :=
    if s = "SELECT title FROM drafts" then .ok { accesses := [.select, .read "drafts"] }
    else if s = "SELECT title FROM posts" then .ok { accesses := [.select, .read "posts"] }
    else .error "syntax error"
  induced _ _ := []
  parseParamsJson _ := .ok []
  parseTemplate _ := none

def titlesOf (name table : String) : RpcRow where
  name := name
  sql := "SELECT title FROM " ++ table
  paramsJson := "[]"
  anonCallable := true
  mode := .read
  kind := .sql

/-- The collection `drafts` was dropped after a call over it was stored. -/
def draftsDropped : TenantDb where
  catalog := { tables := AList.singleton "posts" { columns := [] }, metas := ∅ }
  heads := []
  rpcs := [titlesOf "old_titles" "drafts"]

/-- No collection gets a policy any more: the guard of `posts` refuses because of a body that
is about another table. -/
theorem policyGuard_refuses_for_dropped_table :
    (∃ e, guardPolicyChangeAgainstAnonRpcs twoStatements draftsDropped "posts" = .error e) ∧
      ¬ Cause twoStatements draftsDropped "posts" := by
  refine ⟨⟨_, rfl⟩, ?_⟩
  rintro ⟨row, hrow, -, stmts, hsplit, stmt, hstmt, asked, hasked, -⟩
  rw [List.mem_singleton.mp hrow] at hsplit
  have hsplit' : splitSql twoStatements (titlesOf "old_titles" "drafts").sql
      = .ok ["SELECT title FROM drafts"] := by decide +kernel
  rw [hsplit'] at hsplit
  rw [← Except.ok.inj hsplit, List.mem_singleton] at hstmt
  rw [hstmt] at hasked
  cases hasked

end Drust.Prepare
