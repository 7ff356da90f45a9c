import Drust.Functions.EnforceParity

/-!
# Users stay inside their own rows

The runs of a collection whose rows have owners: requests of any users, over REST and through the
enforcement core of edge functions, each with a description, an engine and a quota of its own. An
insertion stamps the owner into the values, an update takes the owner out of them, and both an
update and a deletion are restricted to rows of the caller, so that a request never touches a row
of someone else, and never gives one away.

A row is followed through a run by its key. Its id does not serve: a body may set it.
-/

namespace Drust.OwnRows

open Sql RecordStore RecordHistory Records Enforce

/-- The id of a user, which starts with `u-`. -/
structure UserId where
  text : String
  shape : ∃ uuid, text.toList = 'u' :: '-' :: uuid

/-- No column takes a user's id for a number. -/
theorem UserId.looksNumeric_eq_false (u : UserId) : looksNumeric u.text = false := by
  obtain ⟨uuid, h⟩ := u.shape
  unfold looksNumeric
  rw [h]
  rfl

inductive Face where
  | rest
  | edge

inductive Request where
  | insert (body : DataBody)
  | update (id : Int64) (body : DataBody)
  | delete (id : Int64)

/-- A request of a user, with what it finds besides the rows. -/
structure Call where
  site : Site
  user : UserId
  tokenHash : String
  face : Face
  request : Request

def Call.ctx (c : Call) : AuthCtx := .user c.user.text c.tokenHash

/-- The rows after a call. -/
def Call.perform (c : Call) (db : Db) : Db :=
  match c.face, c.request with
  | .rest, .insert body => (createHandler c.site c.ctx body db).2
  | .rest, .update id body => (updateHandler c.site c.ctx id body db).2
  | .rest, .delete id => (deleteHandler c.site c.ctx id db).2
  | .edge, .insert body => (enforcedInsert c.site c.ctx body db).2
  | .edge, .update id body => (enforcedUpdate c.site c.ctx id body db).2
  | .edge, .delete id => (enforcedDelete c.site c.ctx id db).2

def run (db : Db) (calls : List Call) : Db :=
  calls.foldl (fun db c => c.perform db) db

/-- The owner field of the collection. Every other setting is left open. -/
def OwnedBy (field : String) (site : Site) : Prop :=
  ∀ d, site.description = .ok (some d) → d.ownerField = some field

/-! ### What a request of a user does -/

/-- The rows of others are as they were, and no row changes its owner. -/
structure StaysInside (field : String) (user : UserId) (db db' : Db) : Prop where
  created : ∀ r' ∈ db'.table.rows, (∀ r ∈ db.table.rows, r.key ≠ r'.key) →
    r'.get field = .text user.text
  foreign : ∀ r ∈ db.table.rows, r.get field ≠ .text user.text → r ∈ db'.table.rows
  kept : ∀ r ∈ db.table.rows, ∀ r' ∈ db'.table.rows, r'.key = r.key → r'.get field = r.get field

/-- A key is never used again. -/
structure Continues (db db' : Db) : Prop where
  fresh : ∀ r' ∈ db'.table.rows, (∃ r ∈ db.table.rows, r.key = r'.key) ∨
    db.table.nextKey ≤ r'.key
  le : db.table.nextKey ≤ db'.table.nextKey

section Effects

variable {field : String} {user : UserId} {tokenHash : String} {site : Site} {db db' : Db}
  {id : Int64} {body : DataBody} {d : CollectionDescription}

theorem staysInside_refl (db : Db) : StaysInside field user db db where
  created r' hr' hnew := absurd rfl (hnew r' hr')
  foreign _ hr _ := hr
  kept r hr r' hr' h := by rw [db.table.eq_of_key_eq hr' hr h]

theorem continues_refl (db : Db) : Continues db db where
  fresh r' hr' := .inl ⟨r', hr', rfl⟩
  le := le_rfl

@[simp] theorem capture_table (coll : String) (op : HistoryOp) (recordId : Int64)
    (old new : Option Json.Map) (actor : AuditActor) (auditEnabled : Bool) (db : Db) :
    (capture coll op recordId old new actor auditEnabled db).table = db.table := by
  unfold capture
  split
  · rfl
  · rfl

/-- A text is no vector. -/
theorem lookup_preEncodeVectors {f32Bytes : Binary64 → List UInt8} {data : Json.Map}
    {fields : List VectorField} {bytes : List (String × List UInt8)} {k s : String}
    (hdata : data.get k = some (.string s)) (h : preEncodeVectors f32Bytes data fields = .ok bytes) :
    bytes.lookup k = none := by
  induction fields generalizing bytes with
  | nil =>
    cases h
    rfl
  | cons vf rest ih =>
    rw [preEncodeVectors] at h
    split at h
    · exact ih h
    · next v hv =>
      obtain ⟨packed, hpacked, h⟩ := Except.bind_eq_ok_iff.mp h
      obtain ⟨out, hout, h⟩ := Except.bind_eq_ok_iff.mp h
      cases h
      rw [List.lookup_cons]
      by_cases hk : k = vf.name
      · rw [← hk, hdata] at hv
        cases hv
        cases hpacked
      · rw [beq_false_of_ne hk]
        exact ih hout

theorem inserts_effect (hfield : field ≠ "id") (howned : OwnedBy field site)
    {out : Int64 × Json.Map} (h : Inserts site (.user user.text tokenHash) body db out db') :
    StaysInside field user db db' ∧ Continues db db' := by
  obtain ⟨m, d, bytes, usage, row, db₁, -, hins, -, rfl⟩ := h
  obtain ⟨⟨newId, stored, hstored, rfl⟩, hrows, hnext⟩ := insertRow_eq_ok hins.inserted
  have hstamp : stampOwner (.user user.text tokenHash) d m
      = Json.Map.insert m field (.string user.text) := by
    unfold stampOwner
    rw [howned d hins.admitted.described]
  have hget : (stampOwner (.user user.text tokenHash) d m).get field
      = some (.string user.text) := by
    rw [hstamp, Json.Map.get_insert_self]
  -- the owner is bound as a text, and stored as it is
  have hbound : (bindValues site.printJson bytes (stampOwner (.user user.text tokenHash) d m)).lookup
      field = some (.text user.text) := by
    rw [lookup_bindValues, hget, lookup_preEncodeVectors hget hins.vectors]
    rfl
  obtain ⟨w, hw, hcell⟩ := (storeAll_eq_ok hstored field).2 _ hbound
  obtain rfl := site.engine.store_text hw user.looksNumeric_eq_false
  have howner : (insertedRow site.engine db newId stored).get field = .text user.text := by
    rw [Row.get, if_neg hfield]
    simp only [insertedRow, hcell, Option.getD_some]
  refine ⟨⟨?_, ?_, ?_⟩, ?_, ?_⟩
  · intro r' hr' hnew
    rw [capture_table, hrows, List.mem_append, List.mem_singleton] at hr'
    rcases hr' with hr' | rfl
    · exact absurd rfl (hnew r' hr')
    · exact howner
  · intro r hr _
    rw [capture_table, hrows]
    exact List.mem_append_left _ hr
  · intro r hr r' hr' hkey
    rw [capture_table, hrows, List.mem_append, List.mem_singleton] at hr'
    rcases hr' with hr' | rfl
    · rw [db.table.eq_of_key_eq hr' hr hkey]
    · exact absurd hkey.symm (db.table.key_lt r hr).ne
  · intro r' hr'
    rw [capture_table, hrows, List.mem_append, List.mem_singleton] at hr'
    rcases hr' with hr' | rfl
    · exact .inl ⟨r', hr', rfl⟩
    · exact .inr le_rfl
  · rw [capture_table, hnext]
    exact Nat.le_succ _

/-- The rows that a user's write is restricted to. -/
theorem owner_of_isTarget (howned : OwnedBy field site) (hd : site.description = .ok (some d))
    {r : RecordStore.Row}
    (h : isTarget id (computeOwnerWriteFilter (.user user.text tokenHash) d) r = true) :
    r.get field = .text user.text := by
  have hfilter : computeOwnerWriteFilter (.user user.text tokenHash) d
      = some (field, user.text) := by
    unfold computeOwnerWriteFilter
    rw [howned d hd]
  rw [hfilter, isTarget, Bool.and_eq_true] at h
  exact ownerClause_iff.mp h.2

theorem updates_effect (hfield : field ≠ "id") (hupdated : field ≠ "updated_at")
    (howned : OwnedBy field site) {out : Json.Map}
    (h : Updates site (.user user.text tokenHash) id body db out db') :
    StaysInside field user db db' ∧ Continues db db' := by
  obtain ⟨m, d, bytes, before, row, db₁, hm, hupd, -, rfl, -⟩ := h
  obtain ⟨r, hr, htarget, ⟨newId, stored, hstored, rfl⟩, hrows, hnext⟩ :=
    updateRow_eq_ok_some hupd.updated
  have hmine : r.get field = .text user.text :=
    owner_of_isTarget howned hupd.admitted.described htarget
  have hstrip : Records.stripOwner (.user user.text tokenHash) d m = AssocList.shiftRemove m field := by
    unfold Records.stripOwner
    rw [howned d hupd.admitted.described]
  -- the owner is not among the values, so the new image keeps it
  have hunbound : (bindValues site.printJson bytes
      (Records.stripOwner (.user user.text tokenHash) d m)).lookup field = none := by
    rw [lookup_bindValues, hstrip, Json.Map.get_eq_lookup,
      AssocList.lookup_shiftRemove_self (body.distinct m hm)]
    rfl
  have hcell : stored field = none := (storeAll_eq_ok hstored field).1 hunbound
  have howner : (updatedRow site.now r newId stored).get field = r.get field := by
    rw [Row.get, if_neg hfield, Row.get, if_neg hfield]
    simp only [updatedRow, if_neg hupdated, hcell, Option.getD_none]
  have hmem : ∀ r' ∈ (capture site.coll .update id
      (preImage d (vectorNames d) db id
        (computeOwnerWriteFilter (.user user.text tokenHash) d))
      (some (recordOf d (updatedRow site.now r newId stored)))
      (.fromAuthCtx (.user user.text tokenHash)) d.auditEnabled db₁).table.rows,
      ∃ x ∈ db.table.rows, x.key = r'.key ∧ r'.get field = x.get field := by
    intro r' hr'
    rw [capture_table, hrows] at hr'
    obtain ⟨x, hx, rfl⟩ := List.mem_map.mp hr'
    split_ifs with hkey
    · exact ⟨r, hr, rfl, howner⟩
    · exact ⟨x, hx, rfl, rfl⟩
  refine ⟨⟨?_, ?_, ?_⟩, ?_, ?_⟩
  · intro r' hr' hnew
    obtain ⟨x, hx, hkey, -⟩ := hmem r' hr'
    exact absurd hkey (hnew x hx)
  · intro x hx hforeign
    have hkey : x.key ≠ r.key := by
      intro heq
      rw [db.table.eq_of_key_eq hx hr heq] at hforeign
      exact hforeign hmine
    rw [capture_table, hrows]
    exact List.mem_map.mpr ⟨x, hx, if_neg hkey⟩
  · intro x hx r' hr' hkey
    obtain ⟨y, hy, hykey, hyowner⟩ := hmem r' hr'
    rw [hyowner, db.table.eq_of_key_eq hy hx (hykey.trans hkey)]
  · intro r' hr'
    obtain ⟨x, hx, hkey, -⟩ := hmem r' hr'
    exact .inl ⟨x, hx, hkey⟩
  · rw [capture_table, hnext]

theorem deletes_effect (howned : OwnedBy field site)
    (h : Deletes site (.user user.text tokenHash) id db () db') :
    StaysInside field user db db' ∧ Continues db db' := by
  obtain ⟨d, n, db₁, hd, -, hrow, -, rfl⟩ := h
  obtain ⟨-, rfl⟩ := deleteRow_eq_ok hrow
  refine ⟨⟨?_, ?_, ?_⟩, ?_, ?_⟩
  · intro r' hr' hnew
    rw [capture_table] at hr'
    exact absurd rfl (hnew r' (List.mem_of_mem_filter hr'))
  · intro r hr hforeign
    rw [capture_table]
    refine List.mem_filter.mpr ⟨hr, ?_⟩
    rw [Bool.not_eq_true']
    by_contra htarget
    exact hforeign (owner_of_isTarget howned hd.described (Bool.not_eq_false _ ▸ htarget))
  · intro r hr r' hr' hkey
    rw [capture_table] at hr'
    rw [db.table.eq_of_key_eq (List.mem_of_mem_filter hr') hr hkey]
  · intro r' hr'
    rw [capture_table] at hr'
    exact .inl ⟨r', List.mem_of_mem_filter hr', rfl⟩
  · rw [capture_table]
    exact le_rfl

end Effects

/-! ### Runs -/

section Runs

variable {field : String} {db db' : Db} {c : Call}

/-- A request that performs a relation is inside when the relation is. -/
theorem inside_of_performs {ε α : Type} {x : Except ε α × Db} {P : α → Db → Prop} {user : UserId}
    (h : Performs x db P)
    (hP : ∀ a, P a x.2 → StaysInside field user db x.2 ∧ Continues db x.2) :
    StaysInside field user db x.2 ∧ Continues db x.2 := by
  rcases h.cases with heq | ⟨a, ha⟩
  · rw [heq]
    exact ⟨staysInside_refl db, continues_refl db⟩
  · exact hP a ha

theorem perform_inside (hfield : field ∉ systemColumns) (howned : OwnedBy field c.site) (db : Db) :
    StaysInside field c.user db (c.perform db) ∧ Continues db (c.perform db) := by
  have hid : field ≠ "id" := fun h => hfield (by rw [h]; decide)
  have hupdated : field ≠ "updated_at" := fun h => hfield (by rw [h]; decide)
  unfold Call.perform
  split
  · exact inside_of_performs (createHandler_performs ..) fun _ => inserts_effect hid howned
  · exact inside_of_performs (updateHandler_performs ..) fun _ => updates_effect hid hupdated howned
  · exact inside_of_performs (deleteHandler_performs ..) fun _ => deletes_effect howned
  · exact inside_of_performs (enforcedInsert_performs ..) fun _ h => inserts_effect hid howned h.2
  · exact inside_of_performs (enforcedUpdate_performs ..) fun _ h => updates_effect hid hupdated howned h.2
  · rw [(enforcedDelete_agrees ..).2]
    exact inside_of_performs (deleteHandler_performs ..) fun _ => deletes_effect howned

/-- The rows of the later state that were there before have the owner they had. -/
def SameOwners (field : String) (db db' : Db) : Prop :=
  ∀ r ∈ db.table.rows, ∀ r' ∈ db'.table.rows, r'.key = r.key → r'.get field = r.get field

theorem run_append (db : Db) (before after : List Call) :
    run db (before ++ after) = run (run db before) after :=
  List.foldl_append

/-- Owners are kept along a run, since the key of a row that is gone is not used again. -/
theorem run_sameOwners (hfield : field ∉ systemColumns) {calls : List Call}
    (howned : ∀ c ∈ calls, OwnedBy field c.site) (db : Db) :
    SameOwners field db (run db calls) ∧ db.table.nextKey ≤ (run db calls).table.nextKey := by
  induction calls using List.reverseRecOn with
  | nil =>
    refine ⟨fun r hr r' hr' hkey => ?_, le_rfl⟩
    rw [db.table.eq_of_key_eq hr' hr hkey]
  | append_singleton calls c ih =>
    obtain ⟨hsame, hle⟩ := ih fun c' hc' => howned c' (List.mem_append_left _ hc')
    obtain ⟨hinside, hcont⟩ := perform_inside hfield
      (howned c (List.mem_append_right _ List.mem_cons_self)) (run db calls)
    rw [run_append]
    refine ⟨fun r hr r' hr' hkey => ?_, hle.trans hcont.le⟩
    rcases hcont.fresh r' hr' with ⟨x, hx, hxkey⟩ | hnew
    · rw [hinside.kept x hx r' hr' hxkey.symm]
      exact hsame r hr x hx (hxkey.trans hkey)
    · have hlt : r.key < r'.key := (db.table.key_lt r hr).trans_le (hle.trans hnew)
      exact absurd hkey hlt.ne'

theorem users_stay_inside (hfield : field ∉ systemColumns) (calls : List Call)
    (howned : ∀ c ∈ calls, OwnedBy field c.site) (db : Db) :
    (∀ before c after, calls = before ++ c :: after →
      StaysInside field c.user (run db before) (c.perform (run db before))) ∧
    ∀ before after, calls = before ++ after → SameOwners field (run db before) (run db calls) := by
  constructor
  · rintro before c after rfl
    exact (perform_inside hfield (howned c (by simp)) _).1
  · rintro before after rfl
    rw [run_append]
    exact (run_sameOwners hfield (fun c hc => howned c (List.mem_append_right _ hc)) _).1

end Runs

/-! ### A body that names another owner -/

def owned : CollectionDescription :=
  { notes with
    fields := ["id", "title", "user_id", "updated_at"].map fun name =>
      { name := name, sqlType := if name = "id" then "integer" else "text", nullable := true,
        pk := name == "id", defaultValue := none, foreignKey := none, description := none,
        constraints := none }
    ownerField := some "user_id"
    readScope := some "all" }

def alice : UserId where
  text := "u-alice"
  shape := ⟨"alice".toList, rfl⟩

/-- A row that the body gives to someone else. -/
def forgery : Call where
  site := { notesSite with description := .ok (some owned) }
  user := alice
  tokenHash := ""
  face := .edge
  request := .insert {
    data := .object [("title", .string "x"), ("user_id", .string "u-bob")]
    distinct := fun m h => by
      cases h
      decide }

theorem forgery_stays_inside :
    StaysInside "user_id" alice noRows (forgery.perform noRows) ∧
      ((forgery.perform noRows).table.rows.map fun r => r.get "user_id") = [.text "u-alice"] := by
  have howned : ∀ c ∈ [forgery], OwnedBy "user_id" c.site := by
    intro c hc d hd
    rw [List.mem_singleton.mp hc] at hd
    rw [← Option.some.inj (Except.ok.inj hd)]
    rfl
  exact ⟨(users_stay_inside (by decide) [forgery] howned noRows).1 [] forgery [] rfl, rfl⟩

end Drust.OwnRows
