import Drust.Mcp.SchemaTools
import Drust.Rpc.GuardCauses
import Drust.Tenant.Records

/-!
# Replacing the policies of a collection

`PUT /t/<id>/collections/<c>/policies` replaces the four policies of a collection. After two
guards it goes over the operations in a fixed order, and each round validates the policy of
the body and writes it, or clears the column where the body has none. The connection commits
every write at once, so a round that fails does not undo those before it.

`putPolicies_allOrNothing_iff` says when a call is all or nothing all the same: when it is
refused before its loop, or the rounds before the one that fails wrote what was stored.
-/

namespace Drust

open QueryTemplate (isProtectedCollection)

namespace PolicyRoutes

open Prepare

/-- The policies of a request; one that is left out is cleared. -/
abbrev PutPoliciesBody := CollectionPolicies

inductive PolicyRouteError where
  /-- `WRITE_DENIED`, "service token required". -/
  | writeDenied
  /-- `COLLECTION_NOT_FOUND`, "no such collection". -/
  | collectionNotFound
  /-- `RPC_ANON_OWNER_SCOPED`, or `RPC_QUERY_GRANT_ACTIVE` where a policy is cleared. -/
  | guarded (why : PrepareError)
  | policyInvalid (why : PolicyError)
  | dbError (why : SqlError)

def PolicyRouteError.status : PolicyRouteError → Nat
  | .writeDenied => 403
  | .collectionNotFound => 404
  | .guarded _ => 409
  | .policyInvalid _ => 400
  | .dbError _ => 500

section Put

variable (lite : Sqlite) (rd : Reading) (fails : DmlVerb → Bool)

/-- Validate the policy of an operation, when there is one. -/
def validateOptional (schema : CollectionSchema) (op : DmlVerb) (p : Option Policy) :
    Except PolicyError Unit :=
  match p with
  | none => .ok ()
  | some policy => Policy.validatePolicy schema op policy

/-- The operations in the order of the loop. -/
def order : List DmlVerb := [.select, .insert, .update, .delete]

/-- The loop over the operations. `fails` says which of the writes fail; one that fails
changes nothing. -/
def putLoop (schema : CollectionSchema) (coll : String) (body : PutPoliciesBody) :
    List DmlVerb → Catalog → Except PolicyRouteError Unit × Catalog
  | [], c => (.ok (), c)
  | op :: ops, c =>
    match validateOptional schema op (body.get op) with
    | .error e => (.error (.policyInvalid e), c)
    | .ok () =>
      if fails op then (.error (.dbError .sqliteFailure), c)
      else putLoop schema coll body ops (c.writePolicy coll op (body.get op))

/-- The request attaches a policy. -/
def attaching (body : PutPoliciesBody) : Bool :=
  body.select.isSome || body.insert.isSome || body.update.isSome || body.delete.isSome

/-- What a call checks before its loop. -/
def checkPut (role : TokenRole) (db : TenantDb) (coll : String) (body : PutPoliciesBody) :
    Except PolicyRouteError CollectionSchema := do
  if role ≠ .service then .error .writeDenied
  else if isProtectedCollection coll then .error .collectionNotFound
  else do
    let described ← (describeCollection rd db.catalog coll).mapError .dbError
    match described with
    | none => .error .collectionNotFound
    | some d => do
      if attaching body then (guardPolicyChangeAgainstAnonRpcs lite db coll).mapError .guarded
      else .ok ()
      (validateOptional d.schema .select body.select).mapError .policyInvalid
      (guardSelectPolicyClear lite rd db coll body.select.isSome).mapError .guarded
      .ok d.schema

/-- Replace the policies of a collection. -/
def putPolicies (role : TokenRole) (db : TenantDb) (coll : String) (body : PutPoliciesBody) :
    Except PolicyRouteError Unit × TenantDb :=
  match checkPut lite rd role db coll body with
  | .error e => (.error e, db)
  | .ok schema =>
    let (answer, catalog) := putLoop fails schema coll body order db.catalog
    (answer, { db with catalog := catalog })

/-- Clear the policy of one operation. -/
def deletePolicy (role : TokenRole) (db : TenantDb) (coll : String) (op : DmlVerb) :
    Except PolicyRouteError Unit × TenantDb :=
  if role ≠ .service then (.error .writeDenied, db)
  else
    match (if op = .select then guardSelectPolicyClear lite rd db coll false else .ok ()) with
    | .error e => (.error (.guarded e), db)
    | .ok () =>
      if fails op then (.error (.dbError .sqliteFailure), db)
      else (.ok (), { db with catalog := db.catalog.writePolicy coll op none })

end Put

/-! ### The rounds of the loop -/

/-- The round of an operation writes: its policy is valid, and the write does not fail. -/
def Writes (fails : DmlVerb → Bool) (schema : CollectionSchema) (body : PutPoliciesBody)
    (op : DmlVerb) : Prop :=
  validateOptional schema op (body.get op) = .ok () ∧ fails op = false

/-- The policies of a collection after some rounds. -/
def written (body : PutPoliciesBody) (done : List DmlVerb) (ps : CollectionPolicies) :
    CollectionPolicies :=
  done.foldl (fun ps op => ps.set op (body.get op)) ps

theorem get_written (body : PutPoliciesBody) (done : List DmlVerb) (op : DmlVerb) :
    ∀ ps : CollectionPolicies,
      (written body done ps).get op = if op ∈ done then body.get op else ps.get op := by
  induction done with
  | nil => exact fun ps => rfl
  | cons op' done ih =>
    intro ps
    show (written body done (ps.set op' (body.get op'))).get op = _
    rw [ih, CollectionPolicies.get_set]
    by_cases hdone : op ∈ done
    · rw [if_pos hdone, if_pos (List.mem_cons_of_mem _ hdone)]
    · rw [if_neg hdone]
      by_cases heq : op = op'
      · rw [if_pos heq, if_pos (heq ▸ List.mem_cons_self), heq]
      · rw [if_neg heq, if_neg (by simp [heq, hdone])]

theorem policies_writePolicy (c : Catalog) (coll : String) (op : DmlVerb) (p : Option Policy) :
    ((c.writePolicy coll op p).row coll).policies = (c.row coll).policies.set op p := by
  rw [Catalog.writePolicy, Catalog.row_upsertMeta, Function.update_self]

/-- The loop writes rounds up to the first that does not. By induction on the operations that
are left; the catalog carries the rounds that are done. -/
theorem putLoop_spec (fails : DmlVerb → Bool) (schema : CollectionSchema) (coll : String)
    (body : PutPoliciesBody) (ops : List DmlVerb) : ∀ c : Catalog,
      ∃ done rest, ops = done ++ rest ∧ (∀ op ∈ done, Writes fails schema body op) ∧
        ((putLoop fails schema coll body ops c).2.row coll).policies
          = written body done (c.row coll).policies ∧
        ((rest = [] ∧ (putLoop fails schema coll body ops c).1 = .ok ()) ∨
          ∃ op rest' e, rest = op :: rest' ∧ ¬ Writes fails schema body op ∧
            (putLoop fails schema coll body ops c).1 = .error e) := by
  induction ops with
  | nil => exact fun c => ⟨[], [], rfl, by simp, rfl, .inl ⟨rfl, rfl⟩⟩
  | cons op ops ih =>
    intro c
    rw [putLoop]
    cases hvalid : validateOptional schema op (body.get op) with
    | error e =>
      refine ⟨[], op :: ops, rfl, by simp, rfl, .inr ⟨op, ops, _, rfl, ?_, rfl⟩⟩
      rintro ⟨hok, -⟩
      rw [hvalid] at hok
      cases hok
    | ok u =>
      cases hfails : fails op with
      | true =>
        refine ⟨[], op :: ops, rfl, by simp, rfl, .inr ⟨op, ops, _, rfl, ?_, rfl⟩⟩
        rintro ⟨-, hok⟩
        rw [hfails] at hok
        cases hok
      | false =>
        obtain ⟨done, rest, rfl, hdone, hpolicies, hcases⟩ :=
          ih (c.writePolicy coll op (body.get op))
        simp only [Bool.false_eq_true, if_false]
        refine ⟨op :: done, rest, rfl, ?_, ?_, hcases⟩
        · exact List.forall_mem_cons.mpr ⟨⟨hvalid, hfails⟩, hdone⟩
        · rw [hpolicies, policies_writePolicy]
          rfl

/-! ### All or nothing -/

/-- The rounds before one that does not write store what was stored. -/
def LosesNothing (fails : DmlVerb → Bool) (schema : CollectionSchema) (body : PutPoliciesBody)
    (stored : CollectionPolicies) : Prop :=
  ∀ done op rest, order = done ++ op :: rest → (∀ o ∈ done, Writes fails schema body o) →
    ¬ Writes fails schema body op → ∀ o ∈ done, body.get o = stored.get o

/-- Two splits of a list at the first element without a property are the same. -/
theorem split_unique {α : Type} {P : α → Prop} {l done done' : List α} {x x' : α}
    {rest rest' : List α} (h : l = done ++ x :: rest) (h' : l = done' ++ x' :: rest')
    (hdone : ∀ y ∈ done, P y) (hdone' : ∀ y ∈ done', P y) (hx : ¬ P x) (hx' : ¬ P x') :
    done = done' := by
  induction done generalizing l done' with
  | nil =>
    cases done' with
    | nil => rfl
    | cons y done' =>
      obtain ⟨rfl, -⟩ := List.cons.inj (h.symm.trans h')
      exact absurd (hdone' _ List.mem_cons_self) hx
  | cons y done ih =>
    cases done' with
    | nil =>
      obtain ⟨rfl, -⟩ := List.cons.inj (h.symm.trans h')
      exact absurd (hdone _ List.mem_cons_self) hx'
    | cons y' done' =>
      obtain ⟨rfl, htail⟩ := List.cons.inj (h.symm.trans h')
      rw [ih rfl htail (fun z hz => hdone z (List.mem_cons_of_mem _ hz))
        (fun z hz => hdone' z (List.mem_cons_of_mem _ hz))]

/-- Replacing a policy set is all or nothing exactly when the call does not get to its loop,
or the rounds before the first that is invalid or fails wrote what was stored. An answer of
ok means that the stored policies are those of the body. -/
theorem putPolicies_allOrNothing_iff (lite : Sqlite) (rd : Reading) (fails : DmlVerb → Bool)
    (role : TokenRole) (db : TenantDb) (coll : String) (body : PutPoliciesBody) :
    let out := putPolicies lite rd fails role db coll body
    ((out.1 ≠ .ok () →
        (out.2.catalog.row coll).policies = (db.catalog.row coll).policies) ∧
      (out.1 = .ok () → (out.2.catalog.row coll).policies = body)) ↔
    ∀ schema, checkPut lite rd role db coll body = .ok schema →
      LosesNothing fails schema body (db.catalog.row coll).policies := by
  intro out
  cases hcheck : checkPut lite rd role db coll body with
  | error e =>
    have hout : out = (.error e, db) := by
      show putPolicies lite rd fails role db coll body = _
      rw [putPolicies, hcheck]
    rw [hout]
    constructor
    · exact fun _ schema h => nomatch h
    · exact fun _ => ⟨fun _ => rfl, fun h => nomatch h⟩
  | ok schema =>
    have hout : out = ((putLoop fails schema coll body order db.catalog).1,
        { db with catalog := (putLoop fails schema coll body order db.catalog).2 }) := by
      show putPolicies lite rd fails role db coll body = _
      rw [putPolicies, hcheck]
    obtain ⟨done, rest, hsplit, hdone, hpolicies, ⟨rfl, hok⟩ | ⟨op, rest', e, rfl, hop, herr⟩⟩ :=
      putLoop_spec fails schema coll body order db.catalog
    · -- every round wrote
      rw [List.append_nil] at hsplit
      rw [hout]
      simp only [hok, hpolicies, ne_eq, not_true_eq_false, false_implies, true_implies, true_and]
      have hall : ∀ o : DmlVerb, o ∈ done := by
        rw [← hsplit]
        intro o
        cases o <;> decide
      constructor
      · rintro - schema' hschema done' op' rest' - - hop'
        obtain rfl := Except.ok.inj hschema
        exact absurd (hdone op' (hall op')) hop'
      · intro _
        refine CollectionPolicies.ext_get fun o => ?_
        rw [get_written, if_pos (hall o)]
    · rw [hout]
      simp only [herr, hpolicies, ne_eq, reduceCtorEq, not_false_eq_true, true_implies,
        false_implies, and_true]
      constructor
      · intro hsame schema' hschema done' op' rest'' hsplit' hdone' hop' o ho
        obtain rfl := Except.ok.inj hschema
        obtain rfl := split_unique hsplit hsplit' hdone hdone' hop hop'
        have hget := congrArg (fun ps => ps.get o) hsame
        simp only [get_written, if_pos ho] at hget
        exact hget
      · intro hloses
        refine CollectionPolicies.ext_get fun o => ?_
        rw [get_written]
        split
        · next ho => exact hloses schema rfl done op rest' hsplit hdone hop o ho
        · rfl

/-- Only the public posts may be read. -/
def publicPosts : Policy where
  usingClause := some (.leaf [("visibility", .string "public")])

def postsTable : Table where
  columns := [{ name := "id", sqlType := "INTEGER", pk := true },
    { name := "visibility", sqlType := "TEXT" }]

def postsDb : TenantDb where
  catalog := {
    tables := AList.singleton "posts" postsTable
    metas := AList.singleton "posts" { policies := { select := some publicPosts } } }
  heads := []
  rpcs := []

/-- A request with an insert policy on a column that does not exist, and no select policy. -/
def misspelled : PutPoliciesBody where
  insert := some { checkClause := some (.leaf [("visiblity", .string "public")]) }

/-- The request is refused, and the select policy is gone. -/
theorem putPolicies_clears_select :
    let out := putPolicies twoStatements SchemaTools.plainEnv.reading (fun _ => false) .service postsDb "posts"
      misspelled
    out.1 ≠ .ok () ∧ (postsDb.catalog.row "posts").policies.select.isSome = true ∧
      (out.2.catalog.row "posts").policies.select.isSome = false := by
  intro out
  have hanswer : out.1 = .error (.policyInvalid (.unknownField "visiblity")) := by rfl
  refine ⟨?_, rfl, rfl⟩
  rw [hanswer]
  exact nofun

end PolicyRoutes

end Drust
