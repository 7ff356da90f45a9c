import Drust.Lib.JsonText
import Drust.Mcp.SchemaTools

/-!
# Policies as they are stored

A policy is stored as the JSON text of its two clauses, and parsed again wherever it is read.
A text that does not parse reads as no policy (`readPolicies`).

The clauses are filter trees, an untagged enum: what is a leaf on a column named `not` before
it is printed may be a negation after it was read. That happens to no tree that was decoded
from JSON (`plain_of_ofJson`), only to one that was built otherwise. The parser of the texts
gives up at 128 levels of nesting, and a double may come back as another one (`Json.reread`).
A clause that was sent as a text of its own may be nested up to that limit, and the policy
that it is stored in is one level deeper: it is stored, and reads as no policy.
-/

namespace Drust

namespace FilterAst

/-! ### Trees that read back -/

mutual

/-- No leaf would be read as a boolean node. -/
def plain : FilterAst → Bool
  | .and ns => plainAll ns
  | .or ns => plainAll ns
  | .not n => plain n
  | .leaf obj => !isBooleanNode obj

def plainAll : List FilterAst → Bool
  | [] => true
  | n :: ns => plain n && plainAll ns

end

theorem ofJson_and_iff {v : Json} {ns : List FilterAst} :
    ofJson (.object [("and", v)]) = some (.and ns) ↔ ofArray v = some ns := by
  have hand : vecField "and" [("and", v)] = ofArray v := rfl
  rw [ofJson, hand]
  cases ofArray v with
  | some ns' => simp
  | none =>
    have hor : vecField "or" [("and", v)] = none := rfl
    have hnot : boxField "not" [("and", v)] = none := rfl
    simp [hor, hnot]

theorem ofJson_or_iff {v : Json} {ns : List FilterAst} :
    ofJson (.object [("or", v)]) = some (.or ns) ↔ ofArray v = some ns := by
  have hand : vecField "and" [("or", v)] = none := rfl
  have hor : vecField "or" [("or", v)] = ofArray v := rfl
  rw [ofJson, hand, hor]
  cases ofArray v with
  | some ns' => simp
  | none =>
    have hnot : boxField "not" [("or", v)] = none := rfl
    simp [hnot]

theorem ofJson_not_iff {v : Json} {n : FilterAst} :
    ofJson (.object [("not", v)]) = some (.not n) ↔ ofJson v = some n := by
  have hand : vecField "and" [("not", v)] = none := rfl
  have hor : vecField "or" [("not", v)] = none := rfl
  have hnot : boxField "not" [("not", v)] = ofJson v := rfl
  rw [ofJson, hand, hor, hnot]
  cases ofJson v with
  | some n' => simp
  | none => simp

/-- An object is read as the leaf that holds it when it is no boolean node. -/
theorem ofJson_leaf_iff {kvs obj : Json.Map} :
    ofJson (.object kvs) = some (.leaf obj) ↔ isBooleanNode obj = false ∧ kvs = obj := by
  constructor
  · intro h
    obtain ⟨-, ns, -, -, h⟩ | ⟨-, ns, -, -, h⟩ | ⟨-, m, -, -, h⟩ | ⟨hleaf, h⟩ :=
      ofJson_object_cases h
    · cases h
    · cases h
    · cases h
    · obtain rfl := FilterAst.leaf.inj h
      exact ⟨hleaf, rfl⟩
  · rintro ⟨hleaf, rfl⟩
    obtain ⟨n, hn⟩ := Option.isSome_iff_exists.mp (ofJson_isSome (.object kvs))
    rw [hn]
    obtain ⟨v, ns, hget, hv, -⟩ | ⟨v, ns, hget, hv, -⟩ | ⟨v, m, hget, hv, -⟩ | ⟨-, rfl⟩ :=
      ofJson_object_cases hn
    · rw [isBooleanNode_of_and hget hv] at hleaf
      cases hleaf
    · rw [isBooleanNode_of_or hget hv] at hleaf
      cases hleaf
    · rw [isBooleanNode_of_not hget hv] at hleaf
      cases hleaf
    · rfl

section Reread

variable {f : Binary64 → Option Binary64}

theorem ofList_cons_iff {x : Json} {xs : List Json} {n : FilterAst} {ns : List FilterAst} :
    ofList (x :: xs) = some (n :: ns) ↔ ofJson x = some n ∧ ofList xs = some ns := by
  rw [ofList]
  cases ofJson x with
  | none => simp
  | some m =>
    cases ofList xs with
    | none => simp
    | some ms => simp

/-- The elements of a node, each of which reads back when it is plain and kept. -/
theorem ofList_reread_iff {ns : List FilterAst}
    (ih : ∀ n ∈ ns, ∀ w, (toJson n).reread f = some w →
      (ofJson w = some n ↔ plain n = true ∧ w = toJson n)) :
    ∀ {ws}, Json.rereadElems f (toJsons ns) = some ws →
      (ofList ws = some ns ↔ plainAll ns = true ∧ ws = toJsons ns) := by
  induction ns with
  | nil =>
    intro ws h
    obtain rfl := Option.some.inj h
    simp [ofList, plainAll, toJsons]
  | cons n ns ihns =>
    intro ws h
    obtain ⟨w, ws', hw, hws', rfl⟩ := Json.rereadElems_cons h
    have hn := ih n List.mem_cons_self w hw
    have hns := ihns (fun m hm => ih m (List.mem_cons_of_mem _ hm)) hws'
    rw [ofList_cons_iff, hn, hns, plainAll, toJsons, Bool.and_eq_true, List.cons.injEq]
    tauto

/-- What was printed for a tree and has been read is the tree exactly when no leaf of it is
taken for a boolean node, and no double has changed. By induction over the tree. -/
theorem ofJson_reread_iff (n : FilterAst) :
    ∀ w, (toJson n).reread f = some w →
      (ofJson w = some n ↔ plain n = true ∧ w = toJson n) := by
  induction n using FilterAst.induct with
  | and ns ih =>
    intro w h
    rw [toJson] at h ⊢
    obtain ⟨v, hv, rfl⟩ := Json.reread_singleton h
    obtain ⟨ws, hws, rfl⟩ := Json.reread_array hv
    rw [ofJson_and_iff, plain]
    refine (ofList_reread_iff ih hws).trans (and_congr_right fun _ => ?_)
    simp
  | or ns ih =>
    intro w h
    rw [toJson] at h ⊢
    obtain ⟨v, hv, rfl⟩ := Json.reread_singleton h
    obtain ⟨ws, hws, rfl⟩ := Json.reread_array hv
    rw [ofJson_or_iff, plain]
    refine (ofList_reread_iff ih hws).trans (and_congr_right fun _ => ?_)
    simp
  | not n ih =>
    intro w h
    rw [toJson] at h ⊢
    obtain ⟨v, hv, rfl⟩ := Json.reread_singleton h
    rw [ofJson_not_iff, plain]
    refine (ih v hv).trans (and_congr_right fun _ => ?_)
    simp
  | leaf obj =>
    intro w h
    rw [toJson] at h ⊢
    obtain ⟨kws, -, rfl⟩ := Json.reread_object h
    rw [ofJson_leaf_iff, plain, Bool.not_eq_true', Json.object.injEq]

end Reread

/-- A tree that was decoded is plain. -/
theorem plain_of_ofJson (v : Json) :
    (∀ n, ofJson v = some n → plain n = true) ∧
      ∀ ns, ofArray v = some ns → plainAll ns = true := by
  have hlist : ∀ xs : List Json, (∀ x ∈ xs, ∀ n, ofJson x = some n → plain n = true) →
      ∀ ns, ofList xs = some ns → plainAll ns = true := by
    intro xs ih
    induction xs with
    | nil =>
      intro ns h
      obtain rfl := Option.some.inj h
      rfl
    | cons x xs ihxs =>
      intro ns h
      cases ns with
      | nil => rfl
      | cons n ns =>
        obtain ⟨hn, hns⟩ := ofList_cons_iff.mp h
        rw [plainAll, ih x List.mem_cons_self n hn,
          ihxs (fun y hy => ih y (List.mem_cons_of_mem _ hy)) ns hns]
        rfl
  induction v using Json.induct with
  | array xs ih => exact ⟨fun n h => (nomatch h), hlist xs fun x hx => (ih x hx).1⟩
  | object kvs ih =>
    refine ⟨fun n h => ?_, fun ns h => nomatch h⟩
    obtain ⟨v, ns, hget, hv, rfl⟩ | ⟨v, ns, hget, hv, rfl⟩ | ⟨v, m, hget, hv, rfl⟩ | ⟨hleaf, rfl⟩ :=
      ofJson_object_cases h
    · exact (ih _ (Json.Map.mem_of_get hget)).2 ns hv
    · exact (ih _ (Json.Map.mem_of_get hget)).2 ns hv
    · exact (ih _ (Json.Map.mem_of_get hget)).1 m hv
    · rw [plain, hleaf]
      rfl
  | _ => exact ⟨fun n h => (nomatch h), fun ns h => (nomatch h)⟩

end FilterAst

/-! ### The text of a policy -/

namespace Policy

/-- A clause that is absent is left out. -/
def member (key : String) : Option FilterAst → Json.Map
  | none => []
  | some ast => [(key, ast.toJson)]

def toJson (p : Policy) : Json :=
  .object (member "using" p.usingClause ++ member "check" p.checkClause)

/-- A clause of the struct: missing and `null` are none. -/
def ofMember : Option Json → Option (Option FilterAst)
  | none => some none
  | some .null => some none
  | some v => (FilterAst.ofJson v).map some

/-- Decode the object of a policy. -/
def ofJson : Json → Option Policy
  | .object kvs => do
    let usingClause ← ofMember (Json.Map.get kvs "using")
    let checkClause ← ofMember (Json.Map.get kvs "check")
    some { usingClause, checkClause }
  | _ => none

theorem ofJson_object {kvs : Json.Map} {u c : Option FilterAst}
    (hu : ofMember (kvs.get "using") = some u) (hc : ofMember (kvs.get "check") = some c) :
    ofJson (.object kvs) = some { usingClause := u, checkClause := c } := by
  rw [ofJson, hu, hc]
  rfl

/-- Both clauses are plain. -/
def plain (p : Policy) : Bool :=
  p.usingClause.all FilterAst.plain && p.checkClause.all FilterAst.plain

section Reread

variable {f : Binary64 → Option Binary64}

/-- What has been read of a member. -/
theorem rereadMembers_member {key : String} {clause : Option FilterAst} {rest kws : Json.Map}
    (h : Json.rereadMembers f (member key clause ++ rest) = some kws) :
    ∃ ws rest', Json.rereadMembers f rest = some rest' ∧ kws = ws ++ rest' ∧
      ((clause = none ∧ ws = []) ∨
        ∃ ast w, clause = some ast ∧ ast.toJson.reread f = some w ∧ ws = [(key, w)]) := by
  cases clause with
  | none => exact ⟨[], kws, h, rfl, .inl ⟨rfl, rfl⟩⟩
  | some ast =>
    obtain ⟨w, rest', hw, hrest', rfl⟩ := Json.rereadMembers_cons h
    exact ⟨[(key, w)], rest', hrest', rfl, .inr ⟨ast, w, rfl, hw, rfl⟩⟩

/-- A clause that was printed and read is decoded as some clause. -/
theorem ofMember_reread {ast : FilterAst} {w : Json} (h : ast.toJson.reread f = some w) :
    ∃ n, FilterAst.ofJson w = some n ∧ ofMember (some w) = some (some n) := by
  have hobject : ∃ kws, w = .object kws := by
    cases ast with
    | leaf obj =>
      obtain ⟨kws, -, rfl⟩ := Json.reread_object h
      exact ⟨kws, rfl⟩
    | _ =>
      obtain ⟨kws, -, rfl⟩ := Json.reread_object h
      exact ⟨kws, rfl⟩
  obtain ⟨kws, rfl⟩ := hobject
  obtain ⟨n, hn⟩ := Option.isSome_iff_exists.mp (FilterAst.ofJson_isSome (.object kws))
  refine ⟨n, hn, ?_⟩
  rw [ofMember, hn]
  · rfl
  · exact nofun

/-- A text that can be parsed is decoded as some policy, and as the policy that it was printed
for exactly when the clauses are plain and no double has changed. -/
theorem ofJson_reread (p : Policy) {w : Json} (h : p.toJson.reread f = some w) :
    ∃ q, ofJson w = some q ∧ (q = p ↔ p.plain = true ∧ w = p.toJson) := by
  obtain ⟨usingClause, checkClause⟩ := p
  obtain ⟨kws, hkws, rfl⟩ := Json.reread_object h
  obtain ⟨us, rest, hrest, rfl, hu⟩ := rereadMembers_member hkws
  rw [← List.append_nil (member "check" checkClause)] at hrest
  obtain ⟨cs, rest', hnil, rfl, hc⟩ := rereadMembers_member hrest
  obtain rfl := Option.some.inj hnil
  simp only [toJson, plain, List.append_nil, Json.object.injEq]
  obtain ⟨rfl, rfl⟩ | ⟨a, wu, rfl, hwu, rfl⟩ := hu
  · obtain ⟨rfl, rfl⟩ | ⟨b, wc, rfl, hwc, rfl⟩ := hc
    · exact ⟨{}, rfl, by simp [member]⟩
    · obtain ⟨n, hn, hm⟩ := ofMember_reread hwc
      have hiff := FilterAst.ofJson_reread_iff b wc hwc
      rw [hn, Option.some.injEq] at hiff
      exact ⟨{ checkClause := some n }, ofJson_object rfl hm, by simp [member, hiff]⟩
  · obtain ⟨n, hn, hm⟩ := ofMember_reread hwu
    have hiff := FilterAst.ofJson_reread_iff a wu hwu
    rw [hn, Option.some.injEq] at hiff
    obtain ⟨rfl, rfl⟩ | ⟨b, wc, rfl, hwc, rfl⟩ := hc
    · exact ⟨{ usingClause := some n }, ofJson_object hm rfl, by simp [member, hiff]⟩
    · obtain ⟨n', hn', hm'⟩ := ofMember_reread hwc
      have hiff' := FilterAst.ofJson_reread_iff b wc hwc
      rw [hn', Option.some.injEq] at hiff'
      refine ⟨{ usingClause := some n, checkClause := some n' }, ofJson_object hm hm', ?_⟩
      simp only [Policy.mk.injEq, Option.some.injEq, hiff, hiff', Option.all_some,
        Bool.and_eq_true, member, List.cons_append, List.nil_append, List.cons.injEq,
        Prod.mk.injEq, true_and, and_true]
      tauto

end Reread

/-- A policy that was decoded has plain clauses. -/
theorem plain_of_ofJson {v : Json} {p : Policy} (h : ofJson v = some p) : p.plain = true := by
  have hmember : ∀ {o : Option Json} {clause : Option FilterAst}, ofMember o = some clause →
      clause.all FilterAst.plain = true := by
    intro o clause h
    unfold ofMember at h
    split at h
    · obtain rfl := Option.some.inj h
      rfl
    · obtain rfl := Option.some.inj h
      rfl
    · next v _ =>
      obtain ⟨n, hn, rfl⟩ := Option.map_eq_some_iff.mp h
      exact (FilterAst.plain_of_ofJson v).1 n hn
  cases v with
  | object kvs =>
    obtain ⟨u, hu, h⟩ := Option.bind_eq_some_iff.mp h
    obtain ⟨c, hc, h⟩ := Option.bind_eq_some_iff.mp h
    obtain rfl := Option.some.inj h
    rw [plain, hmember hu, hmember hc]
    rfl
  | _ => cases h

end Policy

/-! ### The columns -/

namespace StoredPolicies

/-- How deeply the parser of the texts lets them be nested. -/
def recursionLimit : Nat := 128

/-- Parse the text of a policy, given as the value that was printed. -/
def parsePolicy (reread : Binary64 → Option Binary64) (text : Json) : Option Policy :=
  (Json.readBack reread recursionLimit text).bind Policy.ofJson

/-- The column of an operation; `none` is `NULL`. -/
def column (ps : CollectionPolicies) (op : DmlVerb) : Option Json :=
  (ps.get op).map Policy.toJson

def anyColumn (ps : CollectionPolicies) : Bool :=
  (column ps .select).isSome || (column ps .insert).isSome || (column ps .update).isSome ||
    (column ps .delete).isSome

section Readers

variable (rd : Reading) (c : Catalog) (coll : String)

/-- The four texts, and what they parse to. A query that fails, a missing row, a `NULL` and a
text that does not parse all read as no policy. -/
def readPolicies : Except SqlError CollectionPolicies :=
  let row := (queryRow rd .policies
    ((c.metas.lookup coll).map fun m => column m.policies)).toOption
  let parse (op : DmlVerb) : Option Policy :=
    (row.bind fun columns => columns op).bind (parsePolicy rd.reread)
  .ok {
    select := parse .select
    insert := parse .insert
    update := parse .update
    delete := parse .delete }

def collectionHasPolicy : Except SqlError Bool := do
  let p ← readPolicies rd c coll
  .ok (p.select.isSome || p.insert.isSome || p.update.isSome || p.delete.isSome)

/-- The columns alone are looked at. -/
def tenantHasProtectedCollection : Bool :=
  c.metas.entries.any fun e => e.2.ownerField.isSome || anyColumn e.2.policies

end Readers

variable {rd : Reading} {c : Catalog} {coll : String}

/-- The text of the policy reads back as the policy. -/
structure Readable (reread : Binary64 → Option Binary64) (p : Policy) : Prop where
  plain : p.plain = true
  nesting : p.toJson.nesting < recursionLimit
  doubles : p.toJson.reread reread = some p.toJson

theorem parsePolicy_eq_some_iff {f : Binary64 → Option Binary64} (p : Policy) :
    parsePolicy f p.toJson = some p ↔ Readable f p := by
  unfold parsePolicy
  rw [Option.bind_eq_some_iff]
  constructor
  · rintro ⟨w, hw, hp⟩
    obtain ⟨hnesting, hreread⟩ := Json.readBack_eq_some_iff.mp hw
    obtain ⟨q, hq, hiff⟩ := Policy.ofJson_reread p hreread
    rw [hp] at hq
    obtain ⟨hplain, rfl⟩ := hiff.mp (Option.some.inj hq).symm
    exact ⟨hplain, hnesting, hreread⟩
  · rintro ⟨hplain, hnesting, hreread⟩
    refine ⟨p.toJson, Json.readBack_eq_some_iff.mpr ⟨hnesting, hreread⟩, ?_⟩
    obtain ⟨q, hq, hiff⟩ := Policy.ofJson_reread p hreread
    rw [hq, hiff.mpr ⟨hplain, rfl⟩]

/-- What can be parsed is a policy, so a text reads as none only when it cannot be parsed. -/
theorem parsePolicy_eq_none_iff {f : Binary64 → Option Binary64} (p : Policy) :
    parsePolicy f p.toJson = none ↔
      recursionLimit ≤ p.toJson.nesting ∨ p.toJson.reread f = none := by
  rw [← Json.readBack_eq_none_iff]
  unfold parsePolicy
  cases hread : Json.readBack f recursionLimit p.toJson with
  | none => simp
  | some w =>
    obtain ⟨q, hq, -⟩ := Policy.ofJson_reread p (Json.readBack_eq_some_iff.mp hread).2
    simp [hq]

/-- A read that succeeds parses the four columns. -/
theorem readPolicies_get (rd : Reading) (c : Catalog) (coll : String) :
    ∃ ps, readPolicies rd c coll = .ok ps ∧ ∀ op, ps.get op =
      if rd.fails .policies then none
      else ((c.row coll).policies.get op).bind fun p => parsePolicy rd.reread p.toJson := by
  refine ⟨_, rfl, fun op => ?_⟩
  have hcolumn : ∀ op : DmlVerb, (((queryRow rd .policies
      ((c.metas.lookup coll).map fun m => column m.policies)).toOption).bind
        fun columns => columns op).bind (parsePolicy rd.reread)
      = if rd.fails .policies then none
        else ((c.row coll).policies.get op).bind fun p => parsePolicy rd.reread p.toJson := by
    intro op
    rw [queryRow, Catalog.row]
    cases rd.fails .policies with
    | true => rfl
    | false =>
      cases c.metas.lookup coll with
      | none => cases op <;> rfl
      | some m =>
        show (column m.policies op).bind (parsePolicy rd.reread) = _
        rw [column, Option.bind_map]
        rfl
  cases op with
  | select => exact hcolumn .select
  | insert => exact hcolumn .insert
  | update => exact hcolumn .update
  | delete => exact hcolumn .delete

/-- What is read of the column that was written last. -/
theorem readPolicies_writePolicy (rd : Reading) (c : Catalog) (coll : String) (op : DmlVerb)
    (p : Policy) :
    ∃ ps, readPolicies rd (c.writePolicy coll op (some p)) coll = .ok ps ∧
      ps.get op = if rd.fails .policies then none else parsePolicy rd.reread p.toJson := by
  obtain ⟨ps, hps, hget⟩ := readPolicies_get rd (c.writePolicy coll op (some p)) coll
  refine ⟨ps, hps, ?_⟩
  rw [hget, Catalog.writePolicy, Catalog.row_upsertMeta, Function.update_self,
    CollectionPolicies.get_set, if_pos rfl]
  rfl

/-! ### Tenants whose policies read back -/

/-- Every stored policy reads back. -/
def AllReadable (rd : Reading) (c : Catalog) : Prop :=
  ∀ coll op p, (c.row coll).policies.get op = some p → Readable rd.reread p

/-- A write of one column. -/
structure PolicyWrite where
  coll : String
  op : DmlVerb
  policy : Option Policy

def PolicyWrite.run (c : Catalog) (w : PolicyWrite) : Catalog :=
  c.writePolicy w.coll w.op w.policy

theorem AllReadable.write (h : AllReadable rd c) {w : PolicyWrite}
    (hw : ∀ p, w.policy = some p → Readable rd.reread p) : AllReadable rd (w.run c) := by
  intro coll op p hp
  rw [PolicyWrite.run, Catalog.writePolicy, Catalog.row_upsertMeta] at hp
  obtain rfl | hne := eq_or_ne coll w.coll
  · rw [Function.update_self, CollectionPolicies.get_set] at hp
    split at hp
    · exact hw p hp
    · exact h w.coll op p hp
  · rw [Function.update_of_ne hne] at hp
    exact h coll op p hp

/-- After any writes of policies that read back. -/
theorem AllReadable.writes {ws : List PolicyWrite}
    (hws : ∀ w ∈ ws, ∀ p, w.policy = some p → Readable rd.reread p) :
    ∀ {c : Catalog}, AllReadable rd c → AllReadable rd (ws.foldl PolicyWrite.run c) := by
  induction ws with
  | nil => exact fun h => h
  | cons w ws ih =>
    intro c h
    rw [List.foldl_cons]
    exact ih (fun w' hw' => hws w' (List.mem_cons_of_mem _ hw'))
      (h.write (hws w List.mem_cons_self))

/-- What is read is what is stored. -/
theorem AllReadable.readPolicies (h : AllReadable rd c) (hquery : rd.fails .policies = false)
    (coll : String) : readPolicies rd c coll = .ok (c.row coll).policies := by
  obtain ⟨ps, hps, hget⟩ := readPolicies_get rd c coll
  rw [hps]
  refine congrArg Except.ok (CollectionPolicies.ext_get fun op => ?_)
  rw [hget, hquery]
  cases hp : (c.row coll).policies.get op with
  | none => rfl
  | some p => exact (parsePolicy_eq_some_iff p).mpr (h coll op p hp)

theorem anyColumn_eq (ps : CollectionPolicies) :
    anyColumn ps = (ps.select.isSome || ps.insert.isSome || ps.update.isSome ||
      ps.delete.isSome) := by
  simp only [anyColumn, column, Option.isSome_map]
  rfl

theorem AllReadable.collectionHasPolicy (h : AllReadable rd c)
    (hquery : rd.fails .policies = false) (coll : String) :
    collectionHasPolicy rd c coll = .ok (anyColumn (c.row coll).policies) := by
  rw [StoredPolicies.collectionHasPolicy, h.readPolicies hquery, anyColumn_eq]
  rfl

/-- The tenant has a protected collection when one of them is. -/
theorem tenantHasProtectedCollection_iff (c : Catalog) :
    tenantHasProtectedCollection c = true ↔
      ∃ coll, (c.row coll).ownerField.isSome = true ∨ anyColumn (c.row coll).policies = true := by
  unfold tenantHasProtectedCollection
  rw [List.any_eq_true]
  constructor
  · rintro ⟨e, he, hprotected⟩
    have hlookup : c.metas.lookup e.1 = some e.2 := AList.mem_lookup_iff.mpr he
    refine ⟨e.1, ?_⟩
    rw [Catalog.row, hlookup]
    exact Bool.or_eq_true .. ▸ hprotected
  · rintro ⟨coll, hprotected⟩
    rw [Catalog.row] at hprotected
    cases hlookup : c.metas.lookup coll with
    | none =>
      rw [hlookup] at hprotected
      obtain h | h := hprotected
      · cases h
      · cases h
    | some m =>
      rw [hlookup] at hprotected
      refine ⟨⟨coll, m⟩, AList.mem_lookup_iff.mp hlookup, ?_⟩
      exact (Bool.or_eq_true _ _).mpr hprotected

/-- The readings of the catalog that `describeCollection` makes: the text of a column is
malformed when it does not parse. -/
def MalformedAgrees (rd : Reading) (c : Catalog) (coll : String) : Prop :=
  ∀ op p, (c.row coll).policies.get op = some p →
    (rd.malformed (.policy op) = true ↔ parsePolicy rd.reread p.toJson = none)

/-- A description has the stored policies. -/
theorem AllReadable.describe (h : AllReadable rd c) (hquery : rd.fails .policies = false)
    {coll : String} (hmalformed : MalformedAgrees rd c coll) {d : CollectionDescription}
    (hd : describeCollection rd c coll = .ok (some d)) : d.policies = (c.row coll).policies := by
  obtain ⟨t, -, hdescribes⟩ := exists_table_of_describeCollection hd
  have hpolicies := hdescribes.policies
  rw [Drust.readPolicies, queryRow, hquery] at hpolicies
  have hrow : ((if (false : Bool) = true then Except.error SqlError.sqliteFailure
      else ((c.metas.lookup coll).map CollectionMeta.policies).elim
        (.error .queryReturnedNoRows) .ok).toOption).getD {} = (c.row coll).policies := by
    rw [Catalog.row]
    cases c.metas.lookup coll <;> rfl
  rw [hrow] at hpolicies
  have hkept : ∀ op, (if rd.malformed (.policy op) then none else (c.row coll).policies.get op)
      = (c.row coll).policies.get op := by
    intro op
    cases hp : (c.row coll).policies.get op with
    | none => exact ite_self _
    | some p =>
      have hsome := (parsePolicy_eq_some_iff p).mpr (h coll op p hp)
      have hfalse : ¬ rd.malformed (.policy op) = true := by
        rw [hmalformed op p hp, hsome]
        exact Option.some_ne_none p
      rw [if_neg hfalse]
  refine CollectionPolicies.ext_get fun op => ?_
  rw [← Except.ok.inj hpolicies, ← hkept op]
  cases op <;> rfl

/-! ### Reading back -/

/-- A stored policy reads back as itself exactly when the query does not fail and its text can
be read: it is not nested too deeply, no double in it changes, and no leaf of it is taken for
a boolean node, which no policy that was decoded has. A column that is not `NULL` reads as no
policy exactly when the query fails or the text cannot be parsed. Over any writes of policies
that read back, the readers agree on what is protected. -/
theorem storedPolicies_readBack (rd : Reading) :
    (∀ (c : Catalog) coll op (p : Policy),
      (∃ ps, readPolicies rd (c.writePolicy coll op (some p)) coll = .ok ps ∧
        ps.get op = some p) ↔ rd.fails .policies = false ∧ Readable rd.reread p) ∧
    (∀ (c : Catalog) coll op (p : Policy),
      (∃ ps, readPolicies rd (c.writePolicy coll op (some p)) coll = .ok ps ∧
        ps.get op = none) ↔ rd.fails .policies = true ∨
          recursionLimit ≤ p.toJson.nesting ∨ p.toJson.reread rd.reread = none) ∧
    (∀ v (p : Policy), Policy.ofJson v = some p → p.plain = true) ∧
    ∀ (c : Catalog) (ws : List PolicyWrite), rd.fails .policies = false → AllReadable rd c →
      (∀ w ∈ ws, ∀ p, w.policy = some p → Readable rd.reread p) →
      let c' := ws.foldl PolicyWrite.run c
      (∀ coll, readPolicies rd c' coll = .ok (c'.row coll).policies ∧
        collectionHasPolicy rd c' coll = .ok (anyColumn (c'.row coll).policies) ∧
        ∀ d, MalformedAgrees rd c' coll → describeCollection rd c' coll = .ok (some d) →
          d.policies = (c'.row coll).policies) ∧
      (tenantHasProtectedCollection c' = true ↔
        ∃ coll, (c'.row coll).ownerField.isSome = true ∨
          collectionHasPolicy rd c' coll = .ok true) := by
  refine ⟨?_, ?_, fun v p => Policy.plain_of_ofJson, ?_⟩
  · intro c coll op p
    obtain ⟨ps, hps, hget⟩ := readPolicies_writePolicy rd c coll op p
    rw [← parsePolicy_eq_some_iff]
    simp only [hps, Except.ok.injEq, exists_eq_left', hget]
    cases rd.fails .policies <;> simp
  · intro c coll op p
    obtain ⟨ps, hps, hget⟩ := readPolicies_writePolicy rd c coll op p
    rw [← parsePolicy_eq_none_iff]
    simp only [hps, Except.ok.injEq, exists_eq_left', hget]
    cases rd.fails .policies <;> simp
  · intro c ws hquery hc hws c'
    have hall : AllReadable rd c' := AllReadable.writes hws hc
    refine ⟨fun coll => ⟨hall.readPolicies hquery coll, hall.collectionHasPolicy hquery coll,
      fun d hmalformed hd => hall.describe hquery hmalformed hd⟩, ?_⟩
    rw [tenantHasProtectedCollection_iff]
    simp only [hall.collectionHasPolicy hquery, Except.ok.injEq]

/-- Only the public posts may be read. -/
def publicOnly : Policy where
  usingClause := some (.leaf [("visibility", .string "public")])

def emptyCatalog : Catalog where
  tables := ∅
  metas := ∅

theorem storedPolicies_readBack_publicOnly :
    let rd := SchemaTools.plainEnv.reading
    let c' := [PolicyWrite.mk "posts" .select (some publicOnly)].foldl PolicyWrite.run emptyCatalog
    (∃ ps, readPolicies rd c' "posts" = .ok ps ∧ ps.get .select = some publicOnly) ∧
      collectionHasPolicy rd c' "posts" = .ok true ∧ tenantHasProtectedCollection c' = true := by
  intro rd c'
  have hreadable : Readable rd.reread publicOnly := ⟨by decide, by decide, rfl⟩
  obtain ⟨hreads, -, -, hagree⟩ := storedPolicies_readBack rd
  obtain ⟨hcolls, htenant⟩ := hagree emptyCatalog
    [PolicyWrite.mk "posts" .select (some publicOnly)] rfl
    (by
      intro coll op p hp
      cases op <;> cases hp)
    (by
      intro w hw p hp
      rw [List.mem_singleton.mp hw] at hp
      rw [← Option.some.inj hp]
      exact hreadable)
  have hprotected : collectionHasPolicy rd c' "posts" = .ok true := (hcolls "posts").2.1
  exact ⟨(hreads emptyCatalog "posts" .select publicOnly).mpr ⟨rfl, hreadable⟩, hprotected,
    htenant.mpr ⟨"posts", .inr hprotected⟩⟩

/-! ### A policy that reads as none -/

/-- Arrays inside one another. -/
def nestedArrays : Nat → Json
  | 0 => .null
  | n + 1 => .array [nestedArrays n]

theorem nesting_nestedArrays (n : Nat) : (nestedArrays n).nesting = n := by
  induction n with
  | zero => rfl
  | succ n ih => rw [nestedArrays, Json.nesting, Json.nestingElems, Json.nestingElems, ih,
      Nat.max_zero]

theorem reread_nestedArrays (n : Nat) : (nestedArrays n).reread some = some (nestedArrays n) := by
  induction n with
  | zero => rfl
  | succ n ih => rw [nestedArrays, Json.reread, Json.rereadElems, ih, Json.rereadElems,
      Option.map_some]

/-- A clause that compares a column with a value that no row has. -/
def deepClause : FilterAst :=
  .leaf [("title", nestedArrays 126)]

def titles : CollectionSchema where
  name := "posts"
  fields := [{ name := "title", sqlType := "TEXT" }]

/-- A collection whose only policy cannot be parsed has none. -/
theorem readPolicies_unreadable (hquery : rd.fails .policies = false) {p : Policy}
    (hstored : (c.row coll).policies = { select := some p })
    (hnone : parsePolicy rd.reread p.toJson = none) : readPolicies rd c coll = .ok {} := by
  obtain ⟨ps, hps, hget⟩ := readPolicies_get rd c coll
  rw [hps]
  refine congrArg Except.ok (CollectionPolicies.ext_get fun op => ?_)
  rw [hget, hstored, hquery]
  cases op with
  | select => exact hnone
  | insert => rfl
  | update => rfl
  | delete => rfl

/-- The clause can be sent as a text of its own and the policy is valid. It is stored, and the
collection has no policy, although the tenant has a protected collection. -/
theorem deepClause_reads_as_none :
    let rd := SchemaTools.plainEnv.reading
    let p : Policy := { usingClause := some deepClause }
    let c' := emptyCatalog.writePolicy "posts" .select (some p)
    (Json.readBack rd.reread recursionLimit deepClause.toJson).bind FilterAst.ofJson
        = some deepClause ∧
      Policy.validatePolicy titles .select p = .ok () ∧
      (∃ ps, readPolicies rd c' "posts" = .ok ps ∧ ps.get .select = none) ∧
      collectionHasPolicy rd c' "posts" = .ok false ∧ tenantHasProtectedCollection c' = true := by
  intro rd p c'
  have hclause : deepClause.toJson.reread some = some deepClause.toJson := by
    rw [deepClause, FilterAst.toJson, Json.reread, Json.rereadMembers, reread_nestedArrays,
      Json.rereadMembers, Option.map_some]
  have hnesting : deepClause.toJson.nesting = 127 := by
    rw [deepClause, FilterAst.toJson, Json.nesting, Json.nestingMembers, nesting_nestedArrays,
      Json.nestingMembers]
    rfl
  -- the policy is one level deeper than its clause
  have hnone : parsePolicy some p.toJson = none := by
    rw [parsePolicy_eq_none_iff]
    refine .inl ?_
    show 128 ≤ Json.nestingMembers [("using", deepClause.toJson)] + 1
    rw [Json.nestingMembers, hnesting]
    decide
  have hstored : (c'.row "posts").policies = { select := some p } := by
    show ((emptyCatalog.upsertMeta "posts" _).row "posts").policies = _
    rw [Catalog.row_upsertMeta, Function.update_self]
    rfl
  have hps : readPolicies rd c' "posts" = .ok {} := readPolicies_unreadable rfl hstored hnone
  refine ⟨?_, rfl, ⟨_, hps, rfl⟩, ?_, rfl⟩
  · have hread : Json.readBack some recursionLimit deepClause.toJson = some deepClause.toJson :=
      Json.readBack_eq_some_iff.mpr ⟨by rw [hnesting]; decide, hclause⟩
    show (Json.readBack some recursionLimit deepClause.toJson).bind _ = _
    rw [hread, Option.bind_some]
    exact FilterAst.ofJson_leaf_iff.mpr ⟨rfl, rfl⟩
  · rw [collectionHasPolicy, hps]
    rfl

end StoredPolicies

end Drust
