import Drust.Lib.Result
import Drust.Query.VectorFilter

/-!
# Filters that compile

When a filter compiles, said along the tree: a boolean node does when it is not too deep and its
children do, a leaf when its column or its full-text operand is known. Facts about filters that
compile go by induction over these conditions (`compile_induction`), and do not unfold the
compiler.
-/

namespace Drust.VectorFilter

open Sql

variable {schema : CollectionSchema} {depth : Nat}

/-- The filter compiles at a depth. -/
def Compiles (schema : CollectionSchema) (n : FilterAst) (depth : Nat) : Prop :=
  ∃ p, compileNode schema n depth = .ok p

theorem compileNodes_ok_iff {ns : List FilterAst} :
    (∃ parts, compileNodes schema ns depth = .ok parts) ↔ ∀ n ∈ ns, Compiles schema n depth := by
  induction ns with
  | nil => exact iff_of_true ⟨[], rfl⟩ (List.forall_mem_nil _)
  | cons n ns ih =>
    rw [List.forall_mem_cons, ← ih]
    constructor
    · rintro ⟨parts, h⟩
      rw [compileNodes] at h
      obtain ⟨part, hpart, h⟩ := Except.bind_eq_ok_iff.mp h
      obtain ⟨rest, hrest, -⟩ := Except.bind_eq_ok_iff.mp h
      exact ⟨⟨part, hpart⟩, rest, hrest⟩
    · rintro ⟨⟨part, hpart⟩, rest, hrest⟩
      refine ⟨part :: rest, ?_⟩
      rw [compileNodes, hpart, Except.ok_bind, hrest]
      rfl

/-- A node that puts together what its children compile to. -/
theorem bind_compileNodes_ok_iff {ns : List FilterAst} {f : List Compiled → Compiled} :
    (∃ p, (compileNodes schema ns depth >>= fun parts => .ok (f parts)) = .ok p) ↔
      ∀ n ∈ ns, Compiles schema n depth := by
  rw [← compileNodes_ok_iff]
  constructor
  · rintro ⟨p, h⟩
    obtain ⟨parts, hparts, -⟩ := Except.bind_eq_ok_iff.mp h
    exact ⟨parts, hparts⟩
  · rintro ⟨parts, hparts⟩
    exact ⟨f parts, Except.bind_eq_ok_iff.mpr ⟨parts, hparts, rfl⟩⟩

/-- Every node is refused that is too deep. -/
theorem guarded_ok_iff {e : FilterError} {x : Except FilterError Compiled} :
    (∃ p, (if maxFilterDepth ≤ depth then .error e else x) = .ok p) ↔
      depth < maxFilterDepth ∧ ∃ p, x = .ok p := by
  by_cases hdepth : maxFilterDepth ≤ depth
  · rw [if_pos hdepth]
    exact iff_of_false (by simp) fun h => absurd h.1 (not_lt.mpr hdepth)
  · rw [if_neg hdepth, and_iff_right (not_le.mp hdepth)]

theorem compiles_and_iff {ns : List FilterAst} :
    Compiles schema (.and ns) depth ↔
      depth < maxFilterDepth ∧ ∀ n ∈ ns, Compiles schema n (depth + 1) := by
  rw [Compiles, compileNode.eq_def, guarded_ok_iff]
  refine and_congr_right fun _ => ?_
  -- a connective of nothing is a constant
  cases ns with
  | nil => exact iff_of_true ⟨_, rfl⟩ (List.forall_mem_nil _)
  | cons n ns => exact bind_compileNodes_ok_iff

theorem compiles_or_iff {ns : List FilterAst} :
    Compiles schema (.or ns) depth ↔
      depth < maxFilterDepth ∧ ∀ n ∈ ns, Compiles schema n (depth + 1) := by
  rw [Compiles, compileNode.eq_def, guarded_ok_iff]
  refine and_congr_right fun _ => ?_
  -- a connective of nothing is a constant
  cases ns with
  | nil => exact iff_of_true ⟨_, rfl⟩ (List.forall_mem_nil _)
  | cons n ns => exact bind_compileNodes_ok_iff

theorem compiles_not_iff {n : FilterAst} :
    Compiles schema (.not n) depth ↔
      depth < maxFilterDepth ∧ Compiles schema n (depth + 1) := by
  rw [Compiles, compileNode.eq_def, guarded_ok_iff]
  refine and_congr_right fun _ => ?_
  constructor
  · rintro ⟨p, h⟩
    obtain ⟨inner, hinner, -⟩ := Except.bind_eq_ok_iff.mp h
    exact ⟨inner, hinner⟩
  · rintro ⟨inner, hinner⟩
    exact ⟨_, Except.bind_eq_ok_iff.mpr ⟨inner, hinner, rfl⟩⟩

theorem compileFts_ok_iff {body : Json} :
    (∃ p, compileFts schema body = .ok p) ↔
      ∃ entry query, resolveFts schema body = .ok (entry, query) := by
  unfold compileFts
  constructor
  · rintro ⟨p, h⟩
    obtain ⟨⟨entry, query⟩, hresolve, -⟩ := Except.bind_eq_ok_iff.mp h
    exact ⟨entry, query, hresolve⟩
  · rintro ⟨entry, query, hresolve⟩
    rw [hresolve, Except.ok_bind]
    simp only
    split <;> exact ⟨_, rfl⟩

/-- A leaf on a column, or with a full-text operand. -/
def LeafCompiles (schema : CollectionSchema) (key : String) (body : Json) : Prop :=
  if key = "$fts" then ∃ entry query, resolveFts schema body = .ok (entry, query)
  else validateField schema key = .ok () ∧ ∃ p, compileLeaf key body = .ok p

theorem compiles_leaf_iff {obj : Json.Map} :
    Compiles schema (.leaf obj) depth ↔
      depth < maxFilterDepth ∧ ∃ key body, obj = [(key, body)] ∧ LeafCompiles schema key body := by
  rw [Compiles, compileNode.eq_def, guarded_ok_iff]
  refine and_congr_right fun _ => ?_
  -- a leaf has one member, and any other number of them is refused
  obtain _ | ⟨⟨key, body⟩, _ | _⟩ := obj
  · exact iff_of_false (by simp) (by simp)
  · have hone : (∃ key' body', [(key, body)] = [(key', body')] ∧ LeafCompiles schema key' body') ↔
        LeafCompiles schema key body := by
      constructor
      · rintro ⟨key', body', h, hleaf⟩
        obtain ⟨rfl, rfl⟩ := Prod.mk.inj (List.cons.inj h).1
        exact hleaf
      · intro hleaf
        exact ⟨key, body, rfl, hleaf⟩
    rw [hone, LeafCompiles]
    simp only
    split
    · exact compileFts_ok_iff
    · constructor
      · rintro ⟨p, h⟩
        obtain ⟨u, hvalid, h⟩ := Except.bind_eq_ok_iff.mp h
        exact ⟨hvalid, p, h⟩
      · rintro ⟨hvalid, p, h⟩
        exact ⟨p, Except.bind_eq_ok_iff.mpr ⟨(), hvalid, h⟩⟩
  · exact iff_of_false (by simp) (by simp)

/-- Induction over the filters that compile: what holds of the leaves that do and is kept by the
connectives holds of all of them. The depth is the one that a node is reached at. -/
theorem compile_induction {P : FilterAst → Nat → Prop}
    (hand : ∀ ns depth, depth < maxFilterDepth → (∀ n ∈ ns, P n (depth + 1)) → P (.and ns) depth)
    (hor : ∀ ns depth, depth < maxFilterDepth → (∀ n ∈ ns, P n (depth + 1)) → P (.or ns) depth)
    (hnot : ∀ n depth, depth < maxFilterDepth → P n (depth + 1) → P (.not n) depth)
    (hfts : ∀ body entry query depth, depth < maxFilterDepth →
      resolveFts schema body = .ok (entry, query) → P (.leaf [("$fts", body)]) depth)
    (hleaf : ∀ key body p depth, depth < maxFilterDepth → key ≠ "$fts" →
      validateField schema key = .ok () → compileLeaf key body = .ok p →
      P (.leaf [(key, body)]) depth)
    (n : FilterAst) : ∀ {depth}, Compiles schema n depth → P n depth := by
  induction n using FilterAst.induct with
  | and ns ih =>
    intro depth h
    obtain ⟨hdepth, hns⟩ := compiles_and_iff.mp h
    exact hand ns depth hdepth fun n hn => ih n hn (hns n hn)
  | or ns ih =>
    intro depth h
    obtain ⟨hdepth, hns⟩ := compiles_or_iff.mp h
    exact hor ns depth hdepth fun n hn => ih n hn (hns n hn)
  | not n ih =>
    intro depth h
    obtain ⟨hdepth, hn⟩ := compiles_not_iff.mp h
    exact hnot n depth hdepth (ih hn)
  | leaf obj =>
    intro depth h
    obtain ⟨hdepth, key, body, rfl, hcompiles⟩ := compiles_leaf_iff.mp h
    rw [LeafCompiles] at hcompiles
    split at hcompiles
    · next hkey =>
      obtain ⟨entry, query, hresolve⟩ := hcompiles
      rw [hkey]
      exact hfts body entry query depth hdepth hresolve
    · next hkey =>
      obtain ⟨hvalid, p, hp⟩ := hcompiles
      exact hleaf key body p depth hdepth hkey hvalid hp

/-! ### Leaves that compile -/

/-- The operand of a full-text search is an object of two strings, an index and a query. -/
theorem resolveFts_eq_ok_iff {body : Json} {entry : FtsIndex} {query : String} :
    resolveFts schema body = .ok (entry, query) ↔
      ∃ obj index, body = .object obj ∧ Json.Map.get obj "index" = some (.string index) ∧
        Json.Map.get obj "query" = some (.string query) ∧ obj.length = 2 ∧
        schema.ftsIndexes.find? (fun i => i.name == index) = some entry := by
  have hstring : ∀ {o : Option Json} {s : String}, o.bind Json.asStr = some s ↔
      o = some (.string s) := by
    intro o s
    cases o with
    | none => simp
    | some v => cases v <;> simp [Json.asStr]
  constructor
  · intro h
    unfold resolveFts at h
    split at h
    · next obj =>
      split at h
      · cases h
      · next index hindex =>
        split at h
        · cases h
        · next q hq =>
          split at h
          · cases h
          · next hlength =>
            split at h
            · cases h
            · next hfind =>
              obtain ⟨rfl, rfl⟩ := Prod.mk.inj (Except.ok.inj h)
              exact ⟨obj, index, rfl, hstring.mp hindex, hstring.mp hq, not_not.mp hlength, hfind⟩
    · cases h
  · rintro ⟨obj, index, rfl, hindex, hquery, hlength, hfind⟩
    simp [resolveFts, hindex, hquery, hlength, hfind, Json.asStr]

/-- The index of an operand that resolves is one of the schema. -/
theorem mem_ftsIndexes_of_resolveFts {body : Json} {entry : FtsIndex} {query : String}
    (h : resolveFts schema body = .ok (entry, query)) : entry ∈ schema.ftsIndexes := by
  obtain ⟨obj, index, -, -, -, -, hfind⟩ := resolveFts_eq_ok_iff.mp h
  exact List.mem_of_find?_eq_some hfind

theorem mem_columns_of_validateField {field : String} (h : validateField schema field = .ok ()) :
    field ∈ schema.columns := by
  unfold validateField at h
  split at h
  · cases h
  · split at h
    · cases h
    · next hany =>
      simp only [Bool.not_eq_true', Bool.not_eq_false, List.any_eq_true, beq_iff_eq] at hany
      obtain ⟨f, hf, rfl⟩ := hany
      exact List.mem_append_right _ (List.mem_map_of_mem hf)

end Drust.VectorFilter
