import Drust.Query.Aggregate
import Drust.Query.Inlined
import Drust.Query.PolicyColumns

/-!
# What the conditions of a statement are made of

The `WHERE` clause of a list request and of an aggregate request is pushed together from the
filter, the owner clause and the policy clause. With its values in place (`inlineWhere`) it is
made of fixed keywords and marks, of the values, and of quoted names that are known (`Name`): the
columns of the schema, its full-text indexes, the owner field, and the columns that the policy
was compiled for (`confined_where`). The text with placeholders spells it with its binds
(`spells_buildWhereClause`).
-/

namespace Drust

open Sql

/-- A policy fragment, with the clause that it was compiled from. -/
structure PolicyFragment where
  schema : CollectionSchema
  clause : FilterAst
  ctx : PolicyCtx
  sql : Compiled
  compiled : Policy.compilePolicyUsing schema clause ctx = .ok sql

namespace ListBuilder

/-! ### Conditions with their values in place -/

/-- The conditions: the filter, the owner clause, the policy clause. -/
def inlineConditions (schema : CollectionSchema) (filter : Option FilterAst)
    (owner : Option (String × String)) (policy : Option PolicyFragment) : List (List Filled) :=
  (filter.toList.map fun ast => .sym "(" :: VectorFilter.inlineNode schema ast ++ [.sym ")"]) ++
    (owner.toList.map fun (field, uid) => comparison field (.sym "=") (.text uid)) ++
    (policy.toList.map fun p => .sym "(" :: Policy.inlineNode p.ctx p.clause ++ [.sym ")"])

def inlineWhere (conditions : List (List Filled)) : List Filled :=
  if conditions.isEmpty then [] else .word "WHERE" :: sepBy (.word "AND") conditions

/-! ### Words, marks and names -/

/-- The keywords of the statements. -/
def keywords : List String :=
  ["SELECT", "FROM", "WHERE", "AND", "OR", "NOT", "IN", "IS", "NULL", "LIKE", "ESCAPE", "MATCH",
    "rowid", "GROUP", "ORDER", "BY", "ASC", "DESC", "LIMIT", "OFFSET", "AS", "COUNT", "SUM", "AVG",
    "MIN", "MAX"]

def marks : List String := ["(", ")", ",", "*", "=", "<>", ">", ">=", "<", "<="]

/-- The names in a statement. Those of the last kind are the names of results. -/
inductive Name (schema : CollectionSchema) (owner : Option (String × String))
    (policy : Option PolicyFragment) (results : Set String) : String → Prop
  | table : Name schema owner policy results schema.name
  | column {name : String} (h : name ∈ schema.columns) : Name schema owner policy results name
  | ftsHead {i : FtsIndex} (h : i ∈ schema.ftsIndexes) :
      Name schema owner policy results (ftsHeadName schema.name i.name)
  | ftsColumn {i : FtsIndex} {name : String} (h : i ∈ schema.ftsIndexes) (hname : name ∈ i.fields) :
      Name schema owner policy results name
  | ownerField {field uid : String} (h : owner = some (field, uid)) :
      Name schema owner policy results field
  | policyColumn {p : PolicyFragment} {name : String} (h : policy = some p)
      (hname : name ∈ p.schema.columns) : Name schema owner policy results name
  | result {name : String} (h : name ∈ results) : Name schema owner policy results name

/-- A value, fixed text, one of the names or one of the numbers. -/
def Confined (names : String → Prop) (numbers : List Nat) : Filled → Prop
  | .word w => w ∈ keywords
  | .ident name => names name
  | .str s => s = "\\"
  | .num digits => digits = "0" ∨ digits = "1" ∨ ∃ n ∈ numbers, digits = toString n
  | .sym s => s ∈ marks
  | .value _ => True

section Confined

variable {names : String → Prop} {numbers : List Nat}

theorem confined_keyword {w : String} (hw : w ∈ keywords) : Confined names numbers (.word w) := hw

/-- The tokens of a test of a column that is named. -/
theorem Confined.of_test {name : String} (hname : names name) :
    ∀ {f : Filled}, TestTok name f → Confined names numbers f
  | .word w, h => by
    have hwords : ∀ w ∈ ["LIKE", "NOT", "IN", "IS", "NULL"], w ∈ keywords := by decide
    exact hwords w h
  | .ident _, h => by
    obtain rfl := h
    exact hname
  | .num _, h => h.imp_right .inl
  | .sym s, h => by
    have hmarks : ∀ s ∈ ["(", ")", ",", "=", "<>", ">", ">=", "<", "<="], s ∈ marks := by decide
    exact hmarks s h
  | .value _, _ => trivial

theorem confined_truth (b : Bool) : ∀ f ∈ truth b, Confined names numbers f := by
  cases b <;> simp [truth, Confined, marks]

theorem confined_paren {fs : List Filled} (h : ∀ f ∈ fs, Confined names numbers f) :
    ∀ f ∈ .sym "(" :: fs ++ [.sym ")"], Confined names numbers f := by
  rw [List.forall_mem_append, List.forall_mem_cons]
  exact ⟨⟨by simp [Confined, marks], h⟩, by simp [Confined, marks]⟩

theorem confined_not {fs : List Filled} (h : ∀ f ∈ fs, Confined names numbers f) :
    ∀ f ∈ .sym "(" :: .word "NOT" :: fs ++ [.sym ")"], Confined names numbers f :=
  confined_paren (List.forall_mem_cons.mpr ⟨confined_keyword (by simp [keywords]), h⟩)

theorem confined_commas {fss : List (List Filled)}
    (h : ∀ fs ∈ fss, ∀ f ∈ fs, Confined names numbers f) :
    ∀ f ∈ sepBy (.sym ",") fss, Confined names numbers f :=
  forall_mem_sepBy (show "," ∈ marks by simp [marks]) h

theorem confined_nameList {ns : List String} (h : ∀ n ∈ ns, names n) :
    ∀ f ∈ nameList ns, Confined names numbers f := by
  refine confined_commas fun fs hfs => ?_
  obtain ⟨n, hn, rfl⟩ := List.mem_map.mp hfs
  exact List.forall_mem_singleton.mpr (h n hn)

theorem confined_connected {kw : String} (hkw : kw ∈ keywords) {fss : List (List Filled)}
    (h : ∀ fs ∈ fss, ∀ f ∈ fs, Confined names numbers f) :
    ∀ f ∈ connected kw fss, Confined names numbers f :=
  confined_paren (forall_mem_sepBy (confined_keyword hkw) h)

/-- Conditions of the children of a boolean node. -/
theorem confined_map_connected {kw : String} (hkw : kw ∈ keywords) {ns : List FilterAst}
    {inlineChild : FilterAst → List Filled}
    (ih : ∀ n ∈ ns, ∀ f ∈ inlineChild n, Confined names numbers f) :
    ∀ f ∈ connected kw (ns.map inlineChild), Confined names numbers f := by
  refine confined_connected hkw fun fs hfs => ?_
  obtain ⟨n, hn, rfl⟩ := List.mem_map.mp hfs
  exact ih n hn

section Filter

variable {schema : CollectionSchema} {p : Compiled}

theorem confined_matchQuery {head : String} (hid : names "id") (hhead : names head) (query : String) :
    ∀ f ∈ VectorFilter.matchQuery head query, Confined names numbers f := by
  simp [VectorFilter.matchQuery, Confined, keywords, marks, hid, hhead]

theorem confined_contains {field : String} (hfield : names field) (query : String) :
    ∀ f ∈ VectorFilter.contains query field, Confined names numbers f := by
  simp [VectorFilter.contains, Confined, keywords, hfield]

theorem confined_inlineFts (hcolumns : ∀ name ∈ schema.columns, names name)
    (hheads : ∀ i ∈ schema.ftsIndexes, names (ftsHeadName schema.name i.name))
    (hfields : ∀ i ∈ schema.ftsIndexes, ∀ name ∈ i.fields, names name) {body : Json}
    {entry : FtsIndex} {query : String} (h : VectorFilter.resolveFts schema body = .ok (entry, query)) :
    ∀ f ∈ VectorFilter.inlineFts schema body, Confined names numbers f := by
  have hentry := VectorFilter.mem_ftsIndexes_of_resolveFts h
  simp only [VectorFilter.inlineFts, h]
  -- a subquery on the index, or a search of its columns when the query is too short for it
  split
  · exact confined_matchQuery (hcolumns "id" (by simp [CollectionSchema.columns, systemColumns]))
      (hheads entry hentry) query
  · refine confined_connected (by simp [keywords]) fun fs hfs => ?_
    obtain ⟨name, hname, rfl⟩ := List.mem_map.mp hfs
    exact confined_contains (hfields entry hentry name hname) query

/-- The text of a filter names columns of the schema and its full-text indexes. -/
theorem confined_inlineNode (hcolumns : ∀ name ∈ schema.columns, names name)
    (hheads : ∀ i ∈ schema.ftsIndexes, names (ftsHeadName schema.name i.name))
    (hfields : ∀ i ∈ schema.ftsIndexes, ∀ name ∈ i.fields, names name) {n : FilterAst} {depth : Nat}
    (h : VectorFilter.compileNode schema n depth = .ok p) :
    ∀ f ∈ VectorFilter.inlineNode schema n, Confined names numbers f := by
  refine VectorFilter.compile_induction
    (P := fun n _ => ∀ f ∈ VectorFilter.inlineNode schema n, Confined names numbers f)
    ?_ ?_ ?_ ?_ ?_ n ⟨p, h⟩
  · rintro (_ | ⟨n, ns⟩) depth - ih
    · exact confined_truth true
    · rw [VectorFilter.inlineNode, VectorFilter.inlineNodes_eq_map]
      exact confined_map_connected (by simp [keywords]) ih
  · rintro (_ | ⟨n, ns⟩) depth - ih
    · exact confined_truth false
    · rw [VectorFilter.inlineNode, VectorFilter.inlineNodes_eq_map]
      exact confined_map_connected (by simp [keywords]) ih
  · intro n depth _ ih
    rw [VectorFilter.inlineNode]
    exact confined_not ih
  · intro body entry query depth _ hresolve
    rw [VectorFilter.inlineNode, if_pos rfl]
    exact confined_inlineFts hcolumns hheads hfields hresolve
  · intro key body p depth _ hkey hvalid _
    rw [VectorFilter.inlineNode, if_neg hkey]
    have hcolumn := hcolumns key (VectorFilter.mem_columns_of_validateField hvalid)
    exact fun f hf => .of_test hcolumn (VectorFilter.testTok_inlineLeaf key body f hf)

end Filter

section Policy

variable {ctx : PolicyCtx}

/-- The text of a clause names the columns that its leaves look at. -/
theorem confined_inlinePolicy (n : FilterAst) :
    (∀ kb ∈ Policy.leaves n, names kb.1) →
      ∀ f ∈ Policy.inlineNode ctx n, Confined names numbers f := by
  induction n using FilterAst.induct with
  | and ns ih =>
    intro hleaves
    cases ns with
    | nil => exact confined_truth true
    | cons n ns =>
      rw [Policy.inlineNode, Policy.inlineNodes_eq_map]
      exact confined_map_connected (by simp [keywords]) fun n hn =>
        ih n hn fun kb hkb => hleaves kb (Policy.mem_leavesAll hn hkb)
  | or ns ih =>
    intro hleaves
    cases ns with
    | nil => exact confined_truth false
    | cons n ns =>
      rw [Policy.inlineNode, Policy.inlineNodes_eq_map]
      exact confined_map_connected (by simp [keywords]) fun n hn =>
        ih n hn fun kb hkb => hleaves kb (Policy.mem_leavesAll hn hkb)
  | not n ih =>
    intro hleaves
    rw [Policy.inlineNode]
    exact confined_not (ih hleaves)
  | leaf obj =>
    intro hleaves
    -- only an object of one member is a leaf
    obtain _ | ⟨⟨key, body⟩, _ | _⟩ := obj
    · exact List.forall_mem_nil _
    · rw [Policy.inlineNode]
      split
      · exact confined_truth _
      · next hkey =>
        have hcolumn : names key := hleaves (key, body) (by simp [Policy.leaves, hkey])
        exact fun f hf => .of_test hcolumn (Policy.testTok_inlineLeaf key body ctx f hf)
    · exact List.forall_mem_nil _

end Policy

end Confined

/-! ### The `WHERE` clause -/

section Where

variable {schema : CollectionSchema} {owner : Option (String × String)}
  {policy : Option PolicyFragment} {results : Set String} {numbers : List Nat}

theorem spells_filterClause {filter : Option FilterAst} {user : List Compiled}
    (h : filterClause schema filter = .ok user) :
    List.Forall₂ Spells user
      (filter.toList.map fun ast => .sym "(" :: VectorFilter.inlineNode schema ast ++ [.sym ")"]) := by
  cases filter with
  | none =>
    rw [← Except.ok.inj h]
    exact .nil
  | some ast =>
    rw [filterClause] at h
    cases hcompile : VectorFilter.compile schema ast with
    | error e => simp [hcompile] at h
    | ok p =>
      simp only [hcompile] at h
      rw [← Except.ok.inj h]
      exact .cons (VectorFilter.spells_compileNode ast hcompile).paren .nil

theorem spells_ownerClause (owner : Option (String × String)) :
    List.Forall₂ Spells
      (match owner with
        | some (field, uid) => [(quoteIdent field ++ " = ?", [Value.text uid])]
        | none => [])
      (owner.toList.map fun (field, uid) => comparison field (.sym "=") (.text uid)) := by
  cases owner with
  | none => exact .nil
  | some o =>
    have heq := spells_comparison o.1 (.sym "=") (CmpOp.lexes_text .eq) rfl (.text o.2)
    simp only [String.append_assoc] at heq
    exact .cons heq .nil

theorem spells_policyClause (policy : Option PolicyFragment) :
    List.Forall₂ Spells
      (match policy.map PolicyFragment.sql with
        | some (frag, binds) => [("(" ++ frag ++ ")", binds)]
        | none => [])
      (policy.toList.map fun p => .sym "(" :: Policy.inlineNode p.ctx p.clause ++ [.sym ")"]) := by
  cases policy with
  | none => exact .nil
  | some p => exact .cons (Policy.spells_compileNode p.clause p.compiled).paren .nil

theorem spells_where {cs : List Compiled} {conditions : List (List Filled)}
    (h : List.Forall₂ Spells cs conditions) :
    Spells (if cs.isEmpty then "" else " WHERE " ++ join " AND " (cs.map Prod.fst),
        cs.flatMap Prod.snd) (inlineWhere conditions) ∧
      Delimited (if cs.isEmpty then "" else " WHERE " ++ join " AND " (cs.map Prod.fst)).toList := by
  cases h with
  | nil => exact ⟨spells_empty, trivial⟩
  | cons hc hcs =>
    refine ⟨?_, ?_⟩
    · exact Spells.after " WHERE " [.word "WHERE"] (fun _ => rfl) rfl
        (spells_join_word lexes_AND (.cons hc hcs))
    · rw [if_neg (by simp), String.toList_append]
      exact Or.inl rfl

/-- The clause, which follows the table. -/
theorem spells_buildWhereClause {filter : Option FilterAst} {c : Compiled}
    (h : buildWhereClause schema filter owner (policy.map PolicyFragment.sql) = .ok c) :
    Spells c (inlineWhere (inlineConditions schema filter owner policy)) ∧ Delimited c.1.toList := by
  unfold buildWhereClause at h
  obtain ⟨user, huser, h⟩ := Except.bind_eq_ok_iff.mp h
  -- the three lists of conditions, in the order in which their binds are pushed
  have hall := List.rel_append
    (List.rel_append (spells_filterClause huser) (spells_ownerClause owner))
    (spells_policyClause policy)
  rw [← Except.ok.inj h]
  exact spells_where hall

/-- The conditions name columns, full-text indexes, the owner field, and columns that the
policy was compiled for. -/
theorem confined_where {filter : Option FilterAst} {c : Compiled}
    (h : buildWhereClause schema filter owner (policy.map PolicyFragment.sql) = .ok c) :
    ∀ f ∈ inlineWhere (inlineConditions schema filter owner policy),
      Confined (Name schema owner policy results) numbers f := by
  unfold buildWhereClause at h
  obtain ⟨user, huser, -⟩ := Except.bind_eq_ok_iff.mp h
  have hall : ∀ fs ∈ inlineConditions schema filter owner policy, ∀ f ∈ fs,
      Confined (Name schema owner policy results) numbers f := by
    simp only [inlineConditions, List.forall_mem_append]
    -- the filter, the owner clause, the policy clause
    refine ⟨⟨?_, ?_⟩, ?_⟩
    · intro fs hfs
      obtain ⟨ast, hast, rfl⟩ := List.mem_map.mp hfs
      obtain rfl := Option.mem_toList.mp hast
      rw [filterClause] at huser
      cases hcompile : VectorFilter.compile schema ast with
      | error e => simp [hcompile] at huser
      | ok p =>
        exact confined_paren (confined_inlineNode (fun name h => .column h) (fun i h => .ftsHead h)
          (fun i h name hname => .ftsColumn h hname) hcompile)
    · intro fs hfs
      obtain ⟨⟨field, uid⟩, howner, rfl⟩ := List.mem_map.mp hfs
      exact fun f hf => .of_test (.ownerField (Option.mem_toList.mp howner))
        (testTok_comparison (testTok_cmpOp .eq) _ f hf)
    · intro fs hfs
      obtain ⟨p, hp, rfl⟩ := List.mem_map.mp hfs
      refine confined_paren (confined_inlinePolicy p.clause fun kb hkb => ?_)
      have hvalid := Policy.validateField_of_compilePolicyUsing p.compiled kb hkb
      exact .policyColumn (Option.mem_toList.mp hp) (Policy.mem_columns_of_validateField hvalid)
  unfold inlineWhere
  split
  · exact List.forall_mem_nil _
  · exact List.forall_mem_cons.mpr ⟨confined_keyword (by simp [keywords]),
      forall_mem_sepBy (confined_keyword (by simp [keywords])) hall⟩

end Where

end ListBuilder

end Drust
