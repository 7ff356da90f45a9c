import Drust.Query.Inlined

/-!
# Probes and subqueries

A `MATCH` expression is only parsed when its statement runs, so a caller probes the ones of a
filter beforehand. The walk that collects them is not the compiler, and it does not look at the
text that the compiler emits. `matchSubqueries` does: it lists the full-text subqueries of a
statement with its values in place. For a filter that compiles the two lists are the same.
-/

namespace Drust

open Sql

/-! ### The subqueries of a statement -/

/-- A full-text subquery at this place: the virtual table, and the expression it is searched for. -/
def subqueryAt : List Filled → Option (String × Value)
  | .word "FROM" :: .ident head :: .word "WHERE" :: .ident subject :: .word "MATCH" :: .value v :: _ =>
    if head = subject then some (head, v) else none
  | _ => none

/-- The full-text subqueries, in order. -/
def matchSubqueries : List Filled → List (String × Value)
  | [] => []
  | f :: fs => (subqueryAt (f :: fs)).toList ++ matchSubqueries fs

/-- A token that no full-text subquery has between its table and its expression. -/
def Separates : Filled → Prop
  | .word w => w ≠ "FROM" ∧ w ≠ "WHERE" ∧ w ≠ "MATCH"
  | .ident _ => False
  | .value _ => False
  | _ => True

/-- The tokens from the table to the expression. -/
def subquery (q : String × Value) : List Filled :=
  [.word "FROM", .ident q.1, .word "WHERE", .ident q.1, .word "MATCH", .value q.2]

theorem subqueryAt_eq_some_iff {fs : List Filled} {q : String × Value} :
    subqueryAt fs = some q ↔ ∃ rest, fs = subquery q ++ rest := by
  constructor
  · intro h
    unfold subqueryAt at h
    split at h
    · next head subject v rest =>
      split at h
      · next hsubject =>
        subst hsubject
        obtain rfl := Option.some.inj h
        exact ⟨rest, rfl⟩
      · cases h
    · cases h
  · rintro ⟨rest, rfl⟩
    exact if_pos rfl

theorem Separates.not_mem_subquery {f : Filled} (hf : Separates f) (q : String × Value) :
    f ∉ subquery q := by
  intro h
  simp only [subquery, List.mem_cons, List.not_mem_nil, or_false] at h
  obtain rfl | rfl | rfl | rfl | rfl | rfl := h <;> simp [Separates] at hf

/-- What is behind a separator does not decide whether there is a subquery before it. -/
theorem subqueryAt_append {f : Filled} (hf : Separates f) (fs gs : List Filled) :
    subqueryAt (fs ++ f :: gs) = subqueryAt fs := by
  ext q
  rw [subqueryAt_eq_some_iff, subqueryAt_eq_some_iff]
  constructor
  · rintro ⟨rest, h⟩
    obtain ⟨mid, hq, hmid⟩ | ⟨mid, hfs, -⟩ := List.append_eq_append_iff.mp h
    · cases mid with
      | nil => exact ⟨[], by rw [hq, List.append_nil, List.append_nil]⟩
      | cons g mid =>
        -- the separator would stand inside of the subquery
        obtain ⟨rfl, -⟩ := List.cons.inj hmid
        exact absurd (hq ▸ List.mem_append_right fs List.mem_cons_self) (hf.not_mem_subquery q)
    · exact ⟨mid, hfs⟩
  · rintro ⟨rest, rfl⟩
    exact ⟨rest ++ f :: gs, List.append_assoc _ _ _⟩

theorem matchSubqueries_append {f : Filled} (hf : Separates f) (fs gs : List Filled) :
    matchSubqueries (fs ++ f :: gs) = matchSubqueries fs ++ matchSubqueries gs := by
  induction fs with
  | nil =>
    have hnone : subqueryAt (f :: gs) = none := subqueryAt_append hf [] gs
    simp only [List.nil_append, matchSubqueries, hnone, Option.toList_none]
  | cons g fs ih =>
    rw [List.cons_append, matchSubqueries, ih, ← List.cons_append, subqueryAt_append hf,
      matchSubqueries, List.append_assoc]

theorem matchSubqueries_eq_nil {fs : List Filled} (h : .word "FROM" ∉ fs) :
    matchSubqueries fs = [] := by
  induction fs with
  | nil => rfl
  | cons f fs ih =>
    rw [List.mem_cons, not_or] at h
    obtain ⟨hf, hfs⟩ := h
    have hnone : subqueryAt (f :: fs) = none := by
      rw [Option.eq_none_iff_forall_ne_some]
      intro q hq
      obtain ⟨rest, hrest⟩ := subqueryAt_eq_some_iff.mp hq
      exact hf (List.cons.inj hrest).1.symm
    rw [matchSubqueries, hnone, ih hfs]
    rfl

/-! ### Probes stand for subqueries -/

namespace VectorFilter

/-- The subquery that a probe stands for. -/
def FtsProbe.pair (p : FtsProbe) : String × Value := (p.head, .text p.query)

/-- The full-text subqueries of a condition are those of the probes, and `MATCH` is nowhere
else. -/
structure Probed (fs : List Filled) (ps : List FtsProbe) : Prop where
  subqueries : matchSubqueries fs = ps.map FtsProbe.pair
  count : fs.count (.word "MATCH") = ps.length

theorem Probed.of_not_mem {fs : List Filled} (hfrom : .word "FROM" ∉ fs)
    (hmatch : .word "MATCH" ∉ fs) : Probed fs [] :=
  ⟨matchSubqueries_eq_nil hfrom, List.count_eq_zero.mpr hmatch⟩

/-- A test of a column has no subquery. -/
theorem Probed.of_test {name : String} {fs : List Filled} (h : ∀ f ∈ fs, TestTok name f) :
    Probed fs [] := by
  refine .of_not_mem (fun hfrom => ?_) (fun hmatch => ?_)
  · exact absurd (h _ hfrom) (by simp [TestTok])
  · exact absurd (h _ hmatch) (by simp [TestTok])

theorem probed_truth (b : Bool) : Probed (truth b) [] :=
  .of_not_mem (by cases b <;> decide) (by cases b <;> decide)

/-- Two conditions with a separator between them. -/
theorem Probed.append {f : Filled} (hf : Separates f) {fs gs : List Filled} {ps qs : List FtsProbe}
    (hfs : Probed fs ps) (hgs : Probed gs qs) : Probed (fs ++ f :: gs) (ps ++ qs) := by
  have hne : (f == .word "MATCH") = false := by
    rw [beq_eq_false_iff_ne]
    rintro rfl
    exact hf.2.2 rfl
  refine ⟨?_, ?_⟩
  · rw [matchSubqueries_append hf, hfs.subqueries, hgs.subqueries, List.map_append]
  · rw [List.count_append, List.count_cons, hne, hfs.count, hgs.count, List.length_append]
    rfl

theorem probed_nil : Probed [] [] := ⟨rfl, rfl⟩

/-- A separator on either side of a condition. -/
theorem Probed.enclose {f g : Filled} (hf : Separates f) (hg : Separates g) {fs : List Filled}
    {ps : List FtsProbe} (h : Probed fs ps) : Probed (f :: fs ++ [g]) ps := by
  have hopen : Probed (f :: fs) ps := probed_nil.append hf h
  have hclose := hopen.append hg probed_nil
  rw [List.append_nil] at hclose
  exact hclose

/-- Conditions with a keyword between them. -/
theorem Probed.connected {kw : String} (hkw : Separates (.word kw)) {α : Type} {as : List α}
    {cond : α → List Filled} {probes : α → List FtsProbe}
    (h : ∀ a ∈ as, Probed (cond a) (probes a)) :
    Probed (Sql.connected kw (as.map cond)) (as.flatMap probes) := by
  refine Probed.enclose (f := .sym "(") (g := .sym ")") trivial trivial ?_
  induction as with
  | nil => exact probed_nil
  | cons a as ih =>
    obtain ⟨ha, has⟩ := List.forall_mem_cons.mp h
    cases as with
    | nil =>
      rw [List.flatMap_singleton]
      exact ha
    | cons b as =>
      rw [List.flatMap_cons]
      exact ha.append hkw (ih has)

theorem probed_matchQuery (head query : String) :
    Probed (matchQuery head query) [⟨head, query⟩] := by
  refine ⟨?_, ?_⟩
  · simp [matchQuery, matchSubqueries, subqueryAt, FtsProbe.pair]
  · simp [matchQuery]

/-- An operand that goes to `MATCH` has its probe, and one that goes to `LIKE` has none. -/
theorem probed_inlineFts {schema : CollectionSchema} {body : Json} {entry : FtsIndex}
    {query : String} (h : resolveFts schema body = .ok (entry, query)) :
    Probed (inlineFts schema body) (ftsProbe schema body) := by
  simp only [inlineFts, ftsProbe, h]
  split
  · exact probed_matchQuery _ query
  · have hcontains : ∀ f ∈ entry.fields, Probed (contains query f) [] := by
      intro f _
      exact .of_not_mem (by simp [contains]) (by simp [contains])
    have hseparates : Separates (.word "OR") := by simp [Separates]
    have hors := Probed.connected hseparates hcontains
    rw [List.flatMap_eq_nil_iff.mpr fun _ _ => rfl] at hors
    exact hors

theorem collectFtsProbesAll_eq_flatMap (schema : CollectionSchema) (ns : List FilterAst)
    (depth : Nat) :
    collectFtsProbesAll schema ns depth = ns.flatMap (collectFtsProbes schema · depth) := by
  induction ns with
  | nil => rfl
  | cons n ns ih => rw [collectFtsProbesAll, ih, List.flatMap_cons]

/-- The two walks agree on a filter that compiles, at the depth it compiles at. -/
theorem probed_inlineNode {schema : CollectionSchema} {n : FilterAst} {depth : Nat} {p : Compiled}
    (h : compileNode schema n depth = .ok p) :
    Probed (inlineNode schema n) (collectFtsProbes schema n depth) := by
  refine compile_induction
    (P := fun n depth => Probed (inlineNode schema n) (collectFtsProbes schema n depth))
    ?_ ?_ ?_ ?_ ?_ n ⟨p, h⟩
  · intro ns depth hdepth ih
    rw [collectFtsProbes.eq_def, if_neg (not_le.mpr hdepth)]
    simp only [collectFtsProbesAll_eq_flatMap]
    cases ns with
    | nil => exact probed_truth true
    | cons n ns =>
      rw [inlineNode, inlineNodes_eq_map]
      exact .connected (by simp [Separates]) ih
  · intro ns depth hdepth ih
    rw [collectFtsProbes.eq_def, if_neg (not_le.mpr hdepth)]
    simp only [collectFtsProbesAll_eq_flatMap]
    cases ns with
    | nil => exact probed_truth false
    | cons n ns =>
      rw [inlineNode, inlineNodes_eq_map]
      exact .connected (by simp [Separates]) ih
  · intro n depth hdepth ih
    rw [collectFtsProbes.eq_def, if_neg (not_le.mpr hdepth), inlineNode]
    have hnot : Probed (.word "NOT" :: inlineNode schema n) (collectFtsProbes schema n (depth + 1)) :=
      probed_nil.append (by simp [Separates]) ih
    exact hnot.enclose (f := .sym "(") (g := .sym ")") trivial trivial
  · intro body entry query depth hdepth hresolve
    rw [collectFtsProbes.eq_def, if_neg (not_le.mpr hdepth), inlineNode, if_pos rfl]
    exact probed_inlineFts hresolve
  · intro key body p depth hdepth hkey _ _
    rw [collectFtsProbes.eq_def, if_neg (not_le.mpr hdepth), inlineNode, if_neg hkey]
    simp only [if_neg hkey]
    exact .of_test (testTok_inlineLeaf key body)

/-- The probes of a filter that compiles are its full-text subqueries, in the order of the text:
each has the virtual table of its subquery, and the expression bound at its placeholder. No
other part of the text has a `MATCH`, so an operand that goes to `LIKE` has no probe. -/
theorem ftsProbes_eq_matchSubqueries {schema : CollectionSchema} {ast : FilterAst} {p : Compiled}
    (h : compile schema ast = .ok p) :
    ∃ fs, inline (lex p.1) p.2 = some fs ∧
      matchSubqueries fs = (ftsProbes schema ast).map FtsProbe.pair ∧
      (lex p.1).count (.word "MATCH") = (ftsProbes schema ast).length := by
  have hspells := spells_compileNode ast h
  have hprobed := probed_inlineNode h
  refine ⟨inlineNode schema ast, hspells.inline_eq, hprobed.subqueries, ?_⟩
  rw [hspells.lexes.lex_eq, count_word_map_tok, hprobed.count]
  rfl

/-- Articles with a trigram index and a word index. -/
def articlesSchema : CollectionSchema where
  name := "articles"
  fields := [⟨"title", "TEXT"⟩, ⟨"body", "TEXT"⟩]
  ftsIndexes := [⟨"grams", ["title"], "trigram"⟩, ⟨"words", ["title", "body"], "unicode61"⟩]

/-- Three searches, of which the second is too short for the trigram index. -/
def articlesFilter : FilterAst :=
  .and [.leaf [("$fts", .object [("index", .string "grams"), ("query", .string "lean")])],
    .not (.leaf [("$fts", .object [("index", .string "grams"), ("query", .string "of")])]),
    .or [.leaf [("title", .string "MATCH")],
      .leaf [("$fts", .object [("index", .string "words"), ("query", .string "of")])]]]

def articlesSql : Compiled :=
  ("(\"id\" IN (SELECT rowid FROM \"_system_search_fts$articles$grams\" WHERE " ++
    "\"_system_search_fts$articles$grams\" MATCH ?) AND " ++
    "(NOT (\"title\" LIKE ? ESCAPE '\\')) AND (\"title\" = ? OR " ++
    "\"id\" IN (SELECT rowid FROM \"_system_search_fts$articles$words\" WHERE " ++
    "\"_system_search_fts$articles$words\" MATCH ?)))",
    [.text "lean", .text "%of%", .text "MATCH", .text "of"])

theorem ftsProbes_eq_matchSubqueries_articles :
    compile articlesSchema articlesFilter = .ok articlesSql ∧
      ∃ fs, inline (lex articlesSql.1) articlesSql.2 = some fs ∧
        matchSubqueries fs = [("_system_search_fts$articles$grams", .text "lean"),
          ("_system_search_fts$articles$words", .text "of")] := by
  have hcompile : compile articlesSchema articlesFilter = .ok articlesSql := by decide +kernel
  obtain ⟨fs, hfs, hsubqueries, -⟩ := ftsProbes_eq_matchSubqueries hcompile
  exact ⟨hcompile, fs, hfs, hsubqueries.trans (by decide +kernel)⟩

end VectorFilter

end Drust
