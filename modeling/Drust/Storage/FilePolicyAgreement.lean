import Drust.Storage.FilePolicy

/-!
# The list of files and the decision on one file

The fragment of `buildFileListFilter` admits exactly the files that `authorizeFile`
admits for reading, for every registry of valid, distinct prefixes.

Each arm of the fragment is read on its own. The arm of a rule is true when the file is
under the rule's prefix, under none of the deeper ones, and the rule allows it
(`means_arm`); the last arm is true when the file is under no non-empty prefix, and the
root or the default allows it (`means_rootArm`). So an arm can only be true for the rule
that governs the file, which is what `longestMatch` returns (`governs_iff`). A `NULL` path
makes every range unknown, and an unknown never admits.
-/

namespace Drust

open Sql Kleene

namespace FileRow

variable (row : FileRow) (like : Value → Value → Tri)

theorem env_path : (row.env like).row "path" = some (optional row.path).toValue := rfl

theorem env_uploader : (row.env like).row "uploader" = some (.text row.uploader) := rfl

theorem get_path : (row.toMap.get "path").bind Json.asStr = row.path := by
  have hget : row.toMap.get "path" = some (optional row.path).toJson := rfl
  rw [hget]
  cases row.path <;> rfl

theorem get_uploader : (row.toMap.get "uploader").bind Json.asStr = some row.uploader := rfl

/-- Every column that a clause may name is there. -/
theorem isSome_env : ∀ f ∈ filePolicySchema.columns, ((row.env like).row f).isSome := by
  intro f hf
  fin_cases hf <;> rfl

end FileRow

/-! ### The governing rule -/

section MaxByKey

variable {α : Type} (key : α → Nat)

/-- The fold keeps the best element seen so far, and every element is compared with it. -/
theorem maxByKey_foldl_spec (xs : List α) (best : Option α) :
    (∀ m, xs.foldl (fun best x =>
        match best with
        | none => some x
        | some y => if key y ≤ key x then some x else some y) best = some m →
      (best = some m ∨ m ∈ xs) ∧ (∀ y, best = some y → key y ≤ key m) ∧
        ∀ x ∈ xs, key x ≤ key m) ∧
    (xs.foldl (fun best x =>
        match best with
        | none => some x
        | some y => if key y ≤ key x then some x else some y) best = none →
      best = none ∧ xs = []) := by
  induction xs generalizing best with
  | nil =>
    refine ⟨fun m h => ⟨.inl h, fun y hy => ?_, by simp⟩, fun h => ⟨h, rfl⟩⟩
    have hm : some y = some m := hy.symm.trans h
    rw [Option.some.inj hm]
  | cons x xs ih =>
    rw [List.foldl_cons]
    cases best with
    | none =>
      obtain ⟨hsome, hnone⟩ := ih (some x)
      refine ⟨fun m h => ?_, fun h => by simpa using (hnone h).1⟩
      obtain ⟨hmem, hbest, hall⟩ := hsome m h
      refine ⟨.inr ?_, by simp, List.forall_mem_cons.mpr ⟨hbest x rfl, hall⟩⟩
      obtain hx | hxs := hmem
      · rw [Option.some.inj hx]
        exact List.mem_cons_self ..
      · exact List.mem_cons_of_mem _ hxs
    | some y =>
      by_cases hle : key y ≤ key x
      · simp only [hle, if_true]
        obtain ⟨hsome, hnone⟩ := ih (some x)
        refine ⟨fun m h => ?_, fun h => by simpa using (hnone h).1⟩
        obtain ⟨hmem, hbest, hall⟩ := hsome m h
        refine ⟨.inr ?_, ?_, List.forall_mem_cons.mpr ⟨hbest x rfl, hall⟩⟩
        · obtain hx | hxs := hmem
          · rw [Option.some.inj hx]
            exact List.mem_cons_self ..
          · exact List.mem_cons_of_mem _ hxs
        · intro z hz
          rw [← Option.some.inj hz]
          exact hle.trans (hbest x rfl)
      · simp only [hle, if_false]
        obtain ⟨hsome, hnone⟩ := ih (some y)
        refine ⟨fun m h => ?_, fun h => by simpa using (hnone h).1⟩
        obtain ⟨hmem, hbest, hall⟩ := hsome m h
        refine ⟨hmem.imp_right (List.mem_cons_of_mem _), hbest,
          List.forall_mem_cons.mpr ⟨?_, hall⟩⟩
        have := hbest y rfl
        omega

theorem maxByKey_eq_some {xs : List α} {m : α} (h : maxByKey key xs = some m) :
    m ∈ xs ∧ ∀ x ∈ xs, key x ≤ key m := by
  obtain ⟨hmem, -, hall⟩ := (maxByKey_foldl_spec key xs none).1 m h
  exact ⟨hmem.resolve_left (by simp), hall⟩

theorem maxByKey_eq_none {xs : List α} (h : maxByKey key xs = none) : xs = [] :=
  ((maxByKey_foldl_spec key xs none).2 h).2

end MaxByKey

theorem isUnder_iff (pre path : String) : isUnder pre path = true ↔ utf8 pre <+: utf8 path := by
  rw [isUnder, List.isPrefixOf_iff_prefix]

theorem isUnder_empty (path : String) : isUnder "" path = true := by
  rw [isUnder_iff]
  exact List.nil_prefix

theorem mem_filedRules {policies : List FilePolicyRow} {p : FilePolicyRow} :
    p ∈ filedRules policies ↔ p ∈ policies ∧ p.pre ≠ "" := by
  rw [filedRules, List.mem_insertionSort, List.mem_filter, bne_iff_ne]

/-- A rule takes the file in the list: the file is under its prefix, and under none of the
deeper ones below it. -/
def Governs (filed : List FilePolicyRow) (path : Option String) (p : FilePolicyRow) : Prop :=
  ∃ s, path = some s ∧ isUnder p.pre s = true ∧
    ∀ q ∈ deeperRules filed p, isUnder q.pre s = false

section Governing

variable {policies : List FilePolicyRow} (hdistinct : (policies.map FilePolicyRow.pre).Nodup)

include hdistinct

/-- Two rules that a path is under, with prefixes of one length, are one rule. -/
theorem eq_of_isUnder {p q : FilePolicyRow} (hp : p ∈ policies) (hq : q ∈ policies) {s : String}
    (hps : isUnder p.pre s = true) (hqs : isUnder q.pre s = true) (hlen : p.len = q.len) :
    p = q := by
  rw [isUnder_iff] at hps hqs
  have hbytes : utf8 p.pre = utf8 q.pre := by
    rw [List.prefix_iff_eq_take.mp hps, List.prefix_iff_eq_take.mp hqs]
    exact congrArg (fun n => (utf8 s).take n) hlen
  exact List.inj_on_of_nodup_map hdistinct hp hq (utf8_injective hbytes)

/-- A rule with a non-empty prefix governs a file in the list exactly when it is the
longest match of the file's path. -/
theorem governs_iff (path : Option String) {p : FilePolicyRow} (hp : p ∈ filedRules policies) :
    Governs (filedRules policies) path p ↔ longestMatch policies path = some p := by
  obtain ⟨hmem, hne⟩ := mem_filedRules.mp hp
  cases path with
  | none =>
    constructor
    · rintro ⟨s, hs, -⟩
      cases hs
    · intro h
      have := List.find?_some h
      exact absurd (beq_iff_eq.mp this) hne
  | some s =>
    constructor
    · rintro ⟨s', hs, hunder, hdeeper⟩
      obtain rfl := Option.some.inj hs
      have hpm : p ∈ policies.filter (fun p => isUnder p.pre s) := List.mem_filter.mpr ⟨hmem, hunder⟩
      change maxByKey FilePolicyRow.len _ = some p
      cases hmax : maxByKey FilePolicyRow.len (policies.filter (fun p => isUnder p.pre s)) with
      | none =>
        rw [maxByKey_eq_none _ hmax] at hpm
        simp at hpm
      | some m =>
        obtain ⟨hmm, hall⟩ := maxByKey_eq_some _ hmax
        obtain ⟨hmpol, hmunder⟩ := List.mem_filter.mp hmm
        -- a longer match would be one of the deeper rules that the arm subtracts
        have hle := hall p hpm
        have hnot : ¬ p.len < m.len := by
          intro hlt
          have hmne : m.pre ≠ "" := by
            intro hempty
            rw [FilePolicyRow.len, FilePolicyRow.len, hempty] at hlt
            exact absurd hlt (by simp [utf8])
          have hbelow : isUnder p.pre m.pre = true := by
            rw [isUnder_iff] at hunder hmunder ⊢
            exact List.prefix_of_prefix_length_le hunder hmunder hle
          have hdeep : m ∈ deeperRules (filedRules policies) p := by
            refine List.mem_filter.mpr ⟨mem_filedRules.mpr ⟨hmpol, hmne⟩, ?_⟩
            rw [hbelow, Bool.and_true, decide_eq_true hlt]
          have := hdeeper m hdeep
          rw [hmunder] at this
          cases this
        have hlen : p.len = m.len := by omega
        rw [eq_of_isUnder hdistinct hmem hmpol hunder hmunder hlen]
    · intro h
      obtain ⟨hpm, hall⟩ := maxByKey_eq_some _ h
      refine ⟨s, rfl, (List.mem_filter.mp hpm).2, fun q hq => ?_⟩
      obtain ⟨hqf, hq⟩ := List.mem_filter.mp hq
      obtain ⟨hqpol, -⟩ := mem_filedRules.mp hqf
      rw [Bool.and_eq_true, decide_eq_true_iff] at hq
      by_contra hunder
      rw [Bool.not_eq_false] at hunder
      have hqm : q ∈ policies.filter (fun p => isUnder p.pre s) := List.mem_filter.mpr ⟨hqpol, hunder⟩
      exact absurd hq.1 (by have := hall q hqm; omega)

/-- Where a path is under no non-empty prefix the longest match is the root, if any. -/
theorem longestMatch_of_unmatched {path : Option String}
    (h : ∀ s, path = some s → ∀ q ∈ filedRules policies, isUnder q.pre s = false) :
    longestMatch policies path = policies.find? (fun p => p.pre == "") := by
  cases path with
  | none => rfl
  | some s =>
    have hroot : ∀ p ∈ policies, isUnder p.pre s = (p.pre == "") := by
      intro p hp
      by_cases hpre : p.pre = ""
      · rw [hpre, isUnder_empty]
        rfl
      · rw [h s rfl p (mem_filedRules.mpr ⟨hp, hpre⟩)]
        exact (beq_eq_false_iff_ne.mpr hpre).symm
    change maxByKey FilePolicyRow.len (policies.filter (fun p => isUnder p.pre s)) = _
    rw [List.filter_congr hroot]
    cases hmax : maxByKey FilePolicyRow.len (policies.filter (fun p => p.pre == "")) with
    | none =>
      symm
      rw [List.find?_eq_none]
      intro p hp hpre
      have : p ∈ policies.filter (fun p => p.pre == "") := List.mem_filter.mpr ⟨hp, hpre⟩
      rw [maxByKey_eq_none _ hmax] at this
      simp at this
    | some m =>
      obtain ⟨hmm, -⟩ := maxByKey_eq_some _ hmax
      obtain ⟨hmpol, hmpre⟩ := List.mem_filter.mp hmm
      cases hfind : policies.find? (fun p => p.pre == "") with
      | none => exact absurd hmpre (List.find?_eq_none.mp hfind m hmpol)
      | some r =>
        -- there is only one rule with the empty prefix
        have hrpre := List.find?_some hfind
        have heq : m.pre = r.pre := (beq_iff_eq.mp hmpre).trans (beq_iff_eq.mp hrpre).symm
        rw [List.inj_on_of_nodup_map hdistinct hmpol (List.mem_of_find?_eq_some hfind) heq]

omit hdistinct in
/-- Where a path is under some non-empty prefix the longest match is such a one. -/
theorem exists_longestMatch_of_matched {path : Option String}
    (h : ¬ ∀ s, path = some s → ∀ q ∈ filedRules policies, isUnder q.pre s = false) :
    ∃ m ∈ filedRules policies, longestMatch policies path = some m := by
  push Not at h
  obtain ⟨s, rfl, q, hq, hunder⟩ := h
  rw [Bool.ne_false_iff] at hunder
  obtain ⟨hqpol, hqne⟩ := mem_filedRules.mp hq
  have hqm : q ∈ policies.filter (fun p => isUnder p.pre s) := List.mem_filter.mpr ⟨hqpol, hunder⟩
  change ∃ m ∈ filedRules policies, maxByKey FilePolicyRow.len _ = some m
  cases hmax : maxByKey FilePolicyRow.len (policies.filter (fun p => isUnder p.pre s)) with
  | none =>
    rw [maxByKey_eq_none _ hmax] at hqm
    simp at hqm
  | some m =>
    obtain ⟨hmm, hall⟩ := maxByKey_eq_some _ hmax
    refine ⟨m, mem_filedRules.mpr ⟨(List.mem_filter.mp hmm).1, fun hempty => hqne ?_⟩, rfl⟩
    -- only the empty prefix is as short as the root's
    have hlen : (utf8 q.pre).length ≤ (utf8 "").length := by
      have := hall q hqm
      rwa [FilePolicyRow.len, FilePolicyRow.len, hempty] at this
    have hnil : utf8 q.pre = utf8 "" := List.length_eq_zero_iff.mp (Nat.le_zero.mp hlen)
    exact utf8_injective hnil

end Governing

/-! ### The meaning of the fragments -/

section Meaning

variable {row : FileRow} {like : Value → Value → Tri} {auth : AuthCtx}

/-- The verdict of a range: unknown for an unfiled row. -/
def rangeTri (path : Option String) (pre : String) : Tri :=
  match path with
  | none => .unknown
  | some s => .ofBool (isUnder pre s)

theorem means_prefixRange {pre : String} (hvalid : validateFilePrefix pre = .ok ())
    (hne : pre ≠ "") :
    Emits (row.env like) (prefixRangeSql pre) (rangeTri row.path pre) := by
  have hlow := means_cmp .ge (row.env_path like) (.text pre)
  have hhigh := means_cmp .lt (row.env_path like) (.text (prefixUpperBound pre))
  have hparts : List.Forall₂ (Emits (row.env like))
      [("\"path\" >= ?", [.text pre]), ("\"path\" < ?", [.text (prefixUpperBound pre)])]
      [_, _] := .cons hlow (.cons hhigh .nil)
  have hmeans := means_allOf hparts (by simp)
  have hverdict : Tri.allOf [compareTri .ge (FileRow.optional row.path).toValue (.text pre),
      compareTri .lt (FileRow.optional row.path).toValue (.text (prefixUpperBound pre))]
      = rangeTri row.path pre := by
    cases hpath : row.path with
    | none => rfl
    | some s =>
      have hrange := range_iff_isUnder hvalid hne s
      change (Tri.ofBool (textCmp s pre != .lt)).and
        ((Tri.ofBool (textCmp s (prefixUpperBound pre) == .lt)).and .true) = .ofBool _
      cases hu : isUnder pre s with
      | true =>
        obtain ⟨h₁, h₂⟩ := hrange.mpr hu
        simp [h₁, h₂, Tri.ofBool]
      | false =>
        have hout : ¬ (textCmp s pre ≠ .lt ∧ textCmp s (prefixUpperBound pre) = .lt) := by
          rw [hrange, hu]
          simp
        by_cases h₁ : textCmp s pre = .lt
        · simp [h₁, Tri.ofBool, Tri.and]
        · have h₂ : textCmp s (prefixUpperBound pre) ≠ .lt := fun h => hout ⟨h₁, h⟩
          simp [h₁, h₂, Tri.ofBool, Tri.and]
  rw [← hverdict]
  exact hmeans

theorem means_owner (row : FileRow) (like : Value → Value → Tri) (auth : AuthCtx) :
    ∃ t, Emits (row.env like) (ownerSql auth) t ∧
      (t = .true ↔ callerIsUploader row.toMap auth = true) := by
  unfold ownerSql callerIsUploader
  rw [row.get_uploader]
  cases auth.userId with
  | none =>
    refine ⟨_, (means_cmp .eq (row.env_uploader like) .null).paren, ?_⟩
    simp [compareTri, cmpValue]
  | some uid =>
    refine ⟨_, (means_cmp .eq (row.env_uploader like) (.text uid)).paren, ?_⟩
    simp [compareTri, cmpValue, CmpOp.holds, textCmp_eq_iff]

theorem means_conj {E : Env} {parts : List Compiled} {ts : List Tri}
    (h : List.Forall₂ (Emits E) parts ts) (hne : ts ≠ []) :
    Emits E (conjSql parts) (.allOf ts) :=
  means_allOf h hne

theorem means_disj {E : Env} {parts : List Compiled} {ts : List Tri}
    (h : List.Forall₂ (Emits E) parts ts) (hne : ts ≠ []) :
    Emits E (disjSql parts) (.anyOf ts) :=
  means_anyOf h hne

theorem disjSql_null_not (r : Compiled) :
    disjSql [("\"path\" IS NULL", []), notSql r]
      = ("(\"path\" IS NULL OR NOT " ++ r.1 ++ ")", r.2) := by
  have htext : "(\"path\" IS NULL OR NOT "
      = "(" ++ ("\"path\" IS NULL" ++ (" OR " ++ "NOT ")) := rfl
  rw [htext]
  simp only [disjSql, notSql, List.map_cons, List.map_nil, List.flatMap_cons, List.flatMap_nil,
    List.nil_append, List.append_nil, join, String.append_assoc]

/-- A denying rule. -/
theorem means_deny : Emits (row.env like) ("(0=1)", []) .false :=
  means_false_left.paren

/-- The stored clause and its compiled fragment agree on the row. -/
def ClauseAgrees (row : FileRow) (like : Value → Value → Tri) (auth : AuthCtx)
    (p : FilePolicyRow) : Prop :=
  ∀ ast c, p.selectPolicy = some ast → compileFileClause ast (.fromAuth auth) = some c →
    (Admits (row.env like) c.1 c.2 ↔ Policy.evalPolicy ast row.toMap (.fromAuth auth) = true)

/-- The fragment of a rule is true when the rule allows the file to be read. -/
theorem means_decision {p : FilePolicyRow} (hclause : ClauseAgrees row like auth p) :
    ∃ t, Emits (row.env like) (decisionSql p auth) t ∧
      (t = .true ↔ ruleAllows p row.toMap auth .read = true) := by
  obtain ⟨t, howner, ht⟩ := means_owner row like auth
  unfold decisionSql ruleAllows
  by_cases hsays : (!p.ownerScoped && p.selectPolicy.isNone && !p.publicRead) = true
  · rw [if_pos hsays, if_pos hsays]
    exact ⟨.false, means_deny, by simp⟩
  · rw [if_neg hsays, if_neg hsays]
    cases hsel : p.selectPolicy with
    | none =>
      cases hscope : p.ownerScoped with
      | false => exact ⟨.true, means_true.paren, by simp⟩
      | true =>
        refine ⟨_, means_conj (.cons howner .nil) (by simp), ?_⟩
        simp [ht]
    | some ast =>
      simp only
      cases hcomp : compileFileClause ast (.fromAuth auth) with
      | none => exact ⟨.false, means_deny, by simp⟩
      | some c =>
        have hok : Policy.compilePolicyUsing filePolicySchema ast (.fromAuth auth) = .ok c := by
          unfold compileFileClause at hcomp
          revert hcomp
          cases Policy.compilePolicyUsing filePolicySchema ast (.fromAuth auth) with
          | error e => intro h; cases h
          | ok c' => intro h; rw [Option.some.inj h]
        -- the clause is one condition wherever it stands
        have hmeans := (Policy.means_compileNode (row.isSome_env like) ast hok).paren
        have hagree := hclause ast c hsel hcomp
        rw [Policy.admits_compiled_iff (row.isSome_env like) hok] at hagree
        have hclauseMeans : List.Forall₂ (Emits (row.env like))
            [("(" ++ c.1 ++ ")", c.2)] [Policy.denoteNode (row.env like) ast (.fromAuth auth)] :=
          .cons hmeans .nil
        cases hscope : p.ownerScoped with
        | false =>
          simp only [Bool.false_eq_true, if_false, List.nil_append]
          refine ⟨_, means_conj hclauseMeans (by simp), ?_⟩
          simp [hagree]
        | true =>
          simp only [if_true, List.singleton_append]
          refine ⟨_, means_conj (.cons howner hclauseMeans) (by simp), ?_⟩
          simp [hagree, ht]

section Arms

variable {policies : List FilePolicyRow}
  (hvalid : ∀ p ∈ policies, validateFilePrefix p.pre = .ok ())

include hvalid

theorem means_ranges {qs : List FilePolicyRow} (hqs : ∀ q ∈ qs, q ∈ filedRules policies) :
    List.Forall₂ (Emits (row.env like))
      (qs.map (fun q => prefixRangeSql q.pre)) (qs.map (fun q => rangeTri row.path q.pre)) := by
  rw [List.forall₂_map_left_iff, List.forall₂_map_right_iff, List.forall₂_same]
  intro q hq
  obtain ⟨hmem, hne⟩ := mem_filedRules.mp (hqs q hq)
  exact means_prefixRange (hvalid q hmem) hne

/-- The arm of a rule is true when the rule governs the file and allows it. -/
theorem means_arm {p : FilePolicyRow} (hp : p ∈ filedRules policies)
    (hclause : ClauseAgrees row like auth p) :
    ∃ t, Emits (row.env like) (armSql (filedRules policies) auth p) t ∧
      (t = .true ↔ Governs (filedRules policies) row.path p ∧
        ruleAllows p row.toMap auth .read = true) := by
  obtain ⟨t, hdecision, ht⟩ := means_decision hclause
  obtain ⟨hmem, hne⟩ := mem_filedRules.mp hp
  have hdeeper : List.Forall₂ (Emits (row.env like))
      ((deeperRules (filedRules policies) p).map (fun q => notSql (prefixRangeSql q.pre)))
      ((deeperRules (filedRules policies) p).map (fun q => (rangeTri row.path q.pre).not)) := by
    rw [List.forall₂_map_left_iff, List.forall₂_map_right_iff, List.forall₂_same]
    intro q hq
    obtain ⟨hqmem, hqne⟩ := mem_filedRules.mp (List.mem_of_mem_filter hq)
    exact (means_prefixRange (hvalid q hqmem) hqne).not
  have hrange : Emits (row.env like) (prefixRangeSql p.pre) (rangeTri row.path p.pre) :=
    means_prefixRange (hvalid p hmem) hne
  have hparts := List.rel_append (.cons hrange hdeeper) (.cons hdecision .nil)
  refine ⟨_, means_conj hparts (by simp), ?_⟩
  rw [Tri.allOf_eq_true_iff]
  simp only [List.mem_append, List.mem_cons, List.mem_map, List.not_mem_nil, or_false]
  constructor
  · intro h
    have hin := h _ (.inl (.inl rfl))
    cases hpath : row.path with
    | none =>
      rw [hpath] at hin
      cases hin
    | some s =>
      rw [hpath] at h hin
      refine ⟨⟨s, rfl, by simpa [rangeTri] using hin, fun q hq => ?_⟩, ht.mp (h t (.inr rfl))⟩
      have hout := h _ (.inl (.inr ⟨q, hq, rfl⟩))
      simpa [rangeTri] using hout
  · rintro ⟨⟨s, hpath, hunder, hdeep⟩, hallows⟩
    rintro u ((rfl | ⟨q, hq, rfl⟩) | rfl)
    · simp [rangeTri, hpath, hunder]
    · simp [rangeTri, hpath, hdeep q hq]
    · exact ht.mpr hallows

/-- The files under no non-empty prefix, the unfiled ones included. -/
theorem means_unmatched :
    ∃ t, Emits (row.env like) (unmatchedSql (filedRules policies)) t ∧
      (t = .true ↔
        ∀ s, row.path = some s → ∀ q ∈ filedRules policies, isUnder q.pre s = false) := by
  unfold unmatchedSql
  by_cases hempty : filedRules policies = []
  · rw [hempty]
    exact ⟨.true, means_true, by simp⟩
  · have hne : (filedRules policies).isEmpty = false := by simpa using hempty
    simp only [hne, Bool.false_eq_true, if_false]
    have hranges : List.Forall₂ (Emits (row.env like)) _ _ :=
      means_ranges hvalid (fun q (hq : q ∈ filedRules policies) => hq)
    have hnot := (means_disj hranges (by simpa using hempty)).not
    have hnull := means_isNull (row.env_path like)
    have hparts : List.Forall₂ (Emits (row.env like))
        [("\"path\" IS NULL", []), notSql (disjSql ((filedRules policies).map
          (fun q => prefixRangeSql q.pre)))] [_, _] := .cons hnull (.cons hnot .nil)
    have hmeans := means_disj hparts (by simp)
    rw [disjSql_null_not] at hmeans
    refine ⟨_, hmeans, ?_⟩
    simp only [Tri.anyOf_cons, Tri.anyOf_nil, Tri.or_false, Tri.or_eq_true_iff,
      Tri.not_eq_true_iff, Tri.anyOf_eq_false_iff, Tri.ofBool_eq_true_iff]
    cases hpath : row.path with
    | none => simp [FileRow.optional, Cell.toValue, Value.isNull]
    | some s => simp [FileRow.optional, Cell.toValue, Value.isNull, rangeTri]

theorem means_rootArm (hroot : ∀ p ∈ policies, ClauseAgrees row like auth p) :
    ∃ t, Emits (row.env like)
        (conjSql [unmatchedSql (filedRules policies), rootDecisionSql policies auth]) t ∧
      (t = .true ↔
        (∀ s, row.path = some s → ∀ q ∈ filedRules policies, isUnder q.pre s = false) ∧
        (match policies.find? (fun p => p.pre == "") with
          | some root => ruleAllows root row.toMap auth .read
          | none => callerIsUploader row.toMap auth) = true) := by
  obtain ⟨t, hunmatched, ht⟩ : ∃ t,
      Emits (row.env like) (unmatchedSql (filedRules policies)) t ∧ (t = .true ↔ _) :=
    means_unmatched hvalid
  unfold rootDecisionSql
  cases hfind : policies.find? (fun p => p.pre == "") with
  | some root =>
    obtain ⟨u, hdecision, hu⟩ := means_decision (hroot root (List.mem_of_find?_eq_some hfind))
    refine ⟨_, means_conj (.cons hunmatched (.cons hdecision .nil)) (by simp), ?_⟩
    simp [ht, hu]
  | none =>
    obtain ⟨u, howner, hu⟩ := means_owner row like auth
    refine ⟨_, means_conj (.cons hunmatched (.cons howner .nil)) (by simp), ?_⟩
    simp [ht, hu]

end Arms

end Meaning

/-- The list admits exactly the files that may be read one by one: for every registry of
valid and distinct prefixes, every caller and every file, when the two evaluators of each
stored clause agree on the file. -/
theorem admits_buildFileListFilter_iff {policies : List FilePolicyRow}
    (hvalid : ∀ p ∈ policies, validateFilePrefix p.pre = .ok ())
    (hdistinct : (policies.map FilePolicyRow.pre).Nodup) (row : FileRow) (auth : AuthCtx)
    (like : Value → Value → Tri)
    (hclause : ∀ p ∈ policies, ClauseAgrees row like auth p) :
    Admits (row.env like) (buildFileListFilter policies auth).1
        (buildFileListFilter policies auth).2 ↔
      authorizeFile policies row.toMap auth .read = true := by
  have harm : ∀ p ∈ filedRules policies, ∃ t,
      Emits (row.env like) (armSql (filedRules policies) auth p) t ∧
        (t = .true ↔ Governs (filedRules policies) row.path p ∧
          ruleAllows p row.toMap auth .read = true) :=
    fun p hp => means_arm hvalid hp (hclause p (mem_filedRules.mp hp).1)
  obtain ⟨ts, harms, hts⟩ := exists_verdicts harm
  obtain ⟨t, hroot, ht⟩ := means_rootArm hvalid hclause
  have hmeans := means_disj (List.rel_append harms (.cons hroot .nil)) (by simp)
  rw [buildFileListFilter, hmeans.admits_iff, Tri.anyOf_eq_true_iff, List.mem_append, hts,
    List.mem_singleton, eq_comm, ht, authorizeFile, row.get_path]
  by_cases hunmatched :
      ∀ s, row.path = some s → ∀ q ∈ filedRules policies, isUnder q.pre s = false
  · -- no arm of a rule can be true, and the longest match is the root
    rw [longestMatch_of_unmatched hdistinct hunmatched]
    have hnone : ¬ ∃ p ∈ filedRules policies, Governs (filedRules policies) row.path p ∧
        ruleAllows p row.toMap auth .read = true := by
      rintro ⟨p, hp, ⟨s, hpath, hunder, -⟩, -⟩
      rw [hunmatched s hpath p hp] at hunder
      cases hunder
    rw [or_iff_right hnone, and_iff_right hunmatched]
    cases policies.find? (fun p => p.pre == "") <;> rfl
  · -- the root arm is false, and the longest match is one of the rules with an arm
    obtain ⟨m, hm, hlongest⟩ := exists_longestMatch_of_matched hunmatched
    rw [or_iff_left (fun h => hunmatched h.1), hlongest]
    constructor
    · rintro ⟨p, hp, hgoverns, hallows⟩
      rw [governs_iff hdistinct row.path hp, hlongest] at hgoverns
      rw [Option.some.inj hgoverns]
      exact hallows
    · intro hallows
      exact ⟨m, hm, (governs_iff hdistinct row.path hm).mpr hlongest, hallows⟩

/-- An open root, a prefix for uploaders only, and one with a clause. -/
def exampleRegistry : List FilePolicyRow :=
  [{ pre := "", publicRead := true }, { pre := "avatars/", ownerScoped := true },
    { pre := "docs/", selectPolicy := some (.leaf [("visibility", .string "public")]) }]

def exampleFile : FileRow where
  id := 1
  key := "1f.txt"
  originalName := "a.txt"
  contentType := none
  sizeBytes := 10
  contentDisposition := none
  visibility := "public"
  cacheControl := none
  metaJson := none
  uploadedAt := "2026-01-01 00:00:00"
  uploader := "u-1"
  path := some "docs/a.txt"
  createdAt := "2026-01-01 00:00:00"
  updatedAt := "2026-01-01 00:00:00"

theorem admits_buildFileListFilter_docs :
    Admits (exampleFile.env (fun _ _ => .unknown)) (buildFileListFilter exampleRegistry .anon).1
        (buildFileListFilter exampleRegistry .anon).2 ↔
      authorizeFile exampleRegistry exampleFile.toMap .anon .read = true := by
  refine admits_buildFileListFilter_iff (by decide) (by decide) exampleFile .anon _ ?_
  intro p hp ast c hsel hcomp
  fin_cases hp
  · cases hsel
  · cases hsel
  · obtain rfl := Option.some.inj hsel
    have hc : compileFileClause (.leaf [("visibility", .string "public")]) (.fromAuth .anon)
        = some ("\"visibility\" = ?", [.text "public"]) := by decide +kernel
    obtain rfl := Option.some.inj (hc.symm.trans hcomp)
    decide +kernel

end Drust
