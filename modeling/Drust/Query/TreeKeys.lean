import Drust.Lib.JsonMembers
import Drust.Lib.Result
import Drust.Query.VectorFilter

/-!
# Trees that lose a key

What becomes of the condition of a filter when a key is left out somewhere in it. Filters and
policy clauses are compiled by two compilers that put a tree together in the same way and differ
in its leaves, so the tree is gone through once, for a compiler of leaves (`compileWith`). In a
tree without stray keys each key counts as soon as each key of a leaf does
(`compileWith_ne_of_without`): the condition of an operand can be read off the condition of its
connective (`connect_inj`), so that a difference in a leaf is one in the whole.

What a key counts for is asked of the filter that it stands in, the whole or one under its boolean
keys (`Subfilter`): when one filter does not compile, its keys are not what makes another fail.
-/

namespace Drust

open Sql
open Json (Without)

namespace FilterAst

/-! ### The filters in a filter -/

/-- The first filter is the second, or stands under its boolean keys. -/
inductive Subfilter : Json → Json → Prop
  | self (v : Json) : Subfilter v v
  | elem {kvs : Json.Map} {key : String} {xs : List Json} {x u : Json}
      (hkey : key = "and" ∨ key = "or") (hget : kvs.get key = some (.array xs))
      (hxs : xs.all isTree = true) (hx : x ∈ xs) (h : Subfilter u x) : Subfilter u (.object kvs)
  | negated {kvs : Json.Map} {x u : Json} (hget : kvs.get "not" = some x)
      (htree : isTree x = true) (h : Subfilter u x) : Subfilter u (.object kvs)

section Leaves

variable (leaf : Json.Map → Bool)

mutual

/-- Every leaf of the filter meets the condition. -/
def leavesKept : Json → Bool
  | .object kvs => if isBooleanNode kvs then membersKept kvs else leaf kvs
  | .array xs => elemsKept xs
  | _ => true

def membersKept : List (String × Json) → Bool
  | [] => true
  | (_, v) :: kvs => leavesKept v && membersKept kvs

def elemsKept : List Json → Bool
  | [] => true
  | x :: xs => leavesKept x && elemsKept xs

end

end Leaves

theorem noStrayElems_iff {xs : List Json} :
    noStrayElems xs = true ↔ ∀ x ∈ xs, noStrayKeys x = true := by
  induction xs with
  | nil => simp [noStrayElems]
  | cons x xs ih => rw [noStrayElems, Bool.and_eq_true, ih, List.forall_mem_cons]

theorem elemsKept_iff {leaf : Json.Map → Bool} {xs : List Json} :
    elemsKept leaf xs = true ↔ ∀ x ∈ xs, leavesKept leaf x = true := by
  induction xs with
  | nil => simp [elemsKept]
  | cons x xs ih => rw [elemsKept, Bool.and_eq_true, ih, List.forall_mem_cons]

/-- Leaving out a member leaves an object an object. -/
theorem isTree_of_without {v w : Json} (h : Without v w) : isTree w = isTree v := by
  obtain ⟨_, _, rfl, rfl⟩ | ⟨_, _, rfl, rfl⟩ := h.shape
  · rfl
  · rfl

theorem isTrees_of_without {v w : Json} (h : Without v w) : isTrees w = isTrees v := by
  obtain ⟨_, _, rfl, rfl⟩ | ⟨xs, ys, rfl, rfl⟩ := h.shape
  · rfl
  · obtain ⟨xs₁, x, y, xs₂, rfl, hw, hxy⟩ := h.of_array
    obtain rfl := Json.array.inj hw
    simp only [isTrees, List.all_append, List.all_cons, isTree_of_without hxy]

/-- A filter without stray keys: a leaf, or a node of one member. -/
theorem boolean_cases {kvs : Json.Map} (hbool : isBooleanNode kvs = true)
    (hstray : noStrayKeys (.object kvs) = true) :
    (∃ key xs, kvs = [(key, .array xs)] ∧ (key = "and" ∨ key = "or") ∧ xs.all isTree = true ∧
      noStrayElems xs = true) ∨
    ∃ m, kvs = [("not", .object m)] ∧ noStrayKeys (.object m) = true := by
  rw [noStrayKeys, hbool, Bool.not_true, Bool.false_or] at hstray
  obtain _ | ⟨⟨k, v⟩, _ | _⟩ := kvs
  · cases hstray
  · rw [onlyMember] at hstray
    simp only [isBooleanNode, Json.Map.get_cons, Json.Map.get_nil, Bool.or_eq_true] at hbool
    obtain (hand | hor) | hnot := hbool
    · split at hand
      · next hk =>
        cases v with
        | array xs =>
          rw [noStrayKeys] at hstray
          exact .inl ⟨k, xs, rfl, .inl hk, hand, hstray⟩
        | _ => cases hand
      · cases hand
    · split at hor
      · next hk =>
        cases v with
        | array xs =>
          rw [noStrayKeys] at hstray
          exact .inl ⟨k, xs, rfl, .inr hk, hor, hstray⟩
        | _ => cases hor
      · cases hor
    · split at hnot
      · next hk =>
        cases v with
        | object m => exact .inr ⟨m, by rw [hk], hstray⟩
        | _ => cases hnot
      · cases hnot
  · cases hstray

theorem isTree_of_subfilter {u v : Json} (h : Subfilter u v) (hv : isTree v = true) :
    isTree u = true := by
  induction h with
  | self v => exact hv
  | elem hkey hget hxs hx h ih => exact ih (List.all_eq_true.mp hxs _ hx)
  | negated hget htree h ih => exact ih htree

/-- What a filter without stray keys keeps is kept in each of its filters. -/
theorem kept_of_subfilter {leaf : Json.Map → Bool} {u v : Json} (h : Subfilter u v)
    (hstray : noStrayKeys v = true) (hleaves : leavesKept leaf v = true) :
    noStrayKeys u = true ∧ leavesKept leaf u = true := by
  induction h with
  | self v => exact ⟨hstray, hleaves⟩
  | @elem kvs key xs x u hkey hget hxs hx h ih =>
    have hbool : isBooleanNode kvs = true := by
      obtain rfl | rfl := hkey
      · simp [isBooleanNode, hget, isTrees, hxs]
      · simp [isBooleanNode, hget, isTrees, hxs]
    rw [leavesKept, if_pos hbool] at hleaves
    -- the node has one key, so it is the one that the sub-filter stands under
    obtain ⟨key', xs', rfl, hkey', -, hstray⟩ | ⟨m, rfl, -⟩ := boolean_cases hbool hstray
    · rw [Json.Map.get_cons] at hget
      split at hget
      · obtain rfl := Json.array.inj (Option.some.inj hget)
        rw [membersKept, Bool.and_eq_true, leavesKept] at hleaves
        exact ih (noStrayElems_iff.mp hstray x hx) (elemsKept_iff.mp hleaves.1 x hx)
      · cases hget
    · rw [Json.Map.get_cons] at hget
      split at hget
      · cases hget
      · cases hget
  | @negated kvs x u hget htree h ih =>
    have hbool : isBooleanNode kvs = true := by simp [isBooleanNode, hget, htree]
    rw [leavesKept, if_pos hbool] at hleaves
    obtain ⟨key', xs', rfl, hkey', -, -⟩ | ⟨m, rfl, hstray⟩ := boolean_cases hbool hstray
    · rw [Json.Map.get_cons] at hget
      obtain rfl | rfl := hkey'
      · cases hget
      · cases hget
    · obtain rfl := Option.some.inj hget
      rw [membersKept, Bool.and_eq_true] at hleaves
      exact ih hstray hleaves.1

/-- A filter whose leaves are not all kept has a leaf in it that is not. -/
theorem exists_leaf_of_not_kept {leaf : Json.Map → Bool} (v : Json) :
    (isTree v = true → noStrayKeys v = true → leavesKept leaf v = false →
      ∃ kvs, Subfilter (.object kvs) v ∧ isBooleanNode kvs = false ∧ leaf kvs = false) ∧
    (∀ xs, v = .array xs → ∀ x ∈ xs, isTree x = true → noStrayKeys x = true →
      leavesKept leaf x = false →
      ∃ kvs, Subfilter (.object kvs) x ∧ isBooleanNode kvs = false ∧ leaf kvs = false) := by
  induction v using Json.induct with
  | array xs ih =>
    refine ⟨fun h => (by cases h), ?_⟩
    rintro _ ⟨⟩ x hx
    exact (ih x hx).1
  | object kvs ih =>
    refine ⟨fun _ hstray hleaves => ?_, fun xs h => (by cases h)⟩
    rw [leavesKept] at hleaves
    split at hleaves
    · next hbool =>
      obtain ⟨key, xs, rfl, hkey, hxs, hstray⟩ | ⟨m, rfl, hstray⟩ := boolean_cases hbool hstray
      · rw [membersKept, membersKept, Bool.and_true, leavesKept, ← Bool.not_eq_true, elemsKept_iff]
          at hleaves
        push Not at hleaves
        obtain ⟨x, hx, hbad⟩ := hleaves
        obtain ⟨kvs, hsub, hleaf⟩ := (ih _ List.mem_cons_self).2 xs rfl x hx
          (List.all_eq_true.mp hxs x hx) (noStrayElems_iff.mp hstray x hx)
          (Bool.eq_false_iff.mpr hbad)
        refine ⟨kvs, .elem hkey ?_ hxs hx hsub, hleaf⟩
        rw [Json.Map.get_cons, if_pos rfl]
      · rw [membersKept, membersKept, Bool.and_true] at hleaves
        obtain ⟨kvs, hsub, hleaf⟩ := (ih _ List.mem_cons_self).1 rfl hstray hleaves
        exact ⟨kvs, .negated rfl rfl hsub, hleaf⟩
    · next hbool => exact ⟨kvs, .self _, Bool.eq_false_iff.mpr hbool, hleaves⟩
  | _ => exact ⟨fun h => (by cases h), fun xs h => (by cases h)⟩

/-! ### A compiler of trees -/

section CompileWith

variable {γ ε : Type} (tooDeep : ε) (leafC : γ → Json.Map → Except ε Compiled)

mutual

/-- The compiler of trees that has this compiler of leaves, in a context. -/
def compileWith (c : γ) (node : FilterAst) (depth : Nat) : Except ε Compiled :=
  if maxFilterDepth ≤ depth then .error tooDeep
  else match node with
    | .and [] => .ok ("1=1", [])
    | .and (n :: ns) => do
      let parts ← compileAllWith c (n :: ns) (depth + 1)
      .ok ("(" ++ join " AND " (parts.map Prod.fst) ++ ")", parts.flatMap Prod.snd)
    | .or [] => .ok ("1=0", [])
    | .or (n :: ns) => do
      let parts ← compileAllWith c (n :: ns) (depth + 1)
      .ok ("(" ++ join " OR " (parts.map Prod.fst) ++ ")", parts.flatMap Prod.snd)
    | .not n => do
      let inner ← compileWith c n (depth + 1)
      .ok ("(" ++ ("NOT " ++ inner.1) ++ ")", inner.2)
    | .leaf obj => leafC c obj

def compileAllWith (c : γ) (nodes : List FilterAst) (depth : Nat) :
    Except ε (List Compiled) :=
  match nodes with
  | [] => .ok []
  | n :: ns => do
    let part ← compileWith c n depth
    let parts ← compileAllWith c ns depth
    .ok (part :: parts)

end

variable {tooDeep leafC} {c : γ} {depth : Nat}

/-- The key of a boolean node over a list. -/
def IsConnective (key : String) (node : List FilterAst → FilterAst) : Prop :=
  (key = "and" ∧ node = .and) ∨ (key = "or" ∧ node = .or)

theorem IsConnective.unique {key : String} {node node' : List FilterAst → FilterAst}
    (h : IsConnective key node) (h' : IsConnective key node') : node = node' := by
  obtain ⟨rfl, rfl⟩ | ⟨rfl, rfl⟩ := h
  · obtain ⟨-, rfl⟩ | ⟨h, -⟩ := h'
    · rfl
    · exact absurd h (by decide)
  · obtain ⟨h, -⟩ | ⟨-, rfl⟩ := h'
    · exact absurd h (by decide)
    · rfl

/-- How a connective puts the conditions of its operands together. -/
def connect (kw : String) (parts : List Compiled) : Compiled :=
  ("(" ++ join kw (parts.map Prod.fst) ++ ")", parts.flatMap Prod.snd)

theorem join_append_cons (sep : String) (ss₁ ss₂ : List String) :
    ∃ l r, ∀ s, join sep (ss₁ ++ s :: ss₂) = l ++ s ++ r := by
  induction ss₁ with
  | nil =>
    cases ss₂ with
    | nil => exact ⟨"", "", fun s => by simp [join]⟩
    | cons s' ss₂ =>
      exact ⟨"", sep ++ join sep (s' :: ss₂), fun s => by simp [join, String.append_assoc]⟩
  | cons s' ss₁ ih =>
    obtain ⟨l, r, h⟩ := ih
    refine ⟨s' ++ sep ++ l, r, fun s => ?_⟩
    have hcons : join sep (s' :: (ss₁ ++ s :: ss₂)) = s' ++ sep ++ join sep (ss₁ ++ s :: ss₂) := by
      cases ss₁ <;> rfl
    rw [List.cons_append, hcons, h]
    simp only [String.append_assoc]

/-- The condition of one operand can be read off the whole. -/
theorem connect_inj {kw : String} {ps₁ ps₂ : List Compiled} {p p' : Compiled}
    (h : connect kw (ps₁ ++ p :: ps₂) = connect kw (ps₁ ++ p' :: ps₂)) : p = p' := by
  obtain ⟨htext, hbinds⟩ := Prod.mk.inj h
  rw [List.flatMap_append, List.flatMap_append, List.flatMap_cons, List.flatMap_cons,
    List.append_cancel_left_eq, List.append_cancel_right_eq] at hbinds
  rw [List.map_append, List.map_append, List.map_cons, List.map_cons] at htext
  obtain ⟨l, r, hjoin⟩ := join_append_cons kw (ps₁.map Prod.fst) (ps₂.map Prod.fst)
  rw [hjoin, hjoin, String.append_left_inj, String.append_right_inj, String.append_left_inj,
    String.append_right_inj] at htext
  exact Prod.ext htext hbinds

theorem compileAllWith_append {ns₁ ns₂ : List FilterAst} {n : FilterAst} {parts : List Compiled}
    (h : compileAllWith tooDeep leafC c (ns₁ ++ n :: ns₂) depth = .ok parts) :
    ∃ ps₁ p ps₂, compileAllWith tooDeep leafC c ns₁ depth = .ok ps₁ ∧
      compileWith tooDeep leafC c n depth = .ok p ∧
      compileAllWith tooDeep leafC c ns₂ depth = .ok ps₂ ∧ parts = ps₁ ++ p :: ps₂ := by
  induction ns₁ generalizing parts with
  | nil =>
    rw [List.nil_append, compileAllWith] at h
    obtain ⟨p, hp, h⟩ := Except.bind_eq_ok_iff.mp h
    obtain ⟨ps, hps, h⟩ := Except.bind_eq_ok_iff.mp h
    exact ⟨[], p, ps, rfl, hp, hps, (Except.ok.inj h).symm⟩
  | cons m ns₁ ih =>
    rw [List.cons_append, compileAllWith] at h
    obtain ⟨q, hq, h⟩ := Except.bind_eq_ok_iff.mp h
    obtain ⟨ps, hps, h⟩ := Except.bind_eq_ok_iff.mp h
    obtain ⟨ps₁, p, ps₂, hps₁, hp, hps₂, rfl⟩ := ih hps
    refine ⟨q :: ps₁, p, ps₂, ?_, hp, hps₂, (Except.ok.inj h).symm⟩
    rw [compileAllWith, hq, Except.ok_bind, hps₁]
    rfl

/-- The operands of a connective that compiles are compiled, one level down. -/
theorem compileWith_connective {key : String} {ns : List FilterAst} {p : Compiled}
    {node : List FilterAst → FilterAst} (hnode : IsConnective key node) (hne : ns ≠ [])
    (h : compileWith tooDeep leafC c (node ns) depth = .ok p) :
    ∃ parts, compileAllWith tooDeep leafC c ns (depth + 1) = .ok parts ∧
      p = connect (if key = "and" then " AND " else " OR ") parts := by
  obtain ⟨n, ns, rfl⟩ := List.exists_cons_of_ne_nil hne
  rw [compileWith.eq_def] at h
  split at h
  · cases h
  · obtain ⟨rfl, rfl⟩ | ⟨rfl, rfl⟩ := hnode
    · obtain ⟨parts, hparts, h⟩ := Except.bind_eq_ok_iff.mp h
      exact ⟨parts, hparts, (Except.ok.inj h).symm⟩
    · obtain ⟨parts, hparts, h⟩ := Except.bind_eq_ok_iff.mp h
      exact ⟨parts, hparts, (Except.ok.inj h).symm⟩

theorem compileWith_not {n : FilterAst} {p : Compiled}
    (h : compileWith tooDeep leafC c (.not n) depth = .ok p) :
    ∃ q, compileWith tooDeep leafC c n (depth + 1) = .ok q ∧
      p = ("(" ++ ("NOT " ++ q.1) ++ ")", q.2) := by
  rw [compileWith] at h
  split at h
  · cases h
  · obtain ⟨q, hq, h⟩ := Except.bind_eq_ok_iff.mp h
    exact ⟨q, hq, (Except.ok.inj h).symm⟩

theorem compileWith_leaf {obj : Json.Map} {p : Compiled}
    (h : compileWith tooDeep leafC c (.leaf obj) depth = .ok p) :
    depth < maxFilterDepth ∧ leafC c obj = .ok p := by
  rw [compileWith] at h
  split at h
  · cases h
  · next hdepth => exact ⟨not_le.mp hdepth, h⟩

theorem compileAllWith_ok_iff {ns : List FilterAst} :
    (∃ parts, compileAllWith tooDeep leafC c ns depth = .ok parts) ↔
      ∀ n ∈ ns, ∃ p, compileWith tooDeep leafC c n depth = .ok p := by
  induction ns with
  | nil => exact iff_of_true ⟨[], rfl⟩ (List.forall_mem_nil _)
  | cons n ns ih =>
    rw [List.forall_mem_cons, ← ih]
    constructor
    · rintro ⟨parts, h⟩
      rw [compileAllWith] at h
      obtain ⟨part, hpart, h⟩ := Except.bind_eq_ok_iff.mp h
      obtain ⟨rest, hrest, -⟩ := Except.bind_eq_ok_iff.mp h
      exact ⟨⟨part, hpart⟩, rest, hrest⟩
    · rintro ⟨⟨part, hpart⟩, rest, hrest⟩
      refine ⟨part :: rest, ?_⟩
      rw [compileAllWith, hpart, Except.ok_bind, hrest]
      rfl

theorem connective_ok_iff {key : String} {ns : List FilterAst} {node : List FilterAst → FilterAst}
    (hnode : IsConnective key node) :
    (∃ p, compileWith tooDeep leafC c (node ns) depth = .ok p) ↔
      depth < maxFilterDepth ∧
        ∀ n ∈ ns, ∃ p, compileWith tooDeep leafC c n (depth + 1) = .ok p := by
  rw [← compileAllWith_ok_iff, compileWith.eq_def]
  by_cases hdepth : maxFilterDepth ≤ depth
  · rw [if_pos hdepth]
    exact iff_of_false (by simp) fun h => absurd h.1 (not_lt.mpr hdepth)
  · rw [if_neg hdepth, and_iff_right (not_le.mp hdepth)]
    have hbind : ∀ {n : FilterAst} {ns : List FilterAst} {f : List Compiled → Compiled},
        (∃ p, (compileAllWith tooDeep leafC c (n :: ns) (depth + 1) >>= fun parts => .ok (f parts))
          = .ok p) ↔ ∃ parts, compileAllWith tooDeep leafC c (n :: ns) (depth + 1) = .ok parts := by
      intro n ns f
      constructor
      · rintro ⟨p, h⟩
        obtain ⟨parts, hparts, -⟩ := Except.bind_eq_ok_iff.mp h
        exact ⟨parts, hparts⟩
      · rintro ⟨parts, hparts⟩
        exact ⟨f parts, Except.bind_eq_ok_iff.mpr ⟨parts, hparts, rfl⟩⟩
    -- a connective of nothing is a constant
    obtain ⟨rfl, rfl⟩ | ⟨rfl, rfl⟩ := hnode
    · cases ns with
      | nil => exact iff_of_true ⟨_, rfl⟩ ⟨[], rfl⟩
      | cons n ns => exact hbind
    · cases ns with
      | nil => exact iff_of_true ⟨_, rfl⟩ ⟨[], rfl⟩
      | cons n ns => exact hbind

/-- Where the leaves compile in every good context once they compile in one, so do trees. -/
theorem compileWith_ok_of_good (good : γ → Prop)
    (hleaf : ∀ obj c p, leafC c obj = .ok p → ∀ c', good c' → ∃ q, leafC c' obj = .ok q)
    (n : FilterAst) : ∀ {depth p}, compileWith tooDeep leafC c n depth = .ok p → ∀ c', good c' →
      ∃ q, compileWith tooDeep leafC c' n depth = .ok q := by
  induction n using FilterAst.induct with
  | and ns ih =>
    intro depth p h c' hgood
    obtain ⟨hdepth, hns⟩ := (connective_ok_iff (.inl ⟨rfl, rfl⟩)).mp ⟨p, h⟩
    refine (connective_ok_iff (.inl ⟨rfl, rfl⟩)).mpr ⟨hdepth, fun n hn => ?_⟩
    obtain ⟨q, hq⟩ := hns n hn
    exact ih n hn hq c' hgood
  | or ns ih =>
    intro depth p h c' hgood
    obtain ⟨hdepth, hns⟩ := (connective_ok_iff (.inr ⟨rfl, rfl⟩)).mp ⟨p, h⟩
    refine (connective_ok_iff (.inr ⟨rfl, rfl⟩)).mpr ⟨hdepth, fun n hn => ?_⟩
    obtain ⟨q, hq⟩ := hns n hn
    exact ih n hn hq c' hgood
  | not n ih =>
    intro depth p h c' hgood
    obtain ⟨q, hq, -⟩ := compileWith_not h
    obtain ⟨q', hq'⟩ := ih hq c' hgood
    rw [compileWith, hq'] at *
    split at h
    · cases h
    · next hdepth => exact ⟨_, by rw [if_neg hdepth]; rfl⟩
  | leaf obj =>
    intro depth p h c' hgood
    obtain ⟨hdepth, hp⟩ := compileWith_leaf h
    obtain ⟨q, hq⟩ := hleaf obj c p hp c' hgood
    exact ⟨q, by rw [compileWith, if_neg (not_le.mpr hdepth), hq]⟩

/-! ### Trees that lose a member -/

theorem ofJson_leaf {kvs : Json.Map} (hbool : isBooleanNode kvs = false) :
    ofJson (.object kvs) = some (.leaf kvs) := by
  obtain ⟨n, hn⟩ := Option.isSome_iff_exists.mp (ofJson_isSome (.object kvs))
  obtain ⟨v, ns, hget, hv, rfl⟩ | ⟨v, ns, hget, hv, rfl⟩ | ⟨v, m, hget, hv, rfl⟩ | ⟨-, rfl⟩ :=
    ofJson_object_cases hn
  · rw [isBooleanNode_of_and hget hv] at hbool
    cases hbool
  · rw [isBooleanNode_of_or hget hv] at hbool
    cases hbool
  · rw [isBooleanNode_of_not hget hv] at hbool
    cases hbool
  · exact hn

theorem isBooleanNode_of_without {k : String} {v w : Json} (h : Without v w) :
    isBooleanNode [(k, w)] = isBooleanNode [(k, v)] := by
  have hget : ∀ key (p : Json → Bool), p w = p v →
      (Json.Map.get [(k, w)] key).any p = (Json.Map.get [(k, v)] key).any p := by
    intro key p hp
    rw [Json.Map.get_cons, Json.Map.get_cons]
    split
    · exact hp
    · rfl
  unfold isBooleanNode
  rw [hget _ _ (isTrees_of_without h), hget _ _ (isTrees_of_without h),
    hget _ _ (isTree_of_without h)]

theorem ofList_append {xs₁ xs₂ : List Json} {x : Json} {ns : List FilterAst}
    (h : ofList (xs₁ ++ x :: xs₂) = some ns) :
    ∃ ns₁ n ns₂, ns = ns₁ ++ n :: ns₂ ∧ ofJson x = some n ∧
      ∀ y m, ofJson y = some m → ofList (xs₁ ++ y :: xs₂) = some (ns₁ ++ m :: ns₂) := by
  induction xs₁ generalizing ns with
  | nil =>
    rw [List.nil_append, ofList] at h
    split at h
    · next n ns₂ hn hns₂ =>
      refine ⟨[], n, ns₂, (Option.some.inj h).symm, hn, fun y m hm => ?_⟩
      rw [List.nil_append, ofList, hm, hns₂]
      rfl
    · cases h
  | cons z xs₁ ih =>
    rw [List.cons_append, ofList] at h
    split at h
    · next k ns' hk hns' =>
      obtain ⟨ns₁, n, ns₂, rfl, hn, hother⟩ := ih hns'
      refine ⟨k :: ns₁, n, ns₂, (Option.some.inj h).symm, hn, fun y m hm => ?_⟩
      rw [List.cons_append, ofList, hk, hother y m hm]
      rfl
    · cases h

theorem ofJson_connective {key : String} {xs : List Json} {ns : List FilterAst}
    (hkey : key = "and" ∨ key = "or") (hns : ofList xs = some ns) :
    ∃ node, IsConnective key node ∧
      ofJson (.object [(key, .array xs)]) = some (node ns) := by
  obtain rfl | rfl := hkey
  · exact ⟨.and, .inl ⟨rfl, rfl⟩, by simp [ofJson, vecField, ofArray, hns]⟩
  · exact ⟨.or, .inr ⟨rfl, rfl⟩, by simp [ofJson, vecField, ofArray, hns]⟩

theorem ofJson_not {m : Json.Map} {n : FilterAst} (hn : ofJson (.object m) = some n) :
    ofJson (.object [("not", .object m)]) = some (.not n) := by
  rw [ofJson]
  simp [vecField, boxField, hn]

/-- A connective is another one when one of its operands is. -/
theorem connective_ne {key : String} {node : List FilterAst → FilterAst} {ns₁ ns₂ : List FilterAst}
    {n n' : FilterAst} {p : Compiled} (hnode : IsConnective key node)
    (hp : compileWith tooDeep leafC c (node (ns₁ ++ n :: ns₂)) depth = .ok p)
    (hne : compileWith tooDeep leafC c n' (depth + 1)
      ≠ compileWith tooDeep leafC c n (depth + 1)) :
    compileWith tooDeep leafC c (node (ns₁ ++ n' :: ns₂)) depth
      ≠ compileWith tooDeep leafC c (node (ns₁ ++ n :: ns₂)) depth := by
  intro heq
  obtain ⟨parts, hparts, rfl⟩ := compileWith_connective hnode (by simp) hp
  obtain ⟨parts', hparts', hconnect⟩ :=
    compileWith_connective hnode (by simp) (heq.trans hp)
  obtain ⟨ps₁, q, ps₂, hps₁, hq, hps₂, rfl⟩ := compileAllWith_append hparts
  obtain ⟨ps₁', q', ps₂', hps₁', hq', hps₂', rfl⟩ := compileAllWith_append hparts'
  obtain rfl := Except.ok.inj (hps₁.symm.trans hps₁')
  obtain rfl := Except.ok.inj (hps₂.symm.trans hps₂')
  exact hne (by rw [hq, hq', connect_inj hconnect])

theorem not_ne {n n' : FilterAst} {p : Compiled}
    (hp : compileWith tooDeep leafC c (.not n) depth = .ok p)
    (hne : compileWith tooDeep leafC c n' (depth + 1)
      ≠ compileWith tooDeep leafC c n (depth + 1)) :
    compileWith tooDeep leafC c (.not n') depth ≠ compileWith tooDeep leafC c (.not n) depth := by
  intro heq
  obtain ⟨q, hq, rfl⟩ := compileWith_not hp
  obtain ⟨q', hq', hpair⟩ := compileWith_not (heq.trans hp)
  obtain ⟨htext, hbinds⟩ := Prod.mk.inj hpair
  rw [String.append_left_inj, String.append_right_inj, String.append_right_inj] at htext
  exact hne (by rw [hq, hq', Prod.ext htext hbinds])

section Counts

variable (tooDeep leafC) (leaf : Json.Map → Bool) (good : γ → Prop)

/-- A filter without stray keys, whose leaves are kept, is another one without any of its keys, in
some good context. -/
def Counts (v : Json) : Prop :=
  ∀ w, Without v w → noStrayKeys v = true → leavesKept leaf v = true →
    ∀ depth n n', ofJson v = some n → ofJson w = some n' →
      (∀ c, good c → ∃ p, compileWith tooDeep leafC c n depth = .ok p) →
      ∃ c, good c ∧ compileWith tooDeep leafC c n' depth ≠ compileWith tooDeep leafC c n depth

variable {tooDeep leafC leaf good}

/-- An object without members is no filter that compiles. -/
theorem empty_ne (hgood : ∃ c, good c)
    (hsingle : ∀ c obj p, leafC c obj = .ok p → ∃ key body, obj = [(key, body)]) {n : FilterAst}
    (hok : ∀ c, good c → ∃ p, compileWith tooDeep leafC c n depth = .ok p) :
    ∃ c, good c ∧ compileWith tooDeep leafC c (.leaf []) depth
      ≠ compileWith tooDeep leafC c n depth := by
  obtain ⟨c, hc⟩ := hgood
  refine ⟨c, hc, fun heq => ?_⟩
  obtain ⟨p, hp⟩ := hok c hc
  obtain ⟨key, body, hnil⟩ := hsingle c [] p (compileWith_leaf (heq.trans hp)).2
  cases hnil

/-- A connective that loses a key in an operand. -/
theorem counts_elem {key : String} {xs : List Json} {v' : Json} {n n' : FilterAst}
    (hkey : key = "and" ∨ key = "or") (hxs : xs.all isTree = true)
    (hstray : noStrayElems xs = true) (hkept : elemsKept leaf xs = true)
    (ih : ∀ x ∈ xs, Counts tooDeep leafC leaf good x) (hw : Without (.array xs) v')
    (hn : ofJson (.object [(key, .array xs)]) = some n)
    (hn' : ofJson (.object [(key, v')]) = some n')
    (hok : ∀ c, good c → ∃ p, compileWith tooDeep leafC c n depth = .ok p) :
    ∃ c, good c ∧ compileWith tooDeep leafC c n' depth
      ≠ compileWith tooDeep leafC c n depth := by
  -- the key is below one element, and the others stay as they are
  obtain ⟨xs₁, x, y, xs₂, rfl, rfl, hxy⟩ := hw.of_array
  have hx : x ∈ xs₁ ++ x :: xs₂ := List.mem_append_right _ List.mem_cons_self
  obtain ⟨ns, hns⟩ := Option.isSome_iff_exists.mp ((ofList_isSome _).trans hxs)
  obtain ⟨ns₁, k, ns₂, rfl, hk, hother⟩ := ofList_append hns
  have htree : (ofJson y).isSome = true := by
    rw [ofJson_isSome, isTree_of_without hxy]
    exact List.all_eq_true.mp hxs x hx
  obtain ⟨k', hk'⟩ := Option.isSome_iff_exists.mp htree
  obtain ⟨node, hnode, hof⟩ := ofJson_connective hkey hns
  obtain ⟨node', hnode', hof'⟩ := ofJson_connective hkey (hother y k' hk')
  obtain rfl := hnode.unique hnode'
  obtain rfl := Option.some.inj (hof.symm.trans hn)
  obtain rfl := Option.some.inj (hof'.symm.trans hn')
  have hokk : ∀ c, good c → ∃ p, compileWith tooDeep leafC c k (depth + 1) = .ok p :=
    fun c hc => ((connective_ok_iff hnode).mp (hok c hc)).2 k
      (List.mem_append_right _ List.mem_cons_self)
  -- the element compiles to another condition, and a connective keeps its parts apart
  obtain ⟨c, hc, hne⟩ := ih x hx y hxy (noStrayElems_iff.mp hstray x hx)
    (elemsKept_iff.mp hkept x hx) (depth + 1) k k' hk hk' hokk
  obtain ⟨p, hp⟩ := hok c hc
  exact ⟨c, hc, connective_ne hnode hp hne⟩

/-- A negation that loses a key in what it negates. -/
theorem counts_negated {m : Json.Map} {v' : Json} {n n' : FilterAst}
    (hstray : noStrayKeys (.object m) = true) (hkept : leavesKept leaf (.object m) = true)
    (ih : Counts tooDeep leafC leaf good (.object m)) (hw : Without (.object m) v')
    (hn : ofJson (.object [("not", .object m)]) = some n)
    (hn' : ofJson (.object [("not", v')]) = some n')
    (hok : ∀ c, good c → ∃ p, compileWith tooDeep leafC c n depth = .ok p) :
    ∃ c, good c ∧ compileWith tooDeep leafC c n' depth
      ≠ compileWith tooDeep leafC c n depth := by
  obtain ⟨_, m', h, rfl⟩ | ⟨_, _, h, -⟩ := hw.shape
  · obtain ⟨k, hk⟩ := Option.isSome_iff_exists.mp (ofJson_isSome (.object m))
    obtain ⟨k', hk'⟩ := Option.isSome_iff_exists.mp (ofJson_isSome (.object m'))
    obtain rfl := Option.some.inj ((ofJson_not hk).symm.trans hn)
    obtain rfl := Option.some.inj ((ofJson_not hk').symm.trans hn')
    have hokk : ∀ c, good c → ∃ p, compileWith tooDeep leafC c k (depth + 1) = .ok p := by
      intro c hc
      obtain ⟨p, hp⟩ := hok c hc
      obtain ⟨q, hq, -⟩ := compileWith_not hp
      exact ⟨q, hq⟩
    obtain ⟨c, hc, hne⟩ := ih _ hw hstray hkept (depth + 1) k k' hk hk' hokk
    obtain ⟨p, hp⟩ := hok c hc
    exact ⟨c, hc, not_ne hp hne⟩
  · cases h

/-- Where each key of a leaf that is kept counts in some good context, so does each key of a
tree without stray keys. By induction over the value; an array counts through its elements. -/
theorem compileWith_ne_of_without (hgood : ∃ c, good c)
    (hsingle : ∀ c obj p, leafC c obj = .ok p → ∃ key body, obj = [(key, body)])
    (hleaf : ∀ key body body', leaf [(key, body)] = true → Without body body' →
      (∀ c, good c → ∃ p, leafC c [(key, body)] = .ok p) →
      ∃ c, good c ∧ leafC c [(key, body')] ≠ leafC c [(key, body)]) (v : Json) :
    Counts tooDeep leafC leaf good v ∧
      ∀ xs, v = .array xs → ∀ x ∈ xs, Counts tooDeep leafC leaf good x := by
  induction v using Json.induct with
  | array xs ih =>
    refine ⟨fun w _ _ _ depth n n' h => (by cases h), ?_⟩
    rintro _ ⟨⟩ x hx
    exact (ih x hx).1
  | object kvs ih =>
    refine ⟨fun w hw hstray hkept depth n n' hn hn' hok => ?_, fun xs h => (by cases h)⟩
    -- a node without its only key is the empty leaf, which does not compile
    cases hbool : isBooleanNode kvs with
    | true =>
      rw [leavesKept, if_pos hbool] at hkept
      obtain ⟨key, xs, rfl, hkey, hxs, helems⟩ | ⟨m, rfl, hm⟩ := boolean_cases hbool hstray
      · obtain rfl | ⟨v', rfl, hv'⟩ := hw.of_single
        · obtain rfl := Option.some.inj hn'
          exact empty_ne hgood hsingle hok
        · rw [membersKept, Bool.and_eq_true, leavesKept] at hkept
          have hcounts := (ih _ List.mem_cons_self).2 xs rfl
          exact counts_elem hkey hxs helems hkept.1 hcounts hv' hn hn' hok
      · obtain rfl | ⟨v', rfl, hv'⟩ := hw.of_single
        · obtain rfl := Option.some.inj hn'
          exact empty_ne hgood hsingle hok
        · rw [membersKept, Bool.and_eq_true] at hkept
          exact counts_negated hm hkept.1 (ih _ List.mem_cons_self).1 hv' hn hn' hok
    | false =>
      rw [leavesKept, if_neg (by simp [hbool])] at hkept
      obtain rfl := Option.some.inj ((ofJson_leaf hbool).symm.trans hn)
      have hokleaf : ∀ c, good c → depth < maxFilterDepth ∧ ∃ p, leafC c kvs = .ok p := by
        intro c hc
        obtain ⟨p, hp⟩ := hok c hc
        exact ⟨(compileWith_leaf hp).1, p, (compileWith_leaf hp).2⟩
      -- a leaf compiles only with one member, so the key is in its body or is the member's own
      obtain ⟨c, hc⟩ := id hgood
      obtain ⟨hdepth, p, hp⟩ := hokleaf c hc
      obtain ⟨key, body, rfl⟩ := hsingle c kvs p hp
      obtain rfl | ⟨body', rfl, hbody⟩ := hw.of_single
      · obtain rfl := Option.some.inj hn'
        exact empty_ne hgood hsingle hok
      · rw [← isBooleanNode_of_without hbody] at hbool
        obtain rfl := Option.some.inj ((ofJson_leaf hbool).symm.trans hn')
        obtain ⟨c, hc, hne⟩ := hleaf key body body' hkept hbody fun c hc => (hokleaf c hc).2
        refine ⟨c, hc, fun heq => hne ?_⟩
        rw [compileWith, compileWith, if_neg (not_le.mpr hdepth), if_neg (not_le.mpr hdepth)] at heq
        exact heq
  | _ => exact ⟨fun w _ _ _ depth n n' h => (by cases h), fun xs h => (by cases h)⟩

end Counts

end CompileWith

end FilterAst

end Drust
