import Drust.Rpc.QueryTemplate

/-!
# Where the binds of a filled template come from

A template that passed validation compiles for every call, to one text, and a call only
decides the values of some binds. The proof follows a site through the three stages of a
call.

* Substitution is total on a validated template, and replaces each site by a scalar and
  nothing else (`substitute_eq_fill`).
* The filter tree of a filled template has the shape of the template itself, read with its
  sites as scalars (`ofTemplate`, `ofJson_fill`): a scalar is neither an object nor an
  array, so it can turn no node into another one, wherever its site stands.
* The compiler puts into its text only keys and operators, which are no sites, and the
  lengths of sets, which substitution keeps. The binds are the operands of the template in
  order (`bindOperands`), filled (`compileNode_fill`).

An operand that is no site is bound to the same value by every call, so two calls can
differ only where a site is bound.
-/

namespace Drust.QueryTemplate

open Sql

/-! ### Substitution is filling -/

mutual

/-- Replace every site by its value under `σ`. -/
def fill (σ : Json.Map → Json) : Json → Json
  | .object obj => if isSite obj then σ obj else .object (fillMembers σ obj)
  | .array items => .array (fillItems σ items)
  | .null => .null
  | .bool b => .bool b
  | .number n => .number n
  | .string s => .string s

def fillMembers (σ : Json.Map → Json) : List (String × Json) → List (String × Json)
  | [] => []
  | (k, v) :: kvs => (k, fill σ v) :: fillMembers σ kvs

def fillItems (σ : Json.Map → Json) : List Json → List Json
  | [] => []
  | v :: vs => fill σ v :: fillItems σ vs

end

theorem fillMembers_eq_map (σ : Json.Map → Json) (kvs : Json.Map) :
    fillMembers σ kvs = kvs.map (fun kv => (kv.1, fill σ kv.2)) := by
  induction kvs with
  | nil => rfl
  | cons kv kvs ih =>
    obtain ⟨k, v⟩ := kv
    rw [fillMembers, ih, List.map_cons]

theorem fillItems_eq_map (σ : Json.Map → Json) (vs : List Json) :
    fillItems σ vs = vs.map (fill σ) := by
  induction vs with
  | nil => rfl
  | cons v vs ih => rw [fillItems, ih, List.map_cons]

/-- What a call puts at a site. -/
def siteValue (args : Json.Map) (authId : Option String) (obj : Json.Map) : Json :=
  match singleKey obj paramKey with
  | some name => (name.asStr.bind args.get).getD .null
  | none =>
    match authId with
    | some id => .string id
    | none => .null

/-- All arguments are scalars. -/
def Scalars (args : Json.Map) : Prop :=
  ∀ k v, args.get k = some v → v.isCompound = false

theorem isCompound_siteValue {args : Json.Map} (hargs : Scalars args) (authId : Option String)
    (obj : Json.Map) : (siteValue args authId obj).isCompound = false := by
  unfold siteValue
  split
  · next name _ =>
    cases hname : name.asStr with
    | none => rfl
    | some n =>
      rw [Option.bind_some]
      cases hget : args.get n with
      | none => rfl
      | some v => exact hargs n v hget
  · split <;> rfl

/-- A site that could be replaced in one call can be in every other. -/
theorem paramValue_eq {args args' : Json.Map} (hargs' : Scalars args') {name w : Json}
    (h : paramValue name args = .ok w) :
    paramValue name args' = .ok ((name.asStr.bind args'.get).getD .null) := by
  unfold paramValue at h ⊢
  cases hname : name.asStr with
  | none => simp [hname] at h
  | some n =>
    simp only [Option.bind_some]
    cases hget : args'.get n with
    | none => rfl
    | some v =>
      have hscalar := hargs' n v hget
      simp [hscalar]

/-- Where one call's substitution succeeds every call's does, and it fills the sites. -/
theorem substitute_eq_fill {args args' : Json.Map} (hargs' : Scalars args')
    {authId : Option String} (authId' : Option String) (v : Json) :
    ∀ {w}, substitute args authId v = .ok w →
      substitute args' authId' v = .ok (fill (siteValue args' authId') v) := by
  induction v using Json.induct with
  | array xs ih =>
    intro w h
    rw [substitute] at h ⊢
    obtain ⟨out, hout, -⟩ := Except.bind_eq_ok_iff.mp h
    -- the elements, in order
    have hitems : ∀ {xs : List Json} {out}, (∀ x ∈ xs, ∀ {w}, substitute args authId x = .ok w →
          substitute args' authId' x = .ok (fill (siteValue args' authId') x)) →
        substituteItems args authId xs = .ok out →
        substituteItems args' authId' xs = .ok (fillItems (siteValue args' authId') xs) := by
      intro xs
      induction xs with
      | nil => exact fun _ _ => rfl
      | cons x xs ihxs =>
        intro out ih h
        rw [substituteItems] at h ⊢
        obtain ⟨y, hy, h⟩ := Except.bind_eq_ok_iff.mp h
        obtain ⟨ys, hys, -⟩ := Except.bind_eq_ok_iff.mp h
        obtain ⟨ih₁, ih₂⟩ := List.forall_mem_cons.mp ih
        rw [ih₁ hy, ihxs ih₂ hys]
        rfl
    rw [hitems ih hout]
    rfl
  | object kvs ih =>
    intro w h
    rw [substitute] at h ⊢
    rw [fill, isSite]
    cases hparam : singleKey kvs paramKey with
    | some name =>
      simp only [hparam] at h
      have hsite : siteValue args' authId' kvs = (name.asStr.bind args'.get).getD .null := by
        simp [siteValue, hparam]
      simp only [Option.isSome_some, Bool.true_or, if_true, hsite]
      exact paramValue_eq hargs' h
    | none =>
      simp only [hparam] at h
      cases hauth : singleKey kvs authKey with
      | some key =>
        simp only [hauth] at h
        obtain ⟨u, hkey, -⟩ := Except.bind_eq_ok_iff.mp h
        simp only [Option.isSome_none, Option.isSome_some, Bool.false_or, if_true, siteValue, hparam]
        exact Except.bind_eq_ok_iff.mpr ⟨u, hkey, rfl⟩
      | none =>
        simp only [hauth] at h
        obtain ⟨out, hout, -⟩ := Except.bind_eq_ok_iff.mp h
        have hmembers : ∀ {kvs : Json.Map} {out}, (∀ kv ∈ kvs, ∀ {w},
              substitute args authId kv.2 = .ok w →
              substitute args' authId' kv.2 = .ok (fill (siteValue args' authId') kv.2)) →
            substituteMembers args authId kvs = .ok out →
            substituteMembers args' authId' kvs
              = .ok (fillMembers (siteValue args' authId') kvs) := by
          intro kvs
          induction kvs with
          | nil => exact fun _ _ => rfl
          | cons kv kvs ihkvs =>
            obtain ⟨k, x⟩ := kv
            intro out ih h
            rw [substituteMembers] at h ⊢
            obtain ⟨y, hy, h⟩ := Except.bind_eq_ok_iff.mp h
            obtain ⟨ys, hys, -⟩ := Except.bind_eq_ok_iff.mp h
            obtain ⟨ih₁, ih₂⟩ := List.forall_mem_cons.mp ih
            rw [ih₁ hy, ihkvs ih₂ hys]
            rfl
        rw [hmembers ih hout]
        rfl
  | _ => exact fun _ => rfl

/-! ### The shape of a filled template -/

mutual

/-- Decode a template, with its sites as scalars: a site is no node, and a leaf keeps its
members unfilled. -/
def ofTemplate : Json → Option FilterAst
  | .object kvs =>
    if isSite kvs then none
    else match templateVec "and" kvs with
      | some ns => some (.and ns)
      | none =>
        match templateVec "or" kvs with
        | some ns => some (.or ns)
        | none =>
          match templateBox "not" kvs with
          | some n => some (.not n)
          | none => some (.leaf kvs)
  | _ => none

def templateVec (key : String) : List (String × Json) → Option (List FilterAst)
  | [] => none
  | (k, v) :: kvs => if k = key then templateArray v else templateVec key kvs

def templateBox (key : String) : List (String × Json) → Option FilterAst
  | [] => none
  | (k, v) :: kvs => if k = key then ofTemplate v else templateBox key kvs

def templateArray : Json → Option (List FilterAst)
  | .array xs => templateItems xs
  | _ => none

def templateItems : List Json → Option (List FilterAst)
  | [] => some []
  | x :: xs =>
    match ofTemplate x, templateItems xs with
    | some n, some ns => some (n :: ns)
    | _, _ => none

end

mutual

/-- Fill the leaves of a template's tree. -/
def fillLeaves (σ : Json.Map → Json) : FilterAst → FilterAst
  | .and ns => .and (fillLeavesAll σ ns)
  | .or ns => .or (fillLeavesAll σ ns)
  | .not n => .not (fillLeaves σ n)
  | .leaf obj => .leaf (fillMembers σ obj)

def fillLeavesAll (σ : Json.Map → Json) : List FilterAst → List FilterAst
  | [] => []
  | n :: ns => fillLeaves σ n :: fillLeavesAll σ ns

end

section Shape

variable {σ : Json.Map → Json}

/-- A scalar decodes neither as a node nor as a list of nodes. -/
theorem ofJson_of_scalar {v : Json} (h : v.isCompound = false) :
    FilterAst.ofJson v = none ∧ FilterAst.ofArray v = none := by
  cases v with
  | array xs => cases h
  | object kvs => cases h
  | _ => exact ⟨rfl, rfl⟩

/-- Looking for a member and filling commute. -/
theorem vecField_fillMembers {kvs : Json.Map} (key : String)
    (ih : ∀ kv ∈ kvs, FilterAst.ofArray (fill σ kv.2)
      = (templateArray kv.2).map (fillLeavesAll σ)) :
    FilterAst.vecField key (fillMembers σ kvs)
      = (templateVec key kvs).map (fillLeavesAll σ) := by
  induction kvs with
  | nil => rfl
  | cons kv kvs ihkvs =>
    obtain ⟨k, v⟩ := kv
    obtain ⟨ih₁, ih₂⟩ := List.forall_mem_cons.mp ih
    rw [fillMembers, FilterAst.vecField, templateVec]
    split
    · exact ih₁
    · exact ihkvs ih₂

theorem boxField_fillMembers {kvs : Json.Map} (key : String)
    (ih : ∀ kv ∈ kvs, FilterAst.ofJson (fill σ kv.2)
      = (ofTemplate kv.2).map (fillLeaves σ)) :
    FilterAst.boxField key (fillMembers σ kvs)
      = (templateBox key kvs).map (fillLeaves σ) := by
  induction kvs with
  | nil => rfl
  | cons kv kvs ihkvs =>
    obtain ⟨k, v⟩ := kv
    obtain ⟨ih₁, ih₂⟩ := List.forall_mem_cons.mp ih
    rw [fillMembers, FilterAst.boxField, templateBox]
    split
    · exact ih₁
    · exact ihkvs ih₂

theorem ofList_fillItems {xs : List Json}
    (ih : ∀ x ∈ xs, FilterAst.ofJson (fill σ x) = (ofTemplate x).map (fillLeaves σ)) :
    FilterAst.ofList (fillItems σ xs) = (templateItems xs).map (fillLeavesAll σ) := by
  induction xs with
  | nil => rfl
  | cons x xs ihxs =>
    obtain ⟨ih₁, ih₂⟩ := List.forall_mem_cons.mp ih
    rw [fillItems, FilterAst.ofList, templateItems, ih₁, ihxs ih₂]
    cases ofTemplate x <;> cases templateItems xs <;> rfl

/-- A filled template decodes to the filled tree of the template. -/
theorem ofJson_fill (hσ : ∀ obj, (σ obj).isCompound = false) (v : Json) :
    FilterAst.ofJson (fill σ v) = (ofTemplate v).map (fillLeaves σ) ∧
      FilterAst.ofArray (fill σ v) = (templateArray v).map (fillLeavesAll σ) := by
  induction v using Json.induct with
  | array xs ih =>
    refine ⟨rfl, ?_⟩
    exact ofList_fillItems (fun x hx => (ih x hx).1)
  | object kvs ih =>
    rw [fill]
    by_cases hsite : isSite kvs = true
    · -- a scalar stands where the site was
      rw [if_pos hsite]
      obtain ⟨hnode, hlist⟩ := ofJson_of_scalar (hσ kvs)
      rw [hnode, hlist, ofTemplate, if_pos hsite]
      exact ⟨rfl, rfl⟩
    · rw [if_neg hsite]
      refine ⟨?_, rfl⟩
      have hvec : ∀ key, FilterAst.vecField key (fillMembers σ kvs)
          = (templateVec key kvs).map (fillLeavesAll σ) :=
        fun key => vecField_fillMembers key (fun kv hkv => (ih kv hkv).2)
      have hbox : ∀ key, FilterAst.boxField key (fillMembers σ kvs)
          = (templateBox key kvs).map (fillLeaves σ) :=
        fun key => boxField_fillMembers key (fun kv hkv => (ih kv hkv).1)
      rw [FilterAst.ofJson, ofTemplate, if_neg hsite, hvec, hvec, hbox]
      cases templateVec "and" kvs with
      | some ns => rfl
      | none =>
        cases templateVec "or" kvs with
        | some ns => rfl
        | none => cases templateBox "not" kvs <;> rfl
  | _ => exact ⟨rfl, rfl⟩

end Shape

/-! ### The binds of a filled template -/

/-- The operands of a leaf that are bound, in order. -/
def leafOperands : Json → List Json
  | .object obj =>
    if isSite obj then [.object obj]
    else match obj with
      | [(op, operand)] =>
        if (VectorFilter.sqlOp op).isSome then [operand]
        else if op = "in" ∨ op = "nin" then operand.asArray.getD []
        else []
      | _ => []
  | body => [body]

mutual

/-- The operands of a template that are bound, in order. -/
def bindOperands : FilterAst → List Json
  | .and ns => bindOperandsAll ns
  | .or ns => bindOperandsAll ns
  | .not n => bindOperands n
  | .leaf [(_, body)] => leafOperands body
  | .leaf _ => []

def bindOperandsAll : List FilterAst → List Json
  | [] => []
  | n :: ns => bindOperands n ++ bindOperandsAll ns

end

mutual

/-- No leaf of the tree is a full-text search. -/
def ftsFree : FilterAst → Bool
  | .and ns => ftsFreeAll ns
  | .or ns => ftsFreeAll ns
  | .not n => ftsFree n
  | .leaf obj => !Json.Map.containsKey obj "$fts"

def ftsFreeAll : List FilterAst → Bool
  | [] => true
  | n :: ns => ftsFree n && ftsFreeAll ns

end

theorem ftsFree_of_mem {n : FilterAst} {ns : List FilterAst} (h : ftsFreeAll ns = true)
    (hn : n ∈ ns) : ftsFree n = true := by
  induction ns with
  | nil => simp at hn
  | cons m ns ih =>
    rw [ftsFreeAll, Bool.and_eq_true] at h
    obtain rfl | hn := List.mem_cons.mp hn
    · exact h.1
    · exact ih h.2 hn

/-- The values a call binds for a list of operands. -/
def boundValues (σ : Json.Map → Json) (operands : List Json) : List Value :=
  operands.map (fun v => jsonToValue (fill σ v))

section Binding

variable {schema : CollectionSchema} {σ σ' : Json.Map → Json}
  (hσ : ∀ obj, (σ obj).isCompound = false) (hσ' : ∀ obj, (σ' obj).isCompound = false)

/-- Two runs of the compiler: where the first succeeds the second does, with the same text,
and it binds the filled operands. -/
def Rebinds (σ' : Json.Map → Json) (operands : List Json) (p : Compiled)
    (again : Except FilterError Compiled) : Prop :=
  again = .ok (p.1, boundValues σ' operands)

include hσ

theorem compileOp_fill {f op : String} {operand : Json} {p : Compiled}
    (h : VectorFilter.compileOp f op (fill σ operand) = .ok p) :
    Rebinds σ' (if (VectorFilter.sqlOp op).isSome then [operand]
      else if op = "in" ∨ op = "nin" then operand.asArray.getD [] else []) p
      (VectorFilter.compileOp f op (fill σ' operand)) := by
  unfold Rebinds
  unfold VectorFilter.compileOp at h ⊢
  cases hop : VectorFilter.sqlOp op with
  | some sym =>
    simp only [hop] at h
    rw [← Except.ok.inj h]
    rfl
  | none =>
    simp only [hop] at h
    simp only [Option.isSome_none, Bool.false_eq_true, if_false]
    by_cases hin : op = "in" ∨ op = "nin"
    · simp only [hin, if_true] at h ⊢
      cases operand with
      | array arr =>
        -- a set keeps its length, so it keeps its placeholders
        simp only [fill, fillItems_eq_map, List.isEmpty_map, List.length_map] at h ⊢
        split at h
        · next hempty =>
          rw [if_pos hempty, ← Except.ok.inj h, List.isEmpty_iff.mp hempty]
          rfl
        · next hempty =>
          rw [if_neg hempty, ← Except.ok.inj h]
          simp [boundValues, Json.asArray, List.map_map, Function.comp_def]
      | object obj =>
        -- neither a scalar nor an object is a set
        have hnot : ∀ arr, fill σ (.object obj) ≠ .array arr := by
          intro arr harr
          rw [fill] at harr
          split at harr
          · have hscalar := hσ obj
            rw [harr] at hscalar
            cases hscalar
          · cases harr
        split at h
        · next arr harr => exact absurd harr (hnot arr)
        · cases h
      | _ => cases h
    · simp only [hin, if_false] at h ⊢
      split at h
      · next hnull =>
        rw [if_pos hnull, ← Except.ok.inj h]
        rfl
      · cases h

include hσ' in
theorem compileLeaf_fill {f : String} {body : Json} {p : Compiled}
    (h : VectorFilter.compileLeaf f (fill σ body) = .ok p) :
    Rebinds σ' (leafOperands body) p (VectorFilter.compileLeaf f (fill σ' body)) := by
  -- a body that is no object is compared for equality
  have hshort : ∀ {v w : Json}, (∀ obj, v ≠ .object obj) → (∀ obj, w ≠ .object obj) →
      VectorFilter.compileLeaf f v = .ok p →
      VectorFilter.compileLeaf f w = .ok (p.1, [jsonToValue w]) := by
    intro v w hv hw hcomp
    have hp : p.1 = quoteIdent f ++ " = ?" := by
      cases v with
      | object obj => exact absurd rfl (hv obj)
      | _ => rw [← Except.ok.inj hcomp]
    rw [hp]
    cases w with
    | object obj => exact absurd rfl (hw obj)
    | _ => rfl
  cases body with
  | object obj =>
    rw [fill] at h ⊢
    unfold leafOperands
    by_cases hsite : isSite obj = true
    · rw [if_pos hsite] at h ⊢
      have hne : ∀ {τ : Json.Map → Json}, (τ obj).isCompound = false → ∀ o, τ obj ≠ .object o := by
        intro τ hτ o ho
        rw [ho] at hτ
        cases hτ
      simp only [hsite, if_true]
      have := hshort (hne (hσ obj)) (hne (hσ' obj)) h
      rw [Rebinds, this]
      simp [boundValues, fill, hsite]
    · rw [if_neg hsite] at h ⊢
      simp only [hsite, Bool.false_eq_true, if_false]
      match obj, h with
      | [], h => cases h
      | [(op, operand)], h => exact compileOp_fill hσ h
      | _ :: _ :: _, h => cases h
  | array xs => exact hshort (by simp [fill]) (by simp [fill]) h
  | null => exact hshort (by simp [fill]) (by simp [fill]) h
  | bool b => exact hshort (by simp [fill]) (by simp [fill]) h
  | number n => exact hshort (by simp [fill]) (by simp [fill]) h
  | string s => exact hshort (by simp [fill]) (by simp [fill]) h

omit hσ in
/-- The children of a boolean node. -/
theorem compileNodes_fill {ns : List FilterAst} {depth : Nat}
    (ih : ∀ n ∈ ns, ∀ p, VectorFilter.compileNode schema (fillLeaves σ n) depth = .ok p →
      Rebinds σ' (bindOperands n) p (VectorFilter.compileNode schema (fillLeaves σ' n) depth)) :
    ∀ {parts}, VectorFilter.compileNodes schema (fillLeavesAll σ ns) depth = .ok parts →
      ∃ parts', VectorFilter.compileNodes schema (fillLeavesAll σ' ns) depth = .ok parts' ∧
        parts'.map Prod.fst = parts.map Prod.fst ∧
        parts'.flatMap Prod.snd = boundValues σ' (bindOperandsAll ns) := by
  induction ns with
  | nil =>
    intro parts h
    obtain rfl := Except.ok.inj h
    exact ⟨[], rfl, rfl, rfl⟩
  | cons n ns ihns =>
    intro parts h
    rw [fillLeavesAll, VectorFilter.compileNodes] at h ⊢
    obtain ⟨part, hpart, h⟩ := Except.bind_eq_ok_iff.mp h
    obtain ⟨rest, hrest, h⟩ := Except.bind_eq_ok_iff.mp h
    obtain rfl := Except.ok.inj h
    obtain ⟨ih₁, ih₂⟩ := List.forall_mem_cons.mp ih
    obtain ⟨rest', hrest', htext, hbinds⟩ := ihns ih₂ hrest
    have hhead := ih₁ part hpart
    rw [Rebinds] at hhead
    refine ⟨(part.1, boundValues σ' (bindOperands n)) :: rest', ?_, ?_, ?_⟩
    · rw [hhead, hrest']
      rfl
    · rw [List.map_cons, List.map_cons, htext]
    · rw [List.flatMap_cons, hbinds, bindOperandsAll, boundValues, boundValues, boundValues,
        List.map_append]

include hσ' in
/-- A filled template compiles to one text, whatever it is filled with, and binds its
filled operands. By induction over the template's tree. -/
theorem compileNode_fill (n : FilterAst) :
    ftsFree n = true → ∀ {depth p},
      VectorFilter.compileNode schema (fillLeaves σ n) depth = .ok p →
      Rebinds σ' (bindOperands n) p
        (VectorFilter.compileNode schema (fillLeaves σ' n) depth) := by
  induction n using FilterAst.induct with
  | and ns ih =>
    intro hfts depth p h
    rw [fillLeaves, VectorFilter.compileNode.eq_def] at h ⊢
    split at h
    · cases h
    · next hdepth =>
      rw [if_neg hdepth]
      cases ns with
      | nil =>
        rw [← Except.ok.inj h]
        rfl
      | cons n ns =>
        obtain ⟨parts, hparts, h⟩ := Except.bind_eq_ok_iff.mp h
        obtain ⟨parts', hparts', htext, hbinds⟩ := compileNodes_fill
          (fun n hn p hp => ih n hn (ftsFree_of_mem hfts hn) hp) hparts
        rw [Rebinds, ← Except.ok.inj h]
        refine Except.bind_eq_ok_iff.mpr ⟨parts', hparts', ?_⟩
        rw [htext, hbinds]
        rfl
  | or ns ih =>
    intro hfts depth p h
    rw [fillLeaves, VectorFilter.compileNode.eq_def] at h ⊢
    split at h
    · cases h
    · next hdepth =>
      rw [if_neg hdepth]
      cases ns with
      | nil =>
        rw [← Except.ok.inj h]
        rfl
      | cons n ns =>
        obtain ⟨parts, hparts, h⟩ := Except.bind_eq_ok_iff.mp h
        obtain ⟨parts', hparts', htext, hbinds⟩ := compileNodes_fill
          (fun n hn p hp => ih n hn (ftsFree_of_mem hfts hn) hp) hparts
        rw [Rebinds, ← Except.ok.inj h]
        refine Except.bind_eq_ok_iff.mpr ⟨parts', hparts', ?_⟩
        rw [htext, hbinds]
        rfl
  | not n ih =>
    intro hfts depth p h
    rw [fillLeaves, VectorFilter.compileNode.eq_def] at h ⊢
    split at h
    · cases h
    · next hdepth =>
      rw [if_neg hdepth]
      obtain ⟨inner, hinner, h⟩ := Except.bind_eq_ok_iff.mp h
      have hagain := ih hfts hinner
      rw [Rebinds] at hagain ⊢
      simp only [hagain]
      rw [← Except.ok.inj h]
      rfl
  | leaf obj =>
    intro hfts depth p h
    rw [fillLeaves, VectorFilter.compileNode.eq_def] at h ⊢
    split at h
    · cases h
    · next hdepth =>
      rw [if_neg hdepth]
      cases obj with
      | nil => cases h
      | cons member rest =>
        obtain ⟨key, body⟩ := member
        cases rest with
        | nil =>
          have hkey : key ≠ "$fts" := by
            rintro rfl
            simp [ftsFree, Json.Map.containsKey] at hfts
          simp only [fillMembers, hkey, if_false] at h ⊢
          obtain ⟨u, hvalid, h⟩ := Except.bind_eq_ok_iff.mp h
          rw [Rebinds, hvalid, Except.ok_bind]
          exact compileLeaf_fill hσ hσ' h
        | cons next rest => cases h

end Binding

/-! ### Arguments are scalars -/

/-- Every member of the object is a scalar. -/
def AllScalar (m : Json.Map) : Prop :=
  ∀ kv ∈ m, kv.2.isCompound = false

theorem AllScalar.scalars {m : Json.Map} (h : AllScalar m) : Scalars m :=
  fun _ _ hget => h _ (Json.Map.mem_of_get hget)

theorem AllScalar.insert {m : Json.Map} (h : AllScalar m) {k : String} {v : Json}
    (hv : v.isCompound = false) : AllScalar (m.insert k v) := by
  intro kv hkv
  unfold Json.Map.insert at hkv
  split at hkv
  · obtain ⟨kv', hkv', rfl⟩ := List.mem_map.mp hkv
    by_cases hk : (kv'.1 == k) = true
    · rw [if_pos hk]
      exact hv
    · rw [if_neg hk]
      exact h kv' hkv'
  · obtain hkv | hkv := List.mem_append.mp hkv
    · exact h kv hkv
    · rw [List.mem_singleton.mp hkv]
      exact hv

/-- The arguments that validation fills in. -/
theorem allScalar_dummies (specs : List ParamSpec) : AllScalar (dummies specs) := by
  have hfold : ∀ (specs : List ParamSpec) (m : Json.Map), AllScalar m →
      AllScalar (specs.foldl (fun m s => Json.Map.insert m s.name (dummyFor s.ty)) m) := by
    intro specs
    induction specs with
    | nil => exact fun m hm => hm
    | cons s specs ih =>
      intro m hm
      rw [List.foldl_cons]
      exact ih _ (hm.insert (by cases s.ty <;> rfl))
  exact hfold specs [] (by simp [AllScalar])

/-- The defaults of a validated template. -/
theorem isCompound_default {specs : List ParamSpec} (h : checkDefaults specs = .ok ()) :
    ∀ s ∈ specs, ∀ d, s.default = some d → d.isCompound = false := by
  induction specs with
  | nil => simp
  | cons s specs ih =>
    rw [checkDefaults] at h
    cases hd : s.default with
    | none =>
      simp only [hd] at h
      refine List.forall_mem_cons.mpr ⟨fun d hd' => ?_, ih h⟩
      rw [hd] at hd'
      cases hd'
    | some d =>
      simp only [hd] at h
      split at h
      · cases h
      · next hscalar =>
        split at h
        · cases h
        · refine List.forall_mem_cons.mpr ⟨fun d' hd' => ?_, ih h⟩
          rw [hd] at hd'
          rw [← Option.some.inj hd']
          simpa using hscalar

/-- Checked arguments, completed with the defaults. -/
theorem allScalar_resolveArgs {specs : List ParamSpec} (hdefaults : checkDefaults specs = .ok ())
    {body args : Json.Map} (h : resolveArgs specs body = .ok args) : AllScalar args := by
  obtain ⟨u, hcheck, h⟩ := Except.bind_eq_ok_iff.mp h
  obtain rfl := Except.ok.inj h
  have hbody : AllScalar body := by
    unfold checkArgs at hcheck
    split at hcheck
    · cases hcheck
    · split at hcheck
      · cases hcheck
      · next hnone =>
        intro kv hkv
        simpa using List.find?_eq_none.mp hnone kv hkv
  -- every default that is filled in is a scalar
  have hfold : ∀ (ss : List ParamSpec) (m : Json.Map),
      (∀ s ∈ ss, ∀ d, s.default = some d → d.isCompound = false) → AllScalar m →
      AllScalar (applyDefaults ss m) := by
    intro ss
    induction ss with
    | nil => exact fun m _ hm => hm
    | cons s ss ih =>
      intro m hss hm
      obtain ⟨hs, hss⟩ := List.forall_mem_cons.mp hss
      refine ih _ hss ?_
      show AllScalar (match s.default with
        | some d => if m.containsKey s.name then m else m.insert s.name d
        | none => m)
      split
      · next d hd =>
        split
        · exact hm
        · exact hm.insert (hs d hd)
      · exact hm
  exact hfold specs body (isCompound_default hdefaults) hbody

/-! ### Calls -/

mutual

theorem ftsFree_fillLeaves (σ : Json.Map → Json) : ∀ n, ftsFree (fillLeaves σ n) = ftsFree n
  | .and ns => ftsFreeAll_fillLeaves σ ns
  | .or ns => ftsFreeAll_fillLeaves σ ns
  | .not n => ftsFree_fillLeaves σ n
  | .leaf obj => by
    rw [fillLeaves, ftsFree, ftsFree, fillMembers_eq_map, Json.Map.containsKey, Json.Map.containsKey,
      List.any_map]
    rfl

theorem ftsFreeAll_fillLeaves (σ : Json.Map → Json) :
    ∀ ns, ftsFreeAll (fillLeavesAll σ ns) = ftsFreeAll ns
  | [] => rfl
  | n :: ns => by
    rw [fillLeavesAll, ftsFreeAll, ftsFreeAll, ftsFree_fillLeaves σ n, ftsFreeAll_fillLeaves σ ns]

end

/-- The operands that a call of the template binds, in order. -/
def operands (tpl : QueryTemplate) : List Json :=
  ((tpl.filter.bind ofTemplate).map bindOperands).getD []

/-- An operand that is no site is bound to the same value by every call. -/
theorem isSite_of_bound_ne {σ σ' : Json.Map → Json} {v : Json}
    (h : jsonToValue (fill σ v) ≠ jsonToValue (fill σ' v)) :
    ∃ obj, v = .object obj ∧ isSite obj = true := by
  cases v with
  | object obj =>
    refine ⟨obj, rfl, ?_⟩
    by_contra hsite
    rw [fill, fill, if_neg hsite, if_neg hsite] at h
    exact h rfl
  | _ => exact absurd rfl h

/-- The statements of two requests that differ in their filters. -/
theorem buildStructuredListSql_refilter {schema : CollectionSchema} {tpl : QueryTemplate}
    {a a' : FilterAst} {r : ListSql} {vs : List Value}
    (h : ListBuilder.buildStructuredListSql schema (tpl.listRequest (some a)) none none = .ok r)
    (hagain : ∀ p, VectorFilter.compile schema a = .ok p →
      VectorFilter.compile schema a' = .ok (p.1, vs)) :
    ListBuilder.buildStructuredListSql schema (tpl.listRequest (some a')) none none
      = .ok { r with binds := vs } := by
  unfold ListBuilder.buildStructuredListSql at h ⊢
  obtain ⟨cols, hcols, h⟩ := Except.bind_eq_ok_iff.mp h
  obtain ⟨⟨clause, binds⟩, hwhere, h⟩ := Except.bind_eq_ok_iff.mp h
  obtain ⟨⟨field, dir⟩, horder, h⟩ := Except.bind_eq_ok_iff.mp h
  obtain ⟨⟨limit, offset⟩, hpage, h⟩ := Except.bind_eq_ok_iff.mp h
  -- the filter clause is the only one that is not the same
  have hwhere' : ListBuilder.buildWhereClause schema (some a') none none = .ok (clause, vs) := by
    change ListBuilder.buildWhereClause schema (some a) none none = _ at hwhere
    unfold ListBuilder.buildWhereClause ListBuilder.filterClause at hwhere ⊢
    cases hcomp : VectorFilter.compile schema a with
    | error e => simp [hcomp] at hwhere
    | ok p =>
      simp only [hagain p hcomp]
      simp only [hcomp] at hwhere
      have hclause := (Prod.mk.inj (Except.ok.inj hwhere)).1
      rw [← hclause]
      simp
  rw [show ListBuilder.projection schema (tpl.listRequest (some a')).select = .ok cols from hcols,
    show ListBuilder.buildWhereClause schema (tpl.listRequest (some a')).filter none none = _ from
      hwhere',
    show ListBuilder.orderBy schema (tpl.listRequest (some a')).sort = _ from horder,
    show ListBuilder.pageWindow (tpl.listRequest (some a')).page (tpl.listRequest (some a')).perPage
      = _ from hpage]
  rw [← Except.ok.inj h]
  rfl

/-- What validation leaves behind: scalar defaults, and a compiled template. -/
theorem validateTemplate_ok {schema : CollectionSchema} {tpl : QueryTemplate}
    {specs : List ParamSpec} (h : validateTemplate schema tpl specs = .ok ()) :
    checkDefaults specs = .ok () ∧
      ∃ dry, compileFilled schema tpl (dummies specs) (some "dummy") = .ok dry := by
  unfold validateTemplate at h
  simp only at h
  split at h
  · cases h
  split at h
  · cases h
  split at h
  · cases h
  split at h
  · cases h
  obtain ⟨u, hdefaults, h⟩ := Except.bind_eq_ok_iff.mp h
  obtain ⟨u', -, h⟩ := Except.bind_eq_ok_iff.mp h
  obtain ⟨filter, hfilter, h⟩ := Except.bind_eq_ok_iff.mp h
  refine ⟨hdefaults, ?_⟩
  cases hbuild : ListBuilder.buildStructuredListSql schema (tpl.listRequest filter) none none with
  | error e => simp [hbuild] at h
  | ok dry =>
    refine ⟨dry, Except.bind_eq_ok_iff.mpr ⟨filter, hfilter, ?_⟩⟩
    rw [hbuild]

/-- A request without a filter binds nothing. -/
theorem buildStructuredListSql_unfiltered {schema : CollectionSchema} {tpl : QueryTemplate}
    {r : ListSql}
    (h : ListBuilder.buildStructuredListSql schema (tpl.listRequest none) none none = .ok r) :
    r.binds = [] := by
  unfold ListBuilder.buildStructuredListSql at h
  obtain ⟨cols, -, h⟩ := Except.bind_eq_ok_iff.mp h
  obtain ⟨⟨clause, binds⟩, hwhere, h⟩ := Except.bind_eq_ok_iff.mp h
  obtain ⟨⟨field, dir⟩, -, h⟩ := Except.bind_eq_ok_iff.mp h
  obtain ⟨⟨limit, offset⟩, -, h⟩ := Except.bind_eq_ok_iff.mp h
  have hbinds : binds = [] := ((Prod.mk.inj (Except.ok.inj hwhere)).2).symm
  rw [← Except.ok.inj h, hbinds]

/-- Where one call fills the filter of a template to a tree, every call does, and the trees
are the template's own, filled. -/
theorem fillFilter_eq {tpl : QueryTemplate} {f : Json} (hf : tpl.filter = some f)
    {dargs args : Json.Map} (hdargs : Scalars dargs) (hargs : Scalars args)
    {dauth : Option String} (auth : Option String) {filter : Option FilterAst}
    (h : fillFilter tpl dargs dauth = .ok filter) :
    ∃ t, ofTemplate f = some t ∧ filter = some (fillLeaves (siteValue dargs dauth) t) ∧
      fillFilter tpl args auth = .ok (some (fillLeaves (siteValue args auth) t)) := by
  simp only [fillFilter, hf] at h ⊢
  obtain ⟨ast, hast, h⟩ := Except.bind_eq_ok_iff.mp h
  obtain rfl := Except.ok.inj h
  obtain ⟨w, hw, hast⟩ := Except.bind_eq_ok_iff.mp hast
  -- both calls fill the sites, and the tree of the one decides that of the other
  have hfill := substitute_eq_fill hargs auth f hw
  have hdfill := substitute_eq_fill hdargs dauth f hw
  rw [hw] at hdfill
  obtain rfl := Except.ok.inj hdfill
  rw [(ofJson_fill (isCompound_siteValue hdargs dauth) f).1] at hast
  cases ht : ofTemplate f with
  | none => simp [ht] at hast
  | some t =>
    simp only [ht, Option.map_some, Except.ok.injEq] at hast
    refine ⟨t, rfl, by rw [hast], ?_⟩
    rw [substituteToFilterAst, hfill, Except.ok_bind,
      (ofJson_fill (isCompound_siteValue hargs auth) f).1, ht]
    rfl

/-- One call against the dry compile of a template. -/
theorem compileFilled_eq_dry {schema : CollectionSchema} {tpl : QueryTemplate}
    {dargs args : Json.Map} {dauth : Option String} {dry : ListSql}
    (hdry : compileFilled schema tpl dargs dauth = .ok dry)
    (hfts : ∀ ast, fillFilter tpl dargs dauth = .ok (some ast) → ftsFree ast = true)
    (hdargs : Scalars dargs) (hargs : Scalars args) (auth : Option String) :
    compileFilled schema tpl args auth
      = .ok { dry with binds := boundValues (siteValue args auth) tpl.operands } := by
  obtain ⟨filter, hfilter, hbuild⟩ := Except.bind_eq_ok_iff.mp hdry
  unfold compileFilled operands
  cases hf : tpl.filter with
  | none =>
    -- without a filter there is nothing to bind
    have hnone : ∀ args auth, fillFilter tpl args auth = .ok none := by
      intro args auth
      rw [fillFilter, hf]
    rw [hnone] at hfilter ⊢
    obtain rfl := Except.ok.inj hfilter
    cases hlist : ListBuilder.buildStructuredListSql schema (tpl.listRequest none) none none with
    | error e => simp [hlist] at hbuild
    | ok r =>
      simp only [hlist, Except.ok.injEq] at hbuild
      subst hbuild
      have hbinds := buildStructuredListSql_unfiltered hlist
      have hsame : r = { r with binds := [] } := by
        rw [← hbinds]
      rw [Except.ok_bind, hlist]
      exact congrArg Except.ok hsame
  | some f =>
    obtain ⟨t, ht, rfl, hfill⟩ := fillFilter_eq hf hdargs hargs auth hfilter
    have hfree : ftsFree t = true := by
      rw [← ftsFree_fillLeaves (siteValue dargs dauth)]
      exact hfts _ hfilter
    rw [hfill, Except.ok_bind, Option.bind_some, ht]
    cases hlist : ListBuilder.buildStructuredListSql schema
        (tpl.listRequest (some (fillLeaves (siteValue dargs dauth) t))) none none with
    | error e => simp [hlist] at hbuild
    | ok r =>
      simp only [hlist, Except.ok.injEq] at hbuild
      subst hbuild
      have hagain := buildStructuredListSql_refilter hlist (fun p hp =>
        compileNode_fill (isCompound_siteValue hdargs dauth) (isCompound_siteValue hargs auth)
          t hfree hp)
      rw [hagain]
      rfl

/-- Arguments cannot inject. A validated template without a full-text search compiles for
every accepted argument body and every caller, to the two texts of the dry compile. The
binds of a call are the operands of the template with their sites filled, so two calls bind
equally many values, and different ones only where the operand is a site. -/
theorem compileFilled_noninterference {schema : CollectionSchema} {tpl : QueryTemplate}
    {specs : List ParamSpec} (hvalid : validateTemplate schema tpl specs = .ok ())
    (hfts : ∀ ast, fillFilter tpl (dummies specs) (some "dummy") = .ok (some ast) →
      ftsFree ast = true)
    {body₁ body₂ args₁ args₂ : Json.Map} (h₁ : resolveArgs specs body₁ = .ok args₁)
    (h₂ : resolveArgs specs body₂ = .ok args₂) (auth₁ auth₂ : Option String) :
    ∃ dry r₁ r₂, compileFilled schema tpl (dummies specs) (some "dummy") = .ok dry ∧
      compileFilled schema tpl args₁ auth₁ = .ok r₁ ∧
      compileFilled schema tpl args₂ auth₂ = .ok r₂ ∧
      r₁.listSql = dry.listSql ∧ r₂.listSql = dry.listSql ∧
      r₁.countSql = dry.countSql ∧ r₂.countSql = dry.countSql ∧
      r₁.binds = boundValues (siteValue args₁ auth₁) tpl.operands ∧
      r₂.binds = boundValues (siteValue args₂ auth₂) tpl.operands ∧
      r₁.binds.length = r₂.binds.length ∧
      ∀ i : Nat, r₁.binds[i]? ≠ r₂.binds[i]? →
        ∃ obj, tpl.operands[i]? = some (Json.object obj) ∧ isSite obj = true := by
  obtain ⟨hdefaults, dry, hdry⟩ := validateTemplate_ok hvalid
  have hdummies := (allScalar_dummies specs).scalars
  have hcall : ∀ {body args}, resolveArgs specs body = .ok args → ∀ auth,
      compileFilled schema tpl args auth
        = .ok { dry with binds := boundValues (siteValue args auth) tpl.operands } :=
    fun h auth => compileFilled_eq_dry hdry hfts hdummies
      (allScalar_resolveArgs hdefaults h).scalars auth
  refine ⟨dry, _, _, hdry, hcall h₁ auth₁, hcall h₂ auth₂, rfl, rfl, rfl, rfl, rfl, rfl,
    by simp [boundValues], ?_⟩
  intro i hne
  cases hi : tpl.operands[i]? with
  | none => simp [boundValues, hi] at hne
  | some v =>
    simp only [boundValues, List.getElem?_map, hi, Option.map_some, ne_eq, Option.some.injEq] at hne
    obtain ⟨obj, rfl, hsite⟩ := isSite_of_bound_ne hne
    exact ⟨obj, rfl, hsite⟩

/-- The open posts of an author above a score, `{"and":[{"author":{"$auth":"id"}},
{"score":{"gte":{"$param":"min"}}},{"state":"open"}]}`. -/
def openPosts : QueryTemplate where
  collection := "posts"
  filter := some (.object [("and", .array [
    .object [("author", .object [("$auth", .string "id")])],
    .object [("score", .object [("gte", .object [("$param", .string "min")])])],
    .object [("state", .string "open")]])])

def postsSchema : CollectionSchema where
  name := "posts"
  fields := [⟨"id", "INTEGER"⟩, ⟨"author", "TEXT"⟩, ⟨"score", "INTEGER"⟩, ⟨"state", "TEXT"⟩]

def minSpec : ParamSpec where
  name := "min"
  ty := .integer
  required := false
  default := some (.number (.posInt 10))

theorem compileFilled_openPosts :
    ∃ dry r₁ r₂, compileFilled postsSchema openPosts (dummies [minSpec]) (some "dummy") = .ok dry ∧
      compileFilled postsSchema openPosts [("min", .number (.posInt 3))] (some "u_1") = .ok r₁ ∧
      compileFilled postsSchema openPosts [("min", .number (.posInt 10))] none = .ok r₂ ∧
      r₁.listSql = dry.listSql ∧ r₂.listSql = dry.listSql ∧
      r₁.binds.length = r₂.binds.length := by
  have hvalid : validateTemplate postsSchema openPosts [minSpec] = .ok () := by decide +kernel
  have hfts : ∀ ast, fillFilter openPosts (dummies [minSpec]) (some "dummy") = .ok (some ast) →
      ftsFree ast = true := by
    intro ast h
    obtain rfl := Option.some.inj (Except.ok.inj h)
    decide +kernel
  -- the second caller is anonymous and leaves the argument to its default
  have h₁ : resolveArgs [minSpec] [("min", .number (.posInt 3))]
      = .ok [("min", .number (.posInt 3))] := by rfl
  have h₂ : resolveArgs [minSpec] [] = .ok [("min", .number (.posInt 10))] := by rfl
  obtain ⟨dry, r₁, r₂, hdry, hr₁, hr₂, hlist₁, hlist₂, -, -, -, -, hlen, -⟩ :=
    compileFilled_noninterference hvalid hfts h₁ h₂ (some "u_1") none
  exact ⟨dry, r₁, r₂, hdry, hr₁, hr₂, hlist₁, hlist₂, hlen⟩

end Drust.QueryTemplate
