import Drust.Lib.Digits
import Drust.Lib.Sql.Where

/-!
# Statements with their values in place

A statement has a placeholder `?` for each of its values, and the values come in a vector of
their own. `inline` puts the i-th value where the i-th placeholder stands; it fails when values
are missing or left over. What it gives is a list of tokens that has values and no placeholders
(`Filled`), the statement as it would read with its values written out.

`Spells c fs` says of a generated piece and the binds pushed for it that they read `fs` in every
context. Its rules follow the way text is put together: fixed text, quoted identifiers,
numbers, placeholders, parentheses, lists, and one piece behind another.
-/

namespace Sql

/-! ### Values in place of placeholders -/

/-- A token of a statement that has its values in place. -/
inductive Filled where
  | word (w : String)
  | ident (name : String)
  | str (s : String)
  | num (digits : String)
  | sym (s : String)
  /-- A value, where the statement has a placeholder. -/
  | value (v : Value)
  deriving DecidableEq

namespace Filled

/-- The token of the statement. -/
def tok : Filled → Tok
  | .word w => .word w
  | .ident name => .ident name
  | .str s => .str s
  | .num digits => .num digits
  | .sym s => .sym s
  | .value _ => .param

def value? : Filled → Option Value
  | .value v => some v
  | _ => none

end Filled

/-- The values of a statement, in order. -/
def values (fs : List Filled) : List Value :=
  fs.filterMap Filled.value?

/-- Put the values in the places of the placeholders. -/
def inline : List Tok → List Value → Option (List Filled)
  | [], [] => some []
  | [], _ :: _ => none
  | .param :: ts, v :: vs => (inline ts vs).map (.value v :: ·)
  | .param :: _, [] => none
  | .bad :: _, _ => none
  | .word w :: ts, vs => (inline ts vs).map (.word w :: ·)
  | .ident name :: ts, vs => (inline ts vs).map (.ident name :: ·)
  | .str s :: ts, vs => (inline ts vs).map (.str s :: ·)
  | .num digits :: ts, vs => (inline ts vs).map (.num digits :: ·)
  | .sym s :: ts, vs => (inline ts vs).map (.sym s :: ·)

@[simp] theorem values_nil : values [] = [] := rfl

@[simp] theorem values_append (fs gs : List Filled) : values (fs ++ gs) = values fs ++ values gs :=
  List.filterMap_append

@[simp] theorem values_value (v : Value) (fs : List Filled) :
    values (.value v :: fs) = v :: values fs := rfl

theorem values_cons (f : Filled) (fs : List Filled) : values (f :: fs) = values [f] ++ values fs :=
  values_append [f] fs

theorem inline_map_tok (fs : List Filled) : inline (fs.map Filled.tok) (values fs) = some fs := by
  induction fs with
  | nil => rfl
  | cons f fs ih => cases f <;> simp [Filled.tok, inline, values, Filled.value?] at ih ⊢ <;> exact ih

/-- A statement and its values are the tokens and the values of what they read. -/
theorem inline_eq_some_iff {ts : List Tok} {vs : List Value} {fs : List Filled} :
    inline ts vs = some fs ↔ fs.map Filled.tok = ts ∧ values fs = vs := by
  constructor
  · intro h
    fun_induction inline ts vs generalizing fs with
    | case1 =>
      obtain rfl := Option.some.inj h
      exact ⟨rfl, rfl⟩
    | case3 ts v vs ih =>
      obtain ⟨gs, hgs, rfl⟩ := Option.map_eq_some_iff.mp h
      obtain ⟨rfl, rfl⟩ := ih hgs
      exact ⟨rfl, rfl⟩
    | case2 => cases h
    | case4 => cases h
    | case5 => cases h
    | _ =>
      -- a token that is no placeholder takes no value
      rename_i ih
      obtain ⟨gs, hgs, rfl⟩ := Option.map_eq_some_iff.mp h
      obtain ⟨rfl, rfl⟩ := ih hgs
      exact ⟨rfl, rfl⟩
  · rintro ⟨rfl, rfl⟩
    exact inline_map_tok fs

/-- There are as many placeholders as values. -/
theorem count_param_of_inline {ts : List Tok} {vs : List Value} {fs : List Filled}
    (h : inline ts vs = some fs) : ts.count .param = vs.length := by
  obtain ⟨rfl, rfl⟩ := inline_eq_some_iff.mp h
  induction fs with
  | nil => rfl
  | cons f fs ih =>
    have htail := ih (inline_map_tok fs)
    cases f <;> simp [Filled.tok, values, Filled.value?] at htail ⊢ <;> exact htail

/-- A word is in the statement as often as in what it reads. -/
theorem count_word_map_tok (w : String) (fs : List Filled) :
    (fs.map Filled.tok).count (.word w) = fs.count (.word w) := by
  induction fs with
  | nil => rfl
  | cons f fs ih => cases f <;> simp [Filled.tok, List.count_cons, ih]

/-! ### Fixed text -/

/-- A piece that ends where a token does: what comes after it is read by itself. -/
def Opens (s : String) (ts : List Tok) : Prop :=
  ∀ rest, lexFrom .idle (s.toList ++ rest) = ts ++ lexFrom .idle rest

theorem Opens.append {s t : String} {ts us : List Tok} (hs : Opens s ts) (ht : Lexes t us) :
    Lexes (s ++ t) (ts ++ us) := by
  intro rest hrest
  rw [String.toList_append, List.append_assoc, hs, ht rest hrest, List.append_assoc]

/-- Fixed text that begins with a blank, between two pieces. -/
theorem Lexes.between {s k t : String} {ts us vs : List Tok} (hs : Lexes s ts)
    (hblank : k.toList.head? = some ' ') (hk : Opens k us) (ht : Lexes t vs) :
    Lexes (s ++ k ++ t) (ts ++ us ++ vs) := by
  rw [String.append_assoc, List.append_assoc]
  refine hs.append (hk.append ht) ?_
  obtain ⟨cs, hcs⟩ := List.head?_eq_some_iff.mp hblank
  rw [String.toList_append, hcs]
  exact Or.inl rfl

theorem idleStep_digit {c : Char} (hc : c.isDigit = true) : idleStep c = ([], .num [c]) := by
  have hne : ∀ d : Char, d.isDigit = false → (c == d) = false := by
    intro d hd
    rw [beq_eq_false_iff_ne]
    rintro rfl
    rw [hc] at hd
    cases hd
  simp [idleStep, hc, hne ' ' rfl, hne '"' rfl, hne '\'' rfl, hne '?' rfl, hne '<' rfl, hne '>' rfl,
    hne '=' rfl, hne '(' rfl, hne ')' rfl, hne ',' rfl, hne '*' rfl]

/-- A number already begun goes on through digits. -/
theorem lexFrom_num {acc ds rest : List Char} (hds : Digits.AllDigits ds) (hrest : Delimited rest) :
    lexFrom (.num acc) (ds ++ rest) = .num (.ofList (acc ++ ds)) :: lexFrom .idle rest := by
  induction ds generalizing acc with
  | nil =>
    rw [List.append_nil, List.nil_append]
    refine lexFrom_of_endTok rfl ?_ hrest
    rintro c (rfl | rfl | rfl) <;> rfl
  | cons d ds ih =>
    obtain ⟨hd, hds⟩ := List.forall_mem_cons.mp hds
    rw [List.cons_append, lexFrom]
    simp only [LexState.step, hd, if_true, List.nil_append]
    rw [ih hds, List.append_assoc, List.singleton_append]

/-- A decimal is one token. -/
theorem lexes_decimal (n : Nat) : Lexes (toString n) [.num (toString n)] := by
  intro rest hrest
  have hall := Digits.allDigits_toDigits n
  change lexFrom .idle ((Nat.repr n).toList ++ rest) = .num (Nat.repr n) :: lexFrom .idle rest
  rw [Nat.repr, String.toList_ofList]
  -- the first digit opens a number, and the others go on with it
  cases hds : Nat.toDigits 10 n with
  | nil => exact absurd hds Nat.toDigits_ne_nil
  | cons d ds =>
    rw [hds] at hall
    obtain ⟨hd, hds⟩ := List.forall_mem_cons.mp hall
    rw [List.cons_append, lexFrom]
    simp only [LexState.step, idleStep_digit hd, List.nil_append]
    rw [lexFrom_num hds hrest]
    rfl

/-! ### Generated pieces -/

/-- The piece reads `fs` with its binds in place, before every continuation that delimits it. -/
structure Spells (c : String × List Value) (fs : List Filled) : Prop where
  lexes : Lexes c.1 (fs.map Filled.tok)
  binds : values fs = c.2

/-- Lists of tokens with one between them. -/
def sepBy (k : Filled) : List (List Filled) → List Filled
  | [] => []
  | [fs] => fs
  | fs :: gs :: fss => fs ++ k :: sepBy k (gs :: fss)

theorem map_tok_sepBy (k : Filled) (fss : List (List Filled)) :
    (sepBy k fss).map Filled.tok = joinToks k.tok (fss.map (List.map Filled.tok)) := by
  induction fss using sepBy.induct with
  | case1 => rfl
  | case2 fs => rfl
  | case3 fs gs fss ih =>
    rw [sepBy, List.map_append, List.map_cons, ih]
    rfl

theorem values_sepBy {k : Filled} (hk : k.value? = none) (fss : List (List Filled)) :
    values (sepBy k fss) = fss.flatMap values := by
  induction fss using sepBy.induct with
  | case1 => rfl
  | case2 fs => simp [sepBy]
  | case3 fs gs fss ih =>
    have hcons : values (k :: sepBy k (gs :: fss)) = values (sepBy k (gs :: fss)) := by
      simp [values, hk]
    rw [sepBy, values_append, hcons, ih]
    exact List.flatMap_cons.symm

/-- What holds of every token of the lists holds of every token between which `k` is put. -/
theorem forall_mem_sepBy {P : Filled → Prop} {k : Filled} (hk : P k) {fss : List (List Filled)}
    (h : ∀ fs ∈ fss, ∀ f ∈ fs, P f) : ∀ f ∈ sepBy k fss, P f := by
  induction fss using sepBy.induct with
  | case1 => exact List.forall_mem_nil _
  | case2 fs => exact h fs List.mem_cons_self
  | case3 fs gs fss ih =>
    obtain ⟨hfs, hrest⟩ := List.forall_mem_cons.mp h
    rw [sepBy, List.forall_mem_append, List.forall_mem_cons]
    exact ⟨hfs, hk, ih hrest⟩

section Pieces

variable {c d : String × List Value} {fs gs : List Filled}

/-- The whole statement reads `fs` with its binds in place. -/
theorem Spells.inline_eq (h : Spells c fs) : inline (lex c.1) c.2 = some fs :=
  inline_eq_some_iff.mpr ⟨h.lexes.lex_eq.symm, h.binds⟩

/-- Text without a placeholder. -/
theorem spells_text {s : String} (hs : Lexes s (fs.map Filled.tok)) (hfs : values fs = []) :
    Spells (s, []) fs :=
  ⟨hs, hfs⟩

theorem spells_empty : Spells ("", []) [] :=
  spells_text lexes_empty rfl

theorem spells_word {kw : String} (hkw : Lexes kw [.word kw]) : Spells (kw, []) [.word kw] :=
  spells_text hkw rfl

theorem spells_ident (name : String) : Spells (quoteIdent name, []) [.ident name] :=
  spells_text (lexes_quoteIdent name) rfl

theorem spells_decimal (n : Nat) : Spells (toString n, []) [.num (toString n)] :=
  spells_text (lexes_decimal n) rfl

theorem spells_value (v : Value) : Spells ("?", [v]) [.value v] :=
  ⟨lexes_param, rfl⟩

theorem Spells.paren (h : Spells c fs) :
    Spells ("(" ++ c.1 ++ ")", c.2) (.sym "(" :: fs ++ [.sym ")"]) := by
  refine ⟨?_, ?_⟩
  · rw [List.map_append, List.map_cons]
    exact h.lexes.paren
  · rw [List.cons_append, values_cons, values_append, h.binds]
    exact List.append_nil _

/-- `NOT` and a piece, in parentheses. -/
theorem Spells.not (h : Spells c fs) :
    Spells ("(" ++ ("NOT " ++ c.1) ++ ")", c.2) (.sym "(" :: .word "NOT" :: fs ++ [.sym ")"]) := by
  refine Spells.paren (c := ("NOT " ++ c.1, c.2)) ⟨?_, ?_⟩
  · intro rest hrest
    -- the blank behind `NOT` ends it, whatever the piece is
    rw [String.toList_append, List.append_assoc]
    change .word "NOT" :: lexFrom .idle (c.1.toList ++ rest) = _
    rw [h.lexes rest hrest]
    rfl
  · exact h.binds

/-- Two pieces with a blank between them. -/
theorem Spells.join (hc : Spells c fs) (hd : Spells d gs) :
    Spells (c.1 ++ " " ++ d.1, c.2 ++ d.2) (fs ++ gs) := by
  refine ⟨?_, ?_⟩
  · rw [List.map_append]
    exact hc.lexes.join hd.lexes
  · rw [values_append, hc.binds, hd.binds]

/-- One piece behind another, which begins with a delimiter. -/
theorem Spells.append (hc : Spells c fs) (hd : Spells d gs) (hdelim : Delimited d.1.toList) :
    Spells (c.1 ++ d.1, c.2 ++ d.2) (fs ++ gs) := by
  refine ⟨?_, ?_⟩
  · rw [List.map_append]
    exact hc.lexes.append hd.lexes hdelim
  · rw [values_append, hc.binds, hd.binds]

/-- Fixed text in front of a piece. -/
theorem Spells.after (k : String) (ks : List Filled) (hk : Opens k (ks.map Filled.tok))
    (hks : values ks = []) (hc : Spells c fs) : Spells (k ++ c.1, c.2) (ks ++ fs) := by
  refine ⟨?_, ?_⟩
  · rw [List.map_append]
    exact hk.append hc.lexes
  · rw [values_append, hks, hc.binds, List.nil_append]

/-- Fixed text that begins with a blank, between two pieces. -/
theorem Spells.between (hc : Spells c fs) (k : String) (ks : List Filled)
    (hblank : k.toList.head? = some ' ') (hk : Opens k (ks.map Filled.tok)) (hks : values ks = [])
    (hd : Spells d gs) : Spells (c.1 ++ k ++ d.1, c.2 ++ d.2) (fs ++ ks ++ gs) := by
  refine ⟨?_, ?_⟩
  · rw [List.map_append, List.map_append]
    exact hc.lexes.between hblank hk hd.lexes
  · rw [values_append, values_append, hks, hc.binds, hd.binds, List.append_nil]

end Pieces

/-! ### Lists of pieces -/

section Lists

variable {cs : List (String × List Value)} {fss : List (List Filled)}

theorem forall₂_map {α : Type} (as : List α) {f : α → String × List Value} {g : α → List Filled}
    (h : ∀ a, Spells (f a) (g a)) : List.Forall₂ Spells (as.map f) (as.map g) := by
  induction as with
  | nil => exact .nil
  | cons a as ih => exact .cons (h a) ih

theorem forall₂_lexes (h : List.Forall₂ Spells cs fss) :
    List.Forall₂ Lexes (cs.map Prod.fst) (fss.map (List.map Filled.tok)) := by
  induction h with
  | nil => exact .nil
  | cons hc _ ih => exact .cons hc.lexes ih

theorem flatMap_values (h : List.Forall₂ Spells cs fss) :
    fss.flatMap values = cs.flatMap Prod.snd := by
  induction h with
  | nil => rfl
  | cons hc _ ih => rw [List.flatMap_cons, List.flatMap_cons, hc.binds, ih]

/-- Pieces joined by a keyword. -/
theorem spells_join_word {kw : String} (hkw : Lexes kw [.word kw]) (h : List.Forall₂ Spells cs fss) :
    Spells (Sql.join (" " ++ kw ++ " ") (cs.map Prod.fst), cs.flatMap Prod.snd)
      (sepBy (.word kw) fss) := by
  refine ⟨?_, ?_⟩
  · rw [map_tok_sepBy]
    exact lexes_join_word hkw (forall₂_lexes h)
  · rw [values_sepBy rfl, flatMap_values h]

/-- Pieces joined by commas. -/
theorem spells_join_comma (h : List.Forall₂ Spells cs fss) :
    Spells (Sql.join ", " (cs.map Prod.fst), cs.flatMap Prod.snd) (sepBy (.sym ",") fss) := by
  refine ⟨?_, ?_⟩
  · rw [map_tok_sepBy]
    exact lexes_join_comma (forall₂_lexes h)
  · rw [values_sepBy rfl, flatMap_values h]

/-- Names between commas. -/
def nameList (names : List String) : List Filled :=
  sepBy (.sym ",") (names.map fun name => [.ident name])

theorem spells_nameList (names : List String) :
    Spells (Sql.join ", " (names.map quoteIdent), []) (nameList names) := by
  have h := spells_join_comma (forall₂_map names spells_ident)
  rw [List.map_map, List.flatMap_map] at h
  have hbinds : names.flatMap (fun _ => ([] : List Value)) = [] :=
    List.flatMap_eq_nil_iff.mpr fun _ _ => rfl
  rw [hbinds] at h
  exact h

/-- A placeholder for every value. -/
theorem spells_placeholders (vs : List Value) :
    Spells (placeholders vs.length, vs) (sepBy (.sym ",") (vs.map fun v => [.value v])) := by
  refine ⟨?_, ?_⟩
  · rw [map_tok_sepBy, List.map_map]
    have hparams : vs.map (List.map Filled.tok ∘ fun v => [Filled.value v])
        = List.replicate vs.length [Tok.param] := by
      rw [← List.map_const']
      rfl
    rw [hparams]
    exact lexes_placeholders vs.length
  · rw [values_sepBy rfl, List.flatMap_map]
    simp

end Lists

/-! ### Conditions -/

/-- `1=1`, or `1=0`. -/
def truth (b : Bool) : List Filled :=
  [.num "1", .sym "=", .num (if b then "1" else "0")]

/-- A column compared with a value. -/
def comparison (name : String) (op : Filled) (v : Value) : List Filled :=
  [.ident name, op, .value v]

/-- A column tested for `NULL`. -/
def nullTest (neg : Bool) (name : String) : List Filled :=
  if neg then [.ident name, .word "IS", .word "NOT", .word "NULL"]
  else [.ident name, .word "IS", .word "NULL"]

/-- The keyword of a membership test. -/
def inWords (neg : Bool) : List Filled :=
  if neg then [.word "NOT", .word "IN"] else [.word "IN"]

/-- Values between commas. -/
def listed (vs : List Value) : List Filled :=
  sepBy (.sym ",") (vs.map fun v => [.value v])

/-- Conditions in parentheses, with a keyword between them. -/
def connected (kw : String) (fss : List (List Filled)) : List Filled :=
  .sym "(" :: sepBy (.word kw) fss ++ [.sym ")"]

/-- A column tested against a list of values. -/
def membership (neg : Bool) (name : String) (vs : List Value) : List Filled :=
  .ident name :: inWords neg ++ (.sym "(" :: listed vs ++ [.sym ")"])

/-- A test against a set. The empty set has no values, and the column is left out. -/
def setTest (neg : Bool) (name : String) (vs : List Value) : List Filled :=
  if vs.isEmpty then truth neg else membership neg name vs

/-! ### The tokens of a test -/

/-- What a test of the column `name` is made of. -/
def TestTok (name : String) : Filled → Prop
  | .word w => w ∈ ["LIKE", "NOT", "IN", "IS", "NULL"]
  | .ident n => n = name
  | .str _ => False
  | .num digits => digits = "0" ∨ digits = "1"
  | .sym s => s ∈ ["(", ")", ",", "=", "<>", ">", ">=", "<", "<="]
  | .value _ => True

section Tests

variable {name : String}

theorem testTok_truth (b : Bool) : ∀ f ∈ truth b, TestTok name f := by
  cases b <;> simp [truth, TestTok]

theorem testTok_comparison {op : Filled} (hop : TestTok name op) (v : Value) :
    ∀ f ∈ comparison name op v, TestTok name f := by
  simp only [comparison, List.forall_mem_cons]
  exact ⟨rfl, hop, trivial, List.forall_mem_nil _⟩

theorem testTok_nullTest (neg : Bool) : ∀ f ∈ nullTest neg name, TestTok name f := by
  cases neg <;> simp [nullTest, TestTok]

theorem testTok_cmpOp (c : CmpOp) : TestTok name (.sym c.text) := by
  cases c <;> simp [TestTok, CmpOp.text]

theorem testTok_setTest (neg : Bool) (vs : List Value) :
    ∀ f ∈ setTest neg name vs, TestTok name f := by
  cases vs with
  | nil => exact testTok_truth neg
  | cons v vs =>
    have hlist : ∀ f ∈ listed (v :: vs), TestTok name f := by
      refine forall_mem_sepBy (by simp [TestTok]) fun fs hfs => ?_
      obtain ⟨x, -, rfl⟩ := List.mem_map.mp hfs
      exact List.forall_mem_singleton.mpr trivial
    have hwords : ∀ f ∈ inWords neg, TestTok name f := by
      cases neg <;> simp [inWords, TestTok]
    -- the column, the keyword, the values in parentheses
    change ∀ f ∈ .ident name :: inWords neg ++ (.sym "(" :: listed (v :: vs) ++ [.sym ")"]), _
    simp only [List.forall_mem_append, List.forall_mem_cons]
    exact ⟨⟨rfl, hwords⟩, ⟨by simp [TestTok], hlist⟩, by simp [TestTok], List.forall_mem_nil _⟩

end Tests

/-! ### Conditions are spelled -/

theorem spells_truth (b : Bool) : Spells (if b then "1=1" else "1=0", []) (truth b) := by
  refine spells_text (fun rest hrest => ?_) rfl
  -- the last digit is held back until a delimiter shows that the number ends
  cases b with
  | true =>
    change .num "1" :: .sym "=" :: lexFrom (.num ['1']) rest = _
    rw [lexFrom_of_endTok (t := .num "1") rfl (by rintro c (rfl | rfl | rfl) <;> rfl) hrest]
    rfl
  | false =>
    change .num "1" :: .sym "=" :: lexFrom (.num ['0']) rest = _
    rw [lexFrom_of_endTok (t := .num "0") rfl (by rintro c (rfl | rfl | rfl) <;> rfl) hrest]
    rfl

theorem spells_comparison (name : String) {sym : String} (op : Filled) (hsym : Lexes sym [op.tok])
    (hop : op.value? = none) (v : Value) :
    Spells (quoteIdent name ++ " " ++ sym ++ " ?", [v]) (comparison name op v) := by
  have hvalues : values [op] = [] := by simp [values, hop]
  have hword : Spells (sym, []) [op] := spells_text hsym hvalues
  have h := ((spells_ident name).join hword).join (spells_value v)
  simp only [String.append_assoc] at h ⊢
  exact h

theorem spells_nullTest (neg : Bool) (name : String) :
    Spells (quoteIdent name ++ " " ++ (if neg then "IS NOT NULL" else "IS NULL"), [])
      (nullTest neg name) := by
  cases neg with
  | true => exact spells_text ((lexes_quoteIdent name).join (lexes_IS.join (lexes_NOT.join lexes_NULL))) rfl
  | false => exact spells_text ((lexes_quoteIdent name).join (lexes_IS.join lexes_NULL)) rfl

theorem spells_inWords (neg : Bool) : Spells (inText neg, []) (inWords neg) := by
  cases neg with
  | true => exact spells_text (lexes_NOT.join lexes_IN) rfl
  | false => exact spells_text lexes_IN rfl

theorem spells_membership (neg : Bool) (name : String) (vs : List Value) :
    Spells (quoteIdent name ++ " " ++ inText neg ++ " (" ++ placeholders vs.length ++ ")", vs)
      (membership neg name vs) := by
  have h := ((spells_ident name).join (spells_inWords neg)).join (spells_placeholders vs).paren
  rw [show " (" = " " ++ "(" from rfl]
  simp only [String.append_assoc, List.nil_append] at h ⊢
  exact h

theorem spells_setTest (neg : Bool) (name : String) (vs : List Value) :
    Spells (if vs.isEmpty then (if neg then "1=1" else "1=0")
        else quoteIdent name ++ " " ++ inText neg ++ " (" ++ placeholders vs.length ++ ")", vs)
      (setTest neg name vs) := by
  cases vs with
  | nil => exact spells_truth neg
  | cons v vs => exact spells_membership neg name (v :: vs)

/-- Conditions joined by a keyword, in parentheses. -/
theorem spells_connected {kw : String} (hkw : Lexes kw [.word kw]) {cs : List (String × List Value)}
    {fss : List (List Filled)} (h : List.Forall₂ Spells cs fss) :
    Spells ("(" ++ join (" " ++ kw ++ " ") (cs.map Prod.fst) ++ ")", cs.flatMap Prod.snd)
      (connected kw fss) :=
  (spells_join_word hkw h).paren

end Sql
