import Mathlib

/-!
# Tokens of an SQL text

A tokenizer for the part of the SQL grammar that generated statements use: bare
words, double-quoted identifiers, single-quoted strings, digit runs, the
placeholder `?`, and operators. It is a transducer that reads one character at a
time (`LexState.step`), so the tokens of a concatenation are found by running on
from the state the first part ends in.

Generated text is assembled from pieces, each of which is later followed by a
blank, a closing parenthesis, a comma or the end. `Lexes s ts` says that a piece
`s` yields the tokens `ts` before every such continuation; the lemmas below are
its composition rules. A quoted identifier yields one token whatever characters
its name holds (`lexes_quoteIdent`): this is where doubling the quotes is used.
-/

namespace Sql

/-- A token. -/
inductive Tok where
  /-- A bare word: a keyword or an unquoted name. -/
  | word (w : String)
  /-- A double-quoted identifier, its doubled quotes resolved. -/
  | ident (name : String)
  /-- A single-quoted string literal, its doubled quotes resolved. -/
  | str (s : String)
  /-- A run of digits. -/
  | num (digits : String)
  /-- The placeholder `?`. -/
  | param
  /-- An operator or a punctuation mark. -/
  | sym (s : String)
  /-- A character outside the grammar, or an unterminated quotation. -/
  | bad
  deriving DecidableEq, Repr

/-- What the tokenizer is in the middle of. -/
inductive LexState where
  | idle
  | word (acc : List Char)
  | num (acc : List Char)
  | ident (acc : List Char)
  /-- A quote inside a quoted identifier: its end, or half of a doubled one. -/
  | identEnd (acc : List Char)
  | str (acc : List Char)
  | strEnd (acc : List Char)
  /-- `<` or `>`, which another character may extend. -/
  | op (c : Char)
  deriving DecidableEq, Repr

/-- The characters of a bare word. -/
def isWordChar (c : Char) : Bool :=
  c.isAlphanum || c == '_'

/-- One character between tokens. -/
def idleStep (c : Char) : List Tok × LexState :=
  if c == ' ' then ([], .idle)
  else if c == '"' then ([], .ident [])
  else if c == '\'' then ([], .str [])
  else if c == '?' then ([.param], .idle)
  else if c == '<' || c == '>' then ([], .op c)
  else if c == '=' || c == '(' || c == ')' || c == ',' || c == '*' then
    ([.sym c.toString], .idle)
  else if c.isDigit then ([], .num [c])
  else if isWordChar c then ([], .word [c])
  else ([.bad], .idle)

/-- End the token `t` and read `c` as the first character after it. -/
def endTok (t : Tok) (c : Char) : List Tok × LexState :=
  (t :: (idleStep c).1, (idleStep c).2)

/-- One character: the tokens it completes, and the state it leaves. -/
def LexState.step : LexState → Char → List Tok × LexState
  | .idle, c => idleStep c
  | .word acc, c =>
    if isWordChar c then ([], .word (acc ++ [c])) else endTok (.word (.ofList acc)) c
  | .num acc, c =>
    if c.isDigit then ([], .num (acc ++ [c])) else endTok (.num (.ofList acc)) c
  | .ident acc, c => if c == '"' then ([], .identEnd acc) else ([], .ident (acc ++ [c]))
  | .identEnd acc, c =>
    if c == '"' then ([], .ident (acc ++ ['"'])) else endTok (.ident (.ofList acc)) c
  | .str acc, c => if c == '\'' then ([], .strEnd acc) else ([], .str (acc ++ [c]))
  | .strEnd acc, c =>
    if c == '\'' then ([], .str (acc ++ ['\''])) else endTok (.str (.ofList acc)) c
  | .op p, c =>
    if c == '=' || (p == '<' && c == '>') then ([.sym (.ofList [p, c])], .idle)
    else endTok (.sym p.toString) c

/-- The token the end of the text completes. -/
def LexState.finish : LexState → List Tok
  | .idle => []
  | .word acc => [.word (.ofList acc)]
  | .num acc => [.num (.ofList acc)]
  | .ident _ => [.bad]
  | .identEnd acc => [.ident (.ofList acc)]
  | .str _ => [.bad]
  | .strEnd acc => [.str (.ofList acc)]
  | .op p => [.sym p.toString]

/-- The tokens of the rest of a text. -/
def lexFrom : LexState → List Char → List Tok
  | st, [] => st.finish
  | st, c :: cs => (st.step c).1 ++ lexFrom (st.step c).2 cs

/-- The tokens of a text. -/
def lex (s : String) : List Tok :=
  lexFrom .idle s.toList

/-- Quote an identifier, doubling the quotes inside it. -/
def quoteIdent (name : String) : String :=
  "\"" ++ .ofList (name.toList.flatMap (fun c => if c == '"' then ['"', '"'] else [c])) ++ "\""

/-! ### Pieces of a text -/

/-- What may follow a complete piece: nothing, a blank, a comma or a closing
parenthesis. -/
def Delimited : List Char → Prop
  | [] => True
  | c :: _ => c = ' ' ∨ c = ',' ∨ c = ')'

/-- The piece `s` yields the tokens `ts` before every continuation that delimits it. -/
def Lexes (s : String) (ts : List Tok) : Prop :=
  ∀ rest, Delimited rest → lexFrom .idle (s.toList ++ rest) = ts ++ lexFrom .idle rest

theorem Lexes.lex_eq {s : String} {ts : List Tok} (h : Lexes s ts) : lex s = ts := by
  have h0 := h [] trivial
  rw [List.append_nil] at h0
  rw [lex, h0]
  exact List.append_nil ts

/-- After a delimiter the state of the tokenizer no longer matters beyond the
token it completes. -/
theorem lexFrom_of_endTok {st : LexState} {t : Tok} {rest : List Char}
    (hfin : st.finish = [t])
    (hstep : ∀ c, c = ' ' ∨ c = ',' ∨ c = ')' → st.step c = endTok t c)
    (hrest : Delimited rest) : lexFrom st rest = t :: lexFrom .idle rest := by
  cases rest with
  | nil => rw [lexFrom, hfin]; rfl
  | cons c cs =>
    rw [lexFrom, hstep c hrest]
    rfl

/-- A word already begun goes on through word characters. -/
theorem lexFrom_word {acc : List Char} {w rest : List Char}
    (hw : w.all isWordChar = true) (hrest : Delimited rest) :
    lexFrom (.word acc) (w ++ rest) = .word (.ofList (acc ++ w)) :: lexFrom .idle rest := by
  induction w generalizing acc with
  | nil =>
    rw [List.append_nil, List.nil_append]
    refine lexFrom_of_endTok rfl ?_ hrest
    rintro c (rfl | rfl | rfl) <;> rfl
  | cons c w ih =>
    simp only [List.all_cons, Bool.and_eq_true] at hw
    rw [List.cons_append, lexFrom]
    simp only [LexState.step, hw.1, if_true, List.nil_append]
    rw [ih hw.2, List.append_assoc, List.singleton_append]

/-- Inside the quotes every character of the name is read back. -/
theorem lexFrom_ident (cs acc rest : List Char) :
    lexFrom (.ident acc)
        (cs.flatMap (fun c => if c == '"' then ['"', '"'] else [c]) ++ ('"' :: rest))
      = lexFrom (.identEnd (acc ++ cs)) rest := by
  induction cs generalizing acc with
  | nil => simp [lexFrom, LexState.step]
  | cons c cs ih =>
    rw [List.flatMap_cons, List.append_assoc]
    by_cases hc : c = '"'
    · subst hc
      simp only [beq_self_eq_true, if_true, List.cons_append, List.nil_append, lexFrom,
        LexState.step]
      rw [ih, List.append_assoc, List.singleton_append]
    · have hb : (c == '"') = false := by simpa using hc
      simp only [hb, Bool.false_eq_true, if_false, List.cons_append, List.nil_append, lexFrom,
        LexState.step]
      rw [ih, List.append_assoc, List.singleton_append]

/-- A quoted identifier is one token, whatever its name. -/
theorem lexes_quoteIdent (name : String) : Lexes (quoteIdent name) [.ident name] := by
  intro rest hrest
  have hopen : (quoteIdent name).toList ++ rest
      = '"' :: (name.toList.flatMap (fun c => if c == '"' then ['"', '"'] else [c])
          ++ ('"' :: rest)) := by
    simp [quoteIdent]
  rw [hopen, lexFrom]
  simp only [LexState.step, idleStep]
  change [] ++ lexFrom (.ident []) _ = _
  rw [lexFrom_ident, List.nil_append, List.nil_append]
  have hend : LexState.finish (.identEnd name.toList) = [.ident name] := by
    simp [LexState.finish]
  exact lexFrom_of_endTok hend (by rintro c (rfl | rfl | rfl) <;> simp [LexState.step]) hrest

/-! ### Composition -/

/-- A piece that begins with a delimiter may follow any other. -/
theorem Lexes.append {s t : String} {ts us : List Tok} (hs : Lexes s ts) (ht : Lexes t us)
    (hd : Delimited t.toList) : Lexes (s ++ t) (ts ++ us) := by
  intro rest hrest
  have hd' : Delimited (t.toList ++ rest) := by
    cases h : t.toList with
    | nil => simpa using hrest
    | cons c cs => rw [h] at hd; exact hd
  rw [String.toList_append, List.append_assoc, hs _ hd', ht _ hrest, List.append_assoc]

theorem lexes_empty : Lexes "" [] := fun _ _ => rfl

/-- A leading blank is skipped. -/
theorem Lexes.blank {s : String} {ts : List Tok} (hs : Lexes s ts) : Lexes (" " ++ s) ts := by
  intro rest hrest
  rw [String.toList_append, List.append_assoc]
  exact hs rest hrest

/-- A leading opening parenthesis is a token of its own. -/
theorem Lexes.open {s : String} {ts : List Tok} (hs : Lexes s ts) :
    Lexes ("(" ++ s) (.sym "(" :: ts) := by
  intro rest hrest
  rw [String.toList_append, List.append_assoc]
  change .sym "(" :: lexFrom .idle (s.toList ++ rest) = _
  rw [hs rest hrest]
  rfl

/-- A closing parenthesis is a token of its own. -/
theorem lexes_close : Lexes ")" [.sym ")"] := fun _ _ => rfl

theorem lexes_param : Lexes "?" [.param] := fun _ _ => rfl

/-- A comma is a token of its own. -/
theorem Lexes.comma {s : String} {ts : List Tok} (hs : Lexes s ts) :
    Lexes ("," ++ s) (.sym "," :: ts) := by
  intro rest hrest
  rw [String.toList_append, List.append_assoc]
  change .sym "," :: lexFrom .idle (s.toList ++ rest) = _
  rw [hs rest hrest]
  rfl

/-- A piece in parentheses. -/
theorem Lexes.paren {s : String} {ts : List Tok} (hs : Lexes s ts) :
    Lexes ("(" ++ s ++ ")") (.sym "(" :: ts ++ [.sym ")"]) :=
  (hs.open).append lexes_close (Or.inr (Or.inr rfl))

/-- Two pieces with a blank between them. -/
theorem Lexes.join {s t : String} {ts us : List Tok} (hs : Lexes s ts) (ht : Lexes t us) :
    Lexes (s ++ " " ++ t) (ts ++ us) := by
  rw [String.append_assoc]
  refine hs.append ht.blank ?_
  rw [String.toList_append]
  exact Or.inl rfl

/-- A word of letters is one token. -/
theorem lexes_word {c : Char} {w : List Char} (hc : idleStep c = ([], .word [c]))
    (hw : w.all isWordChar = true) :
    Lexes (.ofList (c :: w)) [.word (.ofList (c :: w))] := by
  intro rest hrest
  rw [String.toList_ofList, List.cons_append, lexFrom]
  simp only [LexState.step, hc]
  rw [lexFrom_word hw hrest]
  rfl

/-- Texts joined by a separator. -/
def join (sep : String) : List String → String
  | [] => ""
  | [s] => s
  | s :: s' :: ss => s ++ sep ++ join sep (s' :: ss)

/-- Token lists joined by a token. -/
def joinToks (k : Tok) : List (List Tok) → List Tok
  | [] => []
  | [ts] => ts
  | ts :: ts' :: tss => ts ++ k :: joinToks k (ts' :: tss)

/-- Pieces joined by a keyword, with blanks around it. -/
theorem lexes_join_word {kw : String} {k : Tok} (hk : Lexes kw [k]) {ss : List String}
    {tss : List (List Tok)} (h : List.Forall₂ Lexes ss tss) :
    Lexes (join (" " ++ kw ++ " ") ss) (joinToks k tss) := by
  induction h with
  | nil => exact lexes_empty
  | @cons s ts ss tss hs hrest ih =>
    cases hrest with
    | nil => exact hs
    | cons hs' hrest =>
      have heq : ∀ r, s ++ (" " ++ kw ++ " ") ++ r = s ++ " " ++ (kw ++ " " ++ r) := by
        intro r
        simp only [String.append_assoc]
      rw [join, heq]
      exact hs.join (hk.join ih)

/-- Pieces joined by commas. -/
theorem lexes_join_comma {ss : List String} {tss : List (List Tok)}
    (h : List.Forall₂ Lexes ss tss) : Lexes (join ", " ss) (joinToks (.sym ",") tss) := by
  induction h with
  | nil => exact lexes_empty
  | @cons s ts ss tss hs hrest ih =>
    cases hrest with
    | nil => exact hs
    | cons hs' hrest =>
      have heq : ∀ r, s ++ ", " ++ r = s ++ ("," ++ (" " ++ r)) := by
        intro r
        rw [show ", " = "," ++ " " from rfl]
        simp only [String.append_assoc]
      rw [join, heq]
      refine hs.append ih.blank.comma ?_
      rw [String.toList_append]
      exact Or.inr (Or.inl rfl)

end Sql
