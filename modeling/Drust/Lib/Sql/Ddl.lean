import Drust.Lib.Digits
import Drust.Lib.Sql.Lexer

/-!
# Tokens of a table definition

A tokenizer for definitions, which contain numerals with a sign, a fraction or an exponent. A
minus begins a comment when another one follows, and the text ends at a NUL.

`Lexes s ts` says that the piece `s` yields the tokens `ts` before a blank, a comma, a parenthesis
or the end. A quotation is one token whatever stands in it, as long as that is no NUL
(`lexes_quoteText`); with one, it is not terminated (`lexFrom_quoteText_nul`).
-/

namespace Sql

namespace Ddl

open Digits

/-- What the tokenizer is in the middle of. -/
inductive State where
  | idle
  | word (acc : List Char)
  | ident (acc : List Char)
  /-- A quote inside a quoted identifier: its end, or half of a doubled one. -/
  | identEnd (acc : List Char)
  | str (acc : List Char)
  | strEnd (acc : List Char)
  /-- `<` or `>`, which another character may extend. -/
  | op (c : Char)
  | minus
  | comment
  /-- The digits of a numeral before the point, and after it. -/
  | int (acc : List Char)
  | frac (acc : List Char)
  /-- After the `e` of a numeral, after the sign that follows it, and in the exponent. -/
  | mark (acc : List Char)
  | sign (acc : List Char)
  | exp (acc : List Char)

def isSpace (c : Char) : Bool :=
  c == ' ' || c == '\n' || c == '\t' || c == '\r' || c == '\x0c'

/-- One character between tokens. -/
def start (c : Char) : List Tok × State :=
  if isSpace c then ([], .idle)
  else if c == '"' then ([], .ident [])
  else if c == '\'' then ([], .str [])
  else if c == '-' then ([], .minus)
  else if c == '<' || c == '>' then ([], .op c)
  else if c == '=' || c == '(' || c == ')' || c == ',' then ([.sym c.toString], .idle)
  else if c.isDigit then ([], .int [c])
  else if isWordChar c then ([], .word [c])
  else ([.bad], .idle)

/-- End the token `t` and read `c` as the first character after it. -/
def after (t : Tok) (c : Char) : List Tok × State :=
  (t :: (start c).1, (start c).2)

/-- A numeral ends where no word goes on. -/
def endNum (acc : List Char) (c : Char) : List Tok × State :=
  if isWordChar c then ([.bad], .idle) else after (.num (.ofList acc)) c

def isMark (c : Char) : Bool :=
  c == 'e' || c == 'E'

def State.step : State → Char → List Tok × State
  | .idle, c => start c
  | .word acc, c =>
    if isWordChar c then ([], .word (acc ++ [c])) else after (.word (.ofList acc)) c
  | .ident acc, c => if c == '"' then ([], .identEnd acc) else ([], .ident (acc ++ [c]))
  | .identEnd acc, c =>
    if c == '"' then ([], .ident (acc ++ ['"'])) else after (.ident (.ofList acc)) c
  | .str acc, c => if c == '\'' then ([], .strEnd acc) else ([], .str (acc ++ [c]))
  | .strEnd acc, c =>
    if c == '\'' then ([], .str (acc ++ ['\''])) else after (.str (.ofList acc)) c
  | .op p, c =>
    if c == '=' || (p == '<' && c == '>') then ([.sym (.ofList [p, c])], .idle)
    else after (.sym p.toString) c
  | .minus, c =>
    if c == '-' then ([], .comment)
    else if c == '>' then ([.bad], .idle)
    else after (.sym "-") c
  | .comment, c => ([], if c == '\n' then .idle else .comment)
  | .int acc, c =>
    if c.isDigit then ([], .int (acc ++ [c]))
    else if c == '.' then ([], .frac (acc ++ [c]))
    else if isMark c then ([], .mark (acc ++ [c]))
    else endNum acc c
  | .frac acc, c =>
    if c.isDigit then ([], .frac (acc ++ [c]))
    else if isMark c then ([], .mark (acc ++ [c]))
    else endNum acc c
  | .mark acc, c =>
    if c.isDigit then ([], .exp (acc ++ [c]))
    else if c == '-' || c == '+' then ([], .sign (acc ++ [c]))
    else ([.bad], .idle)
  | .sign acc, c => if c.isDigit then ([], .exp (acc ++ [c])) else ([.bad], .idle)
  | .exp acc, c => if c.isDigit then ([], .exp (acc ++ [c])) else endNum acc c

/-- The token the end of the text completes. -/
def State.finish : State → List Tok
  | .idle | .comment => []
  | .word acc => [.word (.ofList acc)]
  | .ident _ | .str _ | .mark _ | .sign _ => [.bad]
  | .identEnd acc => [.ident (.ofList acc)]
  | .strEnd acc => [.str (.ofList acc)]
  | .op p => [.sym p.toString]
  | .minus => [.sym "-"]
  | .int acc | .frac acc | .exp acc => [.num (.ofList acc)]

/-- The tokens of the rest of a text, up to a NUL. -/
def lexFrom : State → List Char → List Tok
  | st, [] => st.finish
  | st, c :: cs => if c = '\x00' then st.finish else (st.step c).1 ++ lexFrom (st.step c).2 cs

def tokens (s : String) : List Tok :=
  lexFrom .idle s.toList

/-! ### Values in a text -/

/-- Double the quotes `q`. -/
def doubled (q : Char) (cs : List Char) : List Char :=
  cs.flatMap fun c => if c == q then [q, q] else [c]

def quoteText (s : String) : String :=
  "'" ++ .ofList (doubled '\'' s.toList) ++ "'"

/-- A numeral: an optional minus, digits, and optional digits after a point and in an exponent. -/
structure Numeral where
  negative : Bool
  int : List Char
  frac : Option (List Char) := none
  /-- Whether the exponent is negative, and its digits. -/
  exp : Option (Bool × List Char) := none
  int_digits : AllDigits int
  int_ne : int ≠ []
  frac_digits : ∀ ds ∈ frac, AllDigits ds
  exp_digits : ∀ e ∈ exp, AllDigits e.2 ∧ e.2 ≠ []

namespace Numeral

def fracText (n : Numeral) : List Char :=
  n.frac.elim [] ('.' :: ·)

def expText (n : Numeral) : List Char :=
  n.exp.elim [] fun e => 'e' :: ((if e.1 then ['-'] else []) ++ e.2)

/-- The numeral without its minus. -/
def body (n : Numeral) : List Char :=
  n.int ++ (n.fracText ++ n.expText)

def text (n : Numeral) : String :=
  .ofList ((if n.negative then ['-'] else []) ++ n.body)

def toks (n : Numeral) : List Tok :=
  (if n.negative then [.sym "-"] else []) ++ [.num (.ofList n.body)]

def ofInt (i : Int) : Numeral where
  negative := i < 0
  int := Nat.toDigits 10 i.natAbs
  int_digits := allDigits_toDigits _
  int_ne := Nat.toDigits_ne_nil
  frac_digits := by simp
  exp_digits := by simp

end Numeral

/-! ### Pieces of a text -/

/-- What may follow a complete piece: nothing, a blank, a comma or a parenthesis. -/
def Delimited : List Char → Prop
  | [] => True
  | c :: _ => c = ' ' ∨ c = ',' ∨ c = '(' ∨ c = ')'

instance (cs : List Char) : Decidable (Delimited cs) :=
  match cs with
  | [] => isTrue trivial
  | c :: _ => inferInstanceAs (Decidable (c = ' ' ∨ c = ',' ∨ c = '(' ∨ c = ')'))

theorem delimited_append {d : String} (hne : d ≠ "") (hd : Delimited d.toList) (s : String) :
    Delimited (d ++ s).toList := by
  rw [String.toList_append]
  cases h : d.toList with
  | nil => exact absurd (String.toList_inj.mp h) hne
  | cons c cs =>
    rw [h] at hd
    exact hd

/-- The piece `s` yields the tokens `ts` before every continuation that delimits it. -/
def Lexes (s : String) (ts : List Tok) : Prop :=
  ∀ rest, Delimited rest → lexFrom .idle (s.toList ++ rest) = ts ++ lexFrom .idle rest

variable {s t : String} {ts us : List Tok}

theorem Lexes.tokens_eq (h : Lexes s ts) : tokens s = ts := by
  have hnil := h [] trivial
  rw [List.append_nil] at hnil
  rw [tokens, hnil]
  exact List.append_nil ts

theorem lexFrom_cons {st : State} {c : Char} {cs : List Char} (hc : c ≠ '\x00') :
    lexFrom st (c :: cs) = (st.step c).1 ++ lexFrom (st.step c).2 cs :=
  if_neg hc

/-- A token that a delimiter ends. -/
theorem lexFrom_delimited {st : State} {k : Tok} {rest : List Char} (hfin : st.finish = [k])
    (hstep : ∀ c, c = ' ' ∨ c = ',' ∨ c = '(' ∨ c = ')' → st.step c = after k c)
    (hrest : Delimited rest) : lexFrom st rest = k :: lexFrom .idle rest := by
  cases rest with
  | nil =>
    rw [lexFrom, hfin]
    rfl
  | cons c cs =>
    have hc : c ≠ '\x00' := by
      rintro rfl
      revert hrest
      simp [Delimited]
    rw [lexFrom_cons hc, lexFrom_cons hc, hstep c hrest]
    rfl

/-- A run of characters that are collected. -/
theorem lexFrom_run {k : List Char → State} {p : Char → Bool}
    (hk : ∀ acc c, p c = true → c ≠ '\x00' ∧ (k acc).step c = ([], k (acc ++ [c])))
    {w : List Char} (hw : ∀ c ∈ w, p c = true) (acc rest : List Char) :
    lexFrom (k acc) (w ++ rest) = lexFrom (k (acc ++ w)) rest := by
  induction w generalizing acc with
  | nil => rw [List.append_nil, List.nil_append]
  | cons c w ih =>
    obtain ⟨hc, hw⟩ := List.forall_mem_cons.mp hw
    obtain ⟨hne, hstep⟩ := hk acc c hc
    rw [List.cons_append, lexFrom_cons hne, hstep, List.nil_append, ih hw, List.append_assoc,
      List.singleton_append]

/-! ### Quotations -/

section Quoted

variable {q : Char} {k kEnd : List Char → State}

/-- Inside the quotes every character is read back. -/
theorem lexFrom_quoted (hq : q ≠ '\x00')
    (hk : ∀ acc c, (k acc).step c = if c == q then ([], kEnd acc) else ([], k (acc ++ [c])))
    (hend : ∀ acc, (kEnd acc).step q = ([], k (acc ++ [q]))) {cs : List Char} (hcs : '\x00' ∉ cs)
    (acc rest : List Char) :
    lexFrom (k acc) (doubled q cs ++ q :: rest) =
      lexFrom (kEnd (acc ++ cs)) rest := by
  induction cs generalizing acc with
  | nil =>
    rw [doubled, List.flatMap_nil, List.nil_append, lexFrom_cons hq, hk, if_pos (beq_self_eq_true q),
      List.append_nil]
    rfl
  | cons c cs ih =>
    rw [List.mem_cons, not_or] at hcs
    rw [doubled, List.flatMap_cons, ← doubled, List.append_assoc]
    by_cases hc : c = q
    · subst hc
      rw [if_pos (beq_self_eq_true c), List.cons_append, lexFrom_cons hq, hk,
        if_pos (beq_self_eq_true c), List.nil_append, List.cons_append, lexFrom_cons hq, hend,
        List.nil_append, List.nil_append, ih hcs.2, List.append_assoc, List.singleton_append]
    · have hne : ¬(c == q) = true := by simpa using hc
      rw [if_neg hne, List.singleton_append, lexFrom_cons (Ne.symm hcs.1), hk, if_neg hne,
        List.nil_append, ih hcs.2, List.append_assoc, List.singleton_append]

/-- The text ends in a quotation that contains a NUL. -/
theorem lexFrom_quoted_nul (hq : q ≠ '\x00')
    (hk : ∀ acc c, (k acc).step c = if c == q then ([], kEnd acc) else ([], k (acc ++ [c])))
    (hend : ∀ acc, (kEnd acc).step q = ([], k (acc ++ [q]))) {cs : List Char} (hcs : '\x00' ∈ cs)
    {fin : List Tok} (hfin : ∀ acc, (k acc).finish = fin) (acc rest : List Char) :
    lexFrom (k acc) (doubled q cs ++ rest) = fin := by
  induction cs generalizing acc with
  | nil => cases hcs
  | cons c cs ih =>
    rw [doubled, List.flatMap_cons, ← doubled, List.append_assoc]
    by_cases hc : c = q
    · subst hc
      have hmem : '\x00' ∈ cs := (List.mem_cons.mp hcs).resolve_left (Ne.symm hq)
      rw [if_pos (beq_self_eq_true c), List.cons_append, lexFrom_cons hq, hk,
        if_pos (beq_self_eq_true c), List.nil_append, List.cons_append, lexFrom_cons hq, hend,
        List.nil_append, List.nil_append]
      exact ih hmem _
    · have hne : ¬(c == q) = true := by simpa using hc
      rw [if_neg hne, List.singleton_append]
      by_cases hnul : c = '\x00'
      · rw [lexFrom, if_pos hnul, hfin]
      · have hmem : '\x00' ∈ cs := (List.mem_cons.mp hcs).resolve_left (Ne.symm hnul)
        rw [lexFrom_cons hnul, hk, if_neg hne, List.nil_append]
        exact ih hmem _

end Quoted

theorem str_step (acc : List Char) (c : Char) :
    (State.str acc).step c = if c == '\'' then ([], .strEnd acc) else ([], .str (acc ++ [c])) := rfl

/-- A quoted identifier is one token. -/
theorem lexes_quoteIdent {name : String} (h : '\x00' ∉ name.toList) :
    Lexes (quoteIdent name) [.ident name] := by
  intro rest hrest
  have hopen : (quoteIdent name).toList ++ rest =
      '"' :: (doubled '"' name.toList ++ '"' :: rest) := by
    simp [quoteIdent, doubled]
  have hend : State.finish (.identEnd name.toList) = [.ident name] := by
    simp [State.finish]
  rw [hopen, lexFrom_cons (by decide)]
  change [] ++ lexFrom (.ident []) _ = _
  rw [lexFrom_quoted (by decide) (fun _ _ => rfl) (fun _ => rfl) h, List.nil_append,
    List.nil_append]
  exact lexFrom_delimited hend (by rintro c (rfl | rfl | rfl | rfl) <;> simp [State.step]) hrest

/-- A quoted text is one token. -/
theorem lexes_quoteText (h : '\x00' ∉ s.toList) : Lexes (quoteText s) [.str s] := by
  intro rest hrest
  have hopen : (quoteText s).toList ++ rest =
      '\'' :: (doubled '\'' s.toList ++ '\'' :: rest) := by
    simp [quoteText]
  have hend : State.finish (.strEnd s.toList) = [.str s] := by
    simp [State.finish]
  rw [hopen, lexFrom_cons (by decide)]
  change [] ++ lexFrom (.str []) _ = _
  rw [lexFrom_quoted (by decide) str_step (fun _ => rfl) h, List.nil_append, List.nil_append]
  exact lexFrom_delimited hend (by rintro c (rfl | rfl | rfl | rfl) <;> simp [State.step]) hrest

/-- A quoted text with a NUL is not terminated. -/
theorem lexFrom_quoteText_nul (h : '\x00' ∈ s.toList) (rest : List Char) :
    lexFrom .idle ((quoteText s).toList ++ rest) = [.bad] := by
  have hopen : (quoteText s).toList ++ rest =
      '\'' :: (doubled '\'' s.toList ++ '\'' :: rest) := by
    simp [quoteText]
  rw [hopen, lexFrom_cons (by decide)]
  change [] ++ lexFrom (.str []) _ = _
  rw [List.nil_append]
  exact lexFrom_quoted_nul (by decide) str_step (fun _ => rfl) h (fun _ => rfl) _ _

/-! ### Numerals -/

theorem digit_cases {c : Char} (h : c.isDigit = true) :
    c = '0' ∨ c = '1' ∨ c = '2' ∨ c = '3' ∨ c = '4' ∨ c = '5' ∨ c = '6' ∨ c = '7' ∨ c = '8' ∨
      c = '9' := by
  obtain ⟨hlow, hhigh⟩ := digit_bounds h
  change 48 ≤ c.toNat at hlow
  change c.toNat - 48 < 10 at hhigh
  have hle : c.toNat ≤ 57 := by omega
  have heq : c = Char.ofNat c.toNat := (Char.ofNat_toNat c).symm
  generalize c.toNat = n at hlow hle heq
  subst heq
  interval_cases n <;> simp

theorem ne_nul_of_isDigit {c : Char} (h : c.isDigit = true) : c ≠ '\x00' := by
  rintro rfl
  cases h

theorem start_digit {c : Char} (h : c.isDigit = true) : start c = ([], .int [c]) := by
  obtain rfl | rfl | rfl | rfl | rfl | rfl | rfl | rfl | rfl | rfl := digit_cases h <;> rfl

/-- A run of digits. -/
theorem lexFrom_digits {k : List Char → State}
    (hk : ∀ acc c, c.isDigit = true → (k acc).step c = ([], k (acc ++ [c])))
    {ds : List Char} (h : AllDigits ds) (acc rest : List Char) :
    lexFrom (k acc) (ds ++ rest) = lexFrom (k (acc ++ ds)) rest :=
  lexFrom_run (fun acc c hc => ⟨ne_nul_of_isDigit hc, hk acc c hc⟩) h acc rest

theorem int_step (acc : List Char) (c : Char) (h : c.isDigit = true) :
    (State.int acc).step c = ([], .int (acc ++ [c])) :=
  if_pos h

theorem frac_step (acc : List Char) (c : Char) (h : c.isDigit = true) :
    (State.frac acc).step c = ([], .frac (acc ++ [c])) :=
  if_pos h

theorem exp_step (acc : List Char) (c : Char) (h : c.isDigit = true) :
    (State.exp acc).step c = ([], .exp (acc ++ [c])) :=
  if_pos h

/-- The digits of an exponent, after its mark or its sign. -/
theorem lexFrom_exponent {st : State} {acc ds rest : List Char}
    (hst : ∀ c, c.isDigit = true → st.step c = ([], .exp (acc ++ [c])))
    (hds : AllDigits ds) (hne : ds ≠ []) (hrest : Delimited rest) :
    lexFrom st (ds ++ rest) = .num (.ofList (acc ++ ds)) :: lexFrom .idle rest := by
  cases ds with
  | nil => exact absurd rfl hne
  | cons d ds =>
    obtain ⟨hd, hds⟩ := List.forall_mem_cons.mp hds
    rw [List.cons_append, lexFrom_cons (ne_nul_of_isDigit hd), hst d hd, List.nil_append,
      lexFrom_digits exp_step hds, List.append_assoc, List.singleton_append]
    exact lexFrom_delimited rfl (by rintro c (rfl | rfl | rfl | rfl) <;> rfl) hrest

/-- The rest of a numeral from its exponent on, if it has one. -/
theorem lexFrom_expText (n : Numeral) {st : State} {acc rest : List Char}
    (hfin : st.finish = [.num (.ofList acc)])
    (hend : ∀ c, c = ' ' ∨ c = ',' ∨ c = '(' ∨ c = ')' → st.step c = after (.num (.ofList acc)) c)
    (hmark : st.step 'e' = ([], .mark (acc ++ ['e']))) (hrest : Delimited rest) :
    lexFrom st (n.expText ++ rest) = .num (.ofList (acc ++ n.expText)) :: lexFrom .idle rest := by
  unfold Numeral.expText
  cases hexp : n.exp with
  | none =>
    rw [Option.elim_none, List.nil_append, List.append_nil]
    exact lexFrom_delimited hfin hend hrest
  | some e =>
    obtain ⟨hds, hne⟩ := n.exp_digits e hexp
    obtain ⟨neg, ds⟩ := e
    rw [Option.elim_some, List.cons_append, lexFrom_cons (by decide), hmark, List.nil_append]
    cases neg with
    | false =>
      have hdigits : lexFrom (.mark (acc ++ ['e'])) (ds ++ rest) =
          .num (.ofList (acc ++ ['e'] ++ ds)) :: lexFrom .idle rest :=
        lexFrom_exponent (fun c hc => if_pos hc) hds hne hrest
      rw [List.append_assoc] at hdigits
      exact hdigits
    | true =>
      have hdigits : lexFrom (.sign (acc ++ ['e'] ++ ['-'])) (ds ++ rest) =
          .num (.ofList (acc ++ ['e'] ++ ['-'] ++ ds)) :: lexFrom .idle rest :=
        lexFrom_exponent (fun c hc => if_pos hc) hds hne hrest
      have hsign : (State.mark (acc ++ ['e'])).step '-' = ([], .sign (acc ++ ['e'] ++ ['-'])) := rfl
      change lexFrom (.mark (acc ++ ['e'])) ('-' :: (ds ++ rest)) = _
      rw [lexFrom_cons (by decide), hsign, List.nil_append, hdigits, List.append_assoc,
        List.append_assoc]
      rfl

theorem lexFrom_body (n : Numeral) {rest : List Char} (hrest : Delimited rest) :
    lexFrom .idle (n.body ++ rest) = .num (.ofList n.body) :: lexFrom .idle rest := by
  unfold Numeral.body
  have hint := n.int_digits
  cases hn : n.int with
  | nil => exact absurd hn n.int_ne
  | cons d ds =>
    rw [hn] at hint
    obtain ⟨hd, hds⟩ := List.forall_mem_cons.mp hint
    have hstart : State.idle.step d = ([], .int [d]) := start_digit hd
    rw [List.append_assoc, List.cons_append, lexFrom_cons (ne_nul_of_isDigit hd), hstart,
      List.nil_append, lexFrom_digits int_step hds, List.append_assoc, List.singleton_append]
    unfold Numeral.fracText
    cases hfrac : n.frac with
    | none =>
      rw [Option.elim_none, List.nil_append]
      exact lexFrom_expText n rfl (by rintro c (rfl | rfl | rfl | rfl) <;> rfl) rfl hrest
    | some fs =>
      have hpoint : (State.int (d :: ds)).step '.' = ([], .frac (d :: ds ++ ['.'])) := rfl
      rw [Option.elim_some, List.cons_append, lexFrom_cons (by decide), hpoint, List.nil_append,
        lexFrom_digits frac_step (n.frac_digits fs hfrac), List.append_assoc, List.singleton_append,
        lexFrom_expText n rfl (by rintro c (rfl | rfl | rfl | rfl) <;> rfl) rfl hrest,
        List.append_assoc]

theorem lexes_numeral (n : Numeral) : Lexes n.text n.toks := by
  intro rest hrest
  rw [Numeral.text, String.toList_ofList, Numeral.toks]
  cases n.negative with
  | false => exact lexFrom_body n hrest
  | true =>
    have hbody := lexFrom_body n hrest
    have hfirst : ∃ d ds, n.body = d :: ds ∧ d.isDigit = true := by
      have hint := n.int_digits
      unfold Numeral.body
      cases hn : n.int with
      | nil => exact absurd hn n.int_ne
      | cons d ds => exact ⟨d, _, rfl, hint d (hn ▸ List.mem_cons_self)⟩
    obtain ⟨d, ds, heq, hd⟩ := hfirst
    -- the minus is complete at the first digit
    have hminus : State.minus.step d = ([.sym "-"], .int [d]) := by
      obtain rfl | rfl | rfl | rfl | rfl | rfl | rfl | rfl | rfl | rfl := digit_cases hd <;> rfl
    have hidle : State.idle.step d = ([], .int [d]) := start_digit hd
    have hsign : State.idle.step '-' = ([], .minus) := rfl
    rw [heq, List.cons_append, lexFrom_cons (ne_nul_of_isDigit hd), hidle, List.nil_append] at hbody
    rw [if_pos rfl, if_pos rfl, heq, List.append_assoc, List.singleton_append,
      lexFrom_cons (by decide), hsign, List.nil_append, List.cons_append,
      lexFrom_cons (ne_nul_of_isDigit hd), hminus, hbody]
    rfl

/-! ### Composition -/

/-- A piece that begins with a delimiter, or is empty, may follow any other. -/
theorem Lexes.append (hs : Lexes s ts) (ht : Lexes t us) (hd : Delimited t.toList) :
    Lexes (s ++ t) (ts ++ us) := by
  intro rest hrest
  have hrest' : Delimited (t.toList ++ rest) := by
    cases h : t.toList with
    | nil => exact hrest
    | cons c cs =>
      rw [h] at hd
      exact hd
  rw [String.toList_append, List.append_assoc, hs _ hrest', ht _ hrest, List.append_assoc]

theorem lexes_empty : Lexes "" [] := fun _ _ => rfl

/-- A leading blank is skipped. -/
theorem Lexes.blank (hs : Lexes s ts) : Lexes (" " ++ s) ts := by
  intro rest hrest
  rw [String.toList_append, List.append_assoc]
  exact hs rest hrest

theorem Lexes.open (hs : Lexes s ts) : Lexes ("(" ++ s) (.sym "(" :: ts) := by
  intro rest hrest
  rw [String.toList_append, List.append_assoc]
  change .sym "(" :: lexFrom .idle (s.toList ++ rest) = _
  rw [hs rest hrest]
  rfl

theorem Lexes.comma (hs : Lexes s ts) : Lexes ("," ++ s) (.sym "," :: ts) := by
  intro rest hrest
  rw [String.toList_append, List.append_assoc]
  change .sym "," :: lexFrom .idle (s.toList ++ rest) = _
  rw [hs rest hrest]
  rfl

theorem lexes_close : Lexes ")" [.sym ")"] := fun _ _ => rfl

/-- A piece in parentheses, which a blank need not precede. -/
theorem Lexes.paren (hs : Lexes s ts) : Lexes ("(" ++ s ++ ")") (.sym "(" :: ts ++ [.sym ")"]) :=
  hs.open.append lexes_close (.inr (.inr (.inr rfl)))

/-- Two pieces with a blank between them. -/
theorem Lexes.join (hs : Lexes s ts) (ht : Lexes t us) : Lexes (s ++ " " ++ t) (ts ++ us) := by
  rw [String.append_assoc]
  exact hs.append ht.blank (delimited_append (by decide) (by decide) t)

def isWord (s : String) : Bool :=
  match s.toList with
  | [] => false
  | c :: cs => isWordChar c && !c.isDigit && cs.all isWordChar

theorem start_word {c : Char} (hc : isWordChar c = true) (hd : c.isDigit = false) :
    start c = ([], .word [c]) := by
  have hne : ∀ d, isWordChar d = false → (c == d) = false := by
    intro d hd
    rw [beq_eq_false_iff_ne]
    rintro rfl
    rw [hc] at hd
    cases hd
  simp [start, isSpace, hne ' ' rfl, hne '\n' rfl, hne '\t' rfl, hne '\r' rfl, hne '\x0c' rfl,
    hne '"' rfl, hne '\'' rfl, hne '-' rfl, hne '<' rfl, hne '>' rfl, hne '=' rfl, hne '(' rfl,
    hne ')' rfl, hne ',' rfl, hd, hc]

theorem word_step (acc : List Char) (c : Char) (h : isWordChar c = true) :
    c ≠ '\x00' ∧ (State.word acc).step c = ([], .word (acc ++ [c])) := by
  refine ⟨?_, if_pos h⟩
  rintro rfl
  cases h

/-- A word is one token. -/
theorem lexes_word (h : isWord s = true) : Lexes s [.word s] := by
  intro rest hrest
  unfold isWord at h
  cases hs : s.toList with
  | nil =>
    rw [hs] at h
    cases h
  | cons c cs =>
    rw [hs] at h
    simp only [Bool.and_eq_true, Bool.not_eq_true', List.all_eq_true] at h
    obtain ⟨⟨hc, hd⟩, hcs⟩ := h
    have hstart : State.idle.step c = ([], .word [c]) := start_word hc hd
    have hfin : State.finish (.word (c :: cs)) = [.word s] := by
      rw [← hs, State.finish, String.ofList_toList]
    rw [List.cons_append, lexFrom_cons (word_step [] c hc).1, hstart, List.nil_append,
      lexFrom_run word_step hcs, List.singleton_append, List.singleton_append]
    refine lexFrom_delimited hfin ?_ hrest
    rw [← hs]
    rintro d (rfl | rfl | rfl | rfl) <;>
      simp [State.step, isWordChar, Char.isAlphanum, Char.isAlpha, Char.isUpper, Char.isLower,
        Char.isDigit]

/-- Pieces with a separator between them. -/
theorem lexes_join {α : Type} {sep : String} {k : Tok} {f : α → String} {g : α → List Tok}
    (hsep : ∀ {s ts}, Lexes s ts → Lexes (sep ++ s) (k :: ts))
    (hdelim : ∀ s : String, Delimited (sep ++ s).toList) {xs : List α}
    (h : ∀ x ∈ xs, Lexes (f x) (g x)) :
    Lexes (Sql.join sep (xs.map f)) (joinToks k (xs.map g)) := by
  induction xs with
  | nil => exact lexes_empty
  | cons x xs ih =>
    obtain ⟨hx, hxs⟩ := List.forall_mem_cons.mp h
    cases xs with
    | nil => exact hx
    | cons y ys =>
      have htail := ih hxs
      change Lexes (f x ++ sep ++ Sql.join sep ((y :: ys).map f))
        (g x ++ k :: joinToks k ((y :: ys).map g))
      rw [String.append_assoc]
      exact hx.append (hsep htail) (hdelim _)

theorem mem_joinToks {k t : Tok} {tss : List (List Tok)} (h : t ∈ joinToks k tss) :
    t = k ∨ ∃ ts ∈ tss, t ∈ ts := by
  induction tss with
  | nil => cases h
  | cons ts tss ih =>
    cases tss with
    | nil => exact .inr ⟨ts, List.mem_cons_self, h⟩
    | cons us uss =>
      obtain hts | hrest := List.mem_append.mp h
      · exact .inr ⟨ts, List.mem_cons_self, hts⟩
      · obtain rfl | hrest := List.mem_cons.mp hrest
        · exact .inl rfl
        · obtain hk | ⟨vs, hvs, hmem⟩ := ih hrest
          · exact .inl hk
          · exact .inr ⟨vs, List.mem_cons_of_mem _ hvs, hmem⟩

theorem mem_joinToks_of_mem {k t : Tok} {ts : List Tok} {tss : List (List Tok)} (hts : ts ∈ tss)
    (h : t ∈ ts) : t ∈ joinToks k tss := by
  induction tss with
  | nil => cases hts
  | cons us tss ih =>
    cases tss with
    | nil =>
      rw [List.mem_singleton] at hts
      exact hts ▸ h
    | cons vs vss =>
      obtain rfl | hts := List.mem_cons.mp hts
      · exact List.mem_append_left _ h
      · exact List.mem_append_right _ (List.mem_cons_of_mem _ (ih hts))

end Ddl

end Sql
