import Drust.Lib.Sql.Value
import Drust.Lib.Sql.Lexer

/-!
# Reading a `WHERE` condition

The meaning of the text of a condition together with its bind vector. The text is
tokenized (`Sql.lex`) and parsed by an operator-precedence machine: `NOT` binds
tighter than `AND`, `AND` tighter than `OR`, comparisons tighter than all three,
and parentheses override. The machine keeps the connectives still waiting for
their right operand on a stack of `Frame`s and reads one token at a time, so its
run over a concatenation continues where the first part left off.

A condition is evaluated on a row in three-valued logic (`Cond.eval`). Each `?`
takes the next bind, from left to right, and the reading of a text fails when the
binds run out or are left over (`evalWhere`).

`Means E p` relates a piece of generated text, the binds pushed for it and its
verdict: the text lexes and parses in every context to one condition, which
consumes exactly these binds and evaluates to this verdict. Its rules are the
calculus for generated SQL: comparisons, `IS NULL`, `IN`, parentheses, `NOT`, and
the n-ary connectives.
-/

namespace Sql

open Kleene

/-! ### Conditions -/

/-- An operand of a comparison. -/
inductive Operand where
  | col (name : String)
  | param
  | int (n : Nat)
  deriving DecidableEq, Repr

/-- A condition. -/
inductive Cond where
  | cmp (op : CmpOp) (a b : Operand)
  | like (a b : Operand)
  | isNull (neg : Bool) (a : Operand)
  | inList (neg : Bool) (a : Operand) (bs : List Operand)
  | and (l r : Cond)
  | or (l r : Cond)
  | not (c : Cond)
  deriving DecidableEq, Repr

/-- What a condition is evaluated in. -/
structure Env where
  /-- The columns of the row. -/
  row : String → Option Value
  /-- The engine's `LIKE`. -/
  like : Value → Value → Tri

/-- Evaluate an operand; a placeholder takes the next bind. -/
def Operand.eval (E : Env) : Operand → List Value → Option (Value × List Value)
  | .col c, vs => (E.row c).map (·, vs)
  | .param, v :: vs => some (v, vs)
  | .param, [] => none
  | .int n, vs => some (.integer (.ofNat n), vs)

/-- Evaluate the elements of an `IN` list, in order. -/
def evalOperands (E : Env) : List Operand → List Value → Option (List Value × List Value)
  | [], vs => some ([], vs)
  | a :: as, vs => do
    let (x, vs) ← a.eval E vs
    let (xs, vs) ← evalOperands E as vs
    some (x :: xs, vs)

/-- Evaluate a condition. Both operands of a connective are read, so that the
binds of the second are found whatever the first evaluates to. -/
def Cond.eval (E : Env) : Cond → List Value → Option (Tri × List Value)
  | .cmp op a b, vs => do
    let (x, vs) ← a.eval E vs
    let (y, vs) ← b.eval E vs
    some (compareTri op x y, vs)
  | .like a b, vs => do
    let (x, vs) ← a.eval E vs
    let (y, vs) ← b.eval E vs
    some (E.like x y, vs)
  | .isNull neg a, vs => do
    let (x, vs) ← a.eval E vs
    some (.ofBool (x.isNull != neg), vs)
  | .inList neg a bs, vs => do
    let (x, vs) ← a.eval E vs
    let (ys, vs) ← evalOperands E bs vs
    some (if neg then (inTri x ys).not else inTri x ys, vs)
  | .and l r, vs => do
    let (t, vs) ← l.eval E vs
    let (u, vs) ← r.eval E vs
    some (t.and u, vs)
  | .or l r, vs => do
    let (t, vs) ← l.eval E vs
    let (u, vs) ← r.eval E vs
    some (t.or u, vs)
  | .not c, vs => do
    let (t, vs) ← c.eval E vs
    some (t.not, vs)

/-! ### Parsing -/

/-- A construct still waiting for the condition being read. -/
inductive Frame where
  | paren
  | not
  | and (l : Cond)
  | or (l : Cond)
  deriving DecidableEq, Repr

/-- Where in a condition the parser stands. -/
inductive Mode where
  /-- A condition is due. -/
  | want
  /-- A left operand has been read. -/
  | operand (a : Operand)
  | cmp (a : Operand) (op : CmpOp)
  | like (a : Operand)
  | is (a : Operand)
  | isNot (a : Operand)
  | notIn (a : Operand)
  | inOpen (neg : Bool) (a : Operand)
  | inItem (neg : Bool) (a : Operand) (bs : List Operand)
  | inSep (neg : Bool) (a : Operand) (bs : List Operand)
  /-- A condition has been read. -/
  | done (c : Cond)
  deriving DecidableEq, Repr

/-- The value of a run of digits. -/
def digitsVal (ds : List Char) : Nat :=
  ds.foldl (fun n c => 10 * n + (c.toNat - '0'.toNat)) 0

/-- The operand a token is. -/
def Operand.ofTok : Tok → Option Operand
  | .ident name => some (.col name)
  | .param => some .param
  | .num ds => some (.int (digitsVal ds.toList))
  | _ => none

/-- The comparison operator a symbol is. -/
def CmpOp.ofSym : String → Option CmpOp
  | "=" => some .eq
  | "<>" => some .ne
  | "<" => some .lt
  | "<=" => some .le
  | ">" => some .gt
  | ">=" => some .ge
  | _ => none

/-- A complete condition becomes the operand of every `NOT` and `AND` that waits
for it: nothing that follows can bind tighter. -/
def settle : List Frame → Cond → List Frame × Cond
  | .not :: fs, c => settle fs (.not c)
  | .and l :: fs, c => settle fs (.and l c)
  | fs, c => (fs, c)

/-- At an `OR`, a closing parenthesis or the end, the pending `OR` gets its right
operand. -/
def closeOr : List Frame → Cond → List Frame × Cond
  | .or l :: fs, c => (fs, .or l c)
  | fs, c => (fs, c)

/-- The state after a complete condition. -/
def complete (fs : List Frame) (c : Cond) : List Frame × Mode :=
  ((settle fs c).1, .done (settle fs c).2)

/-- Read one token. -/
def parseStep (fs : List Frame) : Mode → Tok → Option (List Frame × Mode)
  | .want, t =>
    if t = .sym "(" then some (.paren :: fs, .want)
    else if t = .word "NOT" then some (.not :: fs, .want)
    else (Operand.ofTok t).map (fun a => (fs, .operand a))
  | .operand a, t =>
    if t = .word "IS" then some (fs, .is a)
    else if t = .word "IN" then some (fs, .inOpen false a)
    else if t = .word "NOT" then some (fs, .notIn a)
    else if t = .word "LIKE" then some (fs, .like a)
    else match t with
      | .sym s => (CmpOp.ofSym s).map (fun op => (fs, .cmp a op))
      | _ => none
  | .cmp a op, t => (Operand.ofTok t).map (fun b => complete fs (.cmp op a b))
  | .like a, t => (Operand.ofTok t).map (fun b => complete fs (.like a b))
  | .is a, t =>
    if t = .word "NULL" then some (complete fs (.isNull false a))
    else if t = .word "NOT" then some (fs, .isNot a)
    else none
  | .isNot a, t => if t = .word "NULL" then some (complete fs (.isNull true a)) else none
  | .notIn a, t => if t = .word "IN" then some (fs, .inOpen true a) else none
  | .inOpen neg a, t => if t = .sym "(" then some (fs, .inItem neg a []) else none
  | .inItem neg a bs, t => (Operand.ofTok t).map (fun b => (fs, .inSep neg a (bs ++ [b])))
  | .inSep neg a bs, t =>
    if t = .sym "," then some (fs, .inItem neg a bs)
    else if t = .sym ")" then some (complete fs (.inList neg a bs))
    else none
  | .done c, t =>
    if t = .word "AND" then some (.and c :: fs, .want)
    else if t = .word "OR" then some (.or (closeOr fs c).2 :: (closeOr fs c).1, .want)
    else if t = .sym ")" then
      match closeOr fs c with
      | (.paren :: fs', c') => some (complete fs' c')
      | _ => none
    else none

/-- Read a list of tokens. -/
def parseToks : List Frame × Mode → List Tok → Option (List Frame × Mode)
  | st, [] => some st
  | st, t :: ts => (parseStep st.1 st.2 t).bind (fun st' => parseToks st' ts)

/-- Parse the text of a condition. -/
def parseWhere (s : String) : Option Cond :=
  match parseToks ([], .want) (lex s) with
  | some (fs, .done c) =>
    match closeOr fs c with
    | ([], c') => some c'
    | _ => none
  | _ => none

/-- The verdict of the text of a condition with its binds, on a row. -/
def evalWhere (E : Env) (s : String) (vs : List Value) : Option Tri := do
  let c ← parseWhere s
  let (t, rest) ← c.eval E vs
  if rest = [] then some t else none

/-- The row satisfies the condition: only `TRUE` admits it. -/
def Admits (E : Env) (s : String) (vs : List Value) : Prop :=
  evalWhere E s vs = some .true

instance (E : Env) (s : String) (vs : List Value) : Decidable (Admits E s vs) :=
  inferInstanceAs (Decidable (evalWhere E s vs = some .true))

/-! ### Reading pieces in context -/

/-- The tokens `ts` are read as the condition `c`, whatever is pending before them. -/
def Reads (ts : List Tok) (c : Cond) : Prop :=
  ∀ fs, parseToks (fs, .want) ts = some (complete fs c)

theorem parseToks_append (st : List Frame × Mode) (ts us : List Tok) :
    parseToks st (ts ++ us) = (parseToks st ts).bind (fun st' => parseToks st' us) := by
  induction ts generalizing st with
  | nil => rfl
  | cons t ts ih =>
    rw [List.cons_append, parseToks, parseToks, Option.bind_assoc]
    congr 1
    funext st'
    exact ih st'

/-- `c` consumes the binds `vs` and no others, and evaluates to `t`. -/
def Holds (E : Env) (c : Cond) (vs : List Value) (t : Tri) : Prop :=
  ∀ rest, c.eval E (vs ++ rest) = some (t, rest)

/-- A piece of generated text, the binds pushed for it, and its verdict. -/
structure Piece where
  sql : String
  binds : List Value
  verdict : Tri

/-- The text of the piece is one condition in every context, and it takes these
binds to this verdict. -/
def Means (E : Env) (p : Piece) : Prop :=
  ∃ ts c, Lexes p.sql ts ∧ Reads ts c ∧ Holds E c p.binds p.verdict

/-- A whole text is read as its one piece. -/
theorem Means.evalWhere {E : Env} {p : Piece} (h : Means E p) :
    Sql.evalWhere E p.sql p.binds = some p.verdict := by
  obtain ⟨ts, c, hlex, hread, hholds⟩ := h
  have hparse : parseWhere p.sql = some c := by
    rw [parseWhere, hlex.lex_eq, hread []]
    rfl
  have heval := hholds []
  rw [List.append_nil] at heval
  rw [Sql.evalWhere, hparse]
  change ((c.eval E p.binds).bind fun x => if x.2 = [] then some x.1 else none) = _
  rw [heval]
  rfl

theorem Means.admits_iff {E : Env} {p : Piece} (h : Means E p) :
    Admits E p.sql p.binds ↔ p.verdict = .true := by
  rw [Admits, h.evalWhere, Option.some_inj]

/-! ### Connectives -/

section Connectives

variable {E : Env}

/-- Parentheses change nothing. -/
theorem Means.paren {p : Piece} (h : Means E p) :
    Means E ⟨"(" ++ p.sql ++ ")", p.binds, p.verdict⟩ := by
  obtain ⟨ts, c, hlex, hread, hholds⟩ := h
  refine ⟨_, c, hlex.paren, fun fs => ?_, hholds⟩
  rw [List.cons_append, parseToks]
  change parseToks (.paren :: fs, .want) (ts ++ [.sym ")"]) = _
  rw [parseToks_append, hread]
  rfl

theorem lexes_NOT : Lexes "NOT" [.word "NOT"] :=
  lexes_word (c := 'N') (w := ['O', 'T']) rfl rfl

theorem lexes_AND : Lexes "AND" [.word "AND"] :=
  lexes_word (c := 'A') (w := ['N', 'D']) rfl rfl

theorem lexes_OR : Lexes "OR" [.word "OR"] :=
  lexes_word (c := 'O') (w := ['R']) rfl rfl

/-- `NOT` negates the whole piece after it. -/
theorem Means.not {p : Piece} (h : Means E p) :
    Means E ⟨"NOT " ++ p.sql, p.binds, p.verdict.not⟩ := by
  obtain ⟨ts, c, hlex, hread, hholds⟩ := h
  refine ⟨.word "NOT" :: ts, .not c, ?_, fun fs => ?_, fun rest => ?_⟩
  · rw [show "NOT " = "NOT" ++ " " from rfl]
    exact lexes_NOT.join hlex
  · rw [parseToks]
    change parseToks (.not :: fs, .want) ts = _
    rw [hread]
    rfl
  · rw [Cond.eval, hholds rest]
    rfl

/-- A list of conditions consumes the binds of its elements in turn. -/
theorem eval_foldl (op : Cond → Cond → Cond) (f : Tri → Tri → Tri)
    (hop : ∀ l r vs, (op l r).eval E vs = (l.eval E vs).bind fun x =>
      (r.eval E x.2).bind fun y => some (f x.1 y.1, y.2))
    {cs : List Cond} {ps : List Piece}
    (h : List.Forall₂ (fun c p => Holds E c p.binds p.verdict) cs ps)
    {c : Cond} {vs : List Value} {t : Tri} (hc : Holds E c vs t) :
    Holds E (cs.foldl op c) (vs ++ ps.flatMap Piece.binds)
      ((ps.map Piece.verdict).foldl f t) := by
  induction h generalizing c vs t with
  | nil => simpa using hc
  | @cons c' p cs ps hp hps ih =>
    have hstep : Holds E (op c c') (vs ++ p.binds) (f t p.verdict) := by
      intro rest
      rw [hop, List.append_assoc, hc, Option.bind_some, hp]
      rfl
    have := ih hstep
    rwa [List.append_assoc] at this

/-- Each further conjunct joins the condition read so far. `B` are the frames at
which a condition stops settling. -/
theorem parseToks_and {B : List Frame} (hB : ∀ c, settle B c = (B, c)) {tss : List (List Tok)}
    {cs : List Cond} (h : List.Forall₂ Reads tss cs) (c : Cond) :
    parseToks (B, .done c) (tss.flatMap (fun ts => .word "AND" :: ts))
      = some (B, .done (cs.foldl .and c)) := by
  induction h generalizing c with
  | nil => rfl
  | @cons ts c' tss cs hts hrest ih =>
    rw [List.flatMap_cons, List.cons_append, parseToks]
    change parseToks (.and c :: B, .want) (ts ++ _) = _
    rw [parseToks_append, hts, Option.bind_some]
    have hsettle : complete (.and c :: B) c' = (B, .done (.and c c')) := by
      rw [complete, settle, hB]
    rw [hsettle, ih]
    rfl

/-- Each further disjunct waits for the next `OR` or the closing parenthesis. -/
theorem parseToks_or {B : List Frame} {tss : List (List Tok)} {cs : List Cond}
    (h : List.Forall₂ Reads tss cs) {fs : List Frame} {c acc : Cond}
    (hacc : closeOr fs c = (B, acc)) :
    ∃ fs' c', parseToks (fs, .done c) (tss.flatMap (fun ts => .word "OR" :: ts))
        = some (fs', .done c') ∧ closeOr fs' c' = (B, cs.foldl .or acc) := by
  induction h generalizing fs c acc with
  | nil => exact ⟨fs, c, rfl, hacc⟩
  | @cons ts c' tss cs hts hrest ih =>
    have hnext : closeOr (.or acc :: B) c' = (B, .or acc c') := rfl
    obtain ⟨fs', d, hrun, hclose⟩ := ih hnext
    refine ⟨fs', d, ?_, hclose⟩
    rw [List.flatMap_cons, List.cons_append, parseToks]
    change parseToks (.or (closeOr fs c).2 :: (closeOr fs c).1, .want) (ts ++ _) = _
    rw [hacc, parseToks_append, hts, Option.bind_some]
    exact hrun

theorem joinToks_cons (k : Tok) (ts : List Tok) (tss : List (List Tok)) :
    joinToks k (ts :: tss) = ts ++ tss.flatMap (fun ts => k :: ts) := by
  induction tss generalizing ts with
  | nil => simp [joinToks]
  | cons ts' tss ih => rw [joinToks, ih, List.flatMap_cons, List.cons_append]

/-- The tokens and conditions of a list of pieces. -/
theorem exists_reads {ps : List Piece} (h : ∀ p ∈ ps, Means E p) :
    ∃ tss cs, List.Forall₂ Lexes (ps.map Piece.sql) tss ∧ List.Forall₂ Reads tss cs ∧
      List.Forall₂ (fun c p => Holds E c p.binds p.verdict) cs ps := by
  induction ps with
  | nil => exact ⟨[], [], .nil, .nil, .nil⟩
  | cons p ps ih =>
    obtain ⟨ts, c, hlex, hread, hholds⟩ := h p (List.mem_cons_self ..)
    obtain ⟨tss, cs, hl, hr, hh⟩ := ih (fun q hq => h q (List.mem_cons_of_mem _ hq))
    exact ⟨ts :: tss, c :: cs, .cons hlex hl, .cons hread hr, .cons hholds hh⟩

/-- A parenthesized conjunction of pieces. -/
theorem means_all {ps : List Piece} (hne : ps ≠ []) (h : ∀ p ∈ ps, Means E p) :
    Means E ⟨"(" ++ join " AND " (ps.map Piece.sql) ++ ")", ps.flatMap Piece.binds,
      .allOf (ps.map Piece.verdict)⟩ := by
  obtain ⟨tss, cs, hl, hr, hh⟩ := exists_reads h
  cases hh with
  | nil => exact absurd rfl hne
  | @cons c p cs ps hp hps =>
    cases hr with
    | @cons ts _ tss _ hts htss =>
      refine ⟨_, cs.foldl .and c, (lexes_join_word lexes_AND hl).paren, fun fs => ?_, ?_⟩
      · rw [List.cons_append, parseToks]
        change parseToks (.paren :: fs, .want) _ = _
        rw [joinToks_cons, List.append_assoc, parseToks_append, hts, Option.bind_some,
          parseToks_append]
        change (parseToks (.paren :: fs, .done c) _).bind _ = _
        rw [parseToks_and (fun _ => rfl) htss]
        rfl
      · have := eval_foldl .and .and (fun l r vs => by rw [Cond.eval]; rfl) hps hp
        rwa [Tri.foldl_and] at this

/-- A parenthesized disjunction of pieces. -/
theorem means_any {ps : List Piece} (hne : ps ≠ []) (h : ∀ p ∈ ps, Means E p) :
    Means E ⟨"(" ++ join " OR " (ps.map Piece.sql) ++ ")", ps.flatMap Piece.binds,
      .anyOf (ps.map Piece.verdict)⟩ := by
  obtain ⟨tss, cs, hl, hr, hh⟩ := exists_reads h
  cases hh with
  | nil => exact absurd rfl hne
  | @cons c p cs ps hp hps =>
    cases hr with
    | @cons ts _ tss _ hts htss =>
      refine ⟨_, cs.foldl .or c, (lexes_join_word lexes_OR hl).paren, fun fs => ?_, ?_⟩
      · rw [List.cons_append, parseToks]
        change parseToks (.paren :: fs, .want) _ = _
        rw [joinToks_cons, List.append_assoc, parseToks_append, hts, Option.bind_some,
          parseToks_append]
        have hfirst : closeOr (.paren :: fs) c = (.paren :: fs, c) := rfl
        obtain ⟨fs', c', hrun, hclose⟩ := parseToks_or htss hfirst
        change (parseToks (.paren :: fs, .done c) _).bind _ = _
        rw [hrun, Option.bind_some, parseToks]
        have hstep : parseStep fs' (.done c') (.sym ")") = some (complete fs (cs.foldl .or c)) := by
          change (match closeOr fs' c' with
            | (.paren :: fs', c') => some (complete fs' c')
            | _ => none) = _
          rw [hclose]
        rw [hstep]
        rfl
      · have := eval_foldl .or .or (fun l r vs => by rw [Cond.eval]; rfl) hps hp
        rwa [Tri.foldl_or] at this

/-- A fragment with its binds, as a compiler emits it, has this verdict. -/
def Emits (E : Env) (c : String × List Value) (t : Tri) : Prop :=
  Means E ⟨c.1, c.2, t⟩

theorem Emits.admits_iff {c : String × List Value} {t : Tri} (h : Emits E c t) :
    Admits E c.1 c.2 ↔ t = .true :=
  Means.admits_iff h

/-- Emitted fragments with their binds, and their verdicts one by one. -/
theorem exists_pieces {parts : List (String × List Value)} {ts : List Tri}
    (h : List.Forall₂ (Emits E) parts ts) :
    ∃ ps : List Piece, (∀ p ∈ ps, Means E p) ∧ parts.map Prod.fst = ps.map Piece.sql ∧
      parts.flatMap Prod.snd = ps.flatMap Piece.binds ∧ ts = ps.map Piece.verdict := by
  induction h with
  | nil => exact ⟨[], by simp, rfl, rfl, rfl⟩
  | @cons c t parts ts hc hrest ih =>
    obtain ⟨ps, hmem, hsql, hbinds, hverd⟩ := ih
    refine ⟨⟨c.1, c.2, t⟩ :: ps, List.forall_mem_cons.mpr ⟨hc, hmem⟩, ?_, ?_, ?_⟩
    · rw [List.map_cons, List.map_cons, hsql]
    · rw [List.flatMap_cons, List.flatMap_cons, hbinds]
    · rw [List.map_cons, hverd]

/-- Fragments whose verdicts are known up to their being true. -/
theorem exists_verdicts {α : Type} {f : α → String × List Value} {P : α → Prop} {as : List α}
    (h : ∀ a ∈ as, ∃ t, Emits E (f a) t ∧ (t = .true ↔ P a)) :
    ∃ ts, List.Forall₂ (Emits E) (as.map f) ts ∧
      (.true ∈ ts ↔ ∃ a ∈ as, P a) := by
  induction as with
  | nil => exact ⟨[], .nil, by simp⟩
  | cons a as ih =>
    obtain ⟨h₁, h₂⟩ := List.forall_mem_cons.mp h
    obtain ⟨t, hmeans, ht⟩ := h₁
    obtain ⟨ts, hall, hts⟩ := ih h₂
    refine ⟨t :: ts, .cons hmeans hall, ?_⟩
    rw [List.mem_cons, hts, eq_comm, ht]
    simp

/-- A parenthesized conjunction of emitted fragments. -/
theorem means_allOf {parts : List (String × List Value)} {ts : List Tri}
    (h : List.Forall₂ (Emits E) parts ts) (hne : ts ≠ []) :
    Means E ⟨"(" ++ join " AND " (parts.map Prod.fst) ++ ")", parts.flatMap Prod.snd,
      .allOf ts⟩ := by
  obtain ⟨ps, hmem, hsql, hbinds, rfl⟩ := exists_pieces h
  rw [hsql, hbinds]
  exact means_all (by simpa using hne) hmem

/-- A parenthesized disjunction of emitted fragments. -/
theorem means_anyOf {parts : List (String × List Value)} {ts : List Tri}
    (h : List.Forall₂ (Emits E) parts ts) (hne : ts ≠ []) :
    Means E ⟨"(" ++ join " OR " (parts.map Prod.fst) ++ ")", parts.flatMap Prod.snd,
      .anyOf ts⟩ := by
  obtain ⟨ps, hmem, hsql, hbinds, rfl⟩ := exists_pieces h
  rw [hsql, hbinds]
  exact means_any (by simpa using hne) hmem

end Connectives

/-! ### Tests on a column -/

section Tests

variable {E : Env} {name : String} {x : Value}

/-- The text of a comparison operator. -/
def CmpOp.text : CmpOp → String
  | .eq => "="
  | .ne => "<>"
  | .lt => "<"
  | .le => "<="
  | .gt => ">"
  | .ge => ">="

theorem CmpOp.lexes_text (op : CmpOp) : Lexes op.text [.sym op.text] := by
  intro rest hrest
  have hpend : ∀ p : Char, p = '<' ∨ p = '>' →
      lexFrom (.op p) rest = .sym p.toString :: lexFrom .idle rest := by
    rintro p (rfl | rfl) <;>
      exact lexFrom_of_endTok rfl (by rintro c (rfl | rfl | rfl) <;> rfl) hrest
  cases op with
  | lt => exact hpend '<' (Or.inl rfl)
  | gt => exact hpend '>' (Or.inr rfl)
  | eq => rfl
  | ne => rfl
  | le => rfl
  | ge => rfl

/-- Neither a parenthesis nor a keyword is an operator symbol. -/
theorem parseStep_text (fs : List Frame) (a : Operand) (op : CmpOp) :
    parseStep fs (.operand a) (.sym op.text) = some (fs, .cmp a op) := by
  cases op <;> rfl

/-- A column compared with a bind. -/
theorem means_cmp (op : CmpOp) (hx : E.row name = some x) (v : Value) :
    Means E ⟨quoteIdent name ++ " " ++ op.text ++ " ?", [v], compareTri op x v⟩ := by
  refine ⟨[.ident name, .sym op.text, .param], .cmp op (.col name) .param, ?_, fun fs => ?_,
    fun rest => ?_⟩
  · have h := ((lexes_quoteIdent name).join op.lexes_text).join lexes_param
    rw [String.append_assoc] at h
    exact h
  · change (parseStep fs (.operand (.col name)) (.sym op.text)).bind _ = _
    rw [parseStep_text]
    rfl
  · simp [Cond.eval, Operand.eval, hx]

theorem lexes_LIKE : Lexes "LIKE" [.word "LIKE"] :=
  lexes_word (c := 'L') (w := ['I', 'K', 'E']) rfl rfl

/-- A column matched against a bound pattern. -/
theorem means_like (hx : E.row name = some x) (v : Value) :
    Means E ⟨quoteIdent name ++ " " ++ "LIKE" ++ " ?", [v], E.like x v⟩ := by
  refine ⟨[.ident name, .word "LIKE", .param], .like (.col name) .param, ?_, fun fs => rfl,
    fun rest => ?_⟩
  · have h := ((lexes_quoteIdent name).join lexes_LIKE).join lexes_param
    rw [String.append_assoc] at h
    exact h
  · simp [Cond.eval, Operand.eval, hx]

theorem lexes_IS : Lexes "IS" [.word "IS"] :=
  lexes_word (c := 'I') (w := ['S']) rfl rfl

theorem lexes_NULL : Lexes "NULL" [.word "NULL"] :=
  lexes_word (c := 'N') (w := ['U', 'L', 'L']) rfl rfl

/-- `IS NULL` is two-valued. -/
theorem means_isNull (hx : E.row name = some x) :
    Means E ⟨quoteIdent name ++ " " ++ "IS NULL", [], .ofBool x.isNull⟩ := by
  refine ⟨[.ident name, .word "IS", .word "NULL"], .isNull false (.col name),
    (lexes_quoteIdent name).join (lexes_IS.join lexes_NULL), fun fs => rfl, fun rest => ?_⟩
  simp [Cond.eval, Operand.eval, hx]

/-- `IS NOT NULL` is two-valued. -/
theorem means_isNotNull (hx : E.row name = some x) :
    Means E ⟨quoteIdent name ++ " " ++ "IS NOT NULL", [], .ofBool (!x.isNull)⟩ := by
  refine ⟨[.ident name, .word "IS", .word "NOT", .word "NULL"], .isNull true (.col name),
    (lexes_quoteIdent name).join (lexes_IS.join (lexes_NOT.join lexes_NULL)), fun fs => rfl,
    fun rest => ?_⟩
  simp [Cond.eval, Operand.eval, hx]

theorem lexes_IN : Lexes "IN" [.word "IN"] :=
  lexes_word (c := 'I') (w := ['N']) rfl rfl

/-- `n` placeholders separated by commas. -/
def placeholders (n : Nat) : String :=
  join ", " (List.replicate n "?")

theorem lexes_placeholders (n : Nat) :
    Lexes (placeholders n) (joinToks (.sym ",") (List.replicate n [.param])) := by
  refine lexes_join_comma ?_
  induction n with
  | zero => exact .nil
  | succ n ih => exact .cons lexes_param ih

/-- The elements of a list of placeholders, and its closing parenthesis. -/
theorem parseToks_placeholders (fs : List Frame) (neg : Bool) (a : Operand) (n : Nat)
    (bs : List Operand) :
    parseToks (fs, .inItem neg a bs)
        (joinToks (.sym ",") (List.replicate (n + 1) [.param]) ++ [.sym ")"])
      = some (complete fs (.inList neg a (bs ++ List.replicate (n + 1) .param))) := by
  induction n generalizing bs with
  | zero => rfl
  | succ n ih =>
    rw [List.replicate_succ, List.replicate_succ, joinToks, ← List.replicate_succ]
    change parseToks (fs, .inItem neg a (bs ++ [.param])) (_ ++ [.sym ")"]) = _
    rw [ih, List.append_assoc, List.singleton_append, ← List.replicate_succ]

/-- A list of placeholders evaluates to the binds in order. -/
theorem evalOperands_placeholders (vs rest : List Value) :
    evalOperands E (List.replicate vs.length .param) (vs ++ rest) = some (vs, rest) := by
  induction vs with
  | nil => rfl
  | cons v vs ih =>
    simp only [List.length_cons, List.replicate_succ, List.cons_append, evalOperands,
      Operand.eval, Option.bind_eq_bind, Option.bind_some, ih]

/-- The keyword of a membership test. -/
def inText (neg : Bool) : String :=
  if neg then "NOT IN" else "IN"

/-- The tokens of `inText`. -/
def inToks (neg : Bool) : List Tok :=
  if neg then [.word "NOT", .word "IN"] else [.word "IN"]

theorem lexes_inText (neg : Bool) : Lexes (inText neg) (inToks neg) := by
  cases neg with
  | true => exact lexes_NOT.join lexes_IN
  | false => exact lexes_IN

/-- A column tested against a non-empty list of binds. -/
theorem means_in (neg : Bool) (hx : E.row name = some x) {vs : List Value} (hvs : vs ≠ []) :
    Means E ⟨quoteIdent name ++ " " ++ inText neg ++ " (" ++ placeholders vs.length ++ ")", vs,
      if neg then (inTri x vs).not else inTri x vs⟩ := by
  obtain ⟨n, hn⟩ : ∃ n, vs.length = n + 1 :=
    ⟨vs.length - 1, by have := List.length_pos_iff.mpr hvs; omega⟩
  have hsql : quoteIdent name ++ " " ++ inText neg ++ " (" ++ placeholders vs.length ++ ")"
      = quoteIdent name ++ " " ++ inText neg ++ " " ++ ("(" ++ placeholders vs.length ++ ")") := by
    rw [show " (" = " " ++ "(" from rfl]
    simp only [String.append_assoc]
  have hlex := ((lexes_quoteIdent name).join (lexes_inText neg)).join
    (lexes_placeholders vs.length).paren
  rw [← hsql] at hlex
  refine ⟨_, .inList neg (.col name) (List.replicate vs.length .param), hlex, fun fs => ?_,
    fun rest => ?_⟩
  · have hopen : parseToks (fs, .operand (.col name)) (inToks neg) =
        some (fs, .inOpen neg (.col name)) := by
      cases neg <;> rfl
    change parseToks (fs, .operand (.col name)) (inToks neg ++ _) = _
    rw [parseToks_append, hopen, hn]
    exact parseToks_placeholders fs neg (.col name) n []
  · simp [Cond.eval, Operand.eval, hx, evalOperands_placeholders]

/-- Two one-digit literals compared for equality. -/
theorem means_literals {s : String} {a b : Char} {t : Tri}
    (hlex : Lexes s [.num (.ofList [a]), .sym "=", .num (.ofList [b])])
    (ht : compareTri .eq (.integer (.ofNat (digitsVal [a]))) (.integer (.ofNat (digitsVal [b])))
      = t) :
    Means E ⟨s, [], t⟩ := by
  refine ⟨_, .cmp .eq (.int (digitsVal [a])) (.int (digitsVal [b])), hlex, fun fs => ?_,
    fun rest => ?_⟩
  · simp [parseToks, parseStep, Operand.ofTok, CmpOp.ofSym]
  · simp [Cond.eval, Operand.eval, ht]

/-- `1=1` is true and takes no bind. -/
theorem means_true : Means E ⟨"1=1", [], .true⟩ := by
  refine means_literals (a := '1') (b := '1') (fun rest hrest => ?_) rfl
  change .num "1" :: .sym "=" :: lexFrom (.num ['1']) rest = _
  rw [lexFrom_of_endTok (t := .num "1") rfl (by rintro c (rfl | rfl | rfl) <;> rfl) hrest]
  rfl

/-- `1=0` is false and takes no bind. -/
theorem means_false : Means E ⟨"1=0", [], .false⟩ := by
  refine means_literals (a := '1') (b := '0') (fun rest hrest => ?_) rfl
  change .num "1" :: .sym "=" :: lexFrom (.num ['0']) rest = _
  rw [lexFrom_of_endTok (t := .num "0") rfl (by rintro c (rfl | rfl | rfl) <;> rfl) hrest]
  rfl

/-- `0=1` is false and takes no bind. -/
theorem means_false_left : Means E ⟨"0=1", [], .false⟩ := by
  refine means_literals (a := '0') (b := '1') (fun rest hrest => ?_) rfl
  change .num "0" :: .sym "=" :: lexFrom (.num ['1']) rest = _
  rw [lexFrom_of_endTok (t := .num "1") rfl (by rintro c (rfl | rfl | rfl) <;> rfl) hrest]
  rfl

end Tests

end Sql
