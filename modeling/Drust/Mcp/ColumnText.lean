import Drust.Lib.Sql.Ddl
import Drust.Mcp.CheckClause

/-!
# The text of a column

A column's definition is put together from fixed words and from what the caller has sent: names,
texts, numbers and expressions of an allowlist. `columnTokens` is how it is meant to be read, each
of these as one identifier, one literal or one expression. The database reads it so unless an
enumeration of reals has a value that is not finite, which is printed as a bare word, or the default
is a text with a NUL, which ends the text (`columnExprText_confined_iff`).
-/

namespace Drust

namespace SchemaTools

open Sql (Tok quoteIdent join joinToks)
open Sql.Ddl

/-- How doubles are printed, outside JSON and in it. -/
structure Printer where
  displayF64 : Binary64 → Numeral
  jsonF64 : Binary64 → Numeral

namespace Special

def text : Special → String
  | .inf => "inf"
  | .negInf => "-inf"
  | .nan => "NaN"

/-- How it is read. -/
def toks : Special → List Tok
  | .inf => [.word "inf"]
  | .negInf => [.sym "-", .word "inf"]
  | .nan => [.word "NaN"]

end Special

/-! ### The text -/

/-- What has been checked and translated before the text is written. -/
structure ColumnParts where
  type : String
  default : Option ColumnDefault
  check : List CheckPart

def columnParts (env : Env) (f : FieldSpec) : Except ToolError ColumnParts := do
  identifier f.name
  let type ← typeToSqlite f.sqlType
  checkDim f
  let default ← whenPresent defaultLiteral f.defaultValue
  let check ← checkParts env f
  let _ ← whenPresent identifier f.foreignKey
  .ok { type, default, check }

section Text

variable (P : Printer)

def numberNumeral : Json.Number → Numeral
  | .posInt n => .ofInt n.toNat
  | .negInt n => .ofInt n.toInt
  | .float x => P.jsonF64 x

def literalText : Literal → String
  | .integer i => (Numeral.ofInt i.toInt).text
  | .real x => (P.displayF64 x).text
  | .text s => quoteText s
  | .nonFinite v => (Special.ofText v).text

def partText (name : String) : CheckPart → String
  | .atLeast bound => quoteIdent name ++ " >= " ++ literalText P bound
  | .atMost bound => quoteIdent name ++ " <= " ++ literalText P bound
  | .lengthAtMost len =>
    "length(" ++ quoteIdent name ++ ") <= " ++ (Numeral.ofInt len.toNat).text
  | .oneOf values => quoteIdent name ++ " IN (" ++ join "," (values.map (literalText P)) ++ ")"

/-- The `CHECK` of a column; `none` without constraints. -/
def checkText (name : String) (parts : List CheckPart) : Option String :=
  if parts.isEmpty then none
  else some ("CHECK(" ++ join " AND " (parts.map (partText P name)) ++ ")")

def defaultText : ColumnDefault → String
  | .null => "NULL"
  | .bool b => if b then "1" else "0"
  | .number n => (numberNumeral P n).text
  | .text s => quoteText s
  | .sql expr => "(" ++ expr ++ ")"

def columnText (f : FieldSpec) (p : ColumnParts) : String :=
  "\"" ++ f.name ++ "\" " ++ p.type ++
    (if f.nullable then "" else " NOT NULL") ++
    (if f.unique then " UNIQUE" else "") ++
    p.default.elim "" (fun d => " DEFAULT " ++ defaultText P d) ++
    (checkText P f.name p.check).elim "" (fun c => " " ++ c) ++
    f.foreignKey.elim "" fun fk =>
      " REFERENCES " ++ quoteIdent fk ++ "(\"id\") ON DELETE RESTRICT"

/-- The text of `column_expr`. -/
def columnExprText (env : Env) (f : FieldSpec) : Except ToolError String := do
  let p ← columnParts env f
  .ok (columnText P f p)

end Text

/-! ### How it is meant -/

section Tokens

variable (P : Printer)

/-- A value of the caller is a literal. -/
def literalToks : Literal → List Tok
  | .integer i => (Numeral.ofInt i.toInt).toks
  | .real x => (P.displayF64 x).toks
  | .text s => [.str s]
  | .nonFinite v => [.num v]

-- the tokens of a literal
variable (lit : Literal → List Tok)

def partToks (name : String) : CheckPart → List Tok
  | .atLeast bound => .ident name :: .sym ">=" :: lit bound
  | .atMost bound => .ident name :: .sym "<=" :: lit bound
  | .lengthAtMost len =>
    .word "length" :: .sym "(" :: .ident name :: .sym ")" :: .sym "<=" ::
      (Numeral.ofInt len.toNat).toks
  | .oneOf values =>
    .ident name :: .word "IN" :: .sym "(" :: joinToks (.sym ",") (values.map lit) ++ [.sym ")"]

def checkToks (name : String) (parts : List CheckPart) : List Tok :=
  if parts.isEmpty then []
  else
    .word "CHECK" :: .sym "(" :: joinToks (.word "AND") (parts.map (partToks lit name)) ++
      [.sym ")"]

def defaultToks : ColumnDefault → List Tok
  | .null => [.word "NULL"]
  | .bool b => [.num (if b then "1" else "0")]
  | .number n => (numberNumeral P n).toks
  | .text s => [.str s]
  | .sql expr => .sym "(" :: tokens expr ++ [.sym ")"]

def referenceToks (fk : String) : List Tok :=
  [.word "REFERENCES", .ident fk, .sym "(", .ident "id", .sym ")", .word "ON", .word "DELETE",
    .word "RESTRICT"]

def columnToks (f : FieldSpec) (p : ColumnParts) : List Tok :=
  [Tok.ident f.name, Tok.word p.type] ++
    (if f.nullable then [] else [Tok.word "NOT", Tok.word "NULL"]) ++
    (if f.unique then [Tok.word "UNIQUE"] else []) ++
    p.default.elim [] (fun d => Tok.word "DEFAULT" :: defaultToks P d) ++
    checkToks lit f.name p.check ++
    f.foreignKey.elim [] referenceToks

/-- The tokens of the definition of a column, as it is meant. -/
def columnTokens (env : Env) (f : FieldSpec) : Except ToolError (List Tok) := do
  let p ← columnParts env f
  .ok (columnToks P (literalToks P) f p)

/-- The words of a definition. -/
def keywords : List String :=
  ["TEXT", "INTEGER", "REAL", "BLOB", "NOT", "NULL", "UNIQUE", "DEFAULT", "CHECK", "AND", "length",
    "IN", "REFERENCES", "ON", "DELETE", "RESTRICT", "datetime", "date", "time",
    "CURRENT_TIMESTAMP", "CURRENT_DATE", "CURRENT_TIME"]

/-- A token that is no word but a keyword. -/
def Plain : Tok → Prop
  | .word w => w ∈ keywords
  | .bad => False
  | _ => True

instance (t : Tok) : Decidable (Plain t) :=
  match t with
  | .word w => inferInstanceAs (Decidable (w ∈ keywords))
  | .bad => isFalse id
  | .ident _ | .str _ | .num _ | .param | .sym _ => isTrue trivial

end Tokens

/-! ### Reading the pieces -/

section Pieces

variable {P : Printer} {env : Env} {f : FieldSpec}

/-- How the database reads a literal. -/
def readToks (P : Printer) : Literal → List Tok
  | .nonFinite v => (Special.ofText v).toks
  | l => literalToks P l

theorem lexes_special (x : Special) : Lexes x.text x.toks := by
  cases x with
  | inf => exact lexes_word (by decide)
  | nan => exact lexes_word (by decide)
  | negInf =>
    intro rest hrest
    change .sym "-" :: lexFrom (.word "inf".toList) rest = _
    rw [lexFrom_delimited rfl (by rintro c (rfl | rfl | rfl | rfl) <;> rfl) hrest]
    rfl

/-- The texts of a literal are without NUL. -/
def NulFree : Literal → Prop
  | .text s => '\x00' ∉ s.toList
  | _ => True

theorem lexes_literal {l : Literal} (h : NulFree l) : Lexes (literalText P l) (readToks P l) := by
  cases l with
  | integer i => exact lexes_numeral _
  | real x => exact lexes_numeral _
  | text s => exact lexes_quoteText h
  | nonFinite v => exact lexes_special _

theorem lexes_and {s : String} {ts : List Tok} (h : Lexes s ts) :
    Lexes (" AND " ++ s) (.word "AND" :: ts) := by
  have hword : Lexes "AND" [.word "AND"] := lexes_word (by decide)
  exact (hword.join h).blank

theorem lexes_ge {s : String} {ts : List Tok} (h : Lexes s ts) :
    Lexes (" >= " ++ s) (.sym ">=" :: ts) := by
  have hop : Lexes ">=" [.sym ">="] := fun _ _ => rfl
  exact (hop.join h).blank

theorem lexes_le {s : String} {ts : List Tok} (h : Lexes s ts) :
    Lexes (" <= " ++ s) (.sym "<=" :: ts) := by
  have hop : Lexes "<=" [.sym "<="] := fun _ _ => rfl
  exact (hop.join h).blank

theorem lexes_part {name : String} (hname : '\x00' ∉ name.toList) {p : CheckPart}
    (h : p.Forall NulFree) : Lexes (partText P name p) (partToks (readToks P) name p) := by
  have hident := lexes_quoteIdent hname
  cases p with
  | atLeast bound =>
    have hpart := hident.append (lexes_ge (lexes_literal (P := P) h))
      (delimited_append (by decide) (by decide) _)
    simp only [partText, String.append_assoc]
    exact hpart
  | atMost bound =>
    have hpart := hident.append (lexes_le (lexes_literal (P := P) h))
      (delimited_append (by decide) (by decide) _)
    simp only [partText, String.append_assoc]
    exact hpart
  | lengthAtMost len =>
    have hlength : Lexes "length" [.word "length"] := lexes_word (by decide)
    have hcall := hlength.append hident.paren
      (by rw [String.append_assoc]; exact delimited_append (by decide) (by decide) _)
    have hpart := hcall.append (lexes_le (lexes_numeral (.ofInt len.toNat)))
      (delimited_append (by decide) (by decide) _)
    have hopen : "length(" = "length" ++ "(" := rfl
    have hclose : ") <= " = ")" ++ " <= " := rfl
    simp only [String.append_assoc] at hpart
    simp only [partText, hopen, hclose, String.append_assoc]
    exact hpart
  | oneOf values =>
    have hin : Lexes "IN" [.word "IN"] := lexes_word (by decide)
    have hlist : Lexes (join "," (values.map (literalText P))) _ :=
      lexes_join Lexes.comma (delimited_append (by decide) (by decide)) fun l hl =>
        lexes_literal (h l hl)
    have hpart := hident.append (hin.join hlist.paren).blank
      (delimited_append (by decide) (by decide) _)
    have hopen : " IN (" = " " ++ ("IN" ++ (" " ++ "(")) := rfl
    simp only [String.append_assoc] at hpart
    simp only [partText, hopen, String.append_assoc]
    exact hpart

theorem lexes_check {name : String} (hname : '\x00' ∉ name.toList) {parts : List CheckPart}
    (h : ∀ p ∈ parts, p.Forall NulFree) :
    Lexes ((checkText P name parts).elim "" fun c => " " ++ c)
      (checkToks (readToks P) name parts) := by
  unfold checkText checkToks
  cases hempty : parts.isEmpty with
  | true => exact lexes_empty
  | false =>
    have hword : Lexes "CHECK" [.word "CHECK"] := lexes_word (by decide)
    have hparts : Lexes (join " AND " (parts.map (partText P name))) _ :=
      lexes_join lexes_and (delimited_append (by decide) (by decide)) fun p hp =>
        lexes_part hname (h p hp)
    have hcheck := (hword.append hparts.paren
      (by rw [String.append_assoc]; exact delimited_append (by decide) (by decide) _)).blank
    have hopen : "CHECK(" = "CHECK" ++ "(" := rfl
    simp only [String.append_assoc] at hcheck
    simp only [Bool.false_eq_true, if_false, Option.elim_some, hopen, String.append_assoc]
    exact hcheck

/-- The default has no NUL, if it is a text. -/
def NulFreeDefault : ColumnDefault → Prop
  | .text s => '\x00' ∉ s.toList
  | _ => True

/-- An expression of the allowlist is read before every continuation. -/
theorem lexes_allowed {expr : String} (h : expr ∈ sqlDefaultAllowlist) :
    Lexes expr (tokens expr) := by
  have hlex : ∀ {s ts}, Lexes s ts → Lexes s (tokens s) := by
    intro s ts hs
    rw [hs.tokens_eq]
    exact hs
  simp only [sqlDefaultAllowlist, List.mem_cons, List.not_mem_nil, or_false] at h
  obtain rfl | rfl | rfl | rfl | rfl | rfl := h
  · exact fun _ _ => rfl
  · exact fun _ _ => rfl
  · exact fun _ _ => rfl
  · exact hlex (lexes_word (by decide))
  · exact hlex (lexes_word (by decide))
  · exact hlex (lexes_word (by decide))

theorem lexes_default {d : ColumnDefault} (hnul : NulFreeDefault d)
    (hallowed : ∀ expr, d = .sql expr → expr ∈ sqlDefaultAllowlist) :
    Lexes (" DEFAULT " ++ defaultText P d) (.word "DEFAULT" :: defaultToks P d) := by
  have hword : Lexes "DEFAULT" [.word "DEFAULT"] := lexes_word (by decide)
  have hvalue : Lexes (defaultText P d) (defaultToks P d) := by
    cases d with
    | null =>
      have hnull : Lexes "NULL" [.word "NULL"] := lexes_word (by decide)
      exact hnull
    | bool b =>
      cases b with
      | true => exact lexes_numeral (.ofInt 1)
      | false => exact lexes_numeral (.ofInt 0)
    | number n => exact lexes_numeral _
    | text s => exact lexes_quoteText hnul
    | sql expr => exact (lexes_allowed (hallowed expr rfl)).paren
  exact (hword.join hvalue).blank

theorem lexes_reference {fk : String} (hfk : '\x00' ∉ fk.toList) :
    Lexes (" REFERENCES " ++ quoteIdent fk ++ "(\"id\") ON DELETE RESTRICT")
      (referenceToks fk) := by
  have hword : Lexes "REFERENCES" [.word "REFERENCES"] := lexes_word (by decide)
  have hon : Lexes "ON" [.word "ON"] := lexes_word (by decide)
  have hdelete : Lexes "DELETE" [.word "DELETE"] := lexes_word (by decide)
  have hrestrict : Lexes "RESTRICT" [.word "RESTRICT"] := lexes_word (by decide)
  have hid : Lexes (quoteIdent "id") [.ident "id"] := lexes_quoteIdent (by decide)
  have hend := hid.paren.join (hon.join (hdelete.join hrestrict))
  have htext : "(\"id\") ON DELETE RESTRICT" =
      "(" ++ quoteIdent "id" ++ ")" ++ " " ++ ("ON" ++ " " ++ ("DELETE" ++ " " ++ "RESTRICT")) := by
    decide +kernel
  rw [← htext] at hend
  exact (hword.join (lexes_quoteIdent hfk)).blank.append hend (by decide)

/-! ### What has been checked -/

theorem identifier_chars {s : String} (h : identifier s = .ok ()) {c : Char} (hc : c ∈ s.toList) :
    (isAsciiLowercase c || c.isDigit || c == '_') = true := by
  unfold identifier at h
  cases hs : s.toList with
  | nil =>
    rw [hs] at hc
    cases hc
  | cons d ds =>
    rw [hs] at h hc
    by_cases hok : ((isAsciiLowercase d || d == '_') &&
        (d :: ds).all fun c => isAsciiLowercase c || c.isDigit || c == '_') = true
    · exact List.all_eq_true.mp (Bool.and_eq_true_iff.mp hok).2 c hc
    · simp only [if_neg hok] at h
      cases h

theorem nulFree_of_identifier {s : String} (h : identifier s = .ok ()) : '\x00' ∉ s.toList :=
  fun hmem => absurd (identifier_chars h hmem) (by decide)

/-- The quotes around a name need not be doubled inside it. -/
theorem quoteIdent_of_identifier {s : String} (h : identifier s = .ok ()) :
    "\"" ++ s ++ "\"" = quoteIdent s := by
  have hflat : ∀ cs : List Char, (∀ c ∈ cs, c ≠ '"') →
      (cs.flatMap fun c => if c == '"' then ['"', '"'] else [c]) = cs := by
    intro cs hcs
    induction cs with
    | nil => rfl
    | cons c cs ih =>
      obtain ⟨hc, hcs⟩ := List.forall_mem_cons.mp hcs
      rw [List.flatMap_cons, if_neg (by simpa using hc), ih hcs, List.singleton_append]
  have hquote : ∀ c ∈ s.toList, c ≠ '"' := by
    rintro c hc rfl
    exact absurd (identifier_chars h hc) (by decide)
  rw [quoteIdent, hflat _ hquote, String.ofList_toList]

/-- What `columnParts` has checked. -/
structure Checked (env : Env) (f : FieldSpec) (p : ColumnParts) : Prop where
  name : identifier f.name = .ok ()
  type : typeToSqlite f.sqlType = .ok p.type
  default : whenPresent defaultLiteral f.defaultValue = .ok p.default
  check : checkParts env f = .ok p.check
  foreignKey : ∀ fk, f.foreignKey = some fk → identifier fk = .ok ()

theorem checked_of_columnParts {p : ColumnParts} (h : columnParts env f = .ok p) :
    Checked env f p := by
  obtain ⟨u, hname, h⟩ := Except.bind_eq_ok_iff.mp h
  obtain ⟨type, htype, h⟩ := Except.bind_eq_ok_iff.mp h
  obtain ⟨u', -, h⟩ := Except.bind_eq_ok_iff.mp h
  obtain ⟨default, hdefault, h⟩ := Except.bind_eq_ok_iff.mp h
  obtain ⟨check, hcheck, h⟩ := Except.bind_eq_ok_iff.mp h
  obtain ⟨fk, hfk, h⟩ := Except.bind_eq_ok_iff.mp h
  cases h
  refine ⟨hname, htype, hdefault, hcheck, ?_⟩
  intro fk' heq
  rw [heq] at hfk
  obtain ⟨u'', hok, -⟩ := Except.bind_eq_ok_iff.mp hfk
  exact hok

theorem type_mem_keywords {t ty : String} (h : typeToSqlite t = .ok ty) :
    ty ∈ ["TEXT", "INTEGER", "REAL", "BLOB"] := by
  unfold typeToSqlite at h
  split at h <;> simp_all

/-- The default as it was sent. -/
theorem default_cases {p : ColumnParts} {d : ColumnDefault} (h : Checked env f p)
    (hd : p.default = some d) :
    (∀ s, d = .text s ↔ f.defaultValue = some (.string s)) ∧
      ∀ expr, d = .sql expr → expr ∈ sqlDefaultAllowlist := by
  have hdefault := h.default
  rw [hd] at hdefault
  cases hvalue : f.defaultValue with
  | none =>
    rw [hvalue] at hdefault
    cases hdefault
  | some v =>
    rw [hvalue] at hdefault
    obtain ⟨d', hliteral, heq⟩ := Except.bind_eq_ok_iff.mp hdefault
    cases heq
    unfold defaultLiteral at hliteral
    split at hliteral
    · cases hliteral
      exact ⟨by simp, by simp⟩
    · cases hliteral
      exact ⟨by simp, by simp⟩
    · cases hliteral
      exact ⟨by simp, by simp⟩
    · cases hliteral
      exact ⟨by simp, by simp⟩
    · split at hliteral
      · cases hliteral
      · simp only at hliteral
        split at hliteral
        · next hmem =>
          cases hliteral
          refine ⟨by simp, ?_⟩
          rintro expr ⟨⟩
          exact hmem
        · cases hliteral
    · cases hliteral

/-! ### The values of an enumeration -/

def Finite : Literal → Prop
  | .nonFinite _ => False
  | _ => True

theorem nulFree_renderNum (m : Binary64) : NulFree (renderNum m) := by
  unfold renderNum
  split <;> exact trivial

theorem finite_renderNum (m : Binary64) : Finite (renderNum m) := by
  unfold renderNum
  split <;> exact trivial

theorem enumLiteral_cases {v : String} {l : Literal} (h : enumLiteral env f v = .ok l) :
    (∃ m, l = renderNum m) ∨ l = .text v ∨
      l = .nonFinite v ∧ f.numeric = true ∧ env.parseF64 v = some none := by
  unfold enumLiteral at h
  split at h
  · next hnumeric =>
    cases hparse : env.parseF64 v with
    | none =>
      rw [hparse] at h
      cases h
    | some n =>
      rw [hparse] at h
      cases n with
      | none =>
        cases h
        exact .inr (.inr ⟨rfl, hnumeric, rfl⟩)
      | some m =>
        cases h
        exact .inl ⟨m, rfl⟩
  · cases h
    exact .inr (.inl rfl)

theorem nulFree_parts {parts : List CheckPart} (h : checkParts env f = .ok parts) :
    ∀ p ∈ parts, p.Forall NulFree := by
  refine forall_parts h nulFree_renderNum ?_
  rintro vals - v - hcheck l hl
  obtain ⟨m, rfl⟩ | rfl | ⟨rfl, -, -⟩ := enumLiteral_cases hl
  · exact nulFree_renderNum m
  · exact (checkEnumValue_spec hcheck).1
  · exact trivial

/-- Every value of an enumeration of reals is finite. -/
def FiniteEnum (env : Env) (f : FieldSpec) : Prop :=
  f.sqlType = "real" → ∀ vals, f.enumValues = some vals → ∀ v ∈ vals, env.parseF64 v ≠ some none

theorem finite_parts_iff {parts : List CheckPart} (h : checkParts env f = .ok parts) :
    (∀ p ∈ parts, p.Forall Finite) ↔ FiniteEnum env f := by
  constructor
  · intro hfinite hreal vals hvals v hv hparse
    obtain ⟨-, -, -, henums⟩ := mem_checkParts h
    obtain ⟨ls, hls, hmem⟩ := henums vals hvals
    obtain ⟨l, hl, hlit⟩ := (enumLiterals_ok_iff.mp hls).exists_of_mem hv
    have hnumeric : f.numeric = true := by
      simp [FieldSpec.numeric, hreal]
    rw [enumLiteral, if_pos hnumeric, hparse] at hlit
    cases hlit
    exact hfinite _ hmem _ hl
  · intro hfinite
    refine forall_parts h finite_renderNum ?_
    intro vals hvals v hv hcheck l hl
    obtain ⟨m, rfl⟩ | rfl | ⟨rfl, hnumeric, hparse⟩ := enumLiteral_cases hl
    · exact finite_renderNum m
    · exact trivial
    · -- an enumeration of integers has no such value
      simp only [FieldSpec.numeric, Bool.or_eq_true, beq_iff_eq] at hnumeric
      obtain (hint | hreal) | hbool := hnumeric
      · exact (checkEnumValue_spec hcheck).2 (.inl hint) hparse
      · exact hfinite hreal vals hvals v hv hparse
      · exact (checkEnumValue_spec hcheck).2 (.inr hbool) hparse

/-! ### The whole text -/

variable {p : ColumnParts}

/-- The text before the default. -/
theorem lexes_head (h : Checked env f p) :
    Lexes ("\"" ++ f.name ++ "\" " ++ p.type ++ (if f.nullable then "" else " NOT NULL") ++
        (if f.unique then " UNIQUE" else ""))
      ([Tok.ident f.name, Tok.word p.type] ++
        (if f.nullable then [] else [Tok.word "NOT", Tok.word "NULL"]) ++
        (if f.unique then [Tok.word "UNIQUE"] else [])) := by
  have hquote : "\"" ++ f.name ++ "\" " = quoteIdent f.name ++ " " := by
    have hblank : "\" " = "\"" ++ " " := rfl
    rw [hblank, ← String.append_assoc, quoteIdent_of_identifier h.name]
  have htype : Lexes p.type [.word p.type] := by
    have hall : ∀ ty ∈ ["TEXT", "INTEGER", "REAL", "BLOB"], isWord ty = true := by decide
    exact lexes_word (hall _ (type_mem_keywords h.type))
  have hnull : Lexes (if f.nullable then "" else " NOT NULL")
      (if f.nullable then [] else [Tok.word "NOT", Tok.word "NULL"]) := by
    cases f.nullable with
    | true => exact lexes_empty
    | false =>
      have hnot : Lexes "NOT" [.word "NOT"] := lexes_word (by decide)
      have hword : Lexes "NULL" [.word "NULL"] := lexes_word (by decide)
      exact (hnot.join hword).blank
  have hunique : Lexes (if f.unique then " UNIQUE" else "")
      (if f.unique then [Tok.word "UNIQUE"] else []) := by
    cases f.unique with
    | true =>
      have hword : Lexes "UNIQUE" [.word "UNIQUE"] := lexes_word (by decide)
      exact hword.blank
    | false => exact lexes_empty
  rw [hquote]
  refine (((lexes_quoteIdent (nulFree_of_identifier h.name)).join htype).append hnull ?_).append
    hunique ?_
  · cases f.nullable <;> decide
  · cases f.unique <;> decide

theorem lexes_columnText (h : Checked env f p) (hnul : ∀ d, p.default = some d → NulFreeDefault d) :
    Lexes (columnText P f p) (columnToks P (readToks P) f p) := by
  have hdefault : Lexes (p.default.elim "" fun d => " DEFAULT " ++ defaultText P d)
      (p.default.elim [] fun d => Tok.word "DEFAULT" :: defaultToks P d) := by
    cases hd : p.default with
    | none => exact lexes_empty
    | some d => exact lexes_default (hnul d hd) (default_cases h hd).2
  have hreference : Lexes (f.foreignKey.elim "" fun fk =>
      " REFERENCES " ++ quoteIdent fk ++ "(\"id\") ON DELETE RESTRICT")
      (f.foreignKey.elim [] referenceToks) := by
    cases hfk : f.foreignKey with
    | none => exact lexes_empty
    | some fk => exact lexes_reference (nulFree_of_identifier (h.foreignKey fk hfk))
  have hcheck := lexes_check (P := P) (nulFree_of_identifier h.name) (nulFree_parts h.check)
  refine (((lexes_head h).append hdefault ?_).append hcheck ?_).append hreference ?_
  · cases p.default with
    | none =>
      rw [Option.elim_none]
      decide
    | some d => exact delimited_append (by decide) (by decide) _
  · cases checkText P f.name p.check with
    | none => decide
    | some c => exact delimited_append (by decide) (by decide) _
  · cases f.foreignKey with
    | none => decide
    | some fk =>
      rw [Option.elim_some, String.append_assoc]
      exact delimited_append (by decide) (by decide) _

/-- A default with a NUL ends the text in the middle of a literal. -/
theorem tokens_of_nul (h : Checked env f p) {s : String} (hd : p.default = some (.text s))
    (hnul : '\x00' ∈ s.toList) : .bad ∈ tokens (columnText P f p) := by
  have hword : Lexes "DEFAULT" [.word "DEFAULT"] := lexes_word (by decide)
  have hsplit : ∃ rest, (columnText P f p).toList =
      ("\"" ++ f.name ++ "\" " ++ p.type ++ (if f.nullable then "" else " NOT NULL") ++
        (if f.unique then " UNIQUE" else "")).toList ++
        ((" " ++ "DEFAULT").toList ++ (" ".toList ++ ((quoteText s).toList ++ rest))) := by
    refine ⟨((checkText P f.name p.check).elim "" (fun c => " " ++ c) ++ f.foreignKey.elim ""
      fun fk => " REFERENCES " ++ quoteIdent fk ++ "(\"id\") ON DELETE RESTRICT").toList, ?_⟩
    have hdefault : " DEFAULT " = " " ++ "DEFAULT" ++ " " := rfl
    unfold columnText
    rw [hd, Option.elim_some, defaultText, hdefault]
    simp only [String.toList_append, List.append_assoc]
  obtain ⟨rest, hsplit⟩ := hsplit
  have hchar : " ".toList = [' '] := rfl
  have hlead : ∀ cs, Delimited (" ".toList ++ cs) := by
    intro cs
    rw [hchar]
    exact Or.inl rfl
  have hlead' : Delimited ((" " ++ "DEFAULT").toList ++
      (" ".toList ++ ((quoteText s).toList ++ rest))) := by
    rw [String.toList_append, List.append_assoc]
    exact hlead _
  have hblank : lexFrom .idle (" ".toList ++ ((quoteText s).toList ++ rest)) = [.bad] := by
    have hstep : State.idle.step ' ' = ([], .idle) := rfl
    rw [hchar, List.singleton_append, lexFrom_cons (by decide), hstep, List.nil_append]
    exact lexFrom_quoteText_nul hnul rest
  rw [tokens, hsplit, lexes_head h _ hlead', hword.blank _ (hlead _), hblank]
  simp

/-! ### Keywords -/

theorem plain_numeral (n : Numeral) : ∀ t ∈ n.toks, Plain t := by
  intro t ht
  unfold Numeral.toks at ht
  obtain ht | ht := List.mem_append.mp ht
  · split at ht
    · rw [List.mem_singleton] at ht
      subst ht
      exact trivial
    · cases ht
  · rw [List.mem_singleton] at ht
    subst ht
    exact trivial

theorem plain_literal (l : Literal) : ∀ t ∈ literalToks P l, Plain t := by
  cases l with
  | integer i => exact plain_numeral _
  | real x => exact plain_numeral _
  | text s =>
    intro t ht
    rw [List.mem_singleton.mp ht]
    exact trivial
  | nonFinite v =>
    intro t ht
    rw [List.mem_singleton.mp ht]
    exact trivial

theorem plain_part (name : String) (c : CheckPart) :
    ∀ t ∈ partToks (literalToks P) name c, Plain t := by
  intro t ht
  cases c with
  | atLeast bound =>
    obtain rfl | rfl | ht := by simpa [partToks] using ht
    · exact trivial
    · exact trivial
    · exact plain_literal bound t ht
  | atMost bound =>
    obtain rfl | rfl | ht := by simpa [partToks] using ht
    · exact trivial
    · exact trivial
    · exact plain_literal bound t ht
  | lengthAtMost len =>
    obtain rfl | rfl | rfl | rfl | rfl | ht := by simpa [partToks] using ht
    · simp [Plain, keywords]
    · exact trivial
    · exact trivial
    · exact trivial
    · exact trivial
    · exact plain_numeral _ t ht
  | oneOf values =>
    obtain rfl | rfl | rfl | ht | rfl := by simpa [partToks] using ht
    · exact trivial
    · simp [Plain, keywords]
    · exact trivial
    · obtain rfl | ⟨ts, hts, ht⟩ := mem_joinToks ht
      · exact trivial
      · obtain ⟨l, -, rfl⟩ := List.mem_map.mp hts
        exact plain_literal l t ht
    · exact trivial

theorem plain_check (name : String) (parts : List CheckPart) :
    ∀ t ∈ checkToks (literalToks P) name parts, Plain t := by
  intro t ht
  unfold checkToks at ht
  split at ht
  · cases ht
  · obtain rfl | rfl | ht | rfl := by simpa using ht
    · simp [Plain, keywords]
    · exact trivial
    · obtain rfl | ⟨ts, hts, ht⟩ := mem_joinToks ht
      · simp [Plain, keywords]
      · obtain ⟨c, -, rfl⟩ := List.mem_map.mp hts
        exact plain_part name c t ht
    · exact trivial

theorem plain_allowed : ∀ expr ∈ sqlDefaultAllowlist, ∀ t ∈ tokens expr, Plain t := by
  decide +kernel

theorem plain_default {d : ColumnDefault}
    (h : ∀ expr, d = .sql expr → expr ∈ sqlDefaultAllowlist) : ∀ t ∈ defaultToks P d, Plain t := by
  intro t ht
  cases d with
  | null =>
    rw [List.mem_singleton.mp ht]
    simp [Plain, keywords]
  | bool b =>
    rw [List.mem_singleton.mp ht]
    exact trivial
  | number n => exact plain_numeral _ t ht
  | text s =>
    rw [List.mem_singleton.mp ht]
    exact trivial
  | sql expr =>
    obtain rfl | ht | rfl := by simpa [defaultToks] using ht
    · exact trivial
    · exact plain_allowed expr (h expr rfl) t ht
    · exact trivial

/-- As it is meant, a definition has no words but keywords. -/
theorem plain_column (h : Checked env f p) : ∀ t ∈ columnToks P (literalToks P) f p, Plain t := by
  have htype : Plain (.word p.type) := by
    have hall : ∀ ty ∈ ["TEXT", "INTEGER", "REAL", "BLOB"], Plain (.word ty) := by decide
    exact hall _ (type_mem_keywords h.type)
  have hflags : (∀ t ∈ (if f.nullable then [] else [Tok.word "NOT", Tok.word "NULL"]), Plain t) ∧
      ∀ t ∈ (if f.unique then [Tok.word "UNIQUE"] else []), Plain t := by
    cases f.nullable <;> cases f.unique <;> decide
  have hdefault : ∀ t ∈ p.default.elim [] (fun d => Tok.word "DEFAULT" :: defaultToks P d),
      Plain t := by
    cases hd : p.default with
    | none => simp
    | some d =>
      refine List.forall_mem_cons.mpr ⟨?_, plain_default (default_cases h hd).2⟩
      simp [Plain, keywords]
  have hreference : ∀ t ∈ f.foreignKey.elim [] referenceToks, Plain t := by
    cases f.foreignKey with
    | none => simp
    | some fk => simp [referenceToks, Plain, keywords]
  intro t ht
  simp only [columnToks, List.mem_append] at ht
  obtain ((((ht | ht) | ht) | ht) | ht) | ht := ht
  · obtain rfl | rfl := by simpa using ht
    · exact trivial
    · exact htype
  · exact hflags.1 t ht
  · exact hflags.2 t ht
  · exact hdefault t ht
  · exact plain_check f.name p.check t ht
  · exact hreference t ht

/-! ### Reading the text -/

theorem readToks_of_finite {l : Literal} (h : Finite l) : readToks P l = literalToks P l := by
  cases l with
  | nonFinite v => cases h
  | _ => rfl

theorem partToks_of_finite {name : String} {c : CheckPart} (h : c.Forall Finite) :
    partToks (readToks P) name c = partToks (literalToks P) name c := by
  cases c with
  | atLeast bound => rw [partToks, partToks, readToks_of_finite h]
  | atMost bound => rw [partToks, partToks, readToks_of_finite h]
  | lengthAtMost len => rfl
  | oneOf values =>
    have heq : values.map (readToks P) = values.map (literalToks P) :=
      List.map_congr_left fun l hl => readToks_of_finite (h l hl)
    rw [partToks, partToks, heq]

theorem checkToks_of_finite {name : String} {parts : List CheckPart}
    (h : ∀ c ∈ parts, c.Forall Finite) :
    checkToks (readToks P) name parts = checkToks (literalToks P) name parts := by
  have heq : parts.map (partToks (readToks P) name) = parts.map (partToks (literalToks P) name) :=
    List.map_congr_left fun c hc => partToks_of_finite (h c hc)
  rw [checkToks, checkToks, heq]

theorem bareWord_of_special (x : Special) : ∃ t ∈ x.toks, ¬Plain t := by
  cases x with
  | inf => exact ⟨.word "inf", List.mem_singleton_self _, by decide⟩
  | negInf => exact ⟨.word "inf", List.mem_cons_of_mem _ (List.mem_singleton_self _), by decide⟩
  | nan => exact ⟨.word "NaN", List.mem_singleton_self _, by decide⟩

/-- A number that is not finite is read as a word. -/
theorem bareWord_of_not_finite {l : Literal} (h : ¬Finite l) : ∃ t ∈ readToks P l, ¬Plain t := by
  cases l with
  | nonFinite v => exact bareWord_of_special (.ofText v)
  | _ => exact absurd trivial h

theorem bareWord_of_part {name : String} {c : CheckPart} (h : ¬c.Forall Finite) :
    ∃ t ∈ partToks (readToks P) name c, ¬Plain t := by
  cases c with
  | atLeast bound =>
    obtain ⟨t, ht, hbare⟩ := bareWord_of_not_finite h
    exact ⟨t, List.mem_cons_of_mem _ (List.mem_cons_of_mem _ ht), hbare⟩
  | atMost bound =>
    obtain ⟨t, ht, hbare⟩ := bareWord_of_not_finite h
    exact ⟨t, List.mem_cons_of_mem _ (List.mem_cons_of_mem _ ht), hbare⟩
  | lengthAtMost len => exact absurd trivial h
  | oneOf values =>
    obtain ⟨l, hl, hfinite⟩ : ∃ l ∈ values, ¬Finite l := by simpa [CheckPart.Forall] using h
    obtain ⟨t, ht, hbare⟩ := bareWord_of_not_finite hfinite
    have hmem : t ∈ joinToks (.sym ",") (values.map (readToks P)) :=
      mem_joinToks_of_mem (List.mem_map_of_mem hl) ht
    exact ⟨t, by simp [partToks, hmem], hbare⟩

theorem bareWord_of_check {name : String} {parts : List CheckPart}
    (h : ¬∀ c ∈ parts, c.Forall Finite) : ∃ t ∈ checkToks (readToks P) name parts, ¬Plain t := by
  obtain ⟨c, hc, hfinite⟩ : ∃ c ∈ parts, ¬c.Forall Finite := by simpa using h
  obtain ⟨t, ht, hbare⟩ := bareWord_of_part hfinite
  have hmem : t ∈ joinToks (.word "AND") (parts.map (partToks (readToks P) name)) :=
    mem_joinToks_of_mem (List.mem_map_of_mem hc) ht
  have hne : ¬parts.isEmpty = true := by
    rw [List.isEmpty_iff]
    rintro rfl
    cases hc
  refine ⟨t, ?_, hbare⟩
  rw [checkToks, if_neg hne]
  simp [hmem]

/-- The text is read as it is meant if the numbers of an enumeration are finite and the default is
a text without NUL, or no text. -/
theorem columnExprText_confined_iff (P : Printer) {text : String}
    (h : columnExprText P env f = .ok text) :
    columnTokens P env f = .ok (tokens text) ↔
      FiniteEnum env f ∧ ∀ s, f.defaultValue = some (.string s) → '\x00' ∉ s.toList := by
  obtain ⟨p, hp, heq⟩ := Except.bind_eq_ok_iff.mp h
  obtain rfl := Except.ok.inj heq
  have hchecked := checked_of_columnParts hp
  have hmeant : columnTokens P env f = .ok (tokens (columnText P f p)) ↔
      columnToks P (literalToks P) f p = tokens (columnText P f p) := by
    rw [columnTokens, hp, Except.ok_bind, Except.ok.injEq]
  rw [hmeant, ← finite_parts_iff hchecked.check]
  have htext : (∀ s, f.defaultValue = some (.string s) → '\x00' ∉ s.toList) ↔
      ∀ d, p.default = some d → NulFreeDefault d := by
    constructor
    · intro hnul d hd
      cases d with
      | text s => exact hnul s (((default_cases hchecked hd).1 s).mp rfl)
      | _ => exact trivial
    · intro hnul s hs
      have hdefault := hchecked.default
      rw [hs] at hdefault
      exact hnul _ (Except.ok.inj hdefault).symm
  rw [htext]
  constructor
  · intro hread
    have hplain := plain_column (P := P) hchecked
    rw [hread] at hplain
    have hnul : ∀ d, p.default = some d → NulFreeDefault d := by
      intro d hd
      cases d with
      | text s => exact fun hmem => hplain _ (tokens_of_nul hchecked hd hmem)
      | _ => exact trivial
    refine ⟨?_, hnul⟩
    by_contra hfinite
    obtain ⟨t, ht, hbare⟩ : ∃ t ∈ checkToks (readToks P) f.name p.check, ¬Plain t :=
      bareWord_of_check hfinite
    refine hbare (hplain t ?_)
    rw [(lexes_columnText hchecked hnul).tokens_eq]
    simp [columnToks, ht]
  · rintro ⟨hfinite, hnul⟩
    rw [(lexes_columnText hchecked hnul).tokens_eq, columnToks, columnToks,
      checkToks_of_finite hfinite]

end Pieces

/-! ### A title and a score -/

/-- Numbers are printed as integers. -/
def plainPrinter : Printer where
  displayF64 x := .ofInt (x.scaled / (Binary64.one : Int))
  jsonF64 x := .ofInt (x.scaled / (Binary64.one : Int))

def titleField : FieldSpec where
  name := "title"
  sqlType := "text"
  defaultValue := some (.string "it's")
  enumValues := some ["it's", "NULL) --"]
  foreignKey := some "posts"

def titleParts : ColumnParts where
  type := "TEXT"
  default := some (.text "it's")
  check := [.oneOf [.text "it's", .text "NULL) --"]]

theorem columnExprText_title : ∃ text, columnExprText plainPrinter plainEnv titleField = .ok text ∧
    columnTokens plainPrinter plainEnv titleField = .ok (tokens text) := by
  have htext : columnExprText plainPrinter plainEnv titleField =
      .ok (columnText plainPrinter titleField titleParts) := rfl
  refine ⟨_, htext, (columnExprText_confined_iff plainPrinter htext).mpr ⟨?_, ?_⟩⟩
  · intro hreal
    exact absurd hreal (by decide)
  · rintro s ⟨⟩
    decide

/-- Texts are read as infinities. -/
def infiniteEnv : Env :=
  { plainEnv with parseF64 := fun _ => some none }

def scoreField : FieldSpec where
  name := "score"
  sqlType := "real"
  enumValues := some ["inf"]

def scoreParts : ColumnParts where
  type := "REAL"
  default := none
  check := [.oneOf [.nonFinite "inf"]]

/-- A value of an enumeration that is read as the name of a column. -/
theorem columnExprText_inf : ∃ text, columnExprText plainPrinter infiniteEnv scoreField = .ok text ∧
    .word "inf" ∈ tokens text ∧
    columnTokens plainPrinter infiniteEnv scoreField ≠ .ok (tokens text) := by
  refine ⟨"\"score\" REAL CHECK(\"score\" IN (inf))", rfl, ?_, ?_⟩
  · decide +kernel
  · intro h
    have hmeant : columnTokens plainPrinter infiniteEnv scoreField =
        .ok (columnToks plainPrinter (literalToks plainPrinter) scoreField scoreParts) := rfl
    have hplain : .word "inf" ∉
        columnToks plainPrinter (literalToks plainPrinter) scoreField scoreParts := by
      decide +kernel
    rw [hmeant] at h
    rw [Except.ok.inj h] at hplain
    exact hplain (by decide +kernel)

end SchemaTools

end Drust
