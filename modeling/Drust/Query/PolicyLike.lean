import Drust.Lib.Digits
import Drust.Lib.Regex
import Drust.Lib.Sql.Like
import Drust.Query.PolicyAgreement

/-!
# `LIKE` in memory and in the database

In memory a `LIKE` is decided by a regular expression that the pattern is translated to. The
translation is right: whatever the pattern, the regular expression matches the texts that the
pattern does (`likeMatch_iff_regex`), if it compiles.

The database fails when a pattern is too long, and otherwise it reads the pattern and the text up to
their first NULs. So two texts are told alike when reading them so changes nothing of whether they
match. Values that are no texts match nothing in memory, while the database compares their texts. The
validation keeps texts and numbers apart, so what is left are numbers: an integer has the text of
another number only if it is that number (`like_agrees_iff`).
-/

namespace Drust

namespace Policy

open Sql Kleene Ascii

/-! ### The translation -/

/-- The piece that is meant by what is put for a character. -/
def pieceOf (c : Char) : Regex.Piece :=
  if c = '%' then .run else if c = '_' then .any else .lit c

theorem likeRegex_eq (pat : List Char) :
    likeRegex pat = "(?si)^".toList ++ (pat.flatMap likePiece ++ "$".toList) := by
  rw [likeRegex, ← List.append_assoc]
  congr 1
  generalize "(?si)^".toList = acc
  induction pat generalizing acc with
  | nil => simp
  | cons c pat ih =>
    rw [List.foldl_cons, ih, List.flatMap_cons, List.append_assoc]

/-- A star in the text that is put stands behind a dot or a backslash. -/
theorem head_ne_star (pat : List Char) : ∃ c cs, pat.flatMap likePiece ++ "$".toList = c :: cs ∧
    c ≠ '*' := by
  cases pat with
  | nil => exact ⟨'$', [], rfl, by decide⟩
  | cons c pat =>
    rw [List.flatMap_cons, List.append_assoc, likePiece]
    split
    · exact ⟨'.', _, rfl, by decide⟩
    · split
      · exact ⟨'.', _, rfl, by decide⟩
      · rw [regexLiteEscape]
        split
        · exact ⟨'\\', _, rfl, by decide⟩
        · next hescape =>
          refine ⟨c, _, rfl, ?_⟩
          rintro rfl
          exact hescape (by decide)

theorem escaped_escapable : ∀ c ∈ "\\.^$|?*+()[]\x7b\x7d".toList, c ∈ Regex.escapable := by
  have hall : "\\.^$|?*+()[]\x7b\x7d".toList.all (fun c => Regex.escapable.contains c) = true := by decide
  exact fun c hc => List.contains_iff_mem.mp (List.all_eq_true.mp hall c hc)

theorem special_escaped : ∀ c ∈ Regex.special, c ∈ "\\.^$|?*+()[]\x7b\x7d".toList := by
  have hall : Regex.special.all (fun c => "\\.^$|?*+()[]\x7b\x7d".toList.contains c) = true := by decide
  exact fun c hc => List.contains_iff_mem.mp (List.all_eq_true.mp hall c hc)

theorem parsePieces_flatMap (pat : List Char) :
    Regex.parsePieces (pat.flatMap likePiece ++ "$".toList) = some (pat.map pieceOf) := by
  induction pat with
  | nil => rfl
  | cons c pat ih =>
    have hcons : ∀ piece, (Regex.parsePieces (pat.flatMap likePiece ++ "$".toList)).map (piece :: ·) =
        some (piece :: pat.map pieceOf) := by
      intro piece
      rw [ih, Option.map_some]
    rw [List.flatMap_cons, List.append_assoc, likePiece, List.map_cons, pieceOf]
    by_cases hrun : c = '%'
    · rw [if_pos hrun, if_pos hrun]
      exact (Regex.parsePieces_run _).trans (hcons _)
    rw [if_neg hrun, if_neg hrun]
    by_cases hone : c = '_'
    · rw [if_pos hone, if_pos hone]
      obtain ⟨d, ds, heq, hd⟩ := head_ne_star pat
      rw [heq] at hcons ⊢
      exact (Regex.parsePieces_any hd ds).trans (hcons _)
    rw [if_neg hone, if_neg hone, regexLiteEscape]
    by_cases hescape : c ∈ "\\.^$|?*+()[]\x7b\x7d".toList
    · rw [if_pos hescape]
      exact (Regex.parsePieces_escape (escaped_escapable c hescape) _).trans (hcons _)
    · rw [if_neg hescape]
      have hplain : c ∉ Regex.special := fun h => hescape (special_escaped c h)
      exact (Regex.parsePieces_lit hplain _).trans (hcons _)

theorem parse_likeRegex (pat : List Char) :
    Regex.parse (likeRegex pat) = some (⟨true, true⟩, pat.map pieceOf) := by
  have hprefix : ∀ cs, Regex.parse ("(?si)^".toList ++ cs) =
      (Regex.parsePieces cs).map (⟨true, true⟩, ·) := fun _ => rfl
  rw [likeRegex_eq, hprefix, parsePieces_flatMap, Option.map_some]

/-! ### What the expression matches -/

theorem mem_language_iff_like (pat s : List Char) :
    s ∈ Regex.language ⟨true, true⟩ (pat.map pieceOf) ↔ Like pat s := by
  induction pat generalizing s with
  | nil => exact Regex.mem_language_nil.trans like_nil_iff.symm
  | cons c pat ih =>
    rw [List.map_cons, pieceOf]
    -- a run, one character, or the character itself in either case
    by_cases hrun : c = '%'
    · rw [if_pos hrun, hrun, Regex.mem_language_run, like_run_iff]
      constructor
      · rintro ⟨u, v, rfl, -, hv⟩
        exact ⟨u, v, rfl, (ih v).mp hv⟩
      · rintro ⟨u, v, rfl, hv⟩
        exact ⟨u, v, rfl, fun _ _ => .inl rfl, (ih v).mpr hv⟩
    rw [if_neg hrun]
    by_cases hone : c = '_'
    · rw [if_pos hone, hone, Regex.mem_language_any, like_one_iff]
      constructor
      · rintro ⟨d, s', rfl, -, hs'⟩
        exact ⟨d, s', rfl, (ih s').mp hs'⟩
      · rintro ⟨d, s', rfl, hs'⟩
        exact ⟨d, s', rfl, .inl rfl, (ih s').mpr hs'⟩
    rw [if_neg hone, Regex.mem_language_lit, like_char_iff hrun hone]
    have hsame : ∀ d, (⟨true, true⟩ : Regex.Flags).Same c d ↔ c.toLower = d.toLower :=
      fun d => ⟨fun h => h.elim (fun heq => heq ▸ rfl) (·.2), fun h => .inr ⟨rfl, h⟩⟩
    constructor
    · rintro ⟨d, s', rfl, hd, hs'⟩
      exact ⟨d, s', rfl, (hsame d).mp hd, (ih s').mp hs'⟩
    · rintro ⟨d, s', rfl, hd, hs'⟩
      exact ⟨d, s', rfl, (hsame d).mpr hd, (ih s').mpr hs'⟩

theorem likeChars_iff_like (pat s : List Char) : likeChars pat s = true ↔ Like pat s := by
  induction pat generalizing s with
  | nil =>
    rw [like_nil_iff]
    cases s with
    | nil => exact iff_of_true rfl rfl
    | cons c s => exact iff_of_false (by rw [likeChars]; exact Bool.false_ne_true) nofun
  | cons c pat ih =>
    by_cases hrun : c = '%'
    · have hunfold : likeChars (c :: pat) s = s.tails.any (fun t => likeChars pat t) := by
        rw [likeChars.eq_def]
        exact if_pos hrun
      rw [hunfold, hrun, like_run_iff, List.any_eq_true]
      constructor
      · rintro ⟨v, hv, h⟩
        obtain ⟨u, rfl⟩ := (List.mem_tails v s).mp hv
        exact ⟨u, v, rfl, (ih v).mp h⟩
      · rintro ⟨u, v, rfl, h⟩
        exact ⟨v, (List.mem_tails v _).mpr ⟨u, rfl⟩, (ih v).mpr h⟩
    cases s with
    | nil =>
      have hunfold : likeChars (c :: pat) [] = false := by
        rw [likeChars.eq_def]
        exact if_neg hrun
      refine iff_of_false (by simp [hunfold]) fun h => ?_
      by_cases hone : c = '_'
      · rw [hone, like_one_iff] at h
        obtain ⟨d, s', heq, -⟩ := h
        cases heq
      · rw [like_char_iff hrun hone] at h
        obtain ⟨d, s', heq, -⟩ := h
        cases heq
    | cons d s =>
      have hunfold : likeChars (c :: pat) (d :: s) =
          ((c = '_' || c.toLower = d.toLower) && likeChars pat s) := by
        rw [likeChars.eq_def]
        exact if_neg hrun
      rw [hunfold, Bool.and_eq_true, ih, Bool.or_eq_true, decide_eq_true_eq, decide_eq_true_eq]
      by_cases hone : c = '_'
      · rw [hone, like_one_iff]
        constructor
        · exact fun h => ⟨d, s, rfl, h.2⟩
        · rintro ⟨d', s', heq, h⟩
          obtain ⟨rfl, rfl⟩ := List.cons.inj heq
          exact ⟨.inl rfl, h⟩
      · rw [like_char_iff hrun hone]
        constructor
        · exact fun h => ⟨d, s, rfl, h.1.resolve_left hone, h.2⟩
        · rintro ⟨d', s', heq, hd, h⟩
          obtain ⟨rfl, rfl⟩ := List.cons.inj heq
          exact ⟨.inr hd, h⟩

instance (pat s : List Char) : Decidable (Like pat s) :=
  decidable_of_iff _ (likeChars_iff_like pat s)

/-- The matcher in memory is the regular expression of the pattern, if that compiles. -/
theorem likeMatch_iff_regex (compiles : List Char → Bool) (s pat : String) :
    likeMatch compiles (.text s) (.text pat) = true ↔ compiles (likeRegex pat.toList) = true ∧
      ∃ fl pieces, Regex.parse (likeRegex pat.toList) = some (fl, pieces) ∧
        s.toList ∈ Regex.language fl pieces := by
  rw [likeMatch, Bool.and_eq_true, likeChars_iff_like, ← mem_language_iff_like, parse_likeRegex]
  refine and_congr_right fun _ => ?_
  constructor
  · exact fun h => ⟨_, _, rfl, h⟩
  · rintro ⟨fl, pieces, heq, h⟩
    cases heq
    exact h

/-! ### Values -/

/-- The text of an integer. -/
def intText (i : Int) : List Char :=
  if i < 0 then '-' :: Nat.toDigits 10 i.natAbs else Nat.toDigits 10 i.natAbs

/-- The texts of reals and blobs in the database. That of a real is printable, and has a decimal
point, an exponent or a name in it. -/
structure TextForms where
  ofReal : Binary64 → List Char
  ofBlob : List UInt8 → List Char
  real_printable : ∀ x, ∀ c ∈ ofReal x, 32 ≤ c.toNat ∧ c.toNat < 127
  real_plain : ∀ x, ∀ c ∈ ofReal x, c ≠ '%' ∧ c ≠ '_'
  real_not_int : ∀ x, ∃ c ∈ ofReal x, c ≠ '-' ∧ c.isDigit = false

def TextForms.text (F : TextForms) : Value → List Char
  | .null => []
  | .integer i => intText i.toInt
  | .real x => F.ofReal x
  | .text s => s.toList
  | .blob b => F.ofBlob b

/-- The length of the text of a value, in bytes. -/
def TextForms.size (F : TextForms) (v : Value) : Nat :=
  (String.ofList (F.text v)).utf8ByteSize

/-- `LIKE` in the database, as far as it takes the pattern. -/
def sqlLike (F : TextForms) (x y : Value) : Tri :=
  if x.isNull || y.isNull then .unknown
  else .ofBool (Like (readText (F.text y)) (readText (F.text x)))

/-- `LIKE` in memory. -/
def evalLike (compiles : List Char → Bool) (lhs rhs : Value) : Tri :=
  if lhs.isNull || rhs.isNull then .unknown else .ofBool (likeMatch compiles lhs rhs)

theorem mem_intText {i : Int} {c : Char} (h : c ∈ intText i) : c = '-' ∨ c.isDigit = true := by
  rw [intText] at h
  split at h
  · obtain rfl | h := List.mem_cons.mp h
    · exact .inl rfl
    · exact .inr (Digits.allDigits_toDigits _ c h)
  · exact .inr (Digits.allDigits_toDigits _ c h)

theorem small_of_mem_intText {i : Int} {c : Char} (h : c ∈ intText i) : c.toNat < 65 := by
  obtain rfl | h := mem_intText h
  · decide
  · have hbound := (Digits.digit_bounds h).2
    change c.toNat - 48 < 10 at hbound
    omega

theorem toLower_intText (i : Int) : (intText i).map Char.toLower = intText i :=
  (List.map_congr_left fun _ hc => (toLower_eq_iff (small_of_mem_intText hc)).mpr rfl).trans
    (List.map_id _)

theorem plain_intText (i : Int) : ∀ c ∈ intText i, c ≠ '%' ∧ c ≠ '_' := by
  intro c hc
  constructor
  · rintro rfl
    exact absurd (mem_intText hc) (by decide)
  · rintro rfl
    exact absurd (mem_intText hc) (by decide)

theorem intText_injective : Function.Injective intText := by
  intro i j h
  have hnot : ∀ (n : Nat) (cs : List Char), '-' :: cs ≠ Nat.toDigits 10 n := by
    intro n cs heq
    have hdigit := Digits.allDigits_toDigits n '-' (heq ▸ List.mem_cons_self)
    cases hdigit
  have habs : ∀ {m n : Nat}, Nat.toDigits 10 m = Nat.toDigits 10 n → m = n := by
    intro m n heq
    rw [← Digits.value_toDigits m, heq, Digits.value_toDigits]
  unfold intText at h
  split at h
  · split at h
    · have := habs (List.cons.inj h).2
      omega
    · exact absurd h (hnot _ _)
  · split at h
    · exact absurd h.symm (hnot _ _)
    · have := habs h
      omega

theorem readText_intText (i : Int) : readText (intText i) = intText i := by
  refine readText_eq_self fun c hc => ?_
  have hpos : 0 < c.toNat := by
    obtain rfl | h := mem_intText hc
    · decide
    · exact Nat.lt_of_lt_of_le (by decide) (Digits.digit_bounds h).1
  have hsmall := small_of_mem_intText hc
  omega

theorem like_intText_iff (i j : Int) :
    Like (readText (intText j)) (readText (intText i)) ↔ i = j := by
  rw [readText_intText, readText_intText, like_iff_of_plain (plain_intText j), toLower_intText,
    toLower_intText]
  exact ⟨fun h => (intText_injective h).symm, fun h => h ▸ rfl⟩

/-- The text of a real as a pattern matches no integer. -/
theorem not_like_real (F : TextForms) (i : Int) (x : Binary64) :
    ¬Like (readText (F.ofReal x)) (readText (intText i)) := by
  have hread : readText (F.ofReal x) = F.ofReal x := by
    refine readText_eq_self fun c hc => ?_
    have := F.real_printable x c hc
    omega
  rw [hread, readText_intText, like_iff_of_plain (F.real_plain x), toLower_intText]
  intro h
  obtain ⟨c, hc, hminus, hdigit⟩ := F.real_not_int x
  have hmem : c.toLower ∈ intText i := h ▸ List.mem_map_of_mem hc
  have hsame : c = c.toLower := (toLower_eq_iff (small_of_mem_intText hmem)).mp rfl
  rw [← hsame] at hmem
  obtain hc | hc := mem_intText hmem
  · exact hminus hc
  · rw [hdigit] at hc
    cases hc

/-- The column and the operand hold one integer. -/
def SameInteger (c : Cell) (v : Value) : Prop :=
  ∃ i, c = .integer i ∧ v = .integer i

/-- Reading the two texts as the database does changes nothing of whether they match. A pattern whose
regular expression does not compile matches nothing in memory. -/
def ReadsAlike (compiles : List Char → Bool) (c : Cell) (v : Value) : Prop :=
  ∀ s pat, c = .text s → v = .text pat →
    if compiles (likeRegex pat.toList) then
      (Like (readText pat.toList) (readText s.toList) ↔ Like pat.toList s.toList)
    else ¬Like (readText pat.toList) (readText s.toList)

theorem likeMatch_text_iff {compiles : List Char → Bool} {s pat : String} :
    likeMatch compiles (.text s) (.text pat) = decide (Like (readText pat.toList) (readText s.toList))
      ↔ ReadsAlike compiles (.text s) (.text pat) := by
  have hreads : ReadsAlike compiles (.text s) (.text pat) ↔
      if compiles (likeRegex pat.toList) then
        (Like (readText pat.toList) (readText s.toList) ↔ Like pat.toList s.toList)
      else ¬Like (readText pat.toList) (readText s.toList) := by
    constructor
    · exact fun h => h s pat rfl rfl
    · intro h s' pat' hs hpat
      cases hs
      cases hpat
      exact h
  rw [hreads, likeMatch, Bool.eq_iff_iff, decide_eq_true_eq, Bool.and_eq_true, likeChars_iff_like]
  by_cases hcompiles : compiles (likeRegex pat.toList) = true
  · rw [if_pos hcompiles, and_iff_right hcompiles]
    exact iff_comm
  · rw [if_neg hcompiles]
    exact ⟨fun h hread => hcompiles (h.mpr hread).1, fun h => iff_of_false (fun h' => hcompiles h'.1) h⟩

/-- The verdicts on two values that the validation lets meet. -/
theorem like_verdicts (compiles : List Char → Bool) (F : TextForms) {c : Cell} {v : Value}
    {cls ocls : Option StorageClass} (hc : c.Fits cls) (hv : OperandFits ocls v)
    (hcls : ∀ a b, ocls = some a → cls = some b → a = b) :
    evalLike compiles c.toValue v = .unknown ∧ sqlLike F c.toValue v = .unknown ∧
        ¬SameInteger c v ∧ ReadsAlike compiles c v ∨
      ∃ a b, evalLike compiles c.toValue v = .ofBool a ∧ sqlLike F c.toValue v = .ofBool b ∧
        (a = b ↔ ¬SameInteger c v ∧ ReadsAlike compiles c v) := by
  have hnull : ∀ {c : Cell} {v : Value}, c = .null ∨ v = .null →
      ¬SameInteger c v ∧ ReadsAlike compiles c v := by
    intro c v h
    constructor
    · rintro ⟨i, rfl, rfl⟩
      simp at h
    · rintro s pat rfl rfl
      simp at h
  have hint : ∀ {i : Int64} {v : Value}, ReadsAlike compiles (.integer i) v := by
    intro i v s pat hs
    cases hs
  cases c with
  | null =>
    exact .inl ⟨rfl, rfl, hnull (.inl rfl)⟩
  | integer i =>
    cases v with
    | null => exact .inl ⟨rfl, rfl, hnull (.inr rfl)⟩
    | integer j =>
      -- in memory two integers never match, and in the database equal ones do
      refine .inr ⟨false, _, rfl, rfl, ?_⟩
      rw [and_iff_left hint, eq_comm, decide_eq_false_iff_not]
      change ¬Like (readText (intText j.toInt)) (readText (intText i.toInt)) ↔ _
      rw [like_intText_iff, Int64.toInt_inj]
      refine not_congr ⟨fun h => ⟨i, rfl, by rw [h]⟩, ?_⟩
      rintro ⟨k, hi, hj⟩
      rw [Cell.integer.inj hi, Value.integer.inj hj]
    | real x =>
      refine .inr ⟨false, _, rfl, rfl, ?_⟩
      rw [eq_comm, decide_eq_false_iff_not]
      refine iff_of_true (not_like_real F i.toInt x) ⟨?_, hint⟩
      rintro ⟨k, -, hx⟩
      cases hx
    | text s =>
      -- a number is stored in a numeric column, and a text is an operand of a text one
      obtain rfl := hc.integer_class
      obtain rfl := hv.text_class
      cases hcls _ _ rfl rfl
    | blob b => simp [OperandFits] at hv
  | text s =>
    cases v with
    | null => exact .inl ⟨rfl, rfl, hnull (.inr rfl)⟩
    | text t =>
      refine .inr ⟨_, _, rfl, rfl, likeMatch_text_iff.trans (and_iff_right ?_).symm⟩
      rintro ⟨k, hs, -⟩
      cases hs
    | integer y =>
      obtain rfl := hc.text_class
      obtain rfl := hv.integer_class
      cases hcls _ _ rfl rfl
    | real y =>
      obtain rfl := hc.text_class
      obtain rfl := hv.real_class
      cases hcls _ _ rfl rfl
    | blob b => simp [OperandFits] at hv

/-! ### Leaves under negations -/

def nots : Nat → FilterAst → FilterAst
  | 0, node => node
  | n + 1, node => .not (nots n node)

/-- The leaf `{f: {name: operand}}`. -/
def likeLeaf (f name : String) (operand : Json) : FilterAst :=
  .leaf [(f, .object [(name, operand)])]

variable {schema : CollectionSchema} {probe ctx : PolicyCtx} {node : FilterAst}

theorem compileNode_not {n : FilterAst} {depth : Nat} {p : Compiled} :
    compileNode schema (.not n) ctx depth = .ok p ↔ depth < maxFilterDepth ∧
      ∃ inner, compileNode schema n ctx (depth + 1) = .ok inner ∧
        p = ("(" ++ ("NOT " ++ inner.1) ++ ")", inner.2) := by
  rw [compileNode.eq_def]
  by_cases hdepth : maxFilterDepth ≤ depth
  · rw [if_pos hdepth]
    exact iff_of_false (by simp) fun h => absurd h.1 (Nat.not_lt.mpr hdepth)
  · rw [if_neg hdepth, Except.bind_eq_ok_iff]
    constructor
    · rintro ⟨inner, hinner, h⟩
      exact ⟨Nat.lt_of_not_le hdepth, inner, hinner, (Except.ok.inj h).symm⟩
    · rintro ⟨-, inner, hinner, rfl⟩
      exact ⟨inner, hinner, rfl⟩

theorem compile_nots {n : Nat} : ∀ {depth : Nat},
    (∃ p, compileNode schema (nots n node) ctx depth = .ok p) ↔
      (0 < n → depth + n ≤ maxFilterDepth) ∧
        ∃ p, compileNode schema node ctx (depth + n) = .ok p := by
  induction n with
  | zero => exact fun {depth} => (and_iff_right (fun h => absurd h (Nat.lt_irrefl 0))).symm
  | succ n ih =>
    intro depth
    simp only [nots, compileNode_not]
    constructor
    · rintro ⟨-, hdepth, inner, hinner, -⟩
      obtain ⟨hle, hnode⟩ := ih.mp ⟨inner, hinner⟩
      rw [Nat.add_right_comm, Nat.add_assoc] at hle hnode
      refine ⟨fun _ => ?_, hnode⟩
      obtain rfl | hpos := Nat.eq_zero_or_pos n
      · omega
      · exact hle hpos
    · rintro ⟨hle, hnode⟩
      have hle := hle (Nat.succ_pos n)
      obtain ⟨inner, hinner⟩ : ∃ inner, compileNode schema (nots n node) ctx (depth + 1) = .ok inner :=
        ih.mpr ⟨fun _ => by omega, by rwa [Nat.add_right_comm, Nat.add_assoc]⟩
      exact ⟨_, by omega, inner, hinner, rfl⟩

/-- Negations bind nothing. -/
theorem binds_nots {n : Nat} : ∀ {depth : Nat} {p : Compiled},
    compileNode schema (nots n node) ctx depth = .ok p →
      ∃ q, compileNode schema node ctx (depth + n) = .ok q ∧ p.2 = q.2 := by
  induction n with
  | zero => exact fun h => ⟨_, h, rfl⟩
  | succ n ih =>
    intro depth p h
    obtain ⟨-, inner, hinner, rfl⟩ := compileNode_not.mp h
    obtain ⟨q, hq, heq⟩ := ih hinner
    rw [Nat.add_right_comm, Nat.add_assoc] at hq
    exact ⟨q, hq, heq⟩

theorem eval_nots {compiles : List Char → Bool} {row : Json.Map} {n : Nat} : ∀ {depth : Nat},
    (0 < n → depth + n ≤ maxFilterDepth) → evalNode compiles (nots n node) row ctx depth =
      Tri.not^[n] (evalNode compiles node row ctx (depth + n)) := by
  induction n with
  | zero => exact fun _ => rfl
  | succ n ih =>
    intro depth hle
    have hle := hle (Nat.succ_pos n)
    rw [nots, evalNode, if_neg (by omega), ih (fun _ => by omega), Function.iterate_succ_apply',
      Nat.add_right_comm, Nat.add_assoc]

theorem denote_nots {E : Env} (n : Nat) :
    denoteNode E (nots n node) ctx = Tri.not^[n] (denoteNode E node ctx) := by
  induction n with
  | zero => rfl
  | succ n ih => rw [nots, denoteNode, ih, Function.iterate_succ_apply']

theorem checkOperandClasses_nots (n : Nat) : checkOperandClassesInner schema (nots n node) false =
    checkOperandClassesInner schema node false := by
  induction n with
  | zero => rfl
  | succ n ih => rw [nots, checkOperandClassesInner, ih]

/-- Negations keep two verdicts apart, and a verdict of a comparison is true or false. -/
theorem iterate_not_agree_iff (n : Nat) (a b : Bool) :
    (Tri.not^[n] (.ofBool a) = .true ↔ Tri.not^[n] (.ofBool b) = .true) ↔ a = b := by
  have hcases : Tri.not^[n] .false = .false ∧ Tri.not^[n] .true = .true ∨
      Tri.not^[n] .false = .true ∧ Tri.not^[n] .true = .false := by
    induction n with
    | zero => exact .inl ⟨rfl, rfl⟩
    | succ n ih =>
      rw [Function.iterate_succ_apply', Function.iterate_succ_apply']
      obtain ⟨hfalse, htrue⟩ | ⟨hfalse, htrue⟩ := ih
      · exact .inr (by rw [hfalse, htrue]; exact ⟨rfl, rfl⟩)
      · exact .inl (by rw [hfalse, htrue]; exact ⟨rfl, rfl⟩)
  obtain ⟨hfalse, htrue⟩ | ⟨hfalse, htrue⟩ := hcases <;>
    cases a <;> cases b <;> simp [Tri.ofBool, hfalse, htrue]

section LikeLeaf

variable {f name : String} {operand : Json} {depth : Nat}

theorem leafParts_like (hname : LeafOp.ofName name = some .like) :
    leafParts (.object [(name, operand)]) = some (name, operand) := by
  have hkey : ∀ k, LeafOp.ofName k = none → Json.Map.containsKey [(name, operand)] k = false := by
    intro k hk
    have hne : name ≠ k := by
      rintro rfl
      rw [hname] at hk
      cases hk
    simpa [Json.Map.containsKey] using hne
  rw [leafParts, hkey "$auth" rfl, hkey "$data" rfl]
  rfl

theorem compile_likeLeaf (hname : LeafOp.ofName name = some .like) (hkey : f ≠ "$authenticated") :
    (∃ p, compileNode schema (likeLeaf f name operand) ctx depth = .ok p) ↔
      depth < maxFilterDepth ∧ f ≠ "$fts" ∧ validateField schema f = .ok () ∧
        ∃ v, resolveOperand operand ctx = .ok v := by
  rw [likeLeaf, compileNode.eq_def]
  by_cases hdepth : maxFilterDepth ≤ depth
  · rw [if_pos hdepth]
    exact iff_of_false (by simp) fun h => absurd h.1 (Nat.not_lt.mpr hdepth)
  rw [if_neg hdepth]
  simp only [if_neg hkey]
  by_cases hfts : f = "$fts"
  · rw [if_pos hfts]
    exact iff_of_false (by simp) fun h => h.2.1 hfts
  rw [if_neg hfts, compileLeaf_eq, leafParts_like hname]
  simp only [compileOp, hname, Except.bind_eq_ok_iff]
  constructor
  · rintro ⟨p, u, hvalid, v, hv, -⟩
    exact ⟨Nat.lt_of_not_le hdepth, hfts, hvalid, v, hv⟩
  · rintro ⟨-, -, hvalid, v, hv⟩
    exact ⟨_, (), hvalid, v, hv, rfl⟩

theorem binds_likeLeaf (hname : LeafOp.ofName name = some .like) (hkey : f ≠ "$authenticated")
    (hfts : f ≠ "$fts") {p : Compiled}
    (h : compileNode schema (likeLeaf f name operand) ctx depth = .ok p) :
    p.2 = [resolveEvalOperand operand ctx] := by
  rw [likeLeaf, compileNode.eq_def] at h
  split at h
  · cases h
  · simp only [if_neg hkey, if_neg hfts, compileLeaf_eq, leafParts_like hname, compileOp, hname] at h
    obtain ⟨u, -, h⟩ := Except.bind_eq_ok_iff.mp h
    obtain ⟨v, hv, h⟩ := Except.bind_eq_ok_iff.mp h
    rw [← Except.ok.inj h, resolveOperand_eq_eval hv]

theorem eval_likeLeaf (compiles : List Char → Bool) (hname : LeafOp.ofName name = some .like)
    (hkey : f ≠ "$authenticated") (hfts : f ≠ "$fts") (hdepth : depth < maxFilterDepth)
    (row : Json.Map) : evalNode compiles (likeLeaf f name operand) row ctx depth =
      evalLike compiles (memberValue row f) (resolveEvalOperand operand ctx) := by
  rw [likeLeaf, evalNode.eq_def, if_neg (Nat.not_le.mpr hdepth)]
  simp only [if_neg hkey, if_neg hfts]
  rw [evalLeaf_eq, leafParts_like hname]
  simp only [evalOp, ofBare_bareName hname]
  rfl

theorem denote_likeLeaf (hname : LeafOp.ofName name = some .like) (hkey : f ≠ "$authenticated")
    (E : Env) : denoteNode E (likeLeaf f name operand) ctx =
      E.like ((E.row f).getD .null) (resolveEvalOperand operand ctx) := by
  rw [likeLeaf, denoteNode, if_neg hkey, denoteLeaf, leafParts_like hname]
  simp only [hname]
  rfl

theorem check_likeLeaf (hname : LeafOp.ofName name = some .like) (hkey : f ≠ "$authenticated")
    (h : checkOperandClassesInner schema (likeLeaf f name operand) false = .ok ()) :
    checkOperandClass schema f operand = .ok () := by
  rw [likeLeaf, checkOperandClassesInner, if_neg hkey] at h
  split at h
  · cases h
  · exact checkOperandClass_of_leaf h (leafParts_like hname) hname operand (List.mem_singleton_self _)

/-- The fragment runs, as no pattern is too long for the database, and the two evaluators agree. -/
def LikeAgree (compiles : List Char → Bool) (F : TextForms) (r : Row schema) (clause : FilterAst)
    (ctx : PolicyCtx) : Prop :=
  ∃ sql binds, compilePolicyUsing schema clause ctx = .ok (sql, binds) ∧
    (∀ pattern ∈ binds, F.size pattern ≤ maxLikePatternLength) ∧
    (evalPolicyWith compiles clause r.toMap ctx = true ↔ Admits (r.env (sqlLike F)) sql binds)

/-- A validated leaf, under any number of negations, is told alike in memory and in the database
on a row if and only if the pattern is not too long, the column and the operand do not hold one
integer there, and two texts are read alike. -/
theorem like_agrees_iff (compiles : List Char → Bool) (F : TextForms) (r : Row schema) {op : DmlVerb}
    {policy : Policy} {n : Nat} (hname : LeafOp.ofName name = some .like)
    (hkey : f ≠ "$authenticated") (hvalid : validatePolicy schema op policy = .ok ())
    (hused : UsedIn schema policy (nots n (likeLeaf f name operand)) ctx) :
    LikeAgree compiles F r (nots n (likeLeaf f name operand)) ctx ↔
      F.size (resolveEvalOperand operand ctx) ≤ maxLikePatternLength ∧
        ¬SameInteger (r.cell f) (resolveEvalOperand operand ctx) ∧
        ReadsAlike compiles (r.cell f) (resolveEvalOperand operand ctx) := by
  obtain ⟨probe, c₀, hserves, hcomp, hcls⟩ := validatePolicy_spec hvalid hused
  obtain ⟨hle, hleaf⟩ := compile_nots.mp ⟨c₀, hcomp⟩
  obtain ⟨hdepth, hfts, hfield, v₀, hv₀⟩ := (compile_likeLeaf hname hkey).mp hleaf
  obtain ⟨hres, hfits, -⟩ := resolveOperand_spec hserves hv₀
  -- the clause compiles in the context it is used in
  obtain ⟨p, hp⟩ : ∃ p, compilePolicyUsing schema (nots n (likeLeaf f name operand)) ctx = .ok p :=
    compile_nots.mpr ⟨hle, (compile_likeLeaf hname hkey).mpr ⟨hdepth, hfts, hfield, _, hres⟩⟩
  have hbinds : p.2 = [resolveEvalOperand operand ctx] := by
    obtain ⟨q, hq, heq⟩ := binds_nots hp
    exact heq.trans (binds_likeLeaf hname hkey hfts hq)
  have hcolumn := mem_columns_of_validateField hfield
  have heval : evalPolicyWith compiles (nots n (likeLeaf f name operand)) r.toMap ctx = true ↔
      Tri.not^[n] (evalLike compiles (r.cell f).toValue (resolveEvalOperand operand ctx)) =
        .true := by
    rw [evalPolicyWith, beq_iff_eq, eval_nots hle, eval_likeLeaf compiles hname hkey hfts hdepth,
      r.memberValue_toMap hcolumn]
  have hsql : Admits (r.env (sqlLike F)) p.1 p.2 ↔
      Tri.not^[n] (sqlLike F (r.cell f).toValue (resolveEvalOperand operand ctx)) = .true := by
    rw [admits_compiled_iff (r.isSome_env (sqlLike F)) hp, denote_nots,
      denote_likeLeaf hname hkey, r.env_row (sqlLike F) hcolumn, Option.getD_some]
    rfl
  -- the fragment runs as long as the pattern is not too long
  have hagree : LikeAgree compiles F r (nots n (likeLeaf f name operand)) ctx ↔
      F.size (resolveEvalOperand operand ctx) ≤ maxLikePatternLength ∧
        (evalPolicyWith compiles (nots n (likeLeaf f name operand)) r.toMap ctx = true ↔
          Admits (r.env (sqlLike F)) p.1 p.2) := by
    constructor
    · rintro ⟨sql, binds, hcompiled, hruns, h⟩
      rw [hp] at hcompiled
      obtain rfl := Except.ok.inj hcompiled
      refine ⟨hruns _ ?_, h⟩
      rw [show binds = [resolveEvalOperand operand ctx] from hbinds]
      exact List.mem_singleton_self _
    · rintro ⟨hsize, h⟩
      refine ⟨p.1, p.2, hp, ?_, h⟩
      rw [hbinds, List.forall_mem_singleton]
      exact hsize
  rw [hagree, heval, hsql]
  refine and_congr_right fun _ => ?_
  rw [checkAstOperandClasses, checkOperandClasses_nots] at hcls
  have hclass := class_eq_of_checkOperandClass (check_likeLeaf hname hkey hcls)
  obtain ⟨hmem, hdb, hholds⟩ | ⟨a, b, hmem, hdb, hiff⟩ :=
    like_verdicts compiles F (r.fits f) hfits hclass
  · rw [hmem, hdb]
    exact iff_of_true Iff.rfl hholds
  · rw [hmem, hdb, iterate_not_agree_iff, hiff]

end LikeLeaf

/-- The text of one real. -/
def zeroForms : TextForms where
  ofReal := fun _ => ['0', '.', '0']
  ofBlob := fun _ => []
  real_printable := fun _ => by simp
  real_plain := fun _ => by simp
  real_not_int := fun _ => ⟨'.', by decide, by decide, by decide⟩

/-- A collection with one text column. -/
def noteSchema : CollectionSchema :=
  { name := "notes", fields := [⟨"title", "TEXT"⟩] }

def noteRow : Row noteSchema where
  cell f := if f = "title" then .text "Hello" else .null
  fits f := by
    by_cases h : f = "title"
    · subst h
      exact trivial
    · rw [if_neg h]
      cases fieldClass noteSchema f <;> trivial

def noteClause : FilterAst :=
  nots 1 (likeLeaf "title" "$like" (.string "h_%O"))

theorem like_agrees_note : LikeAgree (fun _ => true) zeroForms noteRow noteClause {} := by
  have hvalid : validatePolicy noteSchema .select { usingClause := some noteClause } = .ok () := by
    decide +kernel
  refine (like_agrees_iff (fun _ => true) zeroForms noteRow (by rfl) (by decide) hvalid
    (.inl rfl)).mpr ⟨by decide +kernel, ?_, ?_⟩
  · rintro ⟨i, hcell, -⟩
    cases hcell
  · rintro s pat hs hpat
    cases hs
    cases hpat
    decide +kernel

def fiveRow : Row counterSchema where
  cell f := if f = "n" then .integer 5 else .null
  fits f := by
    by_cases h : f = "n"
    · subst h
      exact trivial
    · rw [if_neg h]
      cases fieldClass counterSchema f <;> trivial

def fiveClause : FilterAst :=
  likeLeaf "n" "$like" (.number (.posInt 5))

/-- An integer column that holds what it is compared with: the database matches the two texts,
and in memory no text is found. -/
theorem like_integer_diverges :
    validatePolicy counterSchema .select { usingClause := some fiveClause } = .ok () ∧
      ¬LikeAgree (fun _ => true) zeroForms fiveRow fiveClause {} := by
  refine ⟨by decide +kernel, ?_⟩
  rintro ⟨sql, binds, hcomp, -, hagree⟩
  have hcompiled : compilePolicyUsing counterSchema fiveClause {} =
      .ok ("\"n\" LIKE ?", [.integer 5]) := by decide +kernel
  rw [hcompiled] at hcomp
  obtain ⟨rfl, rfl⟩ := Prod.mk.inj (Except.ok.inj hcomp)
  revert hagree
  decide +kernel

end Policy

end Drust
