import Drust.Functions.Enforce
import Drust.Lib.Rounding
import Drust.Mcp.CheckClause
import Drust.Query.PolicyLike

/-!
# The constraints before the write and in the table

A value is checked twice. Before the statement the check looks at the JSON value, with the
constraints as they were stored and read again. The `CHECK` of the column looks at what the column
has made of the value, with the constraints as they were compiled. `Misread` are the values that
the first check refuses although the second one passes (`checkConstraints_sound_iff`).
-/

namespace Drust

namespace SchemaTools

open Sql Kleene Enforce Records

/-! ### The check of the table -/

/-- The affinity of a column of a strict table. -/
inductive Affinity where
  | integer
  | text
  deriving DecidableEq

def affinity : String → Option Affinity
  | "INTEGER" => some .integer
  | "TEXT" => some .text
  | _ => none

/-- What the database does with texts and numbers. -/
structure Engine where
  /-- The integer that a numeric text is converted to. -/
  textInteger : String → Option Int64
  forms : Policy.TextForms
  /-- The value of a bare word. -/
  bareWord : String → Value

section Table

variable (E : Engine) (a : Affinity)

/-- What a strict column stores of a value; `none` when it refuses the value. -/
def convert (x : Cell) : Option Cell :=
  match a, x with
  | .integer, .text s => (E.textInteger s).map .integer
  | .text, .integer i => some (.text (.ofList (E.forms.text (.integer i))))
  | _, x => some x

def literalValue : Literal → Value
  | .integer i => .integer i
  | .real x => .real x
  | .text s => .text s
  | .nonFinite s => E.bareWord s

/-- A literal that is compared with the column. -/
def operand (l : Literal) : Value :=
  match a, literalValue E l with
  | .integer, .text s =>
    match E.textInteger s with
    | some i => .integer i
    | none => .text s
  | .text, .integer i => .text (.ofList (E.forms.text (.integer i)))
  | .text, .real x => .text (.ofList (E.forms.text (.real x)))
  | _, v => v

/-- `length(..)`: the characters before the first NUL. -/
def columnLength : Cell → Option Nat
  | .null => none
  | .integer i => some (Policy.intText i.toInt).length
  | .text s => some (s.toList.takeWhile (· ≠ '\x00')).length

def evalPart (x : Cell) : CheckPart → Tri
  | .atLeast bound => compareTri .ge x.toValue (operand E a bound)
  | .atMost bound => compareTri .le x.toValue (operand E a bound)
  | .lengthAtMost len =>
    match columnLength x with
    | none => .unknown
    | some n => .ofBool (n ≤ len.toNat)
  | .oneOf values => inTri x.toValue (values.map (operand E a))

def evalCheck (parts : List CheckPart) (x : Cell) : Tri :=
  .allOf (parts.map (evalPart E a x))

/-- The column takes the value, and its `CHECK` is not false of it. -/
def Accepts (parts : List CheckPart) (x : Cell) : Prop :=
  ∃ y, convert E a x = some y ∧ evalCheck E a parts y ≠ .false

end Table

/-! ### The check before the write -/

/-- A field as it is described: what was stored of its constraints has been read again, unless it
is missing. -/
structure Describes (env : Env) (f : FieldSpec) (col : Column) (info : FieldInfo) : Prop where
  name : info.name = col.name
  sqlType : info.sqlType = col.sqlType
  constraints : ∀ c, info.constraints = some c →
    rereadConstraints env.reading f.constraints = some c

/-- The value is refused before the write. -/
def Rejects (parseF64 : String → Option Binary64) (info : FieldInfo) (v : Json) : Prop :=
  checkConstraints parseF64 [(info.name, v)] [info] ≠ .ok ()

def toDouble (i : Int64) : Binary64 :=
  .ofInt i.toInt (Json.Number.natAbs_int64_lt i)

/-- The integer, as a double, is on the side `o` of a bound. -/
def Beyond (o : Ordering) (bound : Option Binary64) (i : Int64) : Prop :=
  ∃ m, bound = some m ∧ Binary64.cmp (toDouble i) m = o

def NotListed (enumValues : Option (List String)) (s : String) : Prop :=
  ∃ vs, enumValues = some vs ∧ s ∉ vs

def TooLong (maxLength : Option UInt32) (s : String) : Prop :=
  ∃ len, maxLength = some len ∧ len < UInt32.ofNat s.length

/-- The check before the write takes the value for another one than the table. An integer in a
column of texts is ordered as a number, and one in a column of integers meets a bound that has
changed or that lies outside the integers. A numeric text in a column of integers is looked up and
measured as it is spelled, and a text is measured past a NUL. -/
def Misread (a : Affinity) (f : FieldSpec) (c : FieldConstraints) (v : Json) : Cell → Prop
  | .null => False
  | .integer i =>
    match a with
    | .integer =>
      Beyond .lt c.min i ∧ (c.min ≠ f.min ∨ i = Int64.maxValue) ∨
        Beyond .gt c.max i ∧ (c.max ≠ f.max ∨ i = Int64.minValue)
    | .text => Beyond .lt c.min i ∨ Beyond .gt c.max i
  | .text s =>
    v = .string s ∧
      match a with
      | .integer => NotListed f.enumValues s ∨ TooLong f.maxLength s
      | .text => '\x00' ∈ s.toList ∧ TooLong f.maxLength s

/-! ### What is refused before the write -/

section Rejected

variable {parseF64 : String → Option Binary64} {printJson : Json → String} {info : FieldInfo}
  {v : Json} {c : FieldConstraints}

theorem rejects_iff : Rejects parseF64 info v ↔
    v ≠ .null ∧ ∃ c, info.constraints = some c ∧ checkValue parseF64 info c v ≠ .ok () := by
  have hget : Json.Map.get [(info.name, v)] info.name = some v := by
    simp [Json.Map.get]
  unfold Rejects
  rw [checkConstraints, hget]
  cases info.constraints with
  | none =>
    refine iff_of_false (fun h => h rfl) ?_
    rintro ⟨-, c, heq, -⟩
    cases heq
  | some c =>
    have hsome : (∃ c', some c = some c' ∧ checkValue parseF64 info c' v ≠ .ok ()) ↔
        checkValue parseF64 info c v ≠ .ok () := by simp
    rw [hsome]
    by_cases hnull : v = .null
    · simp only [if_pos hnull]
      exact iff_of_false (fun h => h rfl) fun h => h.1 hnull
    · simp only [if_neg hnull]
      rw [and_iff_right hnull, not_iff_not, Except.bind_eq_ok_iff]
      constructor
      · rintro ⟨u, h, -⟩
        exact h
      · exact fun h => ⟨(), h, rfl⟩

theorem checkValue_eq_ok_iff : checkValue parseF64 info c v = .ok () ↔
    checkMin info.name c.min v = .ok () ∧ checkMax info.name c.max v = .ok () ∧
      Enforce.checkEnum parseF64 info c.enumValues v = .ok () ∧
      checkLength info.name c.maxLength v = .ok () := by
  rw [checkValue, Except.bind_eq_ok_iff]
  simp only [Except.bind_eq_ok_iff]
  constructor
  · rintro ⟨u, hmin, u', hmax, u'', henum, hlength⟩
    exact ⟨hmin, hmax, henum, hlength⟩
  · rintro ⟨hmin, hmax, henum, hlength⟩
    exact ⟨(), hmin, (), hmax, (), henum, hlength⟩

theorem checkMin_of_asNum {n : Binary64} (hn : asNum v = some n) :
    checkMin info.name c.min v = .ok () ↔ ¬∃ m, c.min = some m ∧ Binary64.cmp n m = .lt := by
  unfold checkMin
  rw [hn]
  cases c.min with
  | none => simp
  | some m => by_cases hlt : Binary64.cmp n m = .lt <;> simp [hlt]

theorem checkMax_of_asNum {n : Binary64} (hn : asNum v = some n) :
    checkMax info.name c.max v = .ok () ↔ ¬∃ m, c.max = some m ∧ Binary64.cmp n m = .gt := by
  unfold checkMax
  rw [hn]
  cases c.max with
  | none => simp
  | some m => by_cases hgt : Binary64.cmp n m = .gt <;> simp [hgt]

theorem checkLength_string {s : String} :
    checkLength info.name c.maxLength (.string s) = .ok () ↔ ¬TooLong c.maxLength s := by
  unfold checkLength TooLong
  cases c.maxLength with
  | none => simp [Json.asStr]
  | some len => by_cases hlt : len < UInt32.ofNat s.length <;> simp [Json.asStr, hlt]

/-- The name of a column's type is never the one that the check asks for. -/
theorem not_numeric {a : Affinity} (h : affinity info.sqlType = some a) :
    info.sqlType ∉ ["integer", "real", "boolean"] := by
  intro hmem
  simp only [List.mem_cons, List.not_mem_nil, or_false] at hmem
  obtain heq | heq | heq := hmem <;> · rw [heq] at h; cases h

theorem checkEnum_string {a : Affinity} (h : affinity info.sqlType = some a) {s : String} :
    Enforce.checkEnum parseF64 info c.enumValues (.string s) = .ok () ↔
      ¬NotListed c.enumValues s := by
  unfold Enforce.checkEnum NotListed
  cases c.enumValues with
  | none => simp
  | some vs =>
    have hin : inEnum parseF64 info.sqlType vs (.string s) = vs.contains s :=
      if_neg (not_numeric h)
    simp only [hin]
    by_cases hmem : s ∈ vs <;> simp [hmem]

theorem checkEnum_of_asStr {a : Affinity} (h : affinity info.sqlType = some a)
    (hv : v.asStr = none) : Enforce.checkEnum parseF64 info c.enumValues v = .ok () := by
  unfold Enforce.checkEnum
  cases c.enumValues with
  | none => rfl
  | some vs =>
    have hin : inEnum parseF64 info.sqlType vs v = true := by
      rw [inEnum, if_neg (not_numeric h), hv]
    simp only [hin, if_true]

theorem checkLength_of_asStr (hv : v.asStr = none) :
    checkLength info.name c.maxLength v = .ok () := by
  unfold checkLength
  rw [hv]

/-- What the check sees of a value that is bound as an integer. -/
theorem asNum_of_integer {i : Int64} (h : jsonToSqlValue printJson v = .integer i) :
    asNum v = some (toDouble i) ∧ v.asStr = none := by
  cases v with
  | null => cases h
  | string s => cases h
  | array xs => cases h
  | object kvs => cases h
  | bool b =>
    cases h
    cases b
    · exact ⟨rfl, rfl⟩
    · exact ⟨rfl, rfl⟩
  | number n =>
    refine ⟨?_, rfl⟩
    rw [jsonToSqlValue] at h
    cases n with
    | posInt n =>
      rw [Json.Number.asI64] at h
      by_cases hlt : n.toNat < 2 ^ 63
      · rw [if_pos hlt] at h
        cases h
        have hround : (Int64.ofNat n.toNat).toInt = n.toNat := Int64.toInt_ofNat_of_lt hlt
        simp only [asNum, Json.Number.asF64, toDouble, hround]
      · rw [if_neg hlt] at h
        cases h
    | negInt n =>
      cases h
      rfl
    | float x => cases h

theorem rejects_integer_iff {a : Affinity} (ha : affinity info.sqlType = some a) {i : Int64}
    (hv : jsonToSqlValue printJson v = .integer i) : Rejects parseF64 info v ↔
      ∃ c, info.constraints = some c ∧ (Beyond .lt c.min i ∨ Beyond .gt c.max i) := by
  obtain ⟨hnum, hstr⟩ := asNum_of_integer hv
  have hnull : v ≠ .null := by
    rintro rfl
    cases hv
  rw [rejects_iff, and_iff_right hnull]
  refine exists_congr fun c => and_congr_right fun _ => ?_
  have hrest : Enforce.checkEnum parseF64 info c.enumValues v = .ok () ∧
      checkLength info.name c.maxLength v = .ok () :=
    ⟨checkEnum_of_asStr ha hstr, checkLength_of_asStr hstr⟩
  rw [ne_eq, checkValue_eq_ok_iff, checkMin_of_asNum hnum, checkMax_of_asNum hnum, ← and_assoc,
    and_iff_left hrest, ← not_or, not_not]
  rfl

theorem rejects_text_iff {a : Affinity} (ha : affinity info.sqlType = some a) {s : String}
    (hv : jsonToSqlValue printJson v = .text s) : Rejects parseF64 info v ↔
      v = .string s ∧ ∃ c, info.constraints = some c ∧
        (NotListed c.enumValues s ∨ TooLong c.maxLength s) := by
  have hnum : asNum v = none := by
    cases v with
    | number n =>
      rw [jsonToSqlValue] at hv
      split at hv <;> cases hv
    | bool b => cases hv
    | _ => rfl
  have hmin : ∀ c : FieldConstraints, checkMin info.name c.min v = .ok () := by
    intro c
    unfold checkMin
    rw [hnum]
  have hmax : ∀ c : FieldConstraints, checkMax info.name c.max v = .ok () := by
    intro c
    unfold checkMax
    rw [hnum]
  rw [rejects_iff]
  cases hstr : v.asStr with
  | none =>
    refine iff_of_false ?_ ?_
    · rintro ⟨-, c, -, hc⟩
      exact hc (checkValue_eq_ok_iff.mpr ⟨hmin c, hmax c, checkEnum_of_asStr ha hstr,
        checkLength_of_asStr hstr⟩)
    · rintro ⟨rfl, -⟩
      cases hstr
  | some t =>
    have heq : v = .string s := by
      cases v with
      | string u =>
        cases hv
        rfl
      | _ => cases hstr
    subst heq
    rw [and_iff_right (by simp), and_iff_right rfl]
    refine exists_congr fun c => and_congr_right fun _ => ?_
    rw [ne_eq, checkValue_eq_ok_iff, and_iff_right (hmin c), and_iff_right (hmax c),
      checkEnum_string ha, checkLength_string, ← not_or, not_not]

end Rejected

/-! ### What the table accepts -/

section Accepted

variable {E : Engine} {a : Affinity} {env : Env} {f : FieldSpec} {parts : List CheckPart}

theorem evalPart_ne_false {y : Cell} (h : evalCheck E a parts y ≠ .false) {p : CheckPart}
    (hp : p ∈ parts) : evalPart E a y p ≠ .false := by
  intro hfalse
  exact h ((Tri.allOf_eq_false_iff _).mpr (hfalse ▸ List.mem_map_of_mem hp))

/-- A text that is short enough up to its first NUL but not as a whole contains one. -/
theorem nul_of_tooLong {s : String} {len : UInt32}
    (hlen : (s.toList.takeWhile (· ≠ '\x00')).length ≤ len.toNat)
    (hlong : len < UInt32.ofNat s.length) : '\x00' ∈ s.toList := by
  by_contra hnul
  have hall : s.toList.takeWhile (· ≠ '\x00') = s.toList := by
    rw [List.takeWhile_eq_self_iff]
    intro c hc
    exact decide_eq_true fun heq => hnul (heq ▸ hc)
  rw [hall, String.length_toList] at hlen
  have hle : UInt32.ofNat s.length ≤ len := by
    rw [UInt32.le_iff_toNat_le, UInt32.toNat_ofNat']
    exact (Nat.mod_le _ _).trans hlen
  exact absurd hlong (UInt32.not_lt.mpr hle)

/-- Lists of literals on a column of texts are their values. -/
theorem enumLiterals_text (hnumeric : f.numeric = false) {vs : List String} {ls : List Literal}
    (h : enumLiterals env f vs = .ok ls) : ls = vs.map .text := by
  induction vs generalizing ls with
  | nil => exact (Except.ok.inj h).symm
  | cons v vs ih =>
    obtain ⟨l, hl, h⟩ := Except.bind_eq_ok_iff.mp h
    obtain ⟨ls', hls, h⟩ := Except.bind_eq_ok_iff.mp h
    rw [enumLiteral, hnumeric] at hl
    cases hl
    cases h
    rw [List.map_cons, ih hls]

theorem mem_of_inTri {s : String} {vs : List String}
    (h : inTri (.text s) (vs.map .text) ≠ .false) : s ∈ vs := by
  by_contra hs
  refine h ?_
  have hany : (vs.map Value.text).any (fun v => cmpValue (.text s) v == some .eq) = false := by
    rw [List.any_eq_false]
    intro v hv
    obtain ⟨t, ht, rfl⟩ := List.mem_map.mp hv
    intro heq
    rw [beq_iff_eq, cmpValue, Option.some.injEq, textCmp_eq_iff] at heq
    exact hs (heq ▸ ht)
  have hnull : (vs.map Value.text).any Value.isNull = false := by
    rw [List.any_eq_false]
    intro v hv
    obtain ⟨t, -, rfl⟩ := List.mem_map.mp hv
    exact Bool.false_ne_true
  rw [inTri, hany, hnull]
  simp [Value.isNull]

/-- What a bound says of an integer in a column of integers. -/
theorem clamp_le_of_atLeast {i : Int64} {m : Binary64} (hm : IsIntegral m)
    (h : evalPart E .integer (.integer i) (.atLeast (renderNum m)) ≠ .false) :
    (clamp (m.scaled / (Binary64.one : Int))).toInt ≤ i.toInt := by
  rw [renderNum, if_pos hm] at h
  by_contra hlt
  have hcmp : compare i.toInt (asInt64 m).toInt = .lt := Std.compare_eq_lt.mpr (Int.not_le.mp hlt)
  refine h ?_
  simp [evalPart, operand, literalValue, compareTri, cmpValue, Cell.toValue, hcmp, CmpOp.holds]

theorem le_clamp_of_atMost {i : Int64} {m : Binary64} (hm : IsIntegral m)
    (h : evalPart E .integer (.integer i) (.atMost (renderNum m)) ≠ .false) :
    i.toInt ≤ (clamp (m.scaled / (Binary64.one : Int))).toInt := by
  rw [renderNum, if_pos hm] at h
  by_contra hlt
  have hcmp : compare i.toInt (asInt64 m).toInt = .gt := Std.compare_eq_gt.mpr (Int.not_le.mp hlt)
  refine h ?_
  simp [evalPart, operand, literalValue, compareTri, cmpValue, Cell.toValue, hcmp, CmpOp.holds]

/-- An integer that passes the compiled bound and is below it as a double is the largest one. -/
theorem eq_maxValue_of_below {i : Int64} {m : Binary64} (hm : IsIntegral m)
    (hle : (clamp (m.scaled / (Binary64.one : Int))).toInt ≤ i.toInt)
    (hlt : Binary64.cmp (toDouble i) m = .lt) : i = Int64.maxValue := by
  have hnot : ¬m.scaled / (Binary64.one : Int) ≤ i.toInt := fun h =>
    Binary64.cmp_ofInt_ne_lt _ (scaled_of_isIntegral hm) h hlt
  have hmax : Int64.maxValue.toInt = 2 ^ 63 - 1 := by decide
  have hrange := i.toInt_lt
  have hlow := i.le_toInt
  rw [clamp_toInt] at hle
  apply Int64.toInt_inj.mp
  split at hle
  · omega
  · split at hle
    · omega
    · omega

theorem eq_minValue_of_above {i : Int64} {m : Binary64} (hm : IsIntegral m)
    (hle : i.toInt ≤ (clamp (m.scaled / (Binary64.one : Int))).toInt)
    (hgt : Binary64.cmp (toDouble i) m = .gt) : i = Int64.minValue := by
  have hnot : ¬i.toInt ≤ m.scaled / (Binary64.one : Int) := fun h =>
    Binary64.cmp_ofInt_ne_gt _ (scaled_of_isIntegral hm) h hgt
  have hmin : Int64.minValue.toInt = -2 ^ 63 := by decide
  have hrange := i.toInt_lt
  have hlow := i.le_toInt
  rw [clamp_toInt] at hle
  apply Int64.toInt_inj.mp
  split at hle
  · omega
  · split at hle
    · omega
    · omega

end Accepted

/-! ### The two checks -/

section Agreement

variable {E : Engine} {a : Affinity} {env : Env} {f : FieldSpec} {col : Column} {info : FieldInfo}
  {parts : List CheckPart} {c : FieldConstraints} {v : Json} {x : Cell}

theorem enumValues_of_reread (h : rereadConstraints env.reading f.constraints = some c) :
    c.enumValues = f.enumValues ∧ c.maxLength = f.maxLength := by
  obtain ⟨min, -, h⟩ := Option.bind_eq_some_iff.mp h
  obtain ⟨max, -, h⟩ := Option.bind_eq_some_iff.mp h
  cases h
  exact ⟨rfl, rfl⟩

theorem not_numeric_of_text (h : typeToSqlite f.sqlType = .ok "TEXT") : f.numeric = false := by
  rw [FieldSpec.numeric]
  unfold typeToSqlite at h
  split at h
  · next heq => rw [heq]; rfl
  · next heq => rw [heq]; rfl
  · next heq => rw [heq]; rfl
  all_goals simp at h

/-- Of the values that the table accepts, those are refused that are misread. -/
theorem misread_iff (hparts : checkParts env f = .ok parts)
    (htype : a = .text → f.numeric = false)
    (hmin : ∀ m, f.min = some m → IsIntegral m) (hmax : ∀ m, f.max = some m → IsIntegral m)
    (hread : rereadConstraints env.reading f.constraints = some c)
    (haccepts : Accepts E a parts x) :
    (match x with
      | .null => False
      | .integer i => Beyond .lt c.min i ∨ Beyond .gt c.max i
      | .text s => v = .string s ∧ (NotListed c.enumValues s ∨ TooLong c.maxLength s)) ↔
      Misread a f c v x := by
  obtain ⟨y, hy, hcheck⟩ := haccepts
  obtain ⟨hmins, hmaxs, hlens, henums⟩ := mem_checkParts hparts
  obtain ⟨henum, hlength⟩ := enumValues_of_reread hread
  cases x with
  | null => exact Iff.rfl
  | integer i =>
    cases a with
    | text => exact Iff.rfl
    | integer =>
      cases hy
      refine or_congr (iff_self_and.mpr ?_) (iff_self_and.mpr ?_)
      · rintro ⟨m, hm, hlt⟩
        refine or_iff_not_imp_left.mpr fun hsame => ?_
        rw [not_ne_iff.mp hsame] at hm
        exact eq_maxValue_of_below (hmin m hm)
          (clamp_le_of_atLeast (hmin m hm) (evalPart_ne_false hcheck (hmins m hm))) hlt
      · rintro ⟨m, hm, hgt⟩
        refine or_iff_not_imp_left.mpr fun hsame => ?_
        rw [not_ne_iff.mp hsame] at hm
        exact eq_minValue_of_above (hmax m hm)
          (le_clamp_of_atMost (hmax m hm) (evalPart_ne_false hcheck (hmaxs m hm))) hgt
  | text s =>
    rw [henum, hlength]
    cases a with
    | integer => exact Iff.rfl
    | text =>
      cases hy
      refine and_congr_right fun _ => ⟨?_, fun h => .inr h.2⟩
      rintro (⟨vs, hvs, hnot⟩ | ⟨len, hlen, hlong⟩)
      · obtain ⟨ls, hls, hmem⟩ := henums vs hvs
        have hpart := evalPart_ne_false hcheck hmem
        rw [enumLiterals_text (htype rfl) hls, evalPart, List.map_map] at hpart
        exact absurd (mem_of_inTri hpart) hnot
      · have hpart := evalPart_ne_false hcheck (hlens len hlen)
        rw [evalPart, columnLength, ne_eq, Tri.ofBool_eq_false_iff, decide_eq_false_iff_not,
          not_not] at hpart
        exact ⟨nul_of_tooLong hpart hlong, len, hlen, hlong⟩

theorem affinity_text (h : affinity col.sqlType = some .text) : col.sqlType = "TEXT" := by
  unfold affinity at h
  split at h
  · cases h
  · assumption
  · cases h

/-- The check before the write refuses no value that the table accepts, unless it misreads it. -/
theorem checkConstraints_sound_iff (parseF64 : String → Option Binary64) (printJson : Json → String)
    (E : Engine) (hcol : columnExpr env f = .ok col) (ha : affinity col.sqlType = some a)
    (hmin : ∀ m, f.min = some m → IsIntegral m) (hmax : ∀ m, f.max = some m → IsIntegral m)
    (hinfo : Describes env f col info) (hv : jsonToSqlValue printJson v = x.toValue) :
    ∃ parts, checkParts env f = .ok parts ∧
      ((Rejects parseF64 info v → ¬Accepts E a parts x) ↔
        (Accepts E a parts x → ∀ c, info.constraints = some c → ¬Misread a f c v x)) := by
  obtain ⟨hname, hty, hparts⟩ := columnExpr_spec hcol
  refine ⟨col.check, hparts, ?_⟩
  have htype : a = .text → f.numeric = false := by
    rintro rfl
    exact not_numeric_of_text (affinity_text ha ▸ hty)
  have hinfoType : affinity info.sqlType = some a := hinfo.sqlType ▸ ha
  rw [imp_not_comm]
  refine imp_congr_right fun haccepts => ?_
  -- what the check refuses, by the kind of the value that is bound
  have hrejects : Rejects parseF64 info v ↔ ∃ c, info.constraints = some c ∧ Misread a f c v x := by
    have hmisread : ∀ c, info.constraints = some c → _ := fun c hc =>
      misread_iff (v := v) hparts htype hmin hmax (hinfo.constraints c hc) haccepts
    cases x with
    | null =>
      have hnull : v = .null := by
        cases v with
        | null => rfl
        | number n =>
          rw [jsonToSqlValue] at hv
          split at hv <;> cases hv
        | _ => cases hv
      refine iff_of_false (fun h => (rejects_iff.mp h).1 hnull) ?_
      rintro ⟨c, -, hfalse⟩
      exact hfalse
    | integer i =>
      rw [rejects_integer_iff hinfoType hv]
      exact exists_congr fun c => and_congr_right fun hc => hmisread c hc
    | text s =>
      rw [rejects_text_iff hinfoType hv, ← exists_and_left]
      refine exists_congr fun c => ?_
      rw [and_left_comm]
      exact and_congr_right fun hc => hmisread c hc
  rw [hrejects, not_exists]
  exact forall_congr' fun c => not_and

end Agreement

/-! ### A rank -/

/-- The number that some digits write. -/
def ofDigits (s : String) : Option Nat :=
  if s.toList.all Char.isDigit && !s.toList.isEmpty then some (Digits.value s.toList) else none

/-- A database that knows the integers by their digits. -/
def plainEngine : Engine where
  textInteger s := (ofDigits s).map Int64.ofNat
  forms := Policy.zeroForms
  bareWord _ := .null

/-- Numbers are read from their digits. -/
def rankEnv : Env :=
  { plainEnv with parseF64 := fun s => (ofDigits s).map fun n => some (toDouble (.ofNat n)) }

/-- A rank from zero to five of which only two are in use. -/
def rankField : FieldSpec where
  name := "rank"
  sqlType := "integer"
  min := some (toDouble 0)
  max := some (toDouble 5)
  enumValues := some ["1", "2"]
  maxLength := some 3

def rankInfo : FieldInfo where
  name := "rank"
  sqlType := "INTEGER"
  nullable := true
  pk := false
  defaultValue := none
  foreignKey := none
  description := none
  constraints := some rankField.constraints

def rankParts : List CheckPart :=
  [.atLeast (.integer 0), .atMost (.integer 5), .lengthAtMost 3, .oneOf [.integer 1, .integer 2]]

theorem columnExpr_rank : ∃ col, columnExpr rankEnv rankField = .ok col ∧
    affinity col.sqlType = some .integer ∧ Describes rankEnv rankField col rankInfo := by
  have hnames : (columnExpr rankEnv rankField).toOption.map (fun col => (col.name, col.sqlType)) =
      some ("rank", "INTEGER") := by decide +kernel
  cases hcol : columnExpr rankEnv rankField with
  | error e =>
    rw [hcol] at hnames
    cases hnames
  | ok col =>
    rw [hcol] at hnames
    obtain ⟨hname, htype⟩ := Prod.mk.inj (Option.some.inj hnames)
    refine ⟨col, rfl, by rw [htype]; rfl, hname.symm, htype.symm, ?_⟩
    intro c hc
    cases hc
    rfl

theorem checkParts_rank : checkParts rankEnv rankField = .ok rankParts := by
  have hparts : (checkParts rankEnv rankField).toOption = some rankParts := by decide +kernel
  cases h : checkParts rankEnv rankField with
  | error e =>
    rw [h] at hparts
    cases hparts
  | ok parts =>
    rw [h] at hparts
    rw [Option.some.inj hparts]

theorem integral_rank : (∀ m, rankField.min = some m → IsIntegral m) ∧
    ∀ m, rankField.max = some m → IsIntegral m := by
  constructor
  · rintro m ⟨rfl⟩
    decide +kernel
  · rintro m ⟨rfl⟩
    decide +kernel

/-- A rank as a number is refused only where the table refuses it. -/
theorem checkConstraints_rank : ∃ parts, checkParts rankEnv rankField = .ok parts ∧
    (Rejects (fun _ => none) rankInfo (.number (.posInt 7)) →
      ¬Accepts plainEngine .integer parts (.integer 7)) := by
  obtain ⟨col, hcol, ha, hinfo⟩ := columnExpr_rank
  obtain ⟨parts, hparts, hiff⟩ := checkConstraints_sound_iff (v := .number (.posInt 7))
    (x := .integer 7) (fun _ => none) (fun _ => "") plainEngine hcol ha integral_rank.1
    integral_rank.2 hinfo rfl
  refine ⟨parts, hparts, hiff.mpr ?_⟩
  rintro - c ⟨rfl⟩ (⟨-, hne | hmax⟩ | ⟨-, hne | hmin⟩)
  · exact hne rfl
  · exact absurd hmax (by decide)
  · exact hne rfl
  · exact absurd hmin (by decide)

/-- A rank with a leading zero: no value of the enumeration is spelled so, but the column stores
the number. -/
theorem checkConstraints_leadingZero : ∃ col parts, columnExpr rankEnv rankField = .ok col ∧
    affinity col.sqlType = some .integer ∧ Describes rankEnv rankField col rankInfo ∧
    checkParts rankEnv rankField = .ok parts ∧
    jsonToSqlValue (fun _ => "") (.string "01") = (Cell.text "01").toValue ∧
    Rejects (fun _ => none) rankInfo (.string "01") ∧
    Accepts plainEngine .integer parts (.text "01") := by
  obtain ⟨col, hcol, ha, hinfo⟩ := columnExpr_rank
  refine ⟨col, rankParts, hcol, ha, hinfo, checkParts_rank, rfl, ?_, .integer 1, ?_, ?_⟩
  · have hbound : jsonToSqlValue (fun _ => "") (.string "01") = .text "01" := rfl
    refine (rejects_text_iff (hinfo.sqlType ▸ ha) hbound).mpr ⟨rfl, _, rfl, .inl ⟨_, rfl, ?_⟩⟩
    decide
  · decide +kernel
  · decide +kernel

end SchemaTools

end Drust
