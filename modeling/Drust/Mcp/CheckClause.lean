import Drust.Lib.Digits
import Drust.Mcp.SchemaTools

/-!
# The parts of a `CHECK`

The constraints of a field are compiled into one `CHECK` with a part for each of them. A bound
that is an integer is written as one, and so is a number of an enumeration; what lies outside the
64-bit integers becomes the nearest of them. A check `Says` the constraints when its literals are
their values, and it does if none of them lies outside (`says_of_checkParts`).
-/

namespace Drust

namespace SchemaTools

/-! ### The checks of a field and its parts -/

section Parts

variable {env : Env} {f : FieldSpec}

theorem eachValue_cons {check : String → Except ToolError Unit} {v : String} {vs : List String}
    (h : eachValue check (v :: vs) = .ok ()) : check v = .ok () ∧ eachValue check vs = .ok () := by
  obtain ⟨u, hv, hvs⟩ := Except.bind_eq_ok_iff.mp h
  exact ⟨hv, hvs⟩

theorem eachValue_ok_iff {check : String → Except ToolError Unit} {vs : List String} :
    eachValue check vs = .ok () ↔ ∀ v ∈ vs, check v = .ok () := by
  induction vs with
  | nil => exact iff_of_true rfl (by simp)
  | cons v vs ih =>
    rw [List.forall_mem_cons, ← ih]
    exact ⟨eachValue_cons, fun h => Except.bind_eq_ok_iff.mpr ⟨(), h.1, h.2⟩⟩

theorem enumLiterals_ok_iff {vs : List String} {ls : List Literal} :
    enumLiterals env f vs = .ok ls ↔
      List.Forall₂ (fun v l => enumLiteral env f v = .ok l) vs ls := by
  induction vs generalizing ls with
  | nil =>
    rw [enumLiterals, List.forall₂_nil_left_iff, Except.ok.injEq, eq_comm]
  | cons v vs ih =>
    rw [enumLiterals, Except.bind_eq_ok_iff, List.forall₂_cons_left_iff]
    constructor
    · rintro ⟨l, hl, h⟩
      obtain ⟨ls', hls, h⟩ := Except.bind_eq_ok_iff.mp h
      cases h
      exact ⟨l, ls', hl, ih.mp hls, rfl⟩
    · rintro ⟨l, ls', hl, hls, rfl⟩
      exact ⟨l, hl, Except.bind_eq_ok_iff.mpr ⟨ls', ih.mpr hls, rfl⟩⟩

theorem enumPart_some {vals : List String} {part : List CheckPart}
    (hvals : f.enumValues = some vals) (h : enumPart env f = .ok part) :
    eachValue (checkEnumValue env f) vals = .ok () ∧
      ∃ ls, enumLiterals env f vals = .ok ls ∧ part = [.oneOf ls] := by
  unfold enumPart at h
  rw [hvals] at h
  obtain ⟨u, -, h⟩ := Except.bind_eq_ok_iff.mp h
  obtain ⟨u', heach, h⟩ := Except.bind_eq_ok_iff.mp h
  obtain ⟨u'', -, h⟩ := Except.bind_eq_ok_iff.mp h
  obtain ⟨ls, hls, h⟩ := Except.bind_eq_ok_iff.mp h
  exact ⟨heach, ls, hls, (Except.ok.inj h).symm⟩

/-- What a definition keeps of the field. -/
theorem columnExpr_spec {col : Column} (h : columnExpr env f = .ok col) :
    col.name = f.name ∧ typeToSqlite f.sqlType = .ok col.sqlType ∧
      checkParts env f = .ok col.check := by
  obtain ⟨_, -, h⟩ := Except.bind_eq_ok_iff.mp h
  obtain ⟨ty, hty, h⟩ := Except.bind_eq_ok_iff.mp h
  obtain ⟨_, -, h⟩ := Except.bind_eq_ok_iff.mp h
  obtain ⟨_, -, h⟩ := Except.bind_eq_ok_iff.mp h
  obtain ⟨check, hcheck, h⟩ := Except.bind_eq_ok_iff.mp h
  obtain ⟨_, -, h⟩ := Except.bind_eq_ok_iff.mp h
  cases h
  exact ⟨rfl, hty, hcheck⟩

/-- Every constraint has its part. -/
theorem mem_checkParts {parts : List CheckPart} (h : checkParts env f = .ok parts) :
    (∀ m, f.min = some m → .atLeast (renderNum m) ∈ parts) ∧
      (∀ m, f.max = some m → .atMost (renderNum m) ∈ parts) ∧
      (∀ len, f.maxLength = some len → .lengthAtMost len ∈ parts) ∧
      (∀ vals, f.enumValues = some vals →
        ∃ ls, enumLiterals env f vals = .ok ls ∧ .oneOf ls ∈ parts) := by
  obtain ⟨u, -, h⟩ := Except.bind_eq_ok_iff.mp h
  obtain ⟨u', -, h⟩ := Except.bind_eq_ok_iff.mp h
  obtain ⟨part, hpart, h⟩ := Except.bind_eq_ok_iff.mp h
  cases h
  refine ⟨?_, ?_, ?_, ?_⟩
  · intro m hm
    simp [hm]
  · intro m hm
    simp [hm]
  · intro len hlen
    simp [hlen]
  · intro vals hvals
    obtain ⟨-, ls, hls, rfl⟩ := enumPart_some hvals hpart
    exact ⟨ls, hls, by simp⟩

/-- Every part is that of a constraint. -/
theorem cases_of_mem_checkParts {parts : List CheckPart} (h : checkParts env f = .ok parts)
    {p : CheckPart} (hp : p ∈ parts) :
    (∃ m, p = .atLeast (renderNum m)) ∨ (∃ m, p = .atMost (renderNum m)) ∨
      (∃ len, p = .lengthAtMost len) ∨
      ∃ vals ls, f.enumValues = some vals ∧ eachValue (checkEnumValue env f) vals = .ok () ∧
        enumLiterals env f vals = .ok ls ∧ p = .oneOf ls := by
  obtain ⟨u, -, h⟩ := Except.bind_eq_ok_iff.mp h
  obtain ⟨u', -, h⟩ := Except.bind_eq_ok_iff.mp h
  obtain ⟨part, hpart, h⟩ := Except.bind_eq_ok_iff.mp h
  cases h
  simp only [List.mem_append, Option.mem_toList, Option.map_eq_some_iff] at hp
  obtain ((⟨m, -, rfl⟩ | ⟨m, -, rfl⟩) | ⟨len, -, rfl⟩) | hp := hp
  · exact .inl ⟨m, rfl⟩
  · exact .inr (.inl ⟨m, rfl⟩)
  · exact .inr (.inr (.inl ⟨len, rfl⟩))
  · cases hvals : f.enumValues with
    | none =>
      unfold enumPart at hpart
      rw [hvals] at hpart
      cases hpart
      cases hp
    | some vals =>
      obtain ⟨heach, ls, hls, rfl⟩ := enumPart_some hvals hpart
      exact .inr (.inr (.inr ⟨vals, ls, rfl, heach, hls, List.mem_singleton.mp hp⟩))

/-- What is checked of a value of an enumeration. -/
theorem checkEnumValue_spec {v : String} (h : checkEnumValue env f v = .ok ()) :
    '\x00' ∉ v.toList ∧
      (f.sqlType = "integer" ∨ f.sqlType = "boolean" → env.parseF64 v ≠ some none) := by
  unfold checkEnumValue at h
  simp only at h
  split at h
  · cases h
  · next hnul =>
    split at h
    · cases h
    · split at h
      · cases h
      · next hint =>
        refine ⟨hnul, ?_⟩
        intro hstorage hparse
        refine hint ?_
        rw [hparse]
        rw [Bool.and_eq_true, Bool.or_eq_true, beq_iff_eq, beq_iff_eq]
        exact ⟨hstorage, rfl⟩

/-- Every literal of a part has the property. -/
def CheckPart.Forall (p : Literal → Prop) : CheckPart → Prop
  | .atLeast l | .atMost l => p l
  | .lengthAtMost _ => True
  | .oneOf ls => ∀ l ∈ ls, p l

/-- The parts have a property of literals as far as their numbers and the values of the enumeration
have it. -/
theorem forall_parts {parts : List CheckPart} (h : checkParts env f = .ok parts)
    {q : Literal → Prop} (hnum : ∀ m, q (renderNum m))
    (henum : ∀ vals, f.enumValues = some vals → ∀ v ∈ vals, checkEnumValue env f v = .ok () →
      ∀ l, enumLiteral env f v = .ok l → q l) : ∀ p ∈ parts, p.Forall q := by
  intro p hp
  obtain ⟨m, rfl⟩ | ⟨m, rfl⟩ | ⟨len, rfl⟩ | ⟨vals, ls, hvals, heach, hls, rfl⟩ :=
    cases_of_mem_checkParts h hp
  · exact hnum m
  · exact hnum m
  · exact trivial
  · intro l hl
    obtain ⟨v, hv, hlit⟩ := (enumLiterals_ok_iff.mp hls).flip.exists_of_mem hl
    exact henum vals hvals v hv (eachValue_ok_iff.mp heach v hv) l hlit

end Parts

/-! ### Integers in range -/

theorem clamp_toInt (m : Int) : (clamp m).toInt =
    if m < -2 ^ 63 then -2 ^ 63 else if 2 ^ 63 - 1 < m then 2 ^ 63 - 1 else m := by
  have hmin : Int64.minValue.toInt = -2 ^ 63 := by decide
  have hmax : Int64.maxValue.toInt = 2 ^ 63 - 1 := by decide
  unfold clamp
  rw [hmin, hmax]
  by_cases hlow : m < -2 ^ 63
  · rw [if_pos hlow, if_pos hlow, hmin]
  rw [if_neg hlow, if_neg hlow]
  by_cases hhigh : 2 ^ 63 - 1 < m
  · rw [if_pos hhigh, if_pos hhigh, hmax]
  rw [if_neg hhigh, if_neg hhigh]
  exact Int64.toInt_ofInt_of_le (by omega) (by omega)

/-- The value of a number that is an integer. -/
theorem scaled_of_isIntegral {n : Binary64} (h : IsIntegral n) :
    n.scaled = n.scaled / (Binary64.one : Int) * (Binary64.one : Int) :=
  (Int.ediv_mul_cancel (Int.dvd_of_emod_eq_zero h)).symm

/-! ### What a check says -/

/-- The literal is the number. -/
def Literal.IsNumber (n : Binary64) : Literal → Prop
  | .integer i => n.scaled = i.toInt * (Binary64.one : Int)
  | .real x => x = n
  | .text _ | .nonFinite _ => False

instance (n : Binary64) : ∀ l : Literal, Decidable (l.IsNumber n)
  | .integer i => inferInstanceAs (Decidable (n.scaled = i.toInt * (Binary64.one : Int)))
  | .real x => inferInstanceAs (Decidable (x = n))
  | .text _ | .nonFinite _ => inferInstanceAs (Decidable False)

def Literal.toInt? : Literal → Option Int
  | .integer i => some i.toInt
  | _ => none

/-- A sign, and what follows it. -/
def signed : List Char → Int × List Char
  | '-' :: cs => (-1, cs)
  | '+' :: cs => (1, cs)
  | cs => (1, cs)

/-- The integer that a decimal text writes, with or without a point and an exponent; `none` when
what it writes is no integer. -/
def writtenInteger (v : String) : Option Int :=
  let (sign, cs) := signed v.toList
  let mantissa := cs.takeWhile fun c => c != 'e' && c != 'E'
  let (expSign, exp) := signed ((cs.drop mantissa.length).drop 1)
  let whole := mantissa.takeWhile (· != '.')
  let fraction := (mantissa.drop whole.length).drop 1
  let digits := whole ++ fraction
  if !digits.isEmpty && (digits ++ exp).all Char.isDigit then
    let m := sign * (Digits.value digits : Int)
    let shift := expSign * (Digits.value exp : Int) - fraction.length
    if 0 ≤ shift then some (m * 10 ^ shift.toNat)
    else if m % 10 ^ (-shift).toNat = 0 then some (m / 10 ^ (-shift).toNat)
    else none
  else none

/-- The literal is the value of an enumeration: the integer that it writes, where the column has
integers, and the double that it is read as, where it has reals. -/
def Literal.IsValue (env : Env) (sqlType v : String) (l : Literal) : Prop :=
  if sqlType = "INTEGER" then ∃ m ∈ writtenInteger v, l.toInt? = some m
  else if sqlType = "REAL" then ∃ n ∈ (env.parseF64 v).join, l.IsNumber n
  else l = .text v

instance (env : Env) (sqlType v : String) (l : Literal) : Decidable (l.IsValue env sqlType v) :=
  inferInstanceAs (Decidable (ite _ _ _))

def lowerBounds (parts : List CheckPart) : List Literal :=
  parts.filterMap fun
    | .atLeast bound => some bound
    | _ => none

def upperBounds (parts : List CheckPart) : List Literal :=
  parts.filterMap fun
    | .atMost bound => some bound
    | _ => none

def lengthBounds (parts : List CheckPart) : List UInt32 :=
  parts.filterMap fun
    | .lengthAtMost len => some len
    | _ => none

def enumerations (parts : List CheckPart) : List (List Literal) :=
  parts.filterMap fun
    | .oneOf values => some values
    | _ => none

/-- The check of a column says the constraints, and nothing else. -/
structure Says (env : Env) (sqlType : String) (fc : FieldConstraints) (parts : List CheckPart) :
    Prop where
  min : List.Forall₂ (fun n l => l.IsNumber n) fc.min.toList (lowerBounds parts)
  max : List.Forall₂ (fun n l => l.IsNumber n) fc.max.toList (upperBounds parts)
  maxLength : lengthBounds parts = fc.maxLength.toList
  enumValues : List.Forall₂ (List.Forall₂ fun v l => l.IsValue env sqlType v)
    fc.enumValues.toList (enumerations parts)

instance (env : Env) (sqlType : String) (fc : FieldConstraints) (parts : List CheckPart) :
    Decidable (Says env sqlType fc parts) :=
  decidable_of_iff
    (List.Forall₂ (fun n l => l.IsNumber n) fc.min.toList (lowerBounds parts) ∧
      List.Forall₂ (fun n l => l.IsNumber n) fc.max.toList (upperBounds parts) ∧
      lengthBounds parts = fc.maxLength.toList ∧
      List.Forall₂ (List.Forall₂ fun v l => l.IsValue env sqlType v) fc.enumValues.toList
        (enumerations parts))
    ⟨fun h => ⟨h.1, h.2.1, h.2.2.1, h.2.2.2⟩, fun h => ⟨h.min, h.max, h.maxLength, h.enumValues⟩⟩

/-- A check that says constraints has parts, and one that says none has none. -/
theorem Says.eq_nil_iff {env : Env} {sqlType : String} {fc : FieldConstraints}
    {parts : List CheckPart} (h : Says env sqlType fc parts) : parts = [] ↔ fc.isEmpty = true := by
  obtain ⟨hmin, hmax, hlength, henum⟩ := h
  constructor
  · rintro rfl
    have hmin := Option.toList_eq_nil_iff.mp (List.forall₂_nil_right_iff.mp hmin)
    have hmax := Option.toList_eq_nil_iff.mp (List.forall₂_nil_right_iff.mp hmax)
    have henum := Option.toList_eq_nil_iff.mp (List.forall₂_nil_right_iff.mp henum)
    have hlength := Option.toList_eq_nil_iff.mp hlength.symm
    rw [FieldConstraints.isEmpty, hmin, hmax, henum, hlength]
    rfl
  · intro hempty
    simp only [FieldConstraints.isEmpty, Bool.and_eq_true, Option.isNone_iff_eq_none] at hempty
    obtain ⟨⟨⟨hmin', hmax'⟩, henum'⟩, hlength'⟩ := hempty
    rw [hmin', Option.toList_none, List.forall₂_nil_left_iff] at hmin
    rw [hmax', Option.toList_none, List.forall₂_nil_left_iff] at hmax
    rw [henum', Option.toList_none, List.forall₂_nil_left_iff] at henum
    rw [hlength', Option.toList_none] at hlength
    -- every part is in one of the four lists
    cases parts with
    | nil => rfl
    | cons p parts =>
      cases p with
      | atLeast bound => cases hmin
      | atMost bound => cases hmax
      | lengthAtMost len => cases hlength
      | oneOf values => cases henum

/-- A number within the 64-bit integers. -/
def InRange (n : Binary64) : Prop :=
  -2 ^ 63 * (Binary64.one : Int) ≤ n.scaled ∧ n.scaled < 2 ^ 63 * (Binary64.one : Int)

instance (n : Binary64) : Decidable (InRange n) :=
  inferInstanceAs (Decidable (_ ∧ _))

/-- A value of an enumeration that its literal can be. It is read as a double, also where the column
has integers. -/
def ValueInRange (env : Env) (sqlType v : String) : Prop :=
  if sqlType = "integer" ∨ sqlType = "boolean" then
    ∃ n ∈ (env.parseF64 v).join, InRange n ∧
      ∃ m ∈ writtenInteger v, n.scaled = m * (Binary64.one : Int)
  else if sqlType = "real" then ∃ n ∈ (env.parseF64 v).join, InRange n
  else True

instance (env : Env) (sqlType v : String) : Decidable (ValueInRange env sqlType v) :=
  inferInstanceAs (Decidable (ite _ _ _))

/-- The numbers among the constraints of a field are in range. -/
def NumbersInRange (env : Env) (f : FieldSpec) : Prop :=
  (∀ n ∈ f.min.toList ++ f.max.toList, InRange n) ∧
    ∀ v ∈ f.enumValues.getD [], ValueInRange env f.sqlType v

instance (env : Env) (f : FieldSpec) : Decidable (NumbersInRange env f) :=
  inferInstanceAs (Decidable (_ ∧ _))

/-- An integer in range survives the cast. -/
theorem asInt64_toInt {n : Binary64} {m : Int} (hscaled : n.scaled = m * (Binary64.one : Int))
    (h : InRange n) : IsIntegral n ∧ (asInt64 n).toInt = m := by
  have hone : (0 : Int) < (Binary64.one : Int) := by
    rw [Binary64.one]
    positivity
  obtain ⟨hlow, hhigh⟩ := h
  rw [hscaled] at hlow hhigh
  have hlow := le_of_mul_le_mul_right hlow hone
  have hhigh := lt_of_mul_lt_mul_right hhigh hone.le
  refine ⟨?_, ?_⟩
  · rw [IsIntegral, hscaled]
    exact Int.mul_emod_left m _
  · rw [asInt64, hscaled, Int.mul_ediv_cancel m hone.ne', clamp_toInt, if_neg (by omega),
      if_neg (by omega)]

theorem renderNum_isNumber {n : Binary64} (h : InRange n) : (renderNum n).IsNumber n := by
  unfold renderNum
  split
  · next hintegral =>
    have hscaled := scaled_of_isIntegral hintegral
    show n.scaled = (asInt64 n).toInt * (Binary64.one : Int)
    rw [(asInt64_toInt hscaled h).2]
    exact hscaled
  · rfl

/-- The types of the tools and those of the database. -/
theorem typeToSqlite_cases {t ty : String} (h : typeToSqlite t = .ok ty) :
    (t = "integer" ∨ t = "boolean") ∧ ty = "INTEGER" ∨ t = "real" ∧ ty = "REAL" ∨
      (t ≠ "integer" ∧ t ≠ "boolean" ∧ t ≠ "real") ∧ ty ≠ "INTEGER" ∧ ty ≠ "REAL" := by
  unfold typeToSqlite at h
  split at h <;> cases h <;> decide

theorem isValue_of_enumLiteral {env : Env} {f : FieldSpec} {ty v : String} {l : Literal}
    (hty : typeToSqlite f.sqlType = .ok ty) (hl : enumLiteral env f v = .ok l)
    (hrange : ValueInRange env f.sqlType v) : l.IsValue env ty v := by
  unfold enumLiteral at hl
  unfold ValueInRange at hrange
  unfold Literal.IsValue
  obtain ⟨htype, rfl⟩ | ⟨htype, rfl⟩ | ⟨⟨hint, hbool, hreal⟩, hty, hty'⟩ := typeToSqlite_cases hty
  · rw [if_pos htype] at hrange
    obtain ⟨n, hn, hn', m, hm, hnm⟩ := hrange
    have hnumeric : f.numeric = true := by
      obtain htype | htype := htype <;> simp [FieldSpec.numeric, htype]
    rw [if_pos hnumeric, Option.join_eq_some_iff.mp hn] at hl
    obtain rfl := Except.ok.inj hl
    obtain ⟨hintegral, hcast⟩ := asInt64_toInt hnm hn'
    rw [if_pos rfl]
    refine ⟨m, hm, ?_⟩
    rw [renderNum, if_pos hintegral, Literal.toInt?, hcast]
  · rw [if_neg (by simp [htype]), if_pos htype] at hrange
    obtain ⟨n, hn, hn'⟩ := hrange
    rw [if_pos (by simp [FieldSpec.numeric, htype]), Option.join_eq_some_iff.mp hn] at hl
    obtain rfl := Except.ok.inj hl
    rw [if_neg (by decide), if_pos rfl]
    exact ⟨n, hn, renderNum_isNumber hn'⟩
  · rw [if_neg (by simp [FieldSpec.numeric, hint, hbool, hreal])] at hl
    rw [if_neg hty, if_neg hty']
    exact (Except.ok.inj hl).symm

/-- The enumeration of a field is the only one of its check. -/
theorem enumeration_of_enumPart {env : Env} {f : FieldSpec} {ty : String} {part : List CheckPart}
    (hty : typeToSqlite f.sqlType = .ok ty) (h : enumPart env f = .ok part)
    (hrange : ∀ v ∈ f.enumValues.getD [], ValueInRange env f.sqlType v) :
    ∃ lss : List (List Literal), part = lss.map .oneOf ∧
      List.Forall₂ (List.Forall₂ fun v l => l.IsValue env ty v) f.enumValues.toList lss := by
  cases hvals : f.enumValues with
  | none =>
    rw [enumPart, hvals] at h
    exact ⟨[], (Except.ok.inj h).symm, .nil⟩
  | some vals =>
    obtain ⟨-, ls, hls, rfl⟩ := enumPart_some hvals h
    rw [hvals] at hrange
    refine ⟨[ls], rfl, .cons ?_ .nil⟩
    have hboth := (List.forall₂_and_left _ _).mpr ⟨hrange, enumLiterals_ok_iff.mp hls⟩
    exact hboth.imp fun v l h => isValue_of_enumLiteral hty h.2 h.1

/-- A check says the constraints that it was compiled from, if their numbers are in range. -/
theorem says_of_checkParts {env : Env} {f : FieldSpec} {ty : String} {parts : List CheckPart}
    (hty : typeToSqlite f.sqlType = .ok ty) (h : checkParts env f = .ok parts)
    (hrange : NumbersInRange env f) : Says env ty f.constraints parts := by
  obtain ⟨_, -, h⟩ := Except.bind_eq_ok_iff.mp h
  obtain ⟨_, -, h⟩ := Except.bind_eq_ok_iff.mp h
  obtain ⟨part, hpart, h⟩ := Except.bind_eq_ok_iff.mp h
  obtain ⟨lss, rfl, henum⟩ := enumeration_of_enumPart hty hpart hrange.2
  obtain rfl := Except.ok.inj h
  have hbound : ∀ o : Option Binary64, (∀ n ∈ o.toList, InRange n) →
      List.Forall₂ (fun n l => l.IsNumber n) o.toList (o.map renderNum).toList := by
    rintro (_ | n) hn
    · exact .nil
    · exact .cons (renderNum_isNumber (hn n (List.mem_singleton_self n))) .nil
  have hmin := hbound f.min fun n hn => hrange.1 n (List.mem_append_left _ hn)
  have hmax := hbound f.max fun n hn => hrange.1 n (List.mem_append_right _ hn)
  refine ⟨?_, ?_, ?_, ?_⟩
  · show List.Forall₂ _ f.min.toList _
    convert hmin using 1
    cases f.min <;> cases f.max <;> cases f.maxLength <;> simp [lowerBounds]
  · show List.Forall₂ _ f.max.toList _
    convert hmax using 1
    cases f.min <;> cases f.max <;> cases f.maxLength <;> simp [upperBounds]
  · show _ = f.maxLength.toList
    cases f.min <;> cases f.max <;> cases f.maxLength <;> simp [lengthBounds]
  · show List.Forall₂ _ f.enumValues.toList _
    convert henum using 1
    cases f.min <;> cases f.max <;> cases f.maxLength <;> simp [enumerations]

end SchemaTools

end Drust
