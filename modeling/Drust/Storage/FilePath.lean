import Drust.Lib.PrefixRange
import Drust.Lib.Sql.Value

/-!
# File paths and prefixes

The grammar of the logical path a file declares, and of the prefixes that rules are
attached to. A prefix is empty (the root, which every file is under) or a path with a
trailing `/`. Lengths are in bytes, and so is every comparison: a file is under a prefix
when its bytes begin with the prefix's bytes.

The database finds the files under a prefix as a range of the `BINARY` order, up to
`prefixUpperBound`. The last byte of a non-empty prefix is `/`, whose successor is the byte
`0`, so the range holds exactly the paths that begin with the prefix
(`range_iff_isUnder`).
-/

namespace Drust

open Sql

/-- Why a path is refused. -/
inductive PathError where
  | empty
  | tooLong (bytes : Nat)
  | leadingSlash
  | trailingSlash
  | emptySegment
  | segmentTooLong (bytes : Nat)
  | dotSegment
  | controlCharacter (c : Char)
  deriving DecidableEq, Repr

/-- Why a prefix is refused. -/
inductive PrefixError where
  | tooLong (bytes : Nat)
  | noTrailingSlash
  | bareSlash
  | body (why : PathError)
  deriving DecidableEq, Repr

def maxPathBytes : Nat := 512

def maxSegmentBytes : Nat := 255

def isForbiddenControl (c : Char) : Bool :=
  c.toNat < 0x20 || c.toNat == 0x7F

/-- Check one segment of a path. -/
def validateSegment (seg : List Char) : Except PathError Unit :=
  let bytes := (utf8 (.ofList seg)).length
  if seg.isEmpty then .error .emptySegment
  else if maxSegmentBytes < bytes then .error (.segmentTooLong bytes)
  else if seg = ['.'] ∨ seg = ['.', '.'] then .error .dotSegment
  else match seg.find? isForbiddenControl with
    | some c => .error (.controlCharacter c)
    | none => .ok ()

def validateSegments : List (List Char) → Except PathError Unit
  | [] => .ok ()
  | seg :: segs => do
    validateSegment seg
    validateSegments segs

/-- Check a path that a caller declares. -/
def validateFilePath (path : String) : Except PathError Unit :=
  let bytes := (utf8 path).length
  if path.isEmpty then .error .empty
  else if maxPathBytes < bytes then .error (.tooLong bytes)
  else if path.toList.head? = some '/' then .error .leadingSlash
  else if path.toList.getLast? = some '/' then .error .trailingSlash
  else validateSegments (path.toList.splitOn '/')

/-- Check a prefix that a rule is registered for. -/
def validateFilePrefix (pre : String) : Except PrefixError Unit :=
  let bytes := (utf8 pre).length
  if pre.isEmpty then .ok ()
  else if maxPathBytes < bytes then .error (.tooLong bytes)
  else if pre.toList.getLast? ≠ some '/' then .error .noTrailingSlash
  else
    let body := pre.toList.dropLast
    if body.isEmpty then .error .bareSlash
    else (validateFilePath (.ofList body)).mapError .body

/-- The first text after all those that begin with the prefix: its last byte is
incremented. Where that is no text the prefix itself, an empty range, stands in. -/
def prefixUpperBound (pre : String) : String :=
  match (utf8 pre).reverse with
  | [] => ""
  | last :: rest => (String.fromUTF8? ⟨((last + 1) :: rest).reverse.toArray⟩).getD pre

/-- The path begins with the prefix, byte for byte. -/
def isUnder (pre path : String) : Bool :=
  (utf8 pre).isPrefixOf (utf8 path)

theorem utf8_append (a b : String) : utf8 (a ++ b) = utf8 a ++ utf8 b := by
  unfold utf8
  rw [String.toByteArray_append]
  simp

theorem fromUTF8?_utf8 (s : String) : String.fromUTF8? ⟨(utf8 s).toArray⟩ = some s := by
  have hbytes : (⟨(utf8 s).toArray⟩ : ByteArray) = s.toByteArray := by
    simp [utf8]
  rw [hbytes, String.fromUTF8?, dif_pos s.isValidUTF8]
  rfl

/-- The upper bound of a prefix that ends with `/`. -/
theorem prefixUpperBound_append_slash (body : String) :
    prefixUpperBound (body ++ "/") = body ++ "0" := by
  have hslash : utf8 (body ++ "/") = utf8 body ++ [0x2F] := by
    rw [utf8_append]
    rfl
  have hzero : (((0x2F : UInt8) + 1) :: (utf8 body).reverse).reverse = utf8 (body ++ "0") := by
    rw [utf8_append, List.reverse_cons, List.reverse_reverse]
    rfl
  unfold prefixUpperBound
  rw [hslash, List.reverse_append]
  change (String.fromUTF8? ⟨(((0x2F : UInt8) + 1) :: (utf8 body).reverse).reverse.toArray⟩).getD _ = _
  rw [hzero, fromUTF8?_utf8]
  rfl

/-- A non-empty prefix that passes validation ends with `/`. -/
theorem exists_body_of_validateFilePrefix {pre : String} (h : validateFilePrefix pre = .ok ())
    (hne : pre ≠ "") : ∃ body, pre = body ++ "/" := by
  have hlast : pre.toList.getLast? = some '/' := by
    by_contra hlast
    simp [validateFilePrefix, hne, hlast] at h
    split at h <;> cases h
  obtain ⟨init, hinit⟩ := List.getLast?_eq_some_iff.mp hlast
  refine ⟨.ofList init, String.toList_inj.mp ?_⟩
  rw [hinit, String.toList_append, String.toList_ofList]
  rfl

theorem covers_slash_zero : List.Covers (0x2F : UInt8) 0x30 where
  lt := by decide
  eq_of_between c hxc hcy := by
    have hlow : (0x2F : UInt8) ≤ c := by
      by_contra hlt
      exact hxc (Std.compare_eq_gt.mpr (by simpa using hlt))
    have hhigh : c < 0x30 := Std.compare_eq_lt.mp hcy
    rw [UInt8.le_iff_toNat_le] at hlow
    rw [UInt8.lt_iff_toNat_lt] at hhigh
    apply UInt8.toNat_inj.mp
    simp at *
    omega

/-- The range of a valid prefix holds exactly the paths under it. -/
theorem range_iff_isUnder {pre : String} (h : validateFilePrefix pre = .ok ()) (hne : pre ≠ "")
    (path : String) :
    (textCmp path pre ≠ .lt ∧ textCmp path (prefixUpperBound pre) = .lt) ↔
      isUnder pre path = true := by
  obtain ⟨body, rfl⟩ := exists_body_of_validateFilePrefix h hne
  have hlow : textCmp path (body ++ "/") ≠ .lt ↔ textCmp (body ++ "/") path ≠ .gt := by
    unfold textCmp
    rw [Std.OrientedOrd.eq_swap]
    cases compare (utf8 (body ++ "/")) (utf8 path) <;> simp
  rw [hlow, prefixUpperBound_append_slash, isUnder, List.isPrefixOf_iff_prefix]
  unfold textCmp
  rw [utf8_append, utf8_append]
  exact List.prefix_iff_range covers_slash_zero (utf8 body) (utf8 path)

end Drust
