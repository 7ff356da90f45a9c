import Drust.Lib.Kleene
import Drust.Lib.Json

/-!
# SQL values and their comparison

The five storage classes of an SQLite value, and the order the engine's
comparison operators read. A comparison with `NULL` has no order. Integers and
reals are ordered by their mathematical values, exactly; texts by their UTF-8
bytes (the `BINARY` collation); and across the classes every number comes before
every text and every text before every blob. Column affinity, which may convert
an operand before it is compared with a column of *another* class, is not part of
this order.
-/

namespace Sql

open Kleene

/-- A value of one of the five storage classes. -/
inductive Value where
  | null
  | integer (i : Int64)
  | real (f : Binary64)
  | text (s : String)
  | blob (bytes : List UInt8)
  deriving DecidableEq

/-- The bytes of a text. -/
def utf8 (s : String) : List UInt8 :=
  s.toByteArray.data.toList

theorem utf8_injective : Function.Injective utf8 := by
  intro a b h
  have hdata : a.toByteArray = b.toByteArray := by
    apply ByteArray.ext
    exact Array.toList_inj.mp h
  exact String.toByteArray_inj.mp hdata

/-- The text of some bytes, if they are valid UTF-8. -/
def ofUtf8 (bytes : List UInt8) : Option String :=
  String.fromUTF8? ⟨bytes.toArray⟩

theorem ofUtf8_eq_some_iff {bytes : List UInt8} {s : String} :
    ofUtf8 bytes = some s ↔ bytes = utf8 s := by
  unfold ofUtf8 String.fromUTF8?
  constructor
  · intro h
    split at h
    · obtain rfl := Option.some.inj h
      rfl
    · cases h
  · rintro rfl
    have hbytes : (⟨(utf8 s).toArray⟩ : ByteArray) = s.toByteArray := rfl
    have hvalid : (⟨(utf8 s).toArray⟩ : ByteArray).IsValidUTF8 := hbytes ▸ s.isValidUTF8
    rw [dif_pos hvalid]
    rfl

/-- The order of two texts: `memcmp` on their bytes, then length. -/
def textCmp (a b : String) : Ordering :=
  compare (utf8 a) (utf8 b)

theorem textCmp_eq_iff {a b : String} : textCmp a b = .eq ↔ a = b := by
  rw [textCmp, Std.LawfulEqOrd.compare_eq_iff_eq]
  exact ⟨fun h => utf8_injective h, fun h => h ▸ rfl⟩

/-- The order of two values, `none` when one of them is `NULL`. -/
def cmpValue : Value → Value → Option Ordering
  | .null, _ => none
  | _, .null => none
  | .integer x, .integer y => some (compare x.toInt y.toInt)
  | .integer x, .real y => some (Binary64.cmpInt x.toInt y)
  | .real x, .integer y => some (Binary64.cmpInt y.toInt x).swap
  | .real x, .real y => some (Binary64.cmp x y)
  | .integer _, _ => some .lt
  | .real _, _ => some .lt
  | .text _, .integer _ => some .gt
  | .text _, .real _ => some .gt
  | .text x, .text y => some (textCmp x y)
  | .text _, .blob _ => some .lt
  | .blob x, .blob y => some (compare x y)
  | .blob _, _ => some .gt

/-- The comparison operators. -/
inductive CmpOp where
  | eq
  | ne
  | lt
  | le
  | gt
  | ge
  deriving DecidableEq, Repr

/-- Whether an order satisfies a comparison operator. -/
def CmpOp.holds : CmpOp → Ordering → Bool
  | .eq, o => o == .eq
  | .ne, o => o != .eq
  | .lt, o => o == .lt
  | .le, o => o != .gt
  | .gt, o => o == .gt
  | .ge, o => o != .lt

/-- The verdict of a comparison: `NULL` propagates. -/
def compareTri (op : CmpOp) (a b : Value) : Tri :=
  match cmpValue a b with
  | none => .unknown
  | some o => .ofBool (op.holds o)

/-- Whether the value is `NULL`. -/
def Value.isNull : Value → Bool
  | .null => true
  | _ => false

/-- The verdict of `a IN (vs)` for a non-empty list: true on a hit, else unknown
when `NULL` took part, else false. Over the empty list it is false. -/
def inTri (a : Value) (vs : List Value) : Tri :=
  if vs.isEmpty then .false
  else if vs.any (fun v => cmpValue a v == some .eq) then .true
  else if a.isNull || vs.any Value.isNull then .unknown
  else .false

end Sql
