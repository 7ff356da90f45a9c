import Drust.Lib.Sql.Value
import Drust.Storage.Schema

/-!
# Parameters of a stored call

The declared parameters of a stored remote call, and the type check of one argument. An
explicit `null` is accepted for every type.
-/

namespace Drust

inductive ParamType where
  | text
  | integer
  | real
  | boolean
  deriving DecidableEq, Repr

structure ParamSpec where
  name : String
  ty : ParamType
  required : Bool := true
  default : Option Json := none

inductive ParamError where
  | missing (name : String)
  /-- `got` names the shape of the value that was sent. -/
  | typeMismatch (name : String) (expected : ParamType) (got : String)
  | unknown (name : String)
  deriving DecidableEq

inductive BoundValue where
  | text (s : String)
  | int (i : Int64)
  | real (f : Binary64)
  | bool (b : Bool)
  | null
  deriving DecidableEq

def BoundValue.toSql : BoundValue → Sql.Value
  | .text s => .text s
  | .int i => .integer i
  | .real f => .real f
  | .bool b => .integer (if b then 1 else 0)
  | .null => .null

namespace Params

/-- Type-check one value against one declared parameter. -/
def coerce (spec : ParamSpec) (v : Json) : Except ParamError BoundValue :=
  let mismatch := fun got => Except.error (.typeMismatch spec.name spec.ty got)
  match spec.ty, v with
  | _, .null => .ok .null
  | .text, .string s => .ok (.text s)
  | .integer, .number n =>
    match n.asI64 with
    | some i => .ok (.int i)
    | none => mismatch "non-integer number"
  | .real, .number n => .ok (.real n.asF64)
  | .boolean, .bool b => .ok (.bool b)
  | _, .string _ => mismatch "string"
  | _, .number _ => mismatch "number"
  | _, .bool _ => mismatch "boolean"
  | _, .array _ => mismatch "array"
  | _, .object _ => mismatch "object"

/-- The value a declared parameter is checked with: the argument, else the default of an
optional parameter, else `null`. -/
def argumentOf (args : Json.Map) (spec : ParamSpec) : Except ParamError Json :=
  match args.get spec.name with
  | some v => .ok v
  | none =>
    if spec.required then .error (.missing spec.name)
    else .ok (spec.default.getD .null)

end Params

end Drust
