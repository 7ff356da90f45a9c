import Drust.Query.VectorFilter

/-!
# Row-level policies

A policy clause is a filter tree that may also ask whether the caller is authenticated,
and whose operands may refer to the caller (`{"$auth":"id"}`) or to the row under test
(`{"$data":"<field>"}`). It has two interpreters.

* `compilePolicyUsing` turns a clause into a `WHERE` fragment with its binds, for reads
  and writes that go through the database.
* `evalPolicyWith` decides a clause in memory on a row given as a JSON object, for rows that
  are pushed to a subscriber or about to be written. A `LIKE` goes through a regular
  expression there.

Both read the tree under three-valued logic. They are written independently, down to how
they find the operator of a leaf, so each is translated on its own here; what ties them
together is `validatePolicy`, the check a clause passes before it is stored. Their
agreement is the subject of `Drust.Query.PolicyAgreement`.
-/

namespace Drust

open Sql Kleene

/-- Who makes a request. -/
inductive AuthCtx where
  | anon
  /-- A service token; `adminId` attributes it to an administrator. -/
  | service (adminId : Option Int64)
  | user (userId tokenHash : String)
  deriving DecidableEq

/-- The id of an end user. -/
def AuthCtx.userId : AuthCtx → Option String
  | .user userId _ => some userId
  | _ => none

/-- The caller, and for a check the row under test. -/
structure PolicyCtx where
  authId : Option String := none
  data : Option Json.Map := none

def PolicyCtx.fromAuth (auth : AuthCtx) : PolicyCtx :=
  { authId := auth.userId }

/-- Why a policy was not parsed. -/
inductive PolicyParse where
  /-- "unknown $auth ref: ..". -/
  | unknownAuthRef (k : Json)
  /-- "leaf must have exactly one key". -/
  | leafKeys
  /-- "field ..: op object must have one key". -/
  | opObjectKeys (field : String)
  /-- "field ..: .. requires array". -/
  | requiresArray (field op : String)
  /-- "field ..: unknown op ..". -/
  | unknownOp (field op : String)
  /-- "field ..: operand storage class (..) does not match column type (..)". -/
  | operandClass (field : String) (operand column : StorageClass)
  deriving DecidableEq

/-- Why a policy is refused. -/
inductive PolicyError where
  | parse (why : PolicyParse)
  | unknownField (field : String)
  | vectorField (field : String)
  | tooDeep
  | dataUnavailable (field : String)
  /-- "$fts references a search shadow the policy evaluators cannot reason about". -/
  | operandUnsupported
  /-- "a select policy must carry a `using` clause". -/
  | selectRequiresUsing
  deriving DecidableEq

namespace Policy

/-! ### Operands -/

/-- The caller's id as a bind: `NULL` for an anonymous caller. -/
def authValue (ctx : PolicyCtx) : Value :=
  match ctx.authId with
  | some id => .text id
  | none => .null

/-- The value of a member as a bind: `NULL` when it is missing. -/
def memberValue (row : Json.Map) (field : String) : Value :=
  match row.get field with
  | some v => jsonToValue v
  | none => .null

/-- Resolve an operand for the compiled fragment. -/
def resolveOperand (operand : Json) (ctx : PolicyCtx) : Except PolicyError Value :=
  match operand with
  | .object o =>
    match Json.Map.get o "$auth" with
    | some k =>
      if k.asStr = some "id" then .ok (authValue ctx)
      else .error (.parse (.unknownAuthRef k))
    | none =>
      match (Json.Map.get o "$data").bind Json.asStr with
      | some f =>
        match ctx.data with
        | some row => .ok (memberValue row f)
        | none => .error (.dataUnavailable f)
      | none => .ok (jsonToValue operand)
  | _ => .ok (jsonToValue operand)

/-- Resolve the elements of a set, in order. -/
def resolveOperands (operands : List Json) (ctx : PolicyCtx) : Except PolicyError (List Value) :=
  match operands with
  | [] => .ok []
  | v :: vs => do
    let x ← resolveOperand v ctx
    let xs ← resolveOperands vs ctx
    .ok (x :: xs)

/-- Resolve an operand in memory. Nothing fails here. -/
def resolveEvalOperand (operand : Json) (ctx : PolicyCtx) : Value :=
  match operand with
  | .object o =>
    if (Json.Map.get o "$auth").bind Json.asStr = some "id" then authValue ctx
    else
      match (Json.Map.get o "$data").bind Json.asStr with
      | some f =>
        match ctx.data with
        | some row => memberValue row f
        | none => .null
      | none => jsonToValue operand
  | _ => jsonToValue operand

/-! ### Operators -/

/-- The operator of a leaf. -/
inductive LeafOp where
  | cmp (op : CmpOp)
  | like
  | inSet (neg : Bool)
  | isNull (neg : Bool)
  deriving DecidableEq, Repr

/-- The operators the compiler knows, each with and without its `$`. -/
def LeafOp.ofName : String → Option LeafOp
  | "$eq" | "eq" => some (.cmp .eq)
  | "$ne" | "ne" => some (.cmp .ne)
  | "$gt" | "gt" => some (.cmp .gt)
  | "$gte" | "gte" => some (.cmp .ge)
  | "$lt" | "lt" => some (.cmp .lt)
  | "$lte" | "lte" => some (.cmp .le)
  | "$like" | "like" => some .like
  | "$in" | "in" => some (.inSet false)
  | "$nin" | "nin" => some (.inSet true)
  | "$is_null" | "is_null" => some (.isNull false)
  | "$is_not_null" | "is_not_null" => some (.isNull true)
  | _ => none

/-- The operators the evaluator knows, by their bare names. -/
def LeafOp.ofBare : String → Option LeafOp
  | "eq" => some (.cmp .eq)
  | "ne" => some (.cmp .ne)
  | "gt" => some (.cmp .gt)
  | "gte" => some (.cmp .ge)
  | "lt" => some (.cmp .lt)
  | "lte" => some (.cmp .le)
  | "like" => some .like
  | "in" => some (.inSet false)
  | "nin" => some (.inSet true)
  | "is_null" => some (.isNull false)
  | "is_not_null" => some (.isNull true)
  | _ => none

/-- An operator's name without its leading `$`s. -/
def bareName (op : String) : String :=
  .ofList (op.toList.dropWhile (· == '$'))

/-! ### The compiler -/

/-- A policy may name the system columns and the declared ones, and no vector field. -/
def validateField (schema : CollectionSchema) (field : String) : Except PolicyError Unit :=
  if schema.vectorFields.any (fun v => v.name == field) then .error (.vectorField field)
  else if !(field ∈ systemColumns : Bool) && !schema.fields.any (fun f => f.name == field) then
    .error (.unknownField field)
  else .ok ()

/-- Compile `field = operand`. -/
def compileEq (field : String) (operand : Json) (ctx : PolicyCtx) : Except PolicyError Compiled := do
  let v ← resolveOperand operand ctx
  .ok (quoteIdent field ++ " " ++ CmpOp.text .eq ++ " ?", [v])

/-- Compile an operator object. -/
def compileOp (field op : String) (operand : Json) (ctx : PolicyCtx) :
    Except PolicyError Compiled :=
  let col := quoteIdent field
  match LeafOp.ofName op with
  | some (.cmp c) => do
    let v ← resolveOperand operand ctx
    .ok (col ++ " " ++ c.text ++ " ?", [v])
  | some .like => do
    let v ← resolveOperand operand ctx
    .ok (col ++ " " ++ "LIKE" ++ " ?", [v])
  | some (.inSet neg) =>
    match operand with
    | .array arr =>
      -- an empty set is decided without looking at the column
      if arr.isEmpty then .ok (if neg then "1=1" else "1=0", [])
      else do
        let vs ← resolveOperands arr ctx
        .ok (col ++ " " ++ inText neg ++ " (" ++ placeholders arr.length ++ ")", vs)
    | _ => .error (.parse (.requiresArray field op))
  | some (.isNull neg) => .ok (col ++ " " ++ (if neg then "IS NOT NULL" else "IS NULL"), [])
  | none => .error (.parse (.unknownOp field op))

/-- Compile a leaf on a column. An object body is an operand when it is a reference, and
an operator object when not. -/
def compileLeaf (schema : CollectionSchema) (field : String) (body : Json) (ctx : PolicyCtx) :
    Except PolicyError Compiled := do
  validateField schema field
  match body with
  | .object o =>
    if Json.Map.containsKey o "$auth" || Json.Map.containsKey o "$data" then
      compileEq field body ctx
    else match o with
      | [(op, operand)] => compileOp field op operand ctx
      | _ => .error (.parse (.opObjectKeys field))
  | _ => compileEq field body ctx

mutual

/-- Compile a node at a nesting depth. -/
def compileNode (schema : CollectionSchema) (node : FilterAst) (ctx : PolicyCtx) (depth : Nat) :
    Except PolicyError Compiled :=
  if maxFilterDepth ≤ depth then .error .tooDeep
  else match node with
    | .and [] => .ok ("1=1", [])
    | .and (n :: ns) => do
      let parts ← compileNodes schema (n :: ns) ctx (depth + 1)
      .ok ("(" ++ join " AND " (parts.map Prod.fst) ++ ")", parts.flatMap Prod.snd)
    | .or [] => .ok ("1=0", [])
    | .or (n :: ns) => do
      let parts ← compileNodes schema (n :: ns) ctx (depth + 1)
      .ok ("(" ++ join " OR " (parts.map Prod.fst) ++ ")", parts.flatMap Prod.snd)
    | .not n => do
      let inner ← compileNode schema n ctx (depth + 1)
      .ok ("(" ++ ("NOT " ++ inner.1) ++ ")", inner.2)
    | .leaf [(key, body)] =>
      if key = "$authenticated" then
        let want := body.asBool.getD true
        .ok (if ctx.authId.isSome = want then "1=1" else "1=0", [])
      else if key = "$fts" then .error .operandUnsupported
      else compileLeaf schema key body ctx
    | .leaf _ => .error (.parse .leafKeys)

/-- Compile the children of a node, in order; the first failure is the result. -/
def compileNodes (schema : CollectionSchema) (nodes : List FilterAst) (ctx : PolicyCtx)
    (depth : Nat) : Except PolicyError (List Compiled) :=
  match nodes with
  | [] => .ok []
  | n :: ns => do
    let part ← compileNode schema n ctx depth
    let parts ← compileNodes schema ns ctx depth
    .ok (part :: parts)

end

/-- Compile a clause. -/
def compilePolicyUsing (schema : CollectionSchema) (ast : FilterAst) (ctx : PolicyCtx) :
    Except PolicyError Compiled :=
  compileNode schema ast ctx 0

/-! ### The evaluator -/

/-- Compare two values in memory. An integer meets a double as a double. -/
def valueCmp : Value → Value → Option Ordering
  | .null, _ => none
  | _, .null => none
  | .integer x, .integer y => some (compare x.toInt y.toInt)
  | .real x, .real y => some (Binary64.cmp x y)
  | .integer x, .real y =>
    some (Binary64.cmp (.ofInt x.toInt (Json.Number.natAbs_int64_lt x)) y)
  | .real x, .integer y =>
    some (Binary64.cmp x (.ofInt y.toInt (Json.Number.natAbs_int64_lt y)))
  | .text x, .text y => some (textCmp x y)
  | _, _ => none

/-- The matcher behind the regular expression a pattern is translated to: `%` is any run,
`_` one character, and letters match without regard to ASCII case. -/
def likeChars : List Char → List Char → Bool
  | [], [] => true
  | [], _ :: _ => false
  | p :: ps, s =>
    if p = '%' then s.tails.any (fun t => likeChars ps t)
    else match s with
      | [] => false
      | c :: cs => (p = '_' || p.toLower = c.toLower) && likeChars ps cs

def regexLiteEscape (c : Char) : List Char :=
  if c ∈ "\\.^$|?*+()[]\x7b\x7d".toList then ['\\', c] else [c]

/-- What is put for a character of the pattern. -/
def likePiece (c : Char) : List Char :=
  if c = '%' then ".*".toList else if c = '_' then ".".toList else regexLiteEscape c

/-- The regular expression of a pattern. -/
def likeRegex (pat : List Char) : List Char :=
  pat.foldl (fun acc c => acc ++ likePiece c) "(?si)^".toList ++ "$".toList

section Evaluator

-- Whether `regex_lite` compiles an expression: there is a limit on its size.
variable (compiles : List Char → Bool)

/-- `LIKE` in memory: a value that is no text matches nothing, and an expression that does not
compile matches nothing either. -/
def likeMatch : Value → Value → Bool
  | .text s, .text pat => compiles (likeRegex pat.toList) && likeChars pat.toList s.toList
  | _, _ => false

/-- Evaluate a membership test; the empty set is decided before the row is looked at. -/
def evalIn (neg : Bool) (lhs : Value) (operand : Json) (ctx : PolicyCtx) : Tri :=
  match operand with
  | .array arr =>
    if arr.isEmpty then .ofBool neg
    else
      let resolved := arr.map (fun v => resolveEvalOperand v ctx)
      let hit := resolved.any (fun v => valueCmp lhs v == some .eq)
      let anyNull := lhs.isNull || resolved.any Value.isNull
      if hit then .ofBool neg.not
      else if anyNull then .unknown
      else .ofBool neg
  | _ => .false

/-- Evaluate a comparison; values that have no order leave it undecided. -/
def evalCmp (c : CmpOp) (lhs rhs : Value) : Tri :=
  match valueCmp lhs rhs with
  | none => .unknown
  | some o => .ofBool (c.holds o)

/-- Evaluate an operator on the value of a column. -/
def evalOp (op : String) (lhs : Value) (operand : Json) (ctx : PolicyCtx) : Tri :=
  let rhs := resolveEvalOperand operand ctx
  match LeafOp.ofBare (bareName op) with
  | some (.isNull neg) => .ofBool (lhs.isNull != neg)
  | some (.inSet neg) => evalIn neg lhs operand ctx
  | some .like =>
    if lhs.isNull || rhs.isNull then .unknown else .ofBool (likeMatch compiles lhs rhs)
  | some (.cmp c) => evalCmp c lhs rhs
  | none =>
    -- an operator that slipped validation; two values that compare deny
    match valueCmp lhs rhs with
    | none => .unknown
    | some _ => .false

/-- Evaluate a leaf on a column. -/
def evalLeaf (field : String) (body : Json) (row : Json.Map) (ctx : PolicyCtx) : Tri :=
  let lhs := memberValue row field
  match body with
  | .object o =>
    if Json.Map.containsKey o "$auth" || Json.Map.containsKey o "$data" then
      evalOp compiles "$eq" lhs body ctx
    else match o with
      | [(op, operand)] => evalOp compiles op lhs operand ctx
      | _ => .false
  | _ => evalOp compiles "$eq" lhs body ctx

mutual

/-- Evaluate a node at a nesting depth. -/
def evalNode (node : FilterAst) (row : Json.Map) (ctx : PolicyCtx) (depth : Nat) : Tri :=
  if maxFilterDepth ≤ depth then .false
  else match node with
    | .and ns => evalAnd ns row ctx (depth + 1) .true
    | .or ns => evalOr ns row ctx (depth + 1) .false
    | .not n => (evalNode n row ctx (depth + 1)).not
    | .leaf [(key, body)] =>
      if key = "$authenticated" then
        let want := body.asBool.getD true
        .ofBool (ctx.authId.isSome = want)
      else if key = "$fts" then .false
      else evalLeaf compiles key body row ctx
    | .leaf _ => .false

/-- The loop over the operands of `and`: it stops at the first false one. -/
def evalAnd (nodes : List FilterAst) (row : Json.Map) (ctx : PolicyCtx) (depth : Nat)
    (acc : Tri) : Tri :=
  match nodes with
  | [] => acc
  | n :: ns =>
    match evalNode n row ctx depth with
    | .false => .false
    | .unknown => evalAnd ns row ctx depth .unknown
    | .true => evalAnd ns row ctx depth acc

/-- The loop over the operands of `or`: it stops at the first true one. -/
def evalOr (nodes : List FilterAst) (row : Json.Map) (ctx : PolicyCtx) (depth : Nat)
    (acc : Tri) : Tri :=
  match nodes with
  | [] => acc
  | n :: ns =>
    match evalNode n row ctx depth with
    | .true => .true
    | .unknown => evalOr ns row ctx depth .unknown
    | .false => evalOr ns row ctx depth acc

end

/-- Evaluate a clause on a row: only `true` admits it. -/
def evalPolicyWith (ast : FilterAst) (row : Json.Map) (ctx : PolicyCtx) : Bool :=
  evalNode compiles ast row ctx 0 == .true

end Evaluator

/-- The evaluation where the expressions of all patterns compile. -/
def evalPolicy (ast : FilterAst) (row : Json.Map) (ctx : PolicyCtx) : Bool :=
  evalPolicyWith (fun _ => true) ast row ctx

/-! ### Validation -/

/-- The class of a literal operand. A Boolean is stored as an integer. -/
def literalClass : Json → Option StorageClass
  | .string _ => some .text
  | .number _ => some .num
  | .bool _ => some .num
  | _ => none

/-- The class of an operand. A caller's id is a text; a reference to the row has the
class of the column it names. -/
def operandClass (schema : CollectionSchema) (operand : Json) : Option StorageClass :=
  match operand with
  | .object o =>
    if Json.Map.containsKey o "$auth" then some .text
    else match (Json.Map.get o "$data").bind Json.asStr with
      | some field => fieldClass schema field
      | none => literalClass operand
  | _ => literalClass operand

/-- Refuse an operand whose class is known and is not the column's. -/
def checkOperandClass (schema : CollectionSchema) (field : String) (operand : Json) :
    Except PolicyError Unit :=
  match operandClass schema operand, fieldClass schema field with
  | some operandCls, some col =>
    if operandCls ≠ col then .error (.parse (.operandClass field operandCls col)) else .ok ()
  | _, _ => .ok ()

/-- Check the elements of a set, in order. -/
def checkOperandClassEach (schema : CollectionSchema) (field : String) :
    List Json → Except PolicyError Unit
  | [] => .ok ()
  | v :: vs => do
    checkOperandClass schema field v
    checkOperandClassEach schema field vs

/-- Check the operands of a leaf on a column. -/
def checkLeafOperands (schema : CollectionSchema) (key : String) (body : Json) :
    Except PolicyError Unit :=
  match body with
  | .object o =>
    if Json.Map.containsKey o "$auth" || Json.Map.containsKey o "$data" then
      checkOperandClass schema key body
    else match o with
      | [] => .ok ()
      | (op, operand) :: _ =>
        match LeafOp.ofBare (bareName op) with
        | some (.isNull _) => .ok ()
        | some (.inSet _) =>
          match operand with
          | .array arr => checkOperandClassEach schema key arr
          | _ => .ok ()
        | _ => checkOperandClass schema key operand
  | _ => checkOperandClass schema key body

mutual

/-- Check the operands of every leaf of a tree. -/
def checkOperandClassesInner (schema : CollectionSchema) (ast : FilterAst) (allowFts : Bool) :
    Except PolicyError Unit :=
  match ast with
  | .and ns => checkOperandClassesAll schema ns allowFts
  | .or ns => checkOperandClassesAll schema ns allowFts
  | .not n => checkOperandClassesInner schema n allowFts
  | .leaf [] => .ok ()
  | .leaf ((key, body) :: _) =>
    if key = "$authenticated" then .ok ()
    else if key = "$fts" then (if allowFts then .ok () else .error .operandUnsupported)
    else checkLeafOperands schema key body

def checkOperandClassesAll (schema : CollectionSchema) (asts : List FilterAst) (allowFts : Bool) :
    Except PolicyError Unit :=
  match asts with
  | [] => .ok ()
  | n :: ns => do
    checkOperandClassesInner schema n allowFts
    checkOperandClassesAll schema ns allowFts

end

/-- The check of a policy clause. -/
def checkAstOperandClasses (schema : CollectionSchema) (ast : FilterAst) :
    Except PolicyError Unit :=
  checkOperandClassesInner schema ast false

/-- The check of a stored query template, where full-text search is allowed. -/
def checkTemplateOperandClasses (schema : CollectionSchema) (ast : FilterAst) :
    Except PolicyError Unit :=
  checkOperandClassesInner schema ast true

/-- The context a read clause is validated in: as a read has it, with no row. -/
def usingProbe : PolicyCtx :=
  { authId := some "u-probe" }

/-- The context a check clause is validated in: a row with every field `null`. -/
def checkProbe (schema : CollectionSchema) : PolicyCtx :=
  { authId := some "u-probe",
    data := some (schema.fields.foldl (fun m f => Json.Map.insert m f.name .null) []) }

/-- Validate one clause in a probe context; the compiled text is thrown away. -/
def validateClause (schema : CollectionSchema) (clause : Option FilterAst) (probe : PolicyCtx) :
    Except PolicyError Unit :=
  match clause with
  | none => .ok ()
  | some ast => do
    let _ ← compilePolicyUsing schema ast probe
    checkAstOperandClasses schema ast

/-- Validate the policy of an operation before it is stored. -/
def validatePolicy (schema : CollectionSchema) (op : DmlVerb) (policy : Policy) :
    Except PolicyError Unit :=
  if op = .select ∧ policy.usingClause.isNone then .error .selectRequiresUsing
  else do
    validateClause schema policy.usingClause usingProbe
    validateClause schema policy.checkClause (checkProbe schema)

/-! ### The policy that applies to a caller -/

/-- The clause that says which rows an operation may touch. A service token is above the
policies. -/
def effectivePolicyUsing (ctx : AuthCtx) (schema : CollectionSchema) (op : DmlVerb) :
    Option FilterAst :=
  match ctx with
  | .service _ => none
  | _ => (schema.policies.get op).bind Policy.usingClause

/-- The clause that says which row an operation may leave. -/
def effectivePolicyCheck (ctx : AuthCtx) (schema : CollectionSchema) (op : DmlVerb) :
    Option FilterAst :=
  match ctx with
  | .service _ => none
  | _ => (schema.policies.get op).bind Policy.checkClause

/-- What a caller may read. -/
inductive SelectReadAccess where
  | unrestricted
  | filtered (ast : FilterAst)
  /-- There is a select policy, and it has no clause. -/
  | denyAll

def selectReadAccess (ctx : AuthCtx) (schema : CollectionSchema) : SelectReadAccess :=
  match ctx with
  | .service _ => .unrestricted
  | _ =>
    match schema.policies.select with
    | none => .unrestricted
    | some p =>
      match p.usingClause with
      | some ast => .filtered ast
      | none => .denyAll

/-- The clause of an operation as a condition. For a read, a policy without a clause hides
every row. -/
def policyUsingSql (ctx : AuthCtx) (schema : CollectionSchema) (op : DmlVerb) :
    Except PolicyError (Option Compiled) :=
  if op = .select then
    match selectReadAccess ctx schema with
    | .unrestricted => .ok none
    | .filtered ast => do
      let sql ← compilePolicyUsing schema ast (.fromAuth ctx)
      .ok (some sql)
    | .denyAll => .ok (some ("0=1", []))
  else
    match effectivePolicyUsing ctx schema op with
    | none => .ok none
    | some ast => do
      let sql ← compilePolicyUsing schema ast (.fromAuth ctx)
      .ok (some sql)

end Policy

end Drust
