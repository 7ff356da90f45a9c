import Drust.Lib.Sql.Where
import Drust.Storage.Schema

/-!
# Caller-supplied filters

The compiler from a filter tree to a `WHERE` fragment and its binds, for filters that
come with a request. Every operand is bound to a `?`; the text is made of column names
found in the schema, fixed keywords and placeholders. The leaf key `"$fts"` is reserved
for full-text search and compiles to a subquery over the index's virtual table, or to a
disjunction of `LIKE`s where a trigram index cannot answer.

The source collects the binds in a mutable vector while it emits text. Here every
function returns the binds it pushes, next to its text, and the caller appends them in
the same order. A failed compilation leaves nothing behind in either form.
-/

namespace Drust

open Sql

/-- The deepest nesting of boolean nodes. -/
def maxFilterDepth : Nat := 32

/-- Why a filter was not parsed. -/
inductive FilterParse where
  /-- "leaf node must have exactly one field key". -/
  | leafKeys
  /-- "field ..: op object must have exactly one key". -/
  | opObjectKeys (field : String)
  /-- "field ..: unknown operator ..". -/
  | unknownOperator (field op : String)
  /-- "$fts operand must be an object with exactly the string keys index and query". -/
  | ftsShape
  deriving DecidableEq, Repr

/-- Why a filter does not compile. -/
inductive FilterError where
  | parse (why : FilterParse)
  | unknownField (field : String)
  | vectorField (field : String)
  | badOperand (op field required : String)
  | tooDeep
  /-- Code `FTS_INDEX_NOT_FOUND`. -/
  | ftsIndexNotFound (index coll : String)
  deriving DecidableEq, Repr

/-- What a compiler returns: the text of a fragment and the binds of its placeholders. -/
abbrev Compiled := String × List Value

/-- The SQL value a JSON scalar is bound as; an array or an object is `NULL`. -/
def jsonToValue : Json → Value
  | .null => .null
  | .bool b => .integer (if b then 1 else 0)
  | .number n =>
    match n.asI64 with
    | some i => .integer i
    | none => .real n.asF64
  | .string s => .text s
  | .array _ => .null
  | .object _ => .null

namespace VectorFilter

/-! ### Full-text operands -/

/-- The characters with the Unicode property `White_Space`. -/
def isWhitespace (c : Char) : Bool :=
  let n := c.toNat
  (0x09 ≤ n && n ≤ 0x0D) || n == 0x20 || n == 0x85 || n == 0xA0 || n == 0x1680 ||
    (0x2000 ≤ n && n ≤ 0x200A) || n == 0x2028 || n == 0x2029 || n == 0x202F || n == 0x205F ||
    n == 0x3000

/-- The runs of non-blank characters, in order. -/
def splitWhitespace (s : String) : List (List Char) :=
  (s.toList.splitOnP isWhitespace).filter (fun t => !t.isEmpty)

/-- Resolve a full-text operand to its index and query. -/
def resolveFts (schema : CollectionSchema) (body : Json) :
    Except FilterError (FtsIndex × String) :=
  match body with
  | .object obj =>
    match (Json.Map.get obj "index").bind Json.asStr with
    | none => .error (.parse .ftsShape)
    | some index =>
      match (Json.Map.get obj "query").bind Json.asStr with
      | none => .error (.parse .ftsShape)
      | some query =>
        if obj.length ≠ 2 then .error (.parse .ftsShape)
        else match schema.ftsIndexes.find? (fun i => i.name == index) with
          | none => .error (.ftsIndexNotFound index schema.name)
          | some entry => .ok (entry, query)
  | _ => .error (.parse .ftsShape)

/-- A trigram index cannot find a term shorter than one trigram. -/
def ftsUsesMatch (entry : FtsIndex) (query : String) : Bool :=
  entry.tokenizer != "trigram" || (splitWhitespace query).all (fun t => 3 ≤ t.length)

/-- Escape the metacharacters of a `LIKE` pattern. -/
def likeEscape (s : String) : String :=
  .ofList (s.toList.flatMap fun c =>
    if c == '\\' || c == '%' || c == '_' then ['\\', c] else [c])

/-- Compile a full-text operand. -/
def compileFts (schema : CollectionSchema) (body : Json) : Except FilterError Compiled := do
  let (entry, query) ← resolveFts schema body
  let headQ := quoteIdent (ftsHeadName schema.name entry.name)
  if ftsUsesMatch entry query then
    .ok ("\"id\" IN (SELECT rowid FROM " ++ headQ ++ " WHERE " ++ headQ ++ " MATCH ?)",
      [.text query])
  else
    -- the whole query is one substring, searched in every indexed column
    let pattern := "%" ++ likeEscape query ++ "%"
    let ors := entry.fields.map fun f => quoteIdent f ++ " LIKE ? ESCAPE '\\'"
    .ok ("(" ++ join " OR " ors ++ ")", entry.fields.map fun _ => .text pattern)

/-! ### The compiler -/

/-- A filter may name the declared columns, and no vector field. -/
def validateField (schema : CollectionSchema) (field : String) : Except FilterError Unit :=
  if schema.vectorFields.any (fun v => v.name == field) then .error (.vectorField field)
  else if !schema.fields.any (fun f => f.name == field) then .error (.unknownField field)
  else .ok ()

/-- The SQL operator of a binary filter operator. -/
def sqlOp : String → Option String
  | "eq" => some "="
  | "ne" => some "<>"
  | "gt" => some ">"
  | "gte" => some ">="
  | "lt" => some "<"
  | "lte" => some "<="
  | "like" => some "LIKE"
  | _ => none

/-- Compile the operator object of a leaf. -/
def compileOp (field op : String) (operand : Json) : Except FilterError Compiled :=
  let col := quoteIdent field
  match sqlOp op with
  | some sym => .ok (col ++ " " ++ sym ++ " ?", [jsonToValue operand])
  | none =>
    if op = "in" ∨ op = "nin" then
      match operand with
      | .array arr =>
        if arr.isEmpty then .ok (if op = "in" then "1=0" else "1=1", [])
        else
          let kw := if op = "in" then "IN" else "NOT IN"
          .ok (col ++ " " ++ kw ++ " (" ++ placeholders arr.length ++ ")", arr.map jsonToValue)
      | _ => .error (.badOperand op field "array")
    else if op = "is_null" ∨ op = "is_not_null" then
      -- the operand is ignored
      .ok (col ++ " " ++ (if op = "is_null" then "IS NULL" else "IS NOT NULL"), [])
    else .error (.parse (.unknownOperator field op))

/-- Compile a leaf on a column. -/
def compileLeaf (field : String) (body : Json) : Except FilterError Compiled :=
  match body with
  | .object [(op, operand)] => compileOp field op operand
  | .object _ => .error (.parse (.opObjectKeys field))
  | _ => .ok (quoteIdent field ++ " = ?", [jsonToValue body])

mutual

/-- Compile a node at a nesting depth. -/
def compileNode (schema : CollectionSchema) (node : FilterAst) (depth : Nat) :
    Except FilterError Compiled :=
  if maxFilterDepth ≤ depth then .error .tooDeep
  else match node with
    | .and [] => .ok ("1=1", [])
    | .and (n :: ns) => do
      let parts ← compileNodes schema (n :: ns) (depth + 1)
      .ok ("(" ++ join " AND " (parts.map Prod.fst) ++ ")", parts.flatMap Prod.snd)
    | .or [] => .ok ("1=0", [])
    | .or (n :: ns) => do
      let parts ← compileNodes schema (n :: ns) (depth + 1)
      .ok ("(" ++ join " OR " (parts.map Prod.fst) ++ ")", parts.flatMap Prod.snd)
    | .not n => do
      let inner ← compileNode schema n (depth + 1)
      .ok ("(NOT " ++ inner.1 ++ ")", inner.2)
    | .leaf [(key, body)] =>
      if key = "$fts" then compileFts schema body
      else do
        validateField schema key
        compileLeaf key body
    | .leaf _ => .error (.parse .leafKeys)

/-- Compile the children of a node, in order; the first failure is the result. -/
def compileNodes (schema : CollectionSchema) (nodes : List FilterAst) (depth : Nat) :
    Except FilterError (List Compiled) :=
  match nodes with
  | [] => .ok []
  | n :: ns => do
    let part ← compileNode schema n depth
    let parts ← compileNodes schema ns depth
    .ok (part :: parts)

end

/-- Compile a filter. -/
def compile (schema : CollectionSchema) (ast : FilterAst) : Except FilterError Compiled :=
  compileNode schema ast 0

/-! ### Probes -/

/-- A `MATCH` expression, and the virtual table that it is for. -/
structure FtsProbe where
  head : String
  query : String
  deriving DecidableEq

/-- The probe of a full-text operand. An operand that does not resolve has none. -/
def ftsProbe (schema : CollectionSchema) (body : Json) : List FtsProbe :=
  match resolveFts schema body with
  | .ok (entry, query) =>
    if ftsUsesMatch entry query then
      [{ head := ftsHeadName schema.name entry.name, query := query }]
    else []
  | .error _ => []

mutual

/-- The `MATCH` expressions under a node. -/
def collectFtsProbes (schema : CollectionSchema) (node : FilterAst) (depth : Nat) : List FtsProbe :=
  if maxFilterDepth ≤ depth then []
  else match node with
    | .and ns => collectFtsProbesAll schema ns (depth + 1)
    | .or ns => collectFtsProbesAll schema ns (depth + 1)
    | .not n => collectFtsProbes schema n (depth + 1)
    | .leaf [(key, body)] => if key = "$fts" then ftsProbe schema body else []
    | .leaf _ => []

def collectFtsProbesAll (schema : CollectionSchema) (nodes : List FilterAst) (depth : Nat) :
    List FtsProbe :=
  match nodes with
  | [] => []
  | n :: ns => collectFtsProbes schema n depth ++ collectFtsProbesAll schema ns depth

end

def ftsProbes (schema : CollectionSchema) (ast : FilterAst) : List FtsProbe :=
  collectFtsProbes schema ast 0

/-- The statement that makes FTS5 parse the expression of a probe. -/
def FtsProbe.sql (p : FtsProbe) : String :=
  let headQ := quoteIdent p.head
  "SELECT rowid FROM " ++ headQ ++ " WHERE " ++ headQ ++ " MATCH ? LIMIT 1"

end VectorFilter

end Drust
