import Drust.Lib.Result
import Drust.Query.VectorFilter

/-!
# The structured list

The statement behind a list request: a projection, a `WHERE` clause made of the caller's
filter, the owner clause and the policy clause, an order and a page. Column names come
from the schema and every operand is bound, so the request decides which of these texts
are put together, and never contributes text of its own.
-/

namespace Drust

open Sql

structure SortSpec where
  field : String
  dir : String := "desc"
  deriving DecidableEq, Repr

structure ListRequest where
  filter : Option FilterAst := none
  sort : Option SortSpec := none
  page : Option UInt32 := none
  perPage : Option UInt32 := none
  select : Option (List String) := none

inductive ListError where
  | filter (why : FilterError)
  | sortFieldUnknown (field : String)
  | sortVectorField (field : String)
  | sortDirInvalid
  | selectFieldUnknown (field : String)
  | pageRangeInvalid
  deriving DecidableEq, Repr

/-- The list statement, the count statement, and the binds they share. -/
structure ListSql where
  listSql : String
  countSql : String
  binds : List Value
  deriving DecidableEq

namespace ListBuilder

def defaultPerPage : Nat := 20

def maxPerPage : Nat := 500

def isVectorField (schema : CollectionSchema) (name : String) : Bool :=
  schema.vectorFields.any (fun v => v.name == name)

def fieldExists (schema : CollectionSchema) (name : String) : Bool :=
  schema.fields.any (fun f => f.name == name) || isVectorField schema name ||
    systemColumns.contains name

def projectionDefault (schema : CollectionSchema) : String :=
  let cols := (schema.fields.filter (fun f => !isVectorField schema f.name)).map
    (fun f => quoteIdent f.name)
  if cols.isEmpty then "*" else join ", " cols

/-- The projection. Vector columns that the caller selects are left out. -/
def projection (schema : CollectionSchema) (select : Option (List String)) :
    Except ListError String :=
  match select with
  | none => .ok (projectionDefault schema)
  | some cols =>
    match cols.find? (fun c => !fieldExists schema c) with
    | some c => .error (.selectFieldUnknown c)
    | none =>
      let filtered := (cols.filter (fun c => !isVectorField schema c)).map quoteIdent
      .ok (if filtered.isEmpty then "\"id\"" else join ", " filtered)

/-- The compiled filter, where there is one. -/
def filterClause (schema : CollectionSchema) (filter : Option FilterAst) :
    Except ListError (List Compiled) :=
  match filter with
  | none => .ok []
  | some ast =>
    match VectorFilter.compile schema ast with
    | .ok (sql, binds) => .ok [("(" ++ sql ++ ")", binds)]
    | .error e => .error (.filter e)

/-- The `WHERE` clause: the filter, the owner clause and the policy clause, in the order of
their binds. -/
def buildWhereClause (schema : CollectionSchema) (filter : Option FilterAst)
    (owner : Option (String × String)) (policyClause : Option Compiled) :
    Except ListError Compiled := do
  let user ← filterClause schema filter
  let own := match owner with
    | some (field, uid) => [(quoteIdent field ++ " = ?", [Value.text uid])]
    | none => []
  let policy := match policyClause with
    | some (frag, binds) => [("(" ++ frag ++ ")", binds)]
    | none => []
  let wheres := user ++ own ++ policy
  .ok (if wheres.isEmpty then "" else " WHERE " ++ join " AND " (wheres.map Prod.fst),
    wheres.flatMap Prod.snd)

/-- The order. The direction is one of two keywords. -/
def orderBy (schema : CollectionSchema) (sort : Option SortSpec) :
    Except ListError (String × String) :=
  match sort with
  | none => .ok ("created_at", "DESC")
  | some s =>
    if !(fieldExists schema s.field || systemColumns.contains s.field) then
      .error (.sortFieldUnknown s.field)
    else if isVectorField schema s.field then .error (.sortVectorField s.field)
    else if s.dir = "asc" ∨ s.dir = "ASC" then .ok (s.field, "ASC")
    else if s.dir = "desc" ∨ s.dir = "DESC" then .ok (s.field, "DESC")
    else .error .sortDirInvalid

/-- The limit and the offset. A page out of range is refused, not clamped. -/
def pageWindow (page perPage : Option UInt32) : Except ListError (Nat × Nat) :=
  let perPage := (perPage.map UInt32.toNat).getD defaultPerPage
  let page := (page.map UInt32.toNat).getD 1
  if perPage = 0 ∨ maxPerPage < perPage ∨ page = 0 then .error .pageRangeInvalid
  else .ok (perPage, (page - 1) * perPage)

/-- The statements of a list request. -/
def buildStructuredListSql (schema : CollectionSchema) (req : ListRequest)
    (owner : Option (String × String)) (policyClause : Option Compiled) :
    Except ListError ListSql := do
  let table := quoteIdent schema.name
  let cols ← projection schema req.select
  let (whereClause, binds) ← buildWhereClause schema req.filter owner policyClause
  let (sortField, dirKw) ← orderBy schema req.sort
  let (limit, offset) ← pageWindow req.page req.perPage
  .ok {
    listSql := "SELECT " ++ cols ++ " FROM " ++ table ++ whereClause ++ " ORDER BY " ++
      quoteIdent sortField ++ " " ++ dirKw ++ " LIMIT " ++ toString limit ++ " OFFSET " ++
      toString offset
    countSql := "SELECT COUNT(*) FROM " ++ table ++ whereClause
    binds := binds }

end ListBuilder

end Drust
