import Drust.Query.ListBuilder

/-!
# The aggregate

The statement behind an aggregate request: the columns that the rows are grouped by and some
metrics over them, the same `WHERE` clause as the list, an order over what is selected, and a
page. A metric is one of five operations on a column, or the number of rows. Its result has a
name, the alias that the request gives or one made of the operation and the column, and no two
results may have the same.
-/

namespace Drust

open Sql

structure AggregateMetric where
  op : String
  /-- May be missing for `count`, which then counts the rows. -/
  field : Option String := none
  aliasName : Option String := none
  deriving DecidableEq, Repr

structure AggregateRequest where
  filter : Option FilterAst := none
  groupBy : Option (List String) := none
  metrics : List AggregateMetric := []
  sort : Option SortSpec := none
  page : Option UInt32 := none
  perPage : Option UInt32 := none

/-- The errors of the aggregate: those it shares with the list, and its own. -/
inductive AggregateError where
  | list (why : ListError)
  /-- "aggregate needs at least one metric". -/
  | noMetrics
  | metricOpInvalid (op : String)
  | metricFieldRequired (op : String)
  | metricFieldUnknown (field : String)
  | metricVectorField (field : String)
  | groupFieldUnknown (field : String)
  | groupVectorField (field : String)
  | aliasInvalid (name : String)
  | aliasDuplicate (name : String)
  deriving DecidableEq, Repr

namespace ListBuilder

def toAsciiLowercase (s : String) : String :=
  .ofList (s.toList.map Char.toLower)

/-- The operations, and no others. -/
def aggOps : List String := ["count", "sum", "avg", "min", "max"]

def isValidAggOp (op : String) : Bool :=
  aggOps.contains op

/-- An alias is a strict identifier of at most 64 bytes. -/
def validAlias (a : String) : Bool :=
  match a.toList with
  | [] => false
  | c :: cs => a.utf8ByteSize ≤ 64 && (c.isAlpha || c == '_') && (c :: cs).all isWordChar

def validateAggField (schema : CollectionSchema) (f : String) : Except AggregateError Unit :=
  if !(fieldExists schema f || systemColumns.contains f) then .error (.metricFieldUnknown f)
  else if isVectorField schema f then .error (.metricVectorField f)
  else .ok ()

def groupColumn (schema : CollectionSchema) (c : String) : Except AggregateError String :=
  if !(fieldExists schema c || systemColumns.contains c) then .error (.groupFieldUnknown c)
  else if isVectorField schema c then .error (.groupVectorField c)
  else .ok c

def groupColumns (schema : CollectionSchema) (groupBy : Option (List String)) :
    Except AggregateError (List String) :=
  (groupBy.getD []).mapM (groupColumn schema)

/-- The expression of a metric, and its name when it is given none. -/
def metricExpr (schema : CollectionSchema) (op : String) (field : Option String) :
    Except AggregateError (String × String) :=
  if op = "count" then
    match field with
    | none => .ok ("COUNT(*)", "count")
    | some f => do
      validateAggField schema f
      .ok ("COUNT(" ++ quoteIdent f ++ ")", "count_" ++ f)
  else
    match field with
    | none => .error (.metricFieldRequired op)
    | some f => do
      validateAggField schema f
      .ok (toAsciiUppercase op ++ "(" ++ quoteIdent f ++ ")", op ++ "_" ++ f)

/-- Only an alias that is given is checked. -/
def metricAlias (aliasName : Option String) (default : String) : Except AggregateError String :=
  match aliasName with
  | some a => if validAlias a then .ok a else .error (.aliasInvalid a)
  | none => .ok default

/-- A metric in the select list, and the name of its result. -/
def selectMetric (schema : CollectionSchema) (m : AggregateMetric) :
    Except AggregateError (String × String) :=
  let op := toAsciiLowercase m.op
  if !isValidAggOp op then .error (.metricOpInvalid m.op)
  else do
    let (expr, default) ← metricExpr schema op m.field
    let name ← metricAlias m.aliasName default
    .ok (expr ++ " AS " ++ quoteIdent name, name)

/-- The first name that was seen before. -/
def firstDuplicate (seen : List String) : List String → Option String
  | [] => none
  | name :: names => if name ∈ seen then some name else firstDuplicate (name :: seen) names

def checkDistinct (names : List String) : Except AggregateError Unit :=
  match firstDuplicate [] names with
  | some name => .error (.aliasDuplicate name)
  | none => .ok ()

def sortDirection (dir : String) : Except AggregateError String :=
  if dir = "asc" ∨ dir = "ASC" then .ok "ASC"
  else if dir = "desc" ∨ dir = "DESC" then .ok "DESC"
  else .error (.list .sortDirInvalid)

/-- The order, by a result. -/
def aggregateOrder (names : List String) (sort : Option SortSpec) : Except AggregateError String :=
  match sort with
  | none => .ok ""
  | some s =>
    if !names.contains s.field then .error (.list (.sortFieldUnknown s.field))
    else do
      let dir ← sortDirection s.dir
      .ok (" ORDER BY " ++ quoteIdent s.field ++ " " ++ dir)

/-- The statement of an aggregate request. -/
def buildAggregateSql (schema : CollectionSchema) (req : AggregateRequest)
    (owner : Option (String × String)) (policyClause : Option Compiled) :
    Except AggregateError Compiled :=
  let table := quoteIdent schema.name
  if req.metrics.isEmpty then .error .noMetrics
  else do
    let groupCols ← groupColumns schema req.groupBy
    let metrics ← req.metrics.mapM (selectMetric schema)
    let selectList := join ", " (groupCols.map quoteIdent ++ metrics.map Prod.fst)
    let names := groupCols ++ metrics.map Prod.snd
    checkDistinct names
    let (whereClause, binds) ←
      (buildWhereClause schema req.filter owner policyClause).mapError .list
    let groupByClause :=
      if groupCols.isEmpty then "" else " GROUP BY " ++ join ", " (groupCols.map quoteIdent)
    let orderClause ← aggregateOrder names req.sort
    let (limit, offset) ← (pageWindow req.page req.perPage).mapError .list
    .ok ("SELECT " ++ selectList ++ " FROM " ++ table ++ whereClause ++ groupByClause ++
      orderClause ++ " LIMIT " ++ toString limit ++ " OFFSET " ++ toString offset, binds)

end ListBuilder

end Drust
