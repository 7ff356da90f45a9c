import Drust.Query.ListBuilder
import Drust.Query.Policy
import Drust.Rpc.Params

/-!
# Query templates

A stored query is a list request whose filter is a template: anywhere in its JSON an
object `{"$param":"<name>"}` stands for an argument of the call, and `{"$auth":"id"}` for
the caller's id. These sites are replaced in the JSON, before it is parsed as a filter
tree (`substitute`), and only by scalars.

A template is validated when it is saved: it is filled with one dummy per parameter and
compiled (`validateTemplate`). At a call the arguments are checked and completed with the
declared defaults (`resolveArgs`), and the filled template goes through the same compiler.
-/

namespace Drust

open Sql

structure QueryTemplate where
  collection : String
  filter : Option Json := none
  sort : Option SortSpec := none
  select : Option (List String) := none

/-- What is wrong with the shape of a template. -/
inductive TemplateShape where
  /-- "$param must be a string param name". -/
  | paramName
  /-- The substituted value is no filter; the text is `filterShapeHint`. -/
  | notAFilter
  | collectionMismatch (schema template : String)
  | protectedCollection (name : String)
  | doesNotCompile (why : ListError)
  | operandClasses (why : PolicyError)
  deriving DecidableEq

inductive TemplateError where
  | notScalar (param : String)
  | undeclaredParam (param : String)
  | unusedParam (param : String)
  | badAuthKey (key : Json)
  | badShape (why : TemplateShape)
  | arg (why : ParamError)
  deriving DecidableEq

namespace QueryTemplate

def paramKey : String := "$param"

def authKey : String := "$auth"

/-- The value of the only member, when it has the key. -/
def singleKey (obj : Json.Map) (key : String) : Option Json :=
  if obj.length = 1 then obj.get key else none

/-- The object is replaced by substitution. -/
def isSite (obj : Json.Map) : Bool :=
  (singleKey obj paramKey).isSome || (singleKey obj authKey).isSome

/-! ### Arguments -/

def checkTypes (specs : List ParamSpec) (args : Json.Map) : Except TemplateError Unit :=
  match specs with
  | [] => .ok ()
  | spec :: specs =>
    match Params.argumentOf args spec with
    | .error e => .error (.arg e)
    | .ok value =>
      match Params.coerce spec value with
      | .error e => .error (.arg e)
      | .ok _ => checkTypes specs args

/-- Check the arguments: unknown keys, then shape, then types. -/
def checkArgs (specs : List ParamSpec) (args : Json.Map) : Except TemplateError Unit :=
  match args.find? (fun kv => !specs.any (fun p => p.name == kv.1)) with
  | some kv => .error (.arg (.unknown kv.1))
  | none =>
    match args.find? (fun kv => kv.2.isCompound) with
    | some kv => .error (.notScalar kv.1)
    | none => checkTypes specs args

/-- Fill in the declared defaults; an argument wins. -/
def applyDefaults (specs : List ParamSpec) (args : Json.Map) : Json.Map :=
  specs.foldl (fun out spec =>
    match spec.default with
    | some d => if out.containsKey spec.name then out else out.insert spec.name d
    | none => out) args

/-- Check and complete the arguments of a call. -/
def resolveArgs (specs : List ParamSpec) (args : Json.Map) : Except TemplateError Json.Map := do
  checkArgs specs args
  .ok (applyDefaults specs args)

/-! ### Substitution -/

def checkAuthOperand (key : Json) : Except TemplateError Unit :=
  if key.asStr = some "id" then .ok () else .error (.badAuthKey key)

/-- The value of a parameter site. A missing argument is `null`. -/
def paramValue (name : Json) (args : Json.Map) : Except TemplateError Json :=
  match name.asStr with
  | none => .error (.badShape .paramName)
  | some name =>
    match args.get name with
    | some v => if v.isCompound then .error (.notScalar name) else .ok v
    | none => .ok .null

/-- The value of an identity site. -/
def authValue (key : Json) (authId : Option String) : Except TemplateError Json := do
  checkAuthOperand key
  .ok (match authId with
    | some id => .string id
    | none => .null)

mutual

/-- Replace the sites of a template. -/
def substitute (args : Json.Map) (authId : Option String) : Json → Except TemplateError Json
  | .object obj =>
    match singleKey obj paramKey with
    | some name => paramValue name args
    | none =>
      match singleKey obj authKey with
      | some key => authValue key authId
      | none => do
        let out ← substituteMembers args authId obj
        .ok (.object out)
  | .array items => do
    let out ← substituteItems args authId items
    .ok (.array out)
  | scalar => .ok scalar

def substituteMembers (args : Json.Map) (authId : Option String) :
    List (String × Json) → Except TemplateError (List (String × Json))
  | [] => .ok []
  | (k, v) :: kvs => do
    let v ← substitute args authId v
    let kvs ← substituteMembers args authId kvs
    .ok ((k, v) :: kvs)

def substituteItems (args : Json.Map) (authId : Option String) :
    List Json → Except TemplateError (List Json)
  | [] => .ok []
  | v :: vs => do
    let v ← substitute args authId v
    let vs ← substituteItems args authId vs
    .ok (v :: vs)

end

/-- Substitute, and parse the result strictly: a string argument is never parsed again. -/
def substituteToFilterAst (node : Json) (args : Json.Map) (authId : Option String) :
    Except TemplateError FilterAst := do
  let substituted ← substitute args authId node
  match FilterAst.ofJson substituted with
  | some ast => .ok ast
  | none => .error (.badShape .notAFilter)

/-! ### Validation -/

mutual

/-- The names at the parameter sites of a template. -/
def collectParams : Json → List String
  | .object obj =>
    match singleKey obj paramKey with
    | some v => v.asStr.toList
    | none => if (singleKey obj authKey).isSome then [] else collectMembers obj
  | .array items => collectItems items
  | _ => []

def collectMembers : List (String × Json) → List String
  | [] => []
  | (_, v) :: kvs => collectParams v ++ collectMembers kvs

def collectItems : List Json → List String
  | [] => []
  | v :: vs => collectParams v ++ collectItems vs

end

mutual

/-- Every identity site asks for the id. -/
def checkAuthKeys : Json → Except TemplateError Unit
  | .object obj =>
    match singleKey obj authKey with
    | some key => checkAuthOperand key
    | none => checkAuthMembers obj
  | .array items => checkAuthItems items
  | _ => .ok ()

def checkAuthMembers : List (String × Json) → Except TemplateError Unit
  | [] => .ok ()
  | (_, v) :: kvs => do
    checkAuthKeys v
    checkAuthMembers kvs

def checkAuthItems : List Json → Except TemplateError Unit
  | [] => .ok ()
  | v :: vs => do
    checkAuthKeys v
    checkAuthItems vs

end

def checkFilterAuthKeys (tpl : QueryTemplate) : Except TemplateError Unit :=
  match tpl.filter with
  | some f => checkAuthKeys f
  | none => .ok ()

/-- A set of names in the order of their bytes. -/
def sortedNames (names : List String) : List String :=
  names.dedup.insertionSort (fun a b => textCmp a b ≠ .gt)

def dummyFor : ParamType → Json
  | .text => .string "x"
  | .integer => .number (.posInt 1)
  | .real => .number (.float (.ofInt 1 (by decide)))
  | .boolean => .bool true

/-- The arguments a template is validated with. -/
def dummies (specs : List ParamSpec) : Json.Map :=
  specs.foldl (fun m s => Json.Map.insert m s.name (dummyFor s.ty)) []

/-- Every declared default is a scalar of its type. -/
def checkDefaults : List ParamSpec → Except TemplateError Unit
  | [] => .ok ()
  | spec :: specs =>
    match spec.default with
    | none => checkDefaults specs
    | some d =>
      if d.isCompound then .error (.notScalar spec.name)
      else match Params.coerce spec d with
        | .error e => .error (.arg e)
        | .ok _ => checkDefaults specs

/-- The filter of a filled template. -/
def fillFilter (tpl : QueryTemplate) (args : Json.Map) (authId : Option String) :
    Except TemplateError (Option FilterAst) :=
  match tpl.filter with
  | none => .ok none
  | some f => do
    let ast ← substituteToFilterAst f args authId
    .ok (some ast)

/-- The list request of a filled template. -/
def listRequest (tpl : QueryTemplate) (filter : Option FilterAst) : ListRequest :=
  { filter := filter, sort := tpl.sort, select := tpl.select }

def startsWith (p s : String) : Bool :=
  p.toList.isPrefixOf s.toList

/-- The collections whose names are reserved. -/
def isProtectedCollection (name : String) : Bool :=
  let lower := String.ofList (name.toList.map Char.toLower)
  startsWith "_system_" lower || startsWith "sqlite_" lower

/-- Compile a filled template: no owner and no policy clause, the first page. -/
def compileFilled (schema : CollectionSchema) (tpl : QueryTemplate) (args : Json.Map)
    (authId : Option String) : Except TemplateError ListSql := do
  let filter ← fillFilter tpl args authId
  match ListBuilder.buildStructuredListSql schema (tpl.listRequest filter) none none with
  | .ok r => .ok r
  | .error e => .error (.badShape (.doesNotCompile e))

/-- Validate a template before it is stored. -/
def validateTemplate (schema : CollectionSchema) (tpl : QueryTemplate) (specs : List ParamSpec) :
    Except TemplateError Unit :=
  let referenced := sortedNames ((tpl.filter.map collectParams).getD [])
  let declared := sortedNames (specs.map ParamSpec.name)
  if schema.name ≠ tpl.collection then
    .error (.badShape (.collectionMismatch schema.name tpl.collection))
  else if isProtectedCollection tpl.collection then
    .error (.badShape (.protectedCollection tpl.collection))
  else match referenced.find? (fun n => !declared.contains n) with
    | some name => .error (.undeclaredParam name)
    | none =>
      match declared.find? (fun n => !referenced.contains n) with
      | some name => .error (.unusedParam name)
      | none => do
        checkDefaults specs
        checkFilterAuthKeys tpl
        -- the dry compile
        let filter ← fillFilter tpl (dummies specs) (some "dummy")
        match ListBuilder.buildStructuredListSql schema (tpl.listRequest filter) none none with
        | .error e => .error (.badShape (.doesNotCompile e))
        | .ok _ =>
          match filter with
          | none => .ok ()
          | some ast =>
            match Policy.checkTemplateOperandClasses schema ast with
            | .error e => .error (.badShape (.operandClasses e))
            | .ok _ => .ok ()

end QueryTemplate

end Drust
