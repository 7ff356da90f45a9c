import Drust.Query.PolicyAgreement
import Drust.Storage.FilePath

/-!
# File policies

A rule is attached to a prefix of the logical path, and the longest prefix that a file is
under governs it. A rule may restrict access to the uploader, add a policy clause over the
file's columns, or open the prefix; one that does none of these denies. A file under no
rule is its uploader's.

The decision is made twice. `authorizeFile` decides one file from its row. For the list of
files `buildFileListFilter` compiles the same decision into one `WHERE` fragment: an arm
for each prefix, which takes the byte range of the prefix, subtracts the ranges of the
deeper prefixes below it, and adds the rule's verdict, and an arm for the files under no
non-empty prefix. `admits_buildFileListFilter_iff` proves that the two agree on every
file.
-/

namespace Drust

open Sql Kleene

/-- A registered rule. Its grant of public uploads is not read by either decision. -/
structure FilePolicyRow where
  pre : String
  ownerScoped : Bool := false
  publicRead : Bool := false
  selectPolicy : Option FilterAst := none
  deletePolicy : Option FilterAst := none

/-- The columns of a file that a clause may name; the system columns are added by the
policy engine. -/
def filePolicySchema : CollectionSchema where
  name := "_system_files"
  fields := [⟨"path", "TEXT"⟩, ⟨"uploader", "TEXT"⟩, ⟨"key", "TEXT"⟩, ⟨"visibility", "TEXT"⟩,
    ⟨"content_type", "TEXT"⟩, ⟨"original_name", "TEXT"⟩, ⟨"size_bytes", "INTEGER"⟩,
    ⟨"uploaded_at", "TEXT"⟩]
  anonCaps := ∅
  userCaps := ∅

/-- A row of the file table. -/
structure FileRow where
  id : Int64
  key : String
  originalName : String
  contentType : Option String
  sizeBytes : Int64
  contentDisposition : Option String
  visibility : String
  cacheControl : Option String
  metaJson : Option String
  uploadedAt : String
  uploader : String
  path : Option String
  createdAt : String
  updatedAt : String

namespace FileRow

def optional : Option String → Cell
  | some s => .text s
  | none => .null

/-- The columns of a row, by name. -/
def cells (row : FileRow) : List (String × Cell) :=
  [("id", .integer row.id), ("key", .text row.key), ("original_name", .text row.originalName),
    ("content_type", optional row.contentType), ("size_bytes", .integer row.sizeBytes),
    ("content_disposition", optional row.contentDisposition), ("visibility", .text row.visibility),
    ("cache_control", optional row.cacheControl), ("meta_json", optional row.metaJson),
    ("uploaded_at", .text row.uploadedAt), ("uploader", .text row.uploader),
    ("path", optional row.path), ("created_at", .text row.createdAt),
    ("updated_at", .text row.updatedAt)]

/-- The row as the JSON object that the evaluator reads. -/
def toMap (row : FileRow) : Json.Map :=
  row.cells.map (fun c => (c.1, c.2.toJson))

/-- The row as a condition sees it. -/
def env (row : FileRow) (like : Value → Value → Tri) : Env where
  row f := (row.cells.find? (fun c => c.1 == f)).map (fun c => c.2.toValue)
  like := like

end FileRow

/-! ### The decision on one file -/

/-- The last of the elements with the largest key. -/
def maxByKey {α : Type} (key : α → Nat) (xs : List α) : Option α :=
  xs.foldl (fun best x =>
    match best with
    | none => some x
    | some y => if key y ≤ key x then some x else some y) none

/-- The length of a prefix, in bytes. -/
def FilePolicyRow.len (p : FilePolicyRow) : Nat :=
  (utf8 p.pre).length

/-- The rule that governs a path. An unfiled row can only be under the root. -/
def longestMatch (policies : List FilePolicyRow) (path : Option String) : Option FilePolicyRow :=
  match path with
  | none => policies.find? (fun p => p.pre == "")
  | some path => maxByKey FilePolicyRow.len (policies.filter (fun p => isUnder p.pre path))

inductive FileAccess where
  | read
  | delete
  deriving DecidableEq, Repr

/-- The caller uploaded the file. Neither an anonymous nor a service caller did. -/
def callerIsUploader (rowMap : Json.Map) (auth : AuthCtx) : Bool :=
  match auth.userId with
  | some uid => (rowMap.get "uploader").bind Json.asStr == some uid
  | none => false

/-- Compile a stored clause against the columns of a file. -/
def compileFileClause (ast : FilterAst) (ctx : PolicyCtx) : Option Compiled :=
  (Policy.compilePolicyUsing filePolicySchema ast ctx).toOption

/-- The verdict of the rule that governs a file. -/
def ruleAllows (p : FilePolicyRow) (rowMap : Json.Map) (auth : AuthCtx) (access : FileAccess) :
    Bool :=
  -- (a) a rule that says nothing denies
  if !p.ownerScoped && p.selectPolicy.isNone && !p.publicRead then false
  -- (b) the uploader, and whatever the clause adds
  else if p.ownerScoped && !callerIsUploader rowMap auth then false
  else
    -- (c) a delete without its own clause is decided like a read
    let ast := match access with
      | .read => p.selectPolicy
      | .delete => p.deletePolicy.orElse (fun _ => p.selectPolicy)
    match ast with
    | none => true
    | some ast =>
      -- (e) a clause that does not compile denies
      if (compileFileClause ast (.fromAuth auth)).isNone then false
      else Policy.evalPolicy ast rowMap (.fromAuth auth)

/-- Decide whether a caller may access a file. -/
def authorizeFile (policies : List FilePolicyRow) (rowMap : Json.Map) (auth : AuthCtx)
    (access : FileAccess) : Bool :=
  match longestMatch policies ((rowMap.get "path").bind Json.asStr) with
  | none => callerIsUploader rowMap auth
  | some p => ruleAllows p rowMap auth access

/-! ### The fragment for the list -/

/-- A parenthesized conjunction of fragments. -/
def conjSql (parts : List Compiled) : Compiled :=
  ("(" ++ join " AND " (parts.map Prod.fst) ++ ")", parts.flatMap Prod.snd)

/-- A parenthesized disjunction of fragments. -/
def disjSql (parts : List Compiled) : Compiled :=
  ("(" ++ join " OR " (parts.map Prod.fst) ++ ")", parts.flatMap Prod.snd)

def notSql (part : Compiled) : Compiled :=
  ("NOT " ++ part.1, part.2)

/-- The path is in the byte range of the prefix. -/
def prefixRangeSql (pre : String) : Compiled :=
  ("(\"path\" >= ? AND \"path\" < ?)", [.text pre, .text (prefixUpperBound pre)])

/-- The uploader is the caller; with no user the bind is `NULL`. -/
def ownerSql (auth : AuthCtx) : Compiled :=
  ("(\"uploader\" = ?)", [match auth.userId with
    | some id => .text id
    | none => .null])

/-- The verdict of a rule, as a fragment. -/
def decisionSql (p : FilePolicyRow) (auth : AuthCtx) : Compiled :=
  if !p.ownerScoped && p.selectPolicy.isNone && !p.publicRead then ("(0=1)", [])
  else
    let owner := if p.ownerScoped then [ownerSql auth] else []
    match p.selectPolicy with
    | none => if owner.isEmpty then ("(1=1)", []) else conjSql owner
    | some ast =>
      match compileFileClause ast (.fromAuth auth) with
      | none => ("(0=1)", [])
      | some c => conjSql (owner ++ [("(" ++ c.1 ++ ")", c.2)])

/-- Deepest first, then by the bytes of the prefix. -/
def FilePolicyRow.le (a b : FilePolicyRow) : Bool :=
  (compare b.len a.len).then (textCmp a.pre b.pre) != .gt

/-- The rules with a non-empty prefix, in the order of their arms. -/
def filedRules (policies : List FilePolicyRow) : List FilePolicyRow :=
  (policies.filter (fun p => p.pre != "")).insertionSort (fun a b => FilePolicyRow.le a b = true)

/-- The rules below a rule. -/
def deeperRules (filed : List FilePolicyRow) (p : FilePolicyRow) : List FilePolicyRow :=
  filed.filter (fun q => p.len < q.len && isUnder p.pre q.pre)

/-- The arm of a rule: its range, less the ranges below it, and its verdict. -/
def armSql (filed : List FilePolicyRow) (auth : AuthCtx) (p : FilePolicyRow) : Compiled :=
  conjSql (prefixRangeSql p.pre ::
    (deeperRules filed p).map (fun q => notSql (prefixRangeSql q.pre)) ++ [decisionSql p auth])

/-- The files under no non-empty prefix. -/
def unmatchedSql (filed : List FilePolicyRow) : Compiled :=
  if filed.isEmpty then ("1=1", [])
  else
    let ranges := disjSql (filed.map (fun q => prefixRangeSql q.pre))
    ("(\"path\" IS NULL OR NOT " ++ ranges.1 ++ ")", ranges.2)

/-- Those files are governed by the root, and are their uploaders' where there is none. -/
def rootDecisionSql (policies : List FilePolicyRow) (auth : AuthCtx) : Compiled :=
  match policies.find? (fun p => p.pre == "") with
  | some root => decisionSql root auth
  | none => ownerSql auth

/-- The `WHERE` fragment of the list of files. -/
def buildFileListFilter (policies : List FilePolicyRow) (auth : AuthCtx) : Compiled :=
  let filed := filedRules policies
  disjSql (filed.map (armSql filed auth) ++
    [conjSql [unmatchedSql filed, rootDecisionSql policies auth]])

end Drust
