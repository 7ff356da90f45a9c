import Drust.Lib.Sql.Value
import Drust.Mcp.FtsTools

/-!
# The triggers of a collection

A collection is made with a trigger that sets `updated_at` of a row that was updated. Each of its
full-text indexes comes with three more, which give the index the commands that keep it in step
with the rows. All of them run after the row is written, those of one event newest first, so the
one for `updated_at` runs last. Its own update fires the other triggers again but not itself, as
`recursive_triggers` is off.

The index keeps no copy of the rows. What it holds for a rowid can only be taken out by a
`'delete'` command that names the values that went in, and a row that is taken away to make room
for another (`OR REPLACE`) fires no trigger at all.

A step is one row change with all that it fires. A statement is some of them one after another,
and one that fails leaves no trace of those before it, so that it is no step.
-/

namespace Drust

namespace FtsTriggers

open Sql (Value)

structure Row where
  id : Int64
  cell : String → Value

/-- The value of a column. -/
def Row.get (r : Row) (col : String) : Value :=
  if col = "id" then .integer r.id else r.cell col

/-- The row with another value in `updated_at`. -/
def Row.stamp (r : Row) (now : Value) : Row :=
  { r with cell := Function.update r.cell "updated_at" now }

/-! ### Indexes -/

/-- What an index holds for a rowid. -/
structure Entry where
  rowid : Int64
  values : List Value
  deriving DecidableEq

/-- The entry of a row: its id and its indexed columns. -/
def entry (fields : List String) (r : Row) : Entry where
  rowid := r.id
  values := fields.map r.get

inductive Command where
  | insert (e : Entry)
  | delete (e : Entry)

/-- An index with its contents. -/
structure Index extends FtsIndex where
  entries : List Entry
  /-- A `'delete'` command has named values that the index did not hold. -/
  misled : Bool := false

def Index.exec (i : Index) : Command → Index
  | .insert e => { i with entries := e :: i.entries }
  | .delete e =>
    if e ∈ i.entries then { i with entries := i.entries.erase e } else { i with misled := true }

/-- The `'rebuild'` of a new index. -/
def rebuild (i : FtsIndex) (rows : List Row) : Index :=
  { i with entries := rows.map (entry i.fields) }

structure State where
  rows : List Row
  /-- In the order in which they were created. -/
  indexes : List Index

/-- A collection as it is created. -/
def init : State where
  rows := []
  indexes := []

/-- Give a command to the index of a name. -/
def State.exec (s : State) (c : String × Command) : State :=
  { s with indexes := s.indexes.map fun i => if i.name = c.1 then i.exec c.2 else i }

/-! ### Triggers -/

inductive Event where
  | insert (new : Row)
  | update (old new : Row)
  | delete (old : Row)

inductive Trigger where
  /-- `<name>_updated_at`. -/
  | updatedAt
  /-- `<head>_ai`, `<head>_ad` and `<head>_au`. -/
  | ai (i : FtsIndex)
  | ad (i : FtsIndex)
  | au (i : FtsIndex)

/-- The triggers of the collection, in the order in which they were created. -/
def State.triggers (s : State) : List Trigger :=
  .updatedAt :: s.indexes.flatMap fun i => [.ai i.toFtsIndex, .ad i.toFtsIndex, .au i.toFtsIndex]

/-- What a trigger of an index does after an event. -/
def Trigger.commands : Trigger → Event → List (String × Command)
  | .ai i, .insert new => [(i.name, .insert (entry i.fields new))]
  | .ad i, .delete old => [(i.name, .delete (entry i.fields old))]
  | .au i, .update old new =>
    [(i.name, .delete (entry i.fields old)), (i.name, .insert (entry i.fields new))]
  | _, _ => []

def State.execAll (s : State) (cs : List (String × Command)) : State :=
  cs.foldl State.exec s

/-- Run the triggers of the indexes, the newest first. -/
def State.sync (s : State) (ev : Event) : State :=
  s.execAll (s.triggers.reverse.flatMap (Trigger.commands · ev))

/-! ### Row changes -/

/-- What happens when a row that is written has a key in common with another. -/
inductive OnConflict where
  | abort
  | replace
  deriving DecidableEq

/-- The unique indexes of the table: whether two rows have a key in common. -/
abbrev Keys := Row → Row → Bool

/-- The row stands in the way of a row that is written. -/
def clashes (keys : Keys) (new r : Row) : Bool :=
  r.id == new.id || keys r new

/-- The other rows, when a row is written. -/
def makeRoom (keys : Keys) (policy : OnConflict) (new : Row) (others : List Row) :
    Option (List Row) :=
  match policy with
  | .abort => if others.any (clashes keys new) then none else some others
  | .replace => some (others.filter fun r => !clashes keys new r)

/-- The rows other than that of an id. -/
def State.without (s : State) (id : Int64) : List Row :=
  s.rows.filter fun r => r.id != id

def State.row (s : State) (id : Int64) : Option Row :=
  s.rows.find? fun r => r.id == id

/-- Write a row in the place of another. -/
def putRow (keys : Keys) (policy : OnConflict) (old new : Row) (s : State) : Option State :=
  match makeRoom keys policy new (s.without old.id) with
  | some others => some { s with rows := others ++ [new] }
  | none => none

/-- The body of the trigger for `updated_at`: an update of the row with the old id, under the
conflict policy of the statement that fired it. -/
def setUpdatedAt (keys : Keys) (policy : OnConflict) (now : Value) (old : Row) (s : State) :
    Option State :=
  match s.row old.id with
  | some r => (putRow keys policy r (r.stamp now) s).map fun s => s.sync (.update r (r.stamp now))
  | none => some s

/-- Run a trigger after an event. -/
def runTrigger (keys : Keys) (policy : OnConflict) (now : Value) (ev : Event) (s : State) :
    Trigger → Option State
  | .updatedAt =>
    match ev with
    | .update old _ => setUpdatedAt keys policy now old s
    | _ => some s
  | t => some (s.execAll (t.commands ev))

/-- Run the triggers of an event, the newest first. -/
def fire (keys : Keys) (policy : OnConflict) (now : Value) (ev : Event) (s : State) :
    Option State :=
  s.triggers.reverse.foldlM (fun s t => runTrigger keys policy now ev s t) s

def insertRow (keys : Keys) (policy : OnConflict) (now : Value) (new : Row) (s : State) :
    Option State :=
  match makeRoom keys policy new s.rows with
  | some others => fire keys policy now (.insert new) { s with rows := others ++ [new] }
  | none => none

def updateRow (keys : Keys) (policy : OnConflict) (now : Value) (old new : Row) (s : State) :
    Option State :=
  match putRow keys policy old new s with
  | some s => fire keys policy now (.update old new) s
  | none => none

def deleteRow (keys : Keys) (now : Value) (old : Row) (s : State) : Option State :=
  fire keys .abort now (.delete old) { s with rows := s.without old.id }

inductive Label where
  | insert (policy : OnConflict) (now : Value) (new : Row)
  /-- What the `SET` of an update makes of the row of an id; the id may be another. -/
  | update (policy : OnConflict) (now : Value) (id : Int64) (set : Row → Row)
  | delete (now : Value) (id : Int64)
  /-- `ON CONFLICT DO UPDATE`: the target says which row is updated if there is one. -/
  | upsert (target : Keys) (now : Value) (new : Row) (set : Row → Row)
  | createIndex (i : FtsIndex)
  | dropIndex (name : String)

/-- The validation of a new index of the collection. -/
def accepts (d : CollectionDescription) (s : State) (i : FtsIndex) : Bool :=
  (FtsTools.validateFtsIndexName i.name).isOk && (FtsTools.checkFtsFields d [] i.fields).isOk &&
    !i.fields.isEmpty && FtsTools.allowedTokenizers.contains i.tokenizer &&
    !s.indexes.any fun j => j.name == i.name

def step (d : CollectionDescription) (keys : Keys) (s : State) : Label → Option State
  | .insert policy now new => insertRow keys policy now new s
  | .update policy now id set =>
    match s.row id with
    | some old => updateRow keys policy now old (set old) s
    | none => none
  | .delete now id =>
    match s.row id with
    | some old => deleteRow keys now old s
    | none => none
  | .upsert target now new set =>
    match s.rows.find? fun r => target r new with
    | some old => updateRow keys .abort now old (set old) s
    | none => insertRow keys .abort now new s
  | .createIndex i =>
    if accepts d s i then some { s with indexes := s.indexes ++ [rebuild i s.rows] } else none
  | .dropIndex name =>
    if s.indexes.any fun i => i.name == name then
      some { s with indexes := s.indexes.filter fun i => i.name != name }
    else none

end FtsTriggers

end Drust
