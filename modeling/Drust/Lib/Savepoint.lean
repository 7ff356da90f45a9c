import Mathlib.Data.List.Basic

/-!
# Nested savepoints

A transactional store over an arbitrary type of contents: the contents a connection sees,
and the stack of its open savepoints, each with the contents it was opened at. Names need
not be distinct; `ROLLBACK TO` and `RELEASE` take the innermost savepoint of their name.
The first two lemmas of an operation say what it does on the savepoint on top, which is
where a caller that opens and resolves its own savepoint uses it.
-/

namespace Sql

/-- The contents a connection sees, and its open savepoints, innermost first. -/
structure Txn (δ : Type) where
  db : δ
  savepoints : List (String × δ) := []
  deriving DecidableEq

namespace Txn

variable {δ : Type}

def savepoint (name : String) (t : Txn δ) : Txn δ :=
  { t with savepoints := (name, t.db) :: t.savepoints }

/-- The stack down to the innermost savepoint of a name. -/
def find (name : String) (t : Txn δ) : List (String × δ) :=
  t.savepoints.dropWhile (fun s => s.1 ≠ name)

/-- Restore the contents of a savepoint, which stays open. -/
def rollbackTo (name : String) (t : Txn δ) : Option (Txn δ) :=
  match t.find name with
  | [] => none
  | s :: outer => some { db := s.2, savepoints := s :: outer }

/-- Close a savepoint and keep the changes. -/
def release (name : String) (t : Txn δ) : Option (Txn δ) :=
  match t.find name with
  | [] => none
  | _ :: outer => some { t with savepoints := outer }

/-- Roll the whole transaction back: the contents of the outermost savepoint, and none
left open. -/
def abort (t : Txn δ) : Txn δ :=
  { db := (t.savepoints.getLast?.map Prod.snd).getD t.db, savepoints := [] }

theorem rollbackTo_top {name : String} {t : Txn δ} {d : δ} {outer : List (String × δ)}
    (h : t.savepoints = (name, d) :: outer) :
    t.rollbackTo name = some { db := d, savepoints := (name, d) :: outer } := by
  simp [rollbackTo, find, h]

theorem rollbackTo_of_nil {name : String} {t : Txn δ} (h : t.savepoints = []) :
    t.rollbackTo name = none := by
  simp [rollbackTo, find, h]

theorem release_top {name : String} {t : Txn δ} {d : δ} {outer : List (String × δ)}
    (h : t.savepoints = (name, d) :: outer) :
    t.release name = some { t with savepoints := outer } := by
  simp [release, find, h]

theorem release_of_nil {name : String} {t : Txn δ} (h : t.savepoints = []) :
    t.release name = none := by
  simp [release, find, h]

theorem abort_of_nil {t : Txn δ} (h : t.savepoints = []) : t.abort = t := by
  cases t with
  | mk db savepoints =>
    obtain rfl : savepoints = [] := h
    rfl

/-- An inner savepoint does not change what an abort restores. -/
theorem abort_push {t s : Txn δ} {name : String} (h : s.savepoints = (name, t.db) :: t.savepoints) :
    s.abort = t.abort := by
  rw [abort, abort, h]
  cases hs : t.savepoints with
  | nil => simp
  | cons a l => simp [List.getLast?_cons]

end Txn

end Sql
