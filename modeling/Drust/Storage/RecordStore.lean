import Drust.Lib.AssocList
import Drust.Lib.Result
import Drust.Lib.Sql.Where
import Drust.Storage.RecordHistory

/-!
# The rows of a collection

The table behind a collection and the statements that the record handlers run on it, as
SQLite executes them. A statement is given by what its text is built from: the columns with
their bound values, the id, and the owner clause, whose literal is escaped so that it is the
user's id again. The text of a policy clause is read as it is (`Sql.evalWhere`).

`Sqlite` is what the engine brings along: the defaults of the columns, the conversions of a
`STRICT` table, the next id of an `AUTOINCREMENT` key, and the constraints, which depend on
rows of other tables too. That the key is unique is not among these, and is part of the
statements. A `SELECT` of a list is a function of the table, the text and the binds.

The trigger behind an update is left out: it sets `updated_at` of the row with the old id to the
value that the statement has just set.

A row has a `key` that no statement reads. It stands for the row itself: the id of a row can be
changed, and an id can be used again.
-/

namespace Drust.RecordStore

open Sql Kleene RecordHistory

structure Row where
  key : Nat
  id : Int64
  cell : String → Value

/-- The value of a column. -/
def Row.get (r : Row) (col : String) : Value :=
  if col = "id" then .integer r.id else r.cell col

/-- The rows of a table: each has an id of its own and stands for itself. -/
structure Table where
  rows : List Row
  nextKey : Nat
  ids_nodup : (rows.map Row.id).Nodup
  keys_nodup : (rows.map Row.key).Nodup
  key_lt : ∀ r ∈ rows, r.key < nextKey

namespace Table

/-- A row more, with an id that is not in use. -/
def push (t : Table) (row : Row) (hkey : row.key = t.nextKey) (hid : ∀ r ∈ t.rows, r.id ≠ row.id) :
    Table where
  rows := t.rows ++ [row]
  nextKey := t.nextKey + 1
  ids_nodup := by
    rw [List.map_append, List.map_singleton, List.nodup_append]
    refine ⟨t.ids_nodup, List.nodup_singleton _, fun i hi j hj => ?_⟩
    obtain ⟨r, hr, rfl⟩ := List.mem_map.mp hi
    rw [List.mem_singleton.mp hj]
    exact hid r hr
  keys_nodup := by
    rw [List.map_append, List.map_singleton, List.nodup_append]
    refine ⟨t.keys_nodup, List.nodup_singleton _, fun i hi j hj => ?_⟩
    obtain ⟨r, hr, rfl⟩ := List.mem_map.mp hi
    rw [List.mem_singleton.mp hj, hkey]
    exact (t.key_lt r hr).ne
  key_lt := by
    intro r hr
    rcases List.mem_append.mp hr with hr | hr
    · exact (t.key_lt r hr).trans (Nat.lt_succ_self _)
    · rw [List.mem_singleton.mp hr, hkey]
      exact Nat.lt_succ_self _

/-- A row with a new image. Its id may be a new one, and is then not in use. -/
def put (t : Table) (row : Row) (hkey : row.key < t.nextKey)
    (hid : ∀ r ∈ t.rows, r.id = row.id → r.key = row.key) : Table where
  rows := t.rows.map fun r => if r.key = row.key then row else r
  nextKey := t.nextKey
  ids_nodup := by
    rw [List.map_map, List.Nodup, List.pairwise_map]
    have hdistinct := (List.pairwise_map.mp t.ids_nodup).and (List.pairwise_map.mp t.keys_nodup)
    refine hdistinct.imp_of_mem fun {x y} hx hy ⟨hids, hkeys⟩ => ?_
    simp only [Function.comp_apply]
    -- at most one of the two rows is the one that is replaced
    split_ifs with hxr hyr hyr
    · exact absurd (hxr.trans hyr.symm) hkeys
    · exact fun heq => hyr (hid y hy heq.symm)
    · exact fun heq => hxr (hid x hx heq)
    · exact hids
  keys_nodup := by
    have hkeys : ∀ r ∈ t.rows, (Row.key ∘ fun r => if r.key = row.key then row else r) r = r.key := by
      intro r _
      simp only [Function.comp_apply]
      split_ifs with h
      · exact h.symm
      · rfl
    rw [List.map_map, List.map_congr_left hkeys]
    exact t.keys_nodup
  key_lt := by
    intro r hr
    obtain ⟨x, hx, rfl⟩ := List.mem_map.mp hr
    split_ifs
    · exact hkey
    · exact t.key_lt x hx

/-- The rows without those that have the property. -/
def remove (t : Table) (p : Row → Bool) : Table where
  rows := t.rows.filter fun r => !p r
  nextKey := t.nextKey
  ids_nodup := (List.filter_sublist.map _).nodup t.ids_nodup
  keys_nodup := (List.filter_sublist.map _).nodup t.keys_nodup
  key_lt r hr := t.key_lt r (List.mem_of_mem_filter hr)

end Table

structure Db where
  table : Table
  history : List HistoryRow

/-- Why a statement fails. -/
inductive SqlFailure where
  /-- A `CHECK` of the table. -/
  | check
  /-- Another constraint: the key, `UNIQUE`, `NOT NULL`, a foreign key. -/
  | constraint
  /-- A value that the column cannot store. -/
  | datatype
  /-- The text cannot be prepared, or the statement fails on its way. -/
  | other
  deriving DecidableEq

/-- A text could be read as a number. -/
def looksNumeric (s : String) : Bool :=
  match s.toList.dropWhile Char.isWhitespace with
  | c :: _ => c.isDigit || c == '+' || c == '-' || c == '.'
  | [] => false

/-- The engine, for one collection. -/
structure Sqlite where
  like : Value → Value → Tri
  /-- The default of a column. -/
  default : String → Value
  /-- What a column stores of a value; it may refuse it. -/
  store : String → Value → Option Value
  /-- A text is converted only where it is a number. -/
  store_text : ∀ {col s v}, store col (.text s) = some v → looksNumeric s = false → v = .text s
  /-- The id of a row that comes without one. -/
  nextId : Db → Option Int64
  /-- The constraints on the new image of a row, its key apart. -/
  violated : Db → Row → Option SqlFailure
  /-- No row refers to the row. -/
  releases : Db → Row → Bool
  /-- The rows of a `SELECT`. -/
  select : Db → String → List Value → Except SqlFailure (List (List (String × Value)))
  /-- The size of the database and of the files. -/
  usage : Db → Except SqlFailure Nat

section Statements

variable (eng : Sqlite)

/-- The columns that are set, with what they store; the values are stored together or not at all. -/
def storeAll (values : List (String × Value)) : Except SqlFailure (String → Option Value) :=
  if values.all fun cv => (eng.store cv.1 cv.2).isSome then
    .ok fun col => (values.lookup col).bind (eng.store col)
  else .error .datatype

/-- The id of a new row: a `NULL` is replaced by the next one. -/
def insertedId (db : Db) (stored : String → Option Value) : Except SqlFailure Int64 :=
  match (stored "id").getD .null with
  | .integer i => .ok i
  | .null =>
    match eng.nextId db with
    | some i => .ok i
    | none => .error .other
  | _ => .error .datatype

def insertedRow (db : Db) (id : Int64) (stored : String → Option Value) : Row where
  key := db.table.nextKey
  id := id
  cell col := (stored col).getD (eng.default col)

/-- `INSERT INTO .. VALUES .. RETURNING *`. -/
def insertRow (db : Db) (values : List (String × Value)) : Except SqlFailure (Row × Db) := do
  let stored ← storeAll eng values
  let id ← insertedId eng db stored
  if h : ∀ r ∈ db.table.rows, r.id ≠ id then
    match eng.violated db (insertedRow eng db id stored) with
    | some e => .error e
    | none =>
      .ok (insertedRow eng db id stored,
        { db with table := db.table.push (insertedRow eng db id stored) rfl h })
  else .error .constraint

/-- The clause `AND "field" = 'user'`. -/
def ownerClause : Option (String × String) → Row → Bool
  | none, _ => true
  | some (field, user), r => cmpValue (r.get field) (.text user) == some .eq

/-- `WHERE id = ? ..`. -/
def isTarget (id : Int64) (owner : Option (String × String)) (r : Row) : Bool :=
  r.id == id && ownerClause owner r

/-- The id of an updated row. -/
def updatedId (r : Row) (stored : String → Option Value) : Except SqlFailure Int64 :=
  match stored "id" with
  | none => .ok r.id
  | some (.integer i) => .ok i
  | some _ => .error .datatype

/-- The new image of a row. Of two assignments to `updated_at` the second counts. -/
def updatedRow (now : String) (r : Row) (id : Int64) (stored : String → Option Value) : Row where
  key := r.key
  id := id
  cell col := if col = "updated_at" then .text now else (stored col).getD (r.cell col)

/-- The row that a statement with the clause finds; ids are unique. -/
def findTarget (db : Db) (id : Int64) (owner : Option (String × String)) : Option Row :=
  db.table.rows.find? (isTarget id owner)

/-- `UPDATE .. SET .., updated_at = datetime('now') WHERE .. RETURNING *`. -/
def updateRow (now : String) (db : Db) (id : Int64) (owner : Option (String × String))
    (values : List (String × Value)) : Except SqlFailure (Option (Row × Db)) :=
  match hr : findTarget db id owner with
  | none => .ok none
  | some r => do
    let stored ← storeAll eng values
    let newId ← updatedId r stored
    if h : ∀ x ∈ db.table.rows, x.id = newId → x.key = r.key then
      if newId ≠ r.id ∧ eng.releases db r = false then .error .constraint
      else match eng.violated db (updatedRow now r newId stored) with
        | some e => .error e
        | none =>
          .ok (some (updatedRow now r newId stored,
            { db with
              table := db.table.put (updatedRow now r newId stored)
                (db.table.key_lt r (List.mem_of_find?_eq_some hr)) h }))
    else .error .constraint

/-- `DELETE FROM .. WHERE ..`. -/
def deleteRow (db : Db) (id : Int64) (owner : Option (String × String)) :
    Except SqlFailure (Nat × Db) :=
  if ∃ r ∈ db.table.rows, isTarget id owner r ∧ eng.releases db r = false then .error .constraint
  else
    .ok (db.table.rows.countP (isTarget id owner),
      { db with table := db.table.remove (isTarget id owner) })

/-- A row as a condition sees it. -/
def Row.env (columns : List String) (r : Row) : Env where
  row col := if col ∈ columns then some (r.get col) else none
  like := eng.like

/-- `SELECT 1 FROM .. WHERE id = ? AND (clause)`. -/
def selectOne (columns : List String) (db : Db) (id : Int64) (clause : String × List Value) :
    Except SqlFailure Bool :=
  if (parseWhere clause.1).isNone then .error .other
  else .ok (db.table.rows.any fun r =>
    r.id == id && Admits (r.env eng columns) clause.1 clause.2)

end Statements

/-! ### Rows as JSON -/

def valueJson : Value → Json
  | .null => .null
  | .integer i => .number (if 0 ≤ i.toInt then .posInt (.ofNat i.toInt.toNat) else .negInt i)
  | .real f => .number (.float f)
  | .text s => .string s
  | .blob bytes => .object [("__blob_bytes", .number (.posInt (.ofNat bytes.length)))]

/-- Every column of a row. -/
def rowToJson (columns : List String) (r : Row) : Json.Map :=
  columns.map fun col => (col, valueJson (r.get col))

/-- The columns of a row without the vectors. -/
def materializeRow (columns vectorNames : List String) (r : Row) : Json.Map :=
  (columns.filter fun col => !vectorNames.contains col).map fun col => (col, valueJson (r.get col))

/-- Hiding the vectors of a row and leaving them out is the same. -/
theorem filter_rowToJson (columns vectorNames : List String) (r : Row) :
    (rowToJson columns r).filter (fun kv => !vectorNames.contains kv.1)
      = materializeRow columns vectorNames r := by
  rw [rowToJson, materializeRow, List.filter_map]
  rfl

theorem Table.eq_of_key_eq (t : Table) {r r' : Row} (hr : r ∈ t.rows) (hr' : r' ∈ t.rows)
    (h : r.key = r'.key) : r = r' :=
  List.inj_on_of_nodup_map t.keys_nodup hr hr' h

/-! ### What a statement does -/

section Effects

variable {eng : Sqlite} {db db' : Db} {now : String} {id : Int64} {owner : Option (String × String)}
  {values : List (String × Value)} {row : Row}

theorem insertRow_eq_ok (h : insertRow eng db values = .ok (row, db')) :
    (∃ newId stored, storeAll eng values = .ok stored ∧ row = insertedRow eng db newId stored) ∧
      db'.table.rows = db.table.rows ++ [row] ∧ db'.table.nextKey = db.table.nextKey + 1 := by
  unfold insertRow at h
  obtain ⟨stored, hstored, h⟩ := Except.bind_eq_ok_iff.mp h
  obtain ⟨newId, -, h⟩ := Except.bind_eq_ok_iff.mp h
  split at h
  · split at h
    · cases h
    · cases h
      exact ⟨⟨newId, stored, hstored, rfl⟩, rfl, rfl⟩
  · cases h

theorem updateRow_eq_ok_some (h : updateRow eng now db id owner values = .ok (some (row, db'))) :
    ∃ r ∈ db.table.rows, isTarget id owner r ∧
      (∃ newId stored, storeAll eng values = .ok stored ∧ row = updatedRow now r newId stored) ∧
      db'.table.rows = (db.table.rows.map fun x => if x.key = r.key then row else x) ∧
      db'.table.nextKey = db.table.nextKey := by
  unfold updateRow at h
  split at h
  · cases h
  · next r hr =>
    obtain ⟨stored, hstored, h⟩ := Except.bind_eq_ok_iff.mp h
    obtain ⟨newId, -, h⟩ := Except.bind_eq_ok_iff.mp h
    refine ⟨r, List.mem_of_find?_eq_some hr, List.find?_some hr, ?_⟩
    split at h
    · split at h
      · cases h
      · split at h
        · cases h
        · cases h
          exact ⟨⟨newId, stored, hstored, rfl⟩, rfl, rfl⟩
    · cases h

/-- A row that is inserted violates nothing. -/
theorem violated_of_insertRow (h : insertRow eng db values = .ok (row, db')) :
    eng.violated db row = none := by
  unfold insertRow at h
  obtain ⟨stored, -, h⟩ := Except.bind_eq_ok_iff.mp h
  obtain ⟨newId, -, h⟩ := Except.bind_eq_ok_iff.mp h
  split at h
  · split at h
    · cases h
    · next hnone =>
      cases h
      exact hnone
  · cases h

/-- Nor does a row that is updated. -/
theorem violated_of_updateRow (h : updateRow eng now db id owner values = .ok (some (row, db'))) :
    eng.violated db row = none := by
  unfold updateRow at h
  split at h
  · cases h
  · obtain ⟨stored, -, h⟩ := Except.bind_eq_ok_iff.mp h
    obtain ⟨newId, -, h⟩ := Except.bind_eq_ok_iff.mp h
    split at h
    · split at h
      · cases h
      · split at h
        · cases h
        · next hnone =>
          cases h
          exact hnone
    · cases h

theorem deleteRow_eq_ok {n : Nat} (h : deleteRow eng db id owner = .ok (n, db')) :
    n = db.table.rows.countP (isTarget id owner) ∧
      db' = { db with table := db.table.remove (isTarget id owner) } := by
  unfold deleteRow at h
  split at h
  · cases h
  · cases h
    exact ⟨rfl, rfl⟩

/-- A deletion that finds no row leaves the table as it is. -/
theorem eq_of_deleteRow_zero (h : deleteRow eng db id owner = .ok (0, db')) : db' = db := by
  obtain ⟨hn, rfl⟩ := deleteRow_eq_ok h
  have hnone : ∀ r ∈ db.table.rows, ¬ isTarget id owner r := List.countP_eq_zero.mp hn.symm
  have hrows : db.table.remove (isTarget id owner) = db.table := by
    have hfilter : (db.table.rows.filter fun r => !isTarget id owner r) = db.table.rows :=
      List.filter_eq_self.mpr fun r hr => by simpa using hnone r hr
    obtain ⟨⟨rows, nextKey, _, _, _⟩, _⟩ := db
    simp only [Table.remove, Table.mk.injEq] at hfilter ⊢
    exact ⟨hfilter, trivial⟩
  rw [hrows]

/-- A column that is set stores the value it is bound to, and no other column is set. -/
theorem storeAll_eq_ok {stored : String → Option Value} (h : storeAll eng values = .ok stored)
    (col : String) :
    (values.lookup col = none → stored col = none) ∧
      ∀ v, values.lookup col = some v → ∃ w, eng.store col v = some w ∧ stored col = some w := by
  unfold storeAll at h
  split at h
  · next hall =>
    cases h
    dsimp only
    refine ⟨fun hnone => by rw [hnone, Option.bind_none], fun v hv => ?_⟩
    obtain ⟨l₁, l₂, hl, -⟩ := List.lookup_eq_some_iff.mp hv
    have hmem : (col, v) ∈ values := hl ▸ List.mem_append_right l₁ List.mem_cons_self
    obtain ⟨w, hw⟩ := Option.isSome_iff_exists.mp (List.all_eq_true.mp hall (col, v) hmem)
    exact ⟨w, hw, by rw [hv, Option.bind_some, hw]⟩
  · cases h

/-- The order in which the columns are set plays no role. -/
theorem storeAll_eq_of_perm {values' : List (String × Value)} (hnodup : (values.map Prod.fst).Nodup)
    (h : values.Perm values') : storeAll eng values = storeAll eng values' := by
  have hlookup : (fun col => (values.lookup col).bind (eng.store col))
      = fun col => (values'.lookup col).bind (eng.store col) := by
    funext col
    rw [AssocList.lookup_eq_of_perm hnodup h]
  unfold storeAll
  rw [hlookup, h.all_eq]

end Effects

/-! ### The owner of a row -/

theorem ownerClause_iff {field user : String} {r : Row} :
    ownerClause (some (field, user)) r = true ↔ r.get field = .text user := by
  rw [ownerClause, beq_iff_eq]
  constructor
  · intro h
    cases hcell : r.get field with
    | text s =>
      rw [hcell] at h
      have heq : textCmp s user = .eq := Option.some.inj h
      rw [textCmp_eq_iff.mp heq]
    | null => rw [hcell] at h; cases h
    | integer i => rw [hcell] at h; cases h
    | real f => rw [hcell] at h; cases h
    | blob b => rw [hcell] at h; cases h
  · intro h
    rw [h]
    have heq : compare (utf8 user) (utf8 user) = .eq := Std.ReflOrd.compare_self
    exact congrArg some heq

end Drust.RecordStore
