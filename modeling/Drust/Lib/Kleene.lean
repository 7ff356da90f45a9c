import Mathlib

/-!
# Kleene's strong three-valued logic

A `WHERE` clause is not a Boolean: a comparison with `NULL` is neither true nor
false, and only a row whose condition is *true* is admitted. `Tri` is the type of
the three verdicts, with the connectives of the strong Kleene tables.

The n-ary connectives `allOf` and `anyOf` are right folds. A parser that reads
`a AND b AND c` associates to the left, so the left fold is related to them once,
in `foldl_and` and `foldl_or`.
-/

namespace Kleene

/-- A verdict of the strong Kleene logic. -/
inductive Tri where
  | true
  | false
  | unknown
  deriving DecidableEq, Repr

namespace Tri

/-- The verdict of a two-valued test. -/
def ofBool (b : Bool) : Tri :=
  if b then .true else .false

/-- Negation: `unknown` stays `unknown`. -/
def not : Tri → Tri
  | .true => .false
  | .false => .true
  | .unknown => .unknown

/-- Conjunction: `false` dominates, then `unknown`. -/
def and : Tri → Tri → Tri
  | .false, _ => .false
  | _, .false => .false
  | .true, .true => .true
  | _, _ => .unknown

/-- Disjunction: `true` dominates, then `unknown`. -/
def or : Tri → Tri → Tri
  | .true, _ => .true
  | _, .true => .true
  | .false, .false => .false
  | _, _ => .unknown

/-- The conjunction of a list of verdicts; the empty conjunction is `true`. -/
def allOf (ts : List Tri) : Tri :=
  ts.foldr and .true

/-- The disjunction of a list of verdicts; the empty disjunction is `false`. -/
def anyOf (ts : List Tri) : Tri :=
  ts.foldr or .false

@[simp] theorem allOf_nil : allOf [] = .true := rfl

@[simp] theorem allOf_cons (t : Tri) (ts : List Tri) :
    allOf (t :: ts) = t.and (allOf ts) := rfl

@[simp] theorem anyOf_nil : anyOf [] = .false := rfl

@[simp] theorem anyOf_cons (t : Tri) (ts : List Tri) :
    anyOf (t :: ts) = t.or (anyOf ts) := rfl

@[simp] theorem ofBool_eq_true_iff (b : Bool) : ofBool b = .true ↔ b = Bool.true := by
  cases b <;> simp [ofBool]

@[simp] theorem ofBool_eq_false_iff (b : Bool) : ofBool b = .false ↔ b = Bool.false := by
  cases b <;> simp [ofBool]

@[simp] theorem and_eq_true_iff (a b : Tri) : a.and b = .true ↔ a = .true ∧ b = .true := by
  cases a <;> cases b <;> simp [and]

@[simp] theorem or_eq_true_iff (a b : Tri) : a.or b = .true ↔ a = .true ∨ b = .true := by
  cases a <;> cases b <;> simp [or]

@[simp] theorem and_eq_false_iff (a b : Tri) : a.and b = .false ↔ a = .false ∨ b = .false := by
  cases a <;> cases b <;> simp [and]

@[simp] theorem not_eq_true_iff (a : Tri) : a.not = .true ↔ a = .false := by
  cases a <;> simp [not]

@[simp] theorem or_eq_false_iff (a b : Tri) : a.or b = .false ↔ a = .false ∧ b = .false := by
  cases a <;> cases b <;> simp [or]

@[simp] theorem and_true (a : Tri) : a.and .true = a := by
  cases a <;> rfl

@[simp] theorem true_and (a : Tri) : Tri.true.and a = a := by
  cases a <;> rfl

@[simp] theorem or_false (a : Tri) : a.or .false = a := by
  cases a <;> rfl

@[simp] theorem false_or (a : Tri) : Tri.false.or a = a := by
  cases a <;> rfl

theorem and_assoc (a b c : Tri) : (a.and b).and c = a.and (b.and c) := by
  cases a <;> cases b <;> cases c <;> rfl

theorem or_assoc (a b c : Tri) : (a.or b).or c = a.or (b.or c) := by
  cases a <;> cases b <;> cases c <;> rfl

/-- An n-ary conjunction is true when every conjunct is. -/
theorem allOf_eq_true_iff (ts : List Tri) : allOf ts = .true ↔ ∀ t ∈ ts, t = .true := by
  induction ts with
  | nil => simp
  | cons t ts ih => simp [ih]

/-- An n-ary conjunction is false when some conjunct is. -/
theorem allOf_eq_false_iff (ts : List Tri) : allOf ts = .false ↔ .false ∈ ts := by
  induction ts with
  | nil => simp
  | cons t ts ih => rw [allOf_cons, and_eq_false_iff, ih, List.mem_cons, eq_comm]

/-- An n-ary disjunction is true when some disjunct is. -/
theorem anyOf_eq_true_iff (ts : List Tri) : anyOf ts = .true ↔ .true ∈ ts := by
  induction ts with
  | nil => simp
  | cons t ts ih => rw [anyOf_cons, or_eq_true_iff, ih, List.mem_cons, eq_comm]

/-- An n-ary disjunction is false when every disjunct is. -/
theorem anyOf_eq_false_iff (ts : List Tri) : anyOf ts = .false ↔ ∀ t ∈ ts, t = .false := by
  induction ts with
  | nil => simp
  | cons t ts ih => simp [ih]

/-! ### Left folds -/

/-- A left-associated conjunction is the n-ary one. -/
theorem foldl_and (ts : List Tri) (a : Tri) : ts.foldl and a = a.and (allOf ts) := by
  induction ts generalizing a with
  | nil => simp
  | cons t ts ih => rw [List.foldl_cons, ih, and_assoc, allOf_cons]

/-- A left-associated disjunction is the n-ary one. -/
theorem foldl_or (ts : List Tri) (a : Tri) : ts.foldl or a = a.or (anyOf ts) := by
  induction ts generalizing a with
  | nil => simp
  | cons t ts ih => rw [List.foldl_cons, ih, or_assoc, anyOf_cons]

end Tri

end Kleene
