import Mathlib

/-!
# Tables that number their rows

A table that gives each new row the number after the highest one it has ever given. A row that is
deleted leaves its number unused, so a number names one row for good. `numbered` is what is
inserted for some rows.
-/

/-- Rows under their numbers, and the highest number that was given. -/
structure SerialTable (ρ : Type) where
  entries : List (Nat × ρ)
  seq : Nat
  nodup : (entries.map Prod.fst).Nodup
  le_seq : ∀ e ∈ entries, e.1 ≤ seq

namespace SerialTable

variable {ρ : Type} {t : SerialTable ρ} {n i : Nat} {r r' : ρ}

def empty : SerialTable ρ := ⟨[], 0, List.nodup_nil, List.forall_mem_nil _⟩

/-- The row under a number. -/
def get (t : SerialTable ρ) (i : Nat) : Option ρ :=
  (t.entries.find? fun e => e.1 == i).map Prod.snd

theorem eq_of_mem (h : (i, r) ∈ t.entries) (h' : (i, r') ∈ t.entries) : r = r' :=
  congrArg Prod.snd (List.inj_on_of_nodup_map t.nodup h h' rfl)

theorem mem_of_get (h : t.get i = some r) : (i, r) ∈ t.entries := by
  obtain ⟨⟨j, r⟩, hfind, rfl⟩ := Option.map_eq_some_iff.mp h
  obtain rfl : j = i := by simpa using List.find?_some hfind
  exact List.mem_of_find?_eq_some hfind

/-! ### Inserting -/

/-- Some rows under the numbers after `n`. -/
def numbered : Nat → List ρ → List (Nat × ρ)
  | _, [] => []
  | n, r :: rs => (n + 1, r) :: numbered (n + 1) rs

theorem map_fst_numbered (n : Nat) (rs : List ρ) :
    (numbered n rs).map Prod.fst = List.range' (n + 1) rs.length := by
  induction rs generalizing n with
  | nil => rfl
  | cons r rs ih => rw [numbered, List.map_cons, ih, List.length_cons, List.range'_succ]

theorem numbered_append (n : Nat) (rs rs' : List ρ) :
    numbered n (rs ++ rs') = numbered n rs ++ numbered (n + rs.length) rs' := by
  induction rs generalizing n with
  | nil => rfl
  | cons r rs ih =>
    rw [List.cons_append, numbered, ih, numbered, List.cons_append, List.length_cons,
      Nat.add_right_comm, Nat.add_assoc n]

theorem lt_of_mem_numbered {rs : List ρ} {e : Nat × ρ} (h : e ∈ numbered n rs) :
    n < e.1 ∧ e.1 ≤ n + rs.length := by
  have hmem := List.mem_map_of_mem (f := Prod.fst) h
  rw [map_fst_numbered, List.mem_range'_1] at hmem
  omega

theorem nodup_append (t : SerialTable ρ) (rs : List ρ) :
    ((t.entries ++ numbered t.seq rs).map Prod.fst).Nodup := by
  rw [List.map_append, map_fst_numbered, List.nodup_append']
  refine ⟨t.nodup, List.nodup_range' .., ?_⟩
  intro i hi hi'
  obtain ⟨e, he, rfl⟩ := List.mem_map.mp hi
  have hle := t.le_seq e he
  rw [List.mem_range'_1] at hi'
  omega

def insertAll (t : SerialTable ρ) (rs : List ρ) : SerialTable ρ where
  entries := t.entries ++ numbered t.seq rs
  seq := t.seq + rs.length
  nodup := t.nodup_append rs
  le_seq := by
    intro e he
    obtain he | he := List.mem_append.mp he
    · exact (t.le_seq e he).trans (Nat.le_add_right _ _)
    · exact (lt_of_mem_numbered he).2

def insert (t : SerialTable ρ) (r : ρ) : SerialTable ρ :=
  t.insertAll [r]

/-! ### Changing and deleting -/

def delete (t : SerialTable ρ) (p : Nat → ρ → Bool) : SerialTable ρ where
  entries := t.entries.filter fun e => !p e.1 e.2
  seq := t.seq
  nodup := (List.filter_sublist.map Prod.fst).nodup t.nodup
  le_seq := fun e he => t.le_seq e (List.mem_of_mem_filter he)

theorem mem_delete {p : Nat → ρ → Bool} {e : Nat × ρ} :
    e ∈ (t.delete p).entries ↔ e ∈ t.entries ∧ p e.1 e.2 = false := by
  simp [delete]

/-- The rows that are selected are changed. -/
def update (t : SerialTable ρ) (p : Nat → ρ → Bool) (f : ρ → ρ) : SerialTable ρ where
  entries := t.entries.map fun e => (e.1, if p e.1 e.2 then f e.2 else e.2)
  seq := t.seq
  nodup := by
    rw [List.map_map]
    exact t.nodup
  le_seq := by
    intro e he
    obtain ⟨e', he', rfl⟩ := List.mem_map.mp he
    exact t.le_seq e' he'

theorem get_update {p : Nat → ρ → Bool} {f : ρ → ρ} :
    (t.update p f).get i = (t.get i).map fun r => if p i r then f r else r := by
  unfold get update
  rw [List.find?_map, Option.map_map, Option.map_map]
  -- the entries have the numbers that they had
  change Option.map _ (t.entries.find? fun e => e.1 == i) = _
  refine Option.map_congr fun e he => ?_
  obtain rfl : e.1 = i := by simpa using List.find?_some he
  rfl

theorem mem_update {p : Nat → ρ → Bool} {f : ρ → ρ} {e : Nat × ρ}
    (h : e ∈ (t.update p f).entries) :
    ∃ r, (e.1, r) ∈ t.entries ∧ e.2 = if p e.1 r then f r else r := by
  obtain ⟨⟨i, r⟩, he, rfl⟩ := List.mem_map.mp h
  exact ⟨r, he, rfl⟩

end SerialTable
