import Drust.Lib.Ascii

/-!
# `LIKE`

What a pattern matches: `%` is any run of characters, `_` one character, and everything else
matches itself without regard to the case of the letters of ASCII. A pattern without a wildcard
matches the texts that differ from it in case only.

The texts are C strings for SQLite: it reads both up to the first NUL (`readText`).
-/

namespace Sql

inductive Like : List Char → List Char → Prop where
  | nil : Like [] []
  | run {ps s : List Char} (u : List Char) : Like ps s → Like ('%' :: ps) (u ++ s)
  | one {ps s : List Char} (c : Char) : Like ps s → Like ('_' :: ps) (c :: s)
  | char {p c : Char} {ps s : List Char} : p ≠ '%' → p ≠ '_' → p.toLower = c.toLower →
      Like ps s → Like (p :: ps) (c :: s)

variable {p : Char} {ps s : List Char}

theorem like_nil_iff : Like [] s ↔ s = [] := by
  constructor
  · rintro ⟨⟩
    rfl
  · rintro rfl
    exact .nil

theorem like_run_iff : Like ('%' :: ps) s ↔ ∃ u v, s = u ++ v ∧ Like ps v := by
  constructor
  · intro h
    cases h with
    | run u h => exact ⟨u, _, rfl, h⟩
    | char hrun => exact absurd rfl hrun
  · rintro ⟨u, v, rfl, h⟩
    exact .run u h

theorem like_one_iff : Like ('_' :: ps) s ↔ ∃ c s', s = c :: s' ∧ Like ps s' := by
  constructor
  · intro h
    cases h with
    | one c h => exact ⟨c, _, rfl, h⟩
    | char _ hone => exact absurd rfl hone
  · rintro ⟨c, s', rfl, h⟩
    exact .one c h

theorem like_char_iff (hrun : p ≠ '%') (hone : p ≠ '_') : Like (p :: ps) s ↔
    ∃ c s', s = c :: s' ∧ p.toLower = c.toLower ∧ Like ps s' := by
  constructor
  · intro h
    cases h with
    | run => exact absurd rfl hrun
    | one => exact absurd rfl hone
    | char _ _ hc h => exact ⟨_, _, rfl, hc, h⟩
  · rintro ⟨c, s', rfl, hc, h⟩
    exact .char hrun hone hc h

theorem like_iff_of_plain (hps : ∀ p ∈ ps, p ≠ '%' ∧ p ≠ '_') :
    Like ps s ↔ ps.map Char.toLower = s.map Char.toLower := by
  induction ps generalizing s with
  | nil =>
    rw [like_nil_iff, List.map_nil]
    exact ⟨fun h => by rw [h, List.map_nil], fun h => List.map_eq_nil_iff.mp h.symm⟩
  | cons p ps ih =>
    obtain ⟨⟨hrun, hone⟩, hps⟩ := List.forall_mem_cons.mp hps
    rw [like_char_iff hrun hone, List.map_cons, eq_comm, List.map_eq_cons_iff]
    constructor
    · rintro ⟨c, s', rfl, hc, h⟩
      exact ⟨c, s', rfl, hc.symm, ((ih hps).mp h).symm⟩
    · rintro ⟨c, s', rfl, hc, h⟩
      exact ⟨c, s', rfl, hc.symm, (ih hps).mpr h.symm⟩

/-! ### Reading -/

/-- The noncharacters U+FFFE and U+FFFF are read as the replacement character. -/
def readChar (c : Char) : Char :=
  if c.toNat = 0xFFFE ∨ c.toNat = 0xFFFF then Char.ofNat 0xFFFD else c

/-- A pattern or a text as it is read. -/
def readText (cs : List Char) : List Char :=
  (cs.takeWhile (· ≠ Char.ofNat 0)).map readChar

/-- Texts in which nothing of this occurs are read as they are. -/
theorem readText_eq_self {cs : List Char}
    (h : ∀ c ∈ cs, 0 < c.toNat ∧ c.toNat ≠ 0xFFFE ∧ c.toNat ≠ 0xFFFF) : readText cs = cs := by
  have hwhole : cs.takeWhile (· ≠ Char.ofNat 0) = cs := by
    rw [List.takeWhile_eq_self_iff]
    intro c hc
    rw [decide_eq_true_eq]
    rintro rfl
    exact absurd (h _ hc).1 (by decide)
  have hsame : ∀ c ∈ cs, readChar c = id c := by
    intro c hc
    obtain ⟨-, hfirst, hsecond⟩ := h c hc
    exact if_neg (not_or.mpr ⟨hfirst, hsecond⟩)
  rw [readText, hwhole, List.map_congr_left hsame, List.map_id]

/-- The longest pattern that SQLite takes, in bytes. -/
def maxLikePatternLength : Nat := 50000

end Sql
