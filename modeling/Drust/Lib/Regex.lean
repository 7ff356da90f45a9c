import Mathlib

/-!
# Anchored patterns of a regular expression

The part of the syntax in which a pattern is anchored at both ends, has no group and repeats
nothing but the dot. What a pattern matches is a language: the product of the languages of its
pieces.
-/

namespace Regex

/-- `s`: the dot matches a line feed. `i`: letters match without regard to case. -/
structure Flags where
  dotMatchesNewLine : Bool
  caseInsensitive : Bool
  deriving DecidableEq

inductive Piece where
  | any
  | run
  | lit (c : Char)
  deriving DecidableEq

/-! ### Syntax -/

/-- What does not stand for itself. -/
def special : List Char :=
  "\\.+*?()|[\x7b^$".toList

/-- What stands for itself after a backslash. -/
def escapable : List Char :=
  "\\.+*?()|[]\x7b\x7d^$#&-~".toList

/-- The pieces up to the end of the pattern. -/
def parsePieces : List Char → Option (List Piece)
  | [] => none
  | '$' :: cs => if cs = [] then some [] else none
  | '.' :: '*' :: cs => (parsePieces cs).map (.run :: ·)
  | '.' :: cs => (parsePieces cs).map (.any :: ·)
  | '\\' :: c :: cs => if c ∈ escapable then (parsePieces cs).map (.lit c :: ·) else none
  | c :: cs => if c ∈ special then none else (parsePieces cs).map (.lit c :: ·)

def parse : List Char → Option (Flags × List Piece)
  | '(' :: '?' :: 's' :: 'i' :: ')' :: '^' :: cs => (parsePieces cs).map (⟨true, true⟩, ·)
  | '^' :: cs => (parsePieces cs).map (⟨false, false⟩, ·)
  | _ => none

theorem parsePieces_lit {c : Char} (h : c ∉ special) (cs : List Char) :
    parsePieces (c :: cs) = (parsePieces cs).map (.lit c :: ·) := by
  have hdollar : c ≠ '$' := fun heq => h (heq ▸ by decide)
  have hdot : c ≠ '.' := fun heq => h (heq ▸ by decide)
  have hbackslash : c ≠ '\\' := fun heq => h (heq ▸ by decide)
  rw [parsePieces.eq_def]
  split
  · cases ‹c :: cs = []›
  all_goals grind

theorem parsePieces_escape {c : Char} (h : c ∈ escapable) (cs : List Char) :
    parsePieces ('\\' :: c :: cs) = (parsePieces cs).map (.lit c :: ·) := by
  rw [parsePieces, if_pos h]

theorem parsePieces_run (cs : List Char) :
    parsePieces ('.' :: '*' :: cs) = (parsePieces cs).map (.run :: ·) := rfl

/-- A dot that no star follows. -/
theorem parsePieces_any {c : Char} (h : c ≠ '*') (cs : List Char) :
    parsePieces ('.' :: c :: cs) = (parsePieces (c :: cs)).map (.any :: ·) := by
  rw [parsePieces.eq_def]
  grind

/-! ### Meaning -/

variable {fl : Flags} {s : List Char} {ps : List Piece}

def Flags.Dot (fl : Flags) (c : Char) : Prop :=
  fl.dotMatchesNewLine = true ∨ c ≠ '\n'

def Flags.Same (fl : Flags) (c d : Char) : Prop :=
  c = d ∨ fl.caseInsensitive = true ∧ c.toLower = d.toLower

/-- The texts of one character with a property. -/
def charIn (P : Char → Prop) : Language Char :=
  {s | ∃ c, P c ∧ s = [c]}

def Piece.language (fl : Flags) : Piece → Language Char
  | .any => charIn fl.Dot
  | .run => KStar.kstar (charIn fl.Dot)
  | .lit c => charIn (fl.Same c)

/-- What a pattern matches. -/
def language (fl : Flags) (ps : List Piece) : Language Char :=
  (ps.map (Piece.language fl)).prod

theorem mem_charIn_mul {P : Char → Prop} {l : Language Char} :
    s ∈ charIn P * l ↔ ∃ c s', s = c :: s' ∧ P c ∧ s' ∈ l := by
  rw [Language.mem_mul]
  constructor
  · rintro ⟨_, ⟨c, hc, rfl⟩, s', hs', rfl⟩
    exact ⟨c, s', rfl, hc, hs'⟩
  · rintro ⟨c, s', rfl, hc, hs'⟩
    exact ⟨[c], ⟨c, hc, rfl⟩, s', hs', rfl⟩

theorem mem_kstar_charIn {P : Char → Prop} : s ∈ KStar.kstar (charIn P) ↔ ∀ c ∈ s, P c := by
  rw [Language.mem_kstar]
  constructor
  · rintro ⟨parts, rfl, hparts⟩ c hc
    obtain ⟨part, hpart, hc⟩ := List.mem_flatten.mp hc
    obtain ⟨d, hd, rfl⟩ := hparts part hpart
    rwa [List.mem_singleton.mp hc]
  · intro h
    refine ⟨s.map (fun c => [c]), ?_, fun part hpart => ?_⟩
    · rw [← List.flatMap_def, List.flatMap_singleton']
    · obtain ⟨c, hc, rfl⟩ := List.mem_map.mp hpart
      exact ⟨c, h c hc, rfl⟩

theorem mem_language_nil : s ∈ language fl [] ↔ s = [] := Language.mem_one s

theorem mem_language_any :
    s ∈ language fl (.any :: ps) ↔ ∃ c s', s = c :: s' ∧ fl.Dot c ∧ s' ∈ language fl ps := by
  rw [language, List.map_cons, List.prod_cons]
  exact mem_charIn_mul

theorem mem_language_lit {p : Char} :
    s ∈ language fl (.lit p :: ps) ↔ ∃ c s', s = c :: s' ∧ fl.Same p c ∧ s' ∈ language fl ps := by
  rw [language, List.map_cons, List.prod_cons]
  exact mem_charIn_mul

theorem mem_language_run : s ∈ language fl (.run :: ps) ↔
    ∃ u v, s = u ++ v ∧ (∀ c ∈ u, fl.Dot c) ∧ v ∈ language fl ps := by
  rw [language, List.map_cons, List.prod_cons, Language.mem_mul]
  constructor
  · rintro ⟨u, hu, v, hv, rfl⟩
    exact ⟨u, v, rfl, mem_kstar_charIn.mp hu, hv⟩
  · rintro ⟨u, v, rfl, hu, hv⟩
    exact ⟨u, mem_kstar_charIn.mpr hu, v, hv, rfl⟩

end Regex
