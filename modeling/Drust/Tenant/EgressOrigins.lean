import Drust.Lib.Ascii
import Drust.Lib.Digits
import Drust.Lib.Result
import Drust.Tenant.Egress
import Mathlib.Data.List.DropRight

/-!
# Normalized origins are normalized again

An accepted entry of an allowlist is stored with its normalized origin, and every check
normalizes what is stored once more. So an entry lets its own origin through only if the
normalized origin is a fixed point. It is one where nothing is left for a second pass: an
authority that ends in whitespace, before a path, loses it then, and one whose default port was
dropped may still end in something that is read as a port.
-/

namespace Drust

namespace Egress

open ExecWrite (trim lower trimStart isWhitespace)
open Ascii Digits

/-! ### The two parts of normalization -/

/-- The scheme of a URL, in lower case, and its authority. -/
def located (cs : List Char) : Option (List Char × List Char) :=
  (splitOnce "://".toList cs).bind (fun p =>
    let scheme := lower p.1
    let authority := p.2.takeWhile (fun c => c ≠ '/' ∧ c ≠ '?' ∧ c ≠ '#')
    if (scheme ≠ "http".toList ∧ scheme ≠ "https".toList) ∨ authority = [] ∨ '@' ∈ authority then
      none
    else some (scheme, authority))

def IsDefault (scheme : List Char) (p : Nat) : Prop :=
  (scheme = "http".toList ∧ p = 80) ∨ (scheme = "https".toList ∧ p = 443)

instance (scheme : List Char) (p : Nat) : Decidable (IsDefault scheme p) :=
  inferInstanceAs (Decidable (_ ∨ _))

/-- What is written for a port. -/
def portText (scheme : List Char) : Option Nat → List Char
  | some p => if IsDefault scheme p then [] else ':' :: Nat.toDigits 10 p
  | none => []

/-- The authority of the normalized origin. -/
def reduce (scheme authority : List Char) : Option (List Char) :=
  (splitPort authority).bind (fun p =>
    if p.1 = [] then none else some (lower p.1 ++ portText scheme p.2))

theorem normalizeOrigin_eq (raw : String) : normalizeOrigin raw =
    (located (trim raw.toList)).bind (fun p =>
      (reduce p.1 p.2).map (fun rest => String.ofList (p.1 ++ "://".toList ++ rest))) := by
  unfold normalizeOrigin located reduce
  cases splitOnce "://".toList (trim raw.toList) with
  | none => rfl
  | some p =>
    obtain ⟨scheme, rest⟩ := p
    simp only [Option.bind_eq_bind, Option.bind_some, Option.pure_def]
    by_cases hscheme : lower scheme ≠ "http".toList ∧ lower scheme ≠ "https".toList
    · have hrefused : (lower scheme ≠ "http".toList ∧ lower scheme ≠ "https".toList) ∨
          rest.takeWhile (fun c => c ≠ '/' ∧ c ≠ '?' ∧ c ≠ '#') = [] ∨
            '@' ∈ rest.takeWhile (fun c => c ≠ '/' ∧ c ≠ '?' ∧ c ≠ '#') := .inl hscheme
      rw [if_pos hscheme, if_pos hrefused]
      rfl
    by_cases hauthority : rest.takeWhile (fun c => c ≠ '/' ∧ c ≠ '?' ∧ c ≠ '#') = [] ∨
        '@' ∈ rest.takeWhile (fun c => c ≠ '/' ∧ c ≠ '?' ∧ c ≠ '#')
    · rw [if_neg hscheme, if_pos hauthority, if_pos (.inr hauthority)]
      rfl
    rw [if_neg hscheme, if_neg hauthority, if_neg (not_or.mpr ⟨hscheme, hauthority⟩)]
    simp only [Option.bind_some]
    cases splitPort (rest.takeWhile (fun c => c ≠ '/' ∧ c ≠ '?' ∧ c ≠ '#')) with
    | none => rfl
    | some p =>
      obtain ⟨host, port⟩ := p
      simp only [Option.bind_some]
      by_cases hhost : host = []
      · rw [if_pos hhost, if_pos hhost]
        rfl
      rw [if_neg hhost, if_neg hhost, Option.map_some]
      cases port with
      | none => simp only [portText, List.append_nil, List.append_assoc]
      | some p =>
        simp only [portText]
        by_cases hdefault : IsDefault (lower scheme) p
        · rw [if_pos hdefault]
          simp only [IsDefault] at hdefault
          rw [if_pos hdefault, List.append_nil, List.append_assoc]
        · rw [if_neg hdefault]
          simp only [IsDefault] at hdefault
          rw [if_neg hdefault, Nat.toString_eq_ofList_toDigits]
          simp only [String.toList_ofList, List.append_assoc]

/-! ### Lower case -/

theorem lower_eq_map (cs : List Char) : lower cs = cs.map Char.toLower := by
  refine List.map_congr_left fun c _ => ?_
  by_cases h : 'A' ≤ c ∧ c ≤ 'Z'
  · exact if_pos h
  · have hlower : c.toLower = c := dif_neg h
    rw [if_neg h, hlower]

theorem lower_append (cs ds : List Char) : lower (cs ++ ds) = lower cs ++ lower ds := List.map_append

theorem length_lower (cs : List Char) : (lower cs).length = cs.length := List.length_map _

theorem lower_lower (cs : List Char) : lower (lower cs) = lower cs := by
  rw [lower_eq_map, lower_eq_map, List.map_map]
  exact List.map_congr_left fun c _ => toLower_toLower c

theorem mem_lower_iff {d : Char} (hd : d.toNat < 65) (cs : List Char) : d ∈ lower cs ↔ d ∈ cs := by
  rw [lower_eq_map, List.mem_map]
  constructor
  · rintro ⟨c, hc, h⟩
    rwa [← (toLower_eq_iff hd).mp h]
  · exact fun h => ⟨d, h, (toLower_eq_iff hd).mpr rfl⟩

theorem lower_eq_self_of_digits {ds : List Char} (h : AllDigits ds) : lower ds = ds := by
  rw [lower_eq_map]
  refine (List.map_congr_left fun c hc => ?_).trans ds.map_id
  obtain ⟨-, hbound⟩ := digit_bounds (h c hc)
  have hsmall : c.toNat < 65 := by
    change c.toNat - 48 < 10 at hbound
    omega
  exact (toLower_eq_iff hsmall).mpr rfl

theorem isWhitespace_toLower (c : Char) : isWhitespace c.toLower = isWhitespace c := by
  obtain h | ⟨hlow, hhigh, h⟩ := toLower_spec c
  · rw [h]
  · simp only [isWhitespace, h]
    grind

/-! ### Trimming -/

def trimEnd (cs : List Char) : List Char :=
  cs.rdropWhile isWhitespace

theorem trimEnd_initial (cs : List Char) : trimEnd cs <+: cs := List.rdropWhile_prefix _ _

theorem trimEnd_eq_self_of_length {cs : List Char} (h : cs.length ≤ (trimEnd cs).length) :
    trimEnd cs = cs :=
  (trimEnd_initial cs).eq_of_length_le h

theorem trimEnd_append (cs ds : List Char) :
    trimEnd (cs ++ ds) = if trimEnd ds = [] then trimEnd cs else cs ++ trimEnd ds := by
  simp only [trimEnd, List.rdropWhile, List.reverse_append, List.dropWhile_append]
  by_cases h : ds.reverse.dropWhile isWhitespace = []
  · simp [h]
  · simp [h]

theorem trimEnd_concat {c : Char} (h : isWhitespace c = false) (cs : List Char) :
    trimEnd (cs ++ [c]) = cs ++ [c] :=
  List.rdropWhile_concat_neg _ _ _ (by simp [h])

theorem trimEnd_lower (cs : List Char) : trimEnd (lower cs) = lower (trimEnd cs) := by
  have hcongr : isWhitespace ∘ Char.toLower = isWhitespace := funext isWhitespace_toLower
  simp only [trimEnd, List.rdropWhile, lower_eq_map, ← List.map_reverse, List.dropWhile_map, hcongr]

/-- A text that begins with another character is trimmed at its end only. -/
theorem trim_cons {c : Char} (h : isWhitespace c = false) (cs : List Char) :
    trim (c :: cs) = trimEnd (c :: cs) := by
  rw [trim, trimStart, trimStart, trimEnd, List.rdropWhile, List.dropWhile_cons_of_neg (by simp [h])]

/-! ### Splitting -/

theorem rsplitOnce_append {sep : Char} {ds : List Char} (h : sep ∉ ds) (cs : List Char) :
    rsplitOnce sep (cs ++ sep :: ds) = some (cs, ds) := by
  have hne : ∀ c ∈ ds.reverse, decide (c ≠ sep) = true := by
    intro c hc
    exact decide_eq_true fun heq => h (heq ▸ List.mem_reverse.mp hc)
  rw [rsplitOnce, if_pos (by simp)]
  rw [List.reverse_append, List.reverse_cons, List.append_assoc, List.singleton_append]
  rw [List.dropWhile_append_of_pos hne, List.takeWhile_append_of_pos hne]
  simp

theorem exists_append_of_mem {sep : Char} {cs : List Char} (h : sep ∈ cs) :
    ∃ hs ds, cs = hs ++ sep :: ds ∧ sep ∉ ds := by
  obtain ⟨hs, ds, heq, hnot⟩ := List.eq_append_cons_of_mem (List.mem_reverse.mpr h)
  refine ⟨ds.reverse, hs.reverse, ?_, fun hmem => hnot (List.mem_reverse.mp hmem)⟩
  rw [← cs.reverse_reverse, heq]
  simp

theorem allDigits_iff (ds : List Char) : AllDigits ds ↔ ds.all Char.isDigit = true :=
  List.all_eq_true.symm

theorem colon_notMem {ds : List Char} (h : AllDigits ds) : ':' ∉ ds :=
  fun hc => absurd (h _ hc) (by decide)

theorem splitPort_of_notMem {a : List Char} (h : ':' ∉ a) : splitPort a = some (a, none) := by
  rw [splitPort, rsplitOnce, if_neg h]

theorem splitPort_append {ds : List Char} (hds : AllDigits ds) (hne : ds ≠ [])
    (hlt : value ds < 2 ^ 16) (host : List Char) :
    splitPort (host ++ ':' :: ds) = some (host, some (value ds)) := by
  rw [splitPort, rsplitOnce_append (colon_notMem hds)]
  have hparse : parseU16 ds = some (value ds) := if_pos hlt
  simp only [hparse, if_pos (And.intro hne ((allDigits_iff ds).mp hds)), Option.map_some]

/-- The authorities that split: those without a colon, and those that end in the digits of a
port. -/
theorem splitPort_cases {a host : List Char} {port : Option Nat}
    (h : splitPort a = some (host, port)) :
    (':' ∉ a ∧ host = a ∧ port = none) ∨
      ∃ ds, a = host ++ ':' :: ds ∧ ds ≠ [] ∧ AllDigits ds ∧ value ds < 2 ^ 16 ∧
        port = some (value ds) := by
  by_cases hcolon : ':' ∈ a
  · obtain ⟨hs, ds, rfl, hnot⟩ := exists_append_of_mem hcolon
    rw [splitPort, rsplitOnce_append hnot] at h
    obtain ⟨⟨hne, hall⟩, hparsed⟩ : (ds ≠ [] ∧ ds.all Char.isDigit = true) ∧
        (parseU16 ds).map (fun n => (hs, some n)) = some (host, port) := by
      simpa using h
    have hparse : parseU16 ds = if value ds < 2 ^ 16 then some (value ds) else none := rfl
    by_cases hlt : value ds < 2 ^ 16
    · rw [hparse, if_pos hlt, Option.map_some, Option.some.injEq, Prod.mk.injEq] at hparsed
      obtain ⟨rfl, rfl⟩ := hparsed
      exact .inr ⟨ds, rfl, hne, (allDigits_iff ds).mpr hall, hlt, rfl⟩
    · rw [hparse, if_neg hlt] at hparsed
      cases hparsed
  · rw [splitPort_of_notMem hcolon, Option.some.injEq, Prod.mk.injEq] at h
    exact .inl ⟨hcolon, h.1.symm, h.2.symm⟩

/-! ### One pass over an authority -/

theorem reduce_eq_some_iff {scheme a rest : List Char} : reduce scheme a = some rest ↔
    ∃ host port, splitPort a = some (host, port) ∧ host ≠ [] ∧
      rest = lower host ++ portText scheme port := by
  unfold reduce
  cases hsplit : splitPort a with
  | none => simp
  | some p =>
    obtain ⟨host, port⟩ := p
    by_cases hhost : host = []
    · simp [hhost]
    · simp [hhost, eq_comm]

theorem portText_of_not_isDefault {scheme : List Char} {p : Nat} (h : ¬IsDefault scheme p) :
    portText scheme (some p) = ':' :: Nat.toDigits 10 p := if_neg h

theorem portText_of_isDefault {scheme : List Char} {p : Nat} (h : IsDefault scheme p) :
    portText scheme (some p) = [] := if_pos h

/-- An authority in lower case is kept, or it loses characters. -/
theorem reduce_lower {scheme a rest : List Char} (ha : lower a = a)
    (h : reduce scheme a = some rest) : rest = a ∨ rest.length < a.length := by
  obtain ⟨host, port, hsplit, -, rfl⟩ := reduce_eq_some_iff.mp h
  obtain ⟨-, rfl, rfl⟩ | ⟨ds, rfl, hne, hdigits, -, rfl⟩ := splitPort_cases hsplit
  · exact .inl (by rw [ha, portText, List.append_nil])
  rw [lower_append] at ha
  have hhost : lower host = host := (List.append_inj ha (length_lower host)).1
  rw [hhost]
  by_cases hdefault : IsDefault scheme (value ds)
  · rw [portText_of_isDefault hdefault]
    exact .inr (by simp)
  · rw [portText_of_not_isDefault hdefault]
    obtain heq | hlt := toDigits_value hdigits hne
    · exact .inl (by rw [heq])
    · exact .inr (by simpa using hlt)

theorem allDigits_portText {scheme : List Char} {port : Option Nat} {c : Char}
    (h : c ∈ portText scheme port) : c = ':' ∨ c.isDigit = true := by
  cases port with
  | none => cases h
  | some p =>
    by_cases hdefault : IsDefault scheme p
    · rw [portText_of_isDefault hdefault] at h
      cases h
    · rw [portText_of_not_isDefault hdefault] at h
      obtain rfl | hc := List.mem_cons.mp h
      · exact .inl rfl
      · exact .inr (allDigits_toDigits p c hc)

theorem lower_portText (scheme : List Char) (port : Option Nat) :
    lower (portText scheme port) = portText scheme port := by
  cases port with
  | none => rfl
  | some p =>
    by_cases hdefault : IsDefault scheme p
    · rw [portText_of_isDefault hdefault]
      rfl
    · rw [portText_of_not_isDefault hdefault, lower_eq_map, List.map_cons, ← lower_eq_map,
        lower_eq_self_of_digits (allDigits_toDigits p)]
      rfl

theorem lower_reduce {scheme a rest : List Char} (h : reduce scheme a = some rest) :
    lower rest = rest := by
  obtain ⟨host, port, -, -, rfl⟩ := reduce_eq_some_iff.mp h
  rw [lower_append, lower_lower, lower_portText]

/-- The characters that end an authority, or the part of a user in it. -/
def delimiters : List Char :=
  ['/', '?', '#', '@']

theorem delimiters_spec : ∀ d ∈ delimiters, d.toNat < 65 ∧ d ≠ ':' ∧ d.isDigit = false := by
  intro d hd
  simp only [delimiters, List.mem_cons, List.not_mem_nil, or_false] at hd
  obtain rfl | rfl | rfl | rfl := hd <;> decide

def Undelimited (a : List Char) : Prop :=
  ∀ d ∈ delimiters, d ∉ a

theorem undelimited_reduce {scheme a rest : List Char} (ha : Undelimited a)
    (h : reduce scheme a = some rest) : Undelimited rest := by
  obtain ⟨host, port, hsplit, -, rfl⟩ := reduce_eq_some_iff.mp h
  have hhost : ∀ c ∈ host, c ∈ a := by
    obtain ⟨-, rfl, -⟩ | ⟨ds, rfl, -⟩ := splitPort_cases hsplit
    · exact fun _ hc => hc
    · exact fun _ hc => List.mem_append_left _ hc
  intro d hd hmem
  obtain ⟨hsmall, hcolon, hdigit⟩ := delimiters_spec d hd
  obtain hmem | hmem := List.mem_append.mp hmem
  · exact ha d hd (hhost d ((mem_lower_iff hsmall host).mp hmem))
  · obtain heq | hdigit' := allDigits_portText hmem
    · exact hcolon heq
    · rw [hdigit] at hdigit'
      cases hdigit'

/-! ### One pass over a URL -/

theorem located_eq_some {cs scheme a : List Char} (h : located cs = some (scheme, a)) :
    (scheme = "http".toList ∨ scheme = "https".toList) ∧ Undelimited a := by
  unfold located at h
  cases hsplit : splitOnce "://".toList cs with
  | none =>
    rw [hsplit] at h
    cases h
  | some p =>
    rw [hsplit, Option.bind_some] at h
    obtain ⟨hrefused, heq⟩ := Option.ite_none_left_eq_some.mp h
    rw [Option.some.injEq, Prod.mk.injEq] at heq
    obtain ⟨rfl, rfl⟩ := heq
    obtain ⟨hscheme, hauthority⟩ := not_or.mp hrefused
    refine ⟨by grind, fun d hd hmem => ?_⟩
    have htake := of_decide_eq_true
      (List.mem_takeWhile_imp (p := fun c => decide (c ≠ '/' ∧ c ≠ '?' ∧ c ≠ '#')) hmem)
    have hat : '@' ∉ p.2.takeWhile (fun c => c ≠ '/' ∧ c ≠ '?' ∧ c ≠ '#') :=
      (not_or.mp hauthority).2
    simp only [delimiters, List.mem_cons, List.not_mem_nil, or_false] at hd
    obtain rfl | rfl | rfl | rfl := hd
    · exact htake.1 rfl
    · exact htake.2.1 rfl
    · exact htake.2.2 rfl
    · exact hat hmem

theorem takeWhile_eq_self_of_undelimited {a : List Char} (h : Undelimited a) :
    a.takeWhile (fun c => c ≠ '/' ∧ c ≠ '?' ∧ c ≠ '#') = a := by
  refine List.takeWhile_eq_self_iff.mpr fun c hc => decide_eq_true ⟨?_, ?_, ?_⟩
  · rintro rfl
    exact h '/' (by decide) hc
  · rintro rfl
    exact h '?' (by decide) hc
  · rintro rfl
    exact h '#' (by decide) hc

theorem located_origin {scheme a : List Char}
    (hscheme : scheme = "http".toList ∨ scheme = "https".toList) (ha : Undelimited a) (hne : a ≠ []) :
    located (scheme ++ "://".toList ++ a) = some (scheme, a) := by
  have hsplit : splitOnce "://".toList (scheme ++ "://".toList ++ a) = some (scheme, a) := by
    obtain rfl | rfl := hscheme <;> rfl
  have hlower : lower scheme = scheme := by
    obtain rfl | rfl := hscheme <;> decide
  have hrefused : ¬((scheme ≠ "http".toList ∧ scheme ≠ "https".toList) ∨ a = [] ∨ '@' ∈ a) := by
    rintro (⟨h, h'⟩ | h | h)
    · exact hscheme.elim h h'
    · exact hne h
    · exact ha '@' (by decide) h
  rw [located, hsplit, Option.bind_some]
  simp only [hlower, takeWhile_eq_self_of_undelimited ha, if_neg hrefused]

theorem trim_origin {scheme : List Char}
    (hscheme : scheme = "http".toList ∨ scheme = "https".toList) (a : List Char) :
    trim (scheme ++ "://".toList ++ a) = scheme ++ "://".toList ++ trimEnd a := by
  have hstart : trim (scheme ++ "://".toList ++ a) = trimEnd (scheme ++ "://".toList ++ a) := by
    obtain rfl | rfl := hscheme <;> exact trim_cons (by decide) _
  rw [hstart, trimEnd_append]
  split
  · next h =>
    rw [h, List.append_nil]
    obtain rfl | rfl := hscheme <;> decide
  · rfl

/-- What a pass makes of the origin that another pass has left. -/
theorem normalizeOrigin_origin {scheme a : List Char}
    (hscheme : scheme = "http".toList ∨ scheme = "https".toList) (ha : Undelimited a) :
    normalizeOrigin (String.ofList (scheme ++ "://".toList ++ a)) =
      (reduce scheme (trimEnd a)).map (fun rest => String.ofList (scheme ++ "://".toList ++ rest)) := by
  rw [normalizeOrigin_eq, String.toList_ofList, trim_origin hscheme]
  by_cases hne : trimEnd a = []
  · rw [hne]
    obtain rfl | rfl := hscheme <;> decide
  · have hprefix : Undelimited (trimEnd a) :=
      fun d hd hmem => ha d hd ((trimEnd_initial a).subset hmem)
    rw [located_origin hscheme hprefix hne, Option.bind_some]

theorem origin_injective {scheme a b : List Char}
    (h : String.ofList (scheme ++ "://".toList ++ a) = String.ofList (scheme ++ "://".toList ++ b)) :
    a = b :=
  List.append_cancel_left (String.ofList_injective h)

/-! ### Fixed points -/

/-- Nothing in the URL is left for a second pass: its port is written again, or it is not and the
host neither ends in whitespace nor in what is read as a port and not as this one. -/
def Settled (raw : String) : Prop :=
  ∀ scheme authority host port, located (trim raw.toList) = some (scheme, authority) →
    splitPort authority = some (host, port) →
      (∃ p, port = some p ∧ ¬IsDefault scheme p) ∨
        trimEnd host = host ∧ (':' ∉ host ∨ ∃ h p, lower host = h ++ ':' :: Nat.toDigits 10 p ∧
          h ≠ [] ∧ p < 2 ^ 16 ∧ ¬IsDefault scheme p)

theorem reduce_port {scheme host : List Char} {p : Nat} (hhost : host ≠ []) (hp : p < 2 ^ 16)
    (hdefault : ¬IsDefault scheme p) : reduce scheme (host ++ ':' :: Nat.toDigits 10 p) =
      some (lower host ++ ':' :: Nat.toDigits 10 p) := by
  have hsplit := splitPort_append (allDigits_toDigits p) Nat.toDigits_ne_nil
    (by rwa [value_toDigits]) host
  rw [value_toDigits] at hsplit
  refine reduce_eq_some_iff.mpr ⟨host, some p, hsplit, hhost, ?_⟩
  rw [portText_of_not_isDefault hdefault]

theorem trimEnd_port (host : List Char) (p : Nat) :
    trimEnd (host ++ ':' :: Nat.toDigits 10 p) = host ++ ':' :: Nat.toDigits 10 p := by
  have hne : Nat.toDigits 10 p ≠ [] := Nat.toDigits_ne_nil
  obtain ⟨ds, d, heq⟩ : ∃ ds d, Nat.toDigits 10 p = ds ++ [d] :=
    ⟨_, _, (List.dropLast_append_getLast hne).symm⟩
  have hdigit : d.isDigit = true := allDigits_toDigits p d (by simp [heq])
  have hspace : isWhitespace d = false := by
    obtain ⟨hlow, hhigh⟩ := digit_bounds hdigit
    change 48 ≤ d.toNat at hlow
    change d.toNat - 48 < 10 at hhigh
    simp only [isWhitespace]
    grind
  rw [heq, ← List.cons_append, ← List.append_assoc]
  exact trimEnd_concat hspace _

/-- The host of an origin without a port is kept by a pass where there is no port in it, or one
that is written as it stands. -/
theorem reduce_host_iff {scheme host : List Char} (hne : host ≠ []) :
    reduce scheme (lower host) = some (lower host) ↔
      (':' ∉ host ∨ ∃ h p, lower host = h ++ ':' :: Nat.toDigits 10 p ∧ h ≠ [] ∧ p < 2 ^ 16 ∧
        ¬IsDefault scheme p) := by
  have hcolon : ':' ∈ lower host ↔ ':' ∈ host := mem_lower_iff (by decide) host
  have hne' : lower host ≠ [] := fun h => hne (List.map_eq_nil_iff.mp h)
  constructor
  · intro h
    obtain ⟨h', port, hsplit, hh', heq⟩ := reduce_eq_some_iff.mp h
    obtain ⟨hnot, -, -⟩ | ⟨ds, hds, hds', hdigits, hlt, rfl⟩ := splitPort_cases hsplit
    · exact .inl fun hmem => hnot (hcolon.mpr hmem)
    by_cases hdefault : IsDefault scheme (value ds)
    · rw [portText_of_isDefault hdefault, List.append_nil] at heq
      have hlength := congrArg List.length (hds.symm.trans heq)
      rw [length_lower, List.length_append, List.length_cons] at hlength
      omega
    · rw [portText_of_not_isDefault hdefault, hds] at heq
      have htail := (List.append_inj heq (length_lower h').symm).2
      rw [List.cons.injEq] at htail
      exact .inr ⟨h', value ds, by rw [← htail.2]; exact hds, hh', hlt, hdefault⟩
  · rintro (hnot | ⟨h, p, heq, hh, hp, hdefault⟩)
    · have hnot' : ':' ∉ lower host := fun hmem => hnot (hcolon.mp hmem)
      refine reduce_eq_some_iff.mpr ⟨lower host, none, splitPort_of_notMem hnot', hne', ?_⟩
      rw [lower_lower, portText, List.append_nil]
    · have hlower : lower h = h := by
        have hall := lower_lower host
        rw [heq, lower_append] at hall
        exact (List.append_inj hall (length_lower h)).1
      rw [heq, reduce_port hh hp hdefault, hlower]

theorem trimEnd_lower_iff (host : List Char) :
    trimEnd (lower host) = lower host ↔ trimEnd host = host := by
  constructor
  · intro h
    rw [trimEnd_lower] at h
    have hlength := congrArg List.length h
    rw [length_lower, length_lower] at hlength
    exact trimEnd_eq_self_of_length hlength.ge
  · intro h
    rw [trimEnd_lower, h]

/-- A pass over an origin ends in it, or in a shorter one. -/
theorem reduce_trimEnd {scheme a rest rest' : List Char} (h : reduce scheme a = some rest)
    (h' : reduce scheme (trimEnd rest) = some rest') :
    rest' = rest ∧ trimEnd rest = rest ∨ rest'.length < rest.length := by
  have hlower : lower (trimEnd rest) = trimEnd rest := by rw [← trimEnd_lower, lower_reduce h]
  have hle := (trimEnd_initial rest).length_le
  obtain heq | hlt := Nat.eq_or_lt_of_le hle
  · have htrim : trimEnd rest = rest := trimEnd_eq_self_of_length heq.ge
    rw [htrim] at h' hlower
    exact (reduce_lower hlower h').imp (⟨·, htrim⟩) id
  · refine .inr (Nat.lt_of_le_of_lt ?_ hlt)
    exact (reduce_lower hlower h').elim (fun heq => heq ▸ Nat.le_refl _) Nat.le_of_lt

theorem reduce_trimEnd_iff {scheme a rest : List Char} (h : reduce scheme a = some rest) :
    reduce scheme (trimEnd rest) = some rest ↔
      trimEnd rest = rest ∧ reduce scheme rest = some rest := by
  constructor
  · intro h'
    obtain ⟨-, htrim⟩ | hlt := reduce_trimEnd h h'
    · exact ⟨htrim, by rwa [htrim] at h'⟩
    · omega
  · rintro ⟨htrim, h'⟩
    rwa [htrim]

theorem exists_reduce {raw o : String} (h : normalizeOrigin raw = some o) :
    ∃ scheme a rest, located (trim raw.toList) = some (scheme, a) ∧ reduce scheme a = some rest ∧
      o = String.ofList (scheme ++ "://".toList ++ rest) := by
  rw [normalizeOrigin_eq, Option.bind_eq_some_iff] at h
  obtain ⟨⟨scheme, a⟩, hlocated, h⟩ := h
  obtain ⟨rest, hreduce, rfl⟩ := Option.map_eq_some_iff.mp h
  exact ⟨scheme, a, rest, hlocated, hreduce, rfl⟩

theorem normalizeOrigin_self_iff {raw o : String} (h : normalizeOrigin raw = some o) :
    normalizeOrigin o = some o ↔ Settled raw := by
  obtain ⟨scheme, a, rest, hlocated, hreduce, rfl⟩ := exists_reduce h
  obtain ⟨hscheme, ha⟩ := located_eq_some hlocated
  have hself : normalizeOrigin (String.ofList (scheme ++ "://".toList ++ rest)) =
      some (String.ofList (scheme ++ "://".toList ++ rest)) ↔
        trimEnd rest = rest ∧ reduce scheme rest = some rest := by
    rw [normalizeOrigin_origin hscheme (undelimited_reduce ha hreduce), ← reduce_trimEnd_iff hreduce,
      Option.map_eq_some_iff]
    constructor
    · rintro ⟨rest', h', heq⟩
      obtain rfl := origin_injective heq
      exact h'
    · exact fun h' => ⟨rest, h', rfl⟩
  rw [hself]
  obtain ⟨host, port, hsplit, hne, rfl⟩ := reduce_eq_some_iff.mp hreduce
  have hsettled : Settled raw ↔ (∃ p, port = some p ∧ ¬IsDefault scheme p) ∨
      trimEnd host = host ∧ (':' ∉ host ∨ ∃ h p, lower host = h ++ ':' :: Nat.toDigits 10 p ∧
        h ≠ [] ∧ p < 2 ^ 16 ∧ ¬IsDefault scheme p) := by
    constructor
    · exact fun hall => hall scheme a host port hlocated hsplit
    · intro hone scheme' a' host' port' hlocated' hsplit'
      rw [hlocated, Option.some.injEq, Prod.mk.injEq] at hlocated'
      obtain ⟨rfl, rfl⟩ := hlocated'
      rw [hsplit, Option.some.injEq, Prod.mk.injEq] at hsplit'
      obtain ⟨rfl, rfl⟩ := hsplit'
      exact hone
  rw [hsettled]
  have hwritten : (∃ p, port = some p ∧ ¬IsDefault scheme p) ∨ portText scheme port = [] ∧
      ¬∃ p, port = some p ∧ ¬IsDefault scheme p := by
    cases port with
    | none => exact .inr ⟨rfl, by simp⟩
    | some p =>
      by_cases hdefault : IsDefault scheme p
      · exact .inr ⟨portText_of_isDefault hdefault, by simpa using hdefault⟩
      · exact .inl ⟨p, rfl, hdefault⟩
  obtain ⟨p, rfl, hdefault⟩ | ⟨hempty, hnone⟩ := hwritten
  · -- the port stands at the end, and a second pass reads it there
    have hp : p < 2 ^ 16 := by
      obtain ⟨-, -, hport⟩ | ⟨ds, -, -, -, hlt, hport⟩ := splitPort_cases hsplit
      · cases hport
      · rw [Option.some.injEq] at hport
        rwa [hport]
    have hne' : lower host ≠ [] := fun h => hne (List.map_eq_nil_iff.mp h)
    rw [portText_of_not_isDefault hdefault]
    refine iff_of_true ⟨trimEnd_port _ p, ?_⟩ (.inl ⟨p, rfl, hdefault⟩)
    rw [reduce_port hne' hp hdefault, lower_lower]
  · rw [hempty, List.append_nil, trimEnd_lower_iff, reduce_host_iff hne]
    exact (or_iff_right hnone).symm

/-! ### The stored list -/

theorem parseAllowlist_toJson (entries : List EgressEntry) :
    parseAllowlist (some (toJson entries)) = entries := by
  have hentry : ∀ e : EgressEntry,
      parseEntry (.object [("system", .string e.system.asStr), ("uri", .string e.uri)]) = some e := by
    rintro ⟨system, uri⟩
    cases system <;> rfl
  rw [toJson, parseAllowlist, List.filterMap_map]
  refine (List.filterMap_congr fun e _ => ?_).trans (List.filterMap_some)
  exact hentry e

theorem checkEgress_toJson (entries : List EgressEntry) (system : EgressSystem) (url : String) :
    checkEgress (some (toJson entries)) system url = true ↔
      ∃ target, normalizeOrigin url = some target ∧
        ∃ entry ∈ entries, entry.system = system ∧ normalizeOrigin entry.uri = some target := by
  unfold checkEgress
  cases normalizeOrigin url with
  | none => simp
  | some target => simp [parseAllowlist_toJson]

/-- What is stored for an accepted entry. -/
theorem validateEntry_ok {env : Env} {e : RawEgressEntry} {entry : EgressEntry}
    (h : validateEntry env e = .ok entry) : normalizeOrigin e.uri = some entry.uri := by
  unfold validateEntry at h
  split at h
  · cases h
  · split at h
    · cases h
    · next horigin =>
      split at h
      · cases h
      · cases h
        exact horigin

theorem validateEntries_ok {env : Env} {entries : List RawEgressEntry}
    {normalized : List EgressEntry} (h : validateEntries env entries = .ok normalized) :
    List.Forall₂ (fun e entry => normalizeOrigin e.uri = some entry.uri) entries normalized := by
  unfold validateEntries at h
  split at h
  · cases h
  · exact (Except.mapM_eq_ok_iff.mp h).imp fun _ _ hentry => validateEntry_ok hentry

/-- The list lets through what it names and nothing else: an entry's own origin and every URL that
has it, for its subsystem, and no URL whose origin is that of no entry of the subsystem. -/
def Allows (entries : List EgressEntry) : Prop :=
  (∀ entry ∈ entries, ∀ url, url = entry.uri ∨ normalizeOrigin url = some entry.uri →
    checkEgress (some (toJson entries)) entry.system url = true) ∧
  ∀ system url, (∀ entry ∈ entries, entry.system = system → normalizeOrigin url ≠ some entry.uri) →
    checkEgress (some (toJson entries)) system url = false

/-- A pass over a normalized origin that changes it makes it shorter. -/
theorem length_lt_of_changed {raw o o' : String} (h : normalizeOrigin raw = some o)
    (h' : normalizeOrigin o = some o') (hne : o' ≠ o) : o'.length < o.length := by
  obtain ⟨scheme, a, rest, hlocated, hreduce, rfl⟩ := exists_reduce h
  obtain ⟨hscheme, ha⟩ := located_eq_some hlocated
  rw [normalizeOrigin_origin hscheme (undelimited_reduce ha hreduce)] at h'
  obtain ⟨rest', hreduce', rfl⟩ := Option.map_eq_some_iff.mp h'
  obtain ⟨rfl, -⟩ | hlt := reduce_trimEnd hreduce hreduce'
  · exact absurd rfl hne
  · simp only [String.length_ofList, List.length_append]
    omega

/-- A list lets its origins through if and only if each of them is a fixed point. One that is not
could only be let through by an entry that is longer and is no fixed point either, so the longest
of them is let through by none. -/
theorem allows_iff {entries : List EgressEntry}
    (hentries : ∀ entry ∈ entries, ∃ raw, normalizeOrigin raw = some entry.uri) :
    Allows entries ↔ ∀ entry ∈ entries, normalizeOrigin entry.uri = some entry.uri := by
  constructor
  · rintro ⟨hallowed, -⟩ entry hentry
    by_contra hchanged
    let unsettled : Set EgressEntry :=
      {e | e ∈ entries ∧ normalizeOrigin e.uri ≠ some e.uri}
    have hfinite : unsettled.Finite := (List.finite_toSet entries).subset fun e he => he.1
    obtain ⟨longest, ⟨hlongest, hmoves⟩, hmax⟩ := Set.exists_max_image unsettled
      (fun e => e.uri.length) hfinite ⟨entry, hentry, hchanged⟩
    obtain ⟨raw, hraw⟩ := hentries longest hlongest
    obtain ⟨target, htarget, other, hother, -, hpass⟩ :=
      (checkEgress_toJson entries longest.system raw).mp (hallowed longest hlongest raw (.inr hraw))
    rw [hraw, Option.some.injEq] at htarget
    rw [← htarget] at hpass
    have hne : longest.uri ≠ other.uri := by
      intro heq
      rw [← heq] at hpass
      exact hmoves hpass
    obtain ⟨raw', hraw'⟩ := hentries other hother
    have hlonger := length_lt_of_changed hraw' hpass hne
    have hmoves' : normalizeOrigin other.uri ≠ some other.uri := by
      rw [hpass]
      exact fun heq => hne (Option.some.inj heq)
    have hle := hmax other ⟨hother, hmoves'⟩
    omega
  · intro hfixed
    refine ⟨fun entry hentry url hurl => ?_, fun system url hnone => ?_⟩
    · have horigin : normalizeOrigin url = some entry.uri := by
        obtain rfl | h := hurl
        · exact hfixed entry hentry
        · exact h
      exact (checkEgress_toJson _ _ _).mpr
        ⟨entry.uri, horigin, entry, hentry, rfl, hfixed entry hentry⟩
    · refine Bool.eq_false_iff.mpr fun hpass => ?_
      obtain ⟨target, htarget, entry, hentry, hsystem, huri⟩ := (checkEgress_toJson _ _ _).mp hpass
      rw [hfixed entry hentry] at huri
      exact hnone entry hentry hsystem (htarget.trans huri.symm)

/-- The origin that is accepted for a URL is a fixed point if and only if the URL is settled, and a
list that is stored lets through what it names if and only if all its URLs are. -/
theorem normalizeOrigin_idempotent_iff (env : Env) :
    (∀ raw o, normalizeOrigin raw = some o → (normalizeOrigin o = some o ↔ Settled raw)) ∧
    ∀ entries normalized, validateEntries env entries = .ok normalized →
      (Allows normalized ↔ ∀ e ∈ entries, Settled e.uri) := by
  refine ⟨fun raw o h => normalizeOrigin_self_iff h, fun entries normalized h => ?_⟩
  have hstored := validateEntries_ok h
  rw [allows_iff fun entry hentry => ?_]
  · constructor
    · intro hfixed e he
      obtain ⟨entry, hentry, hnormalized⟩ := hstored.exists_of_mem he
      exact (normalizeOrigin_self_iff hnormalized).mp (hfixed entry hentry)
    · intro hsettled entry hentry
      obtain ⟨e, he, hnormalized⟩ := hstored.flip.exists_of_mem hentry
      exact (normalizeOrigin_self_iff hnormalized).mpr (hsettled e he)
  · obtain ⟨e, -, hnormalized⟩ := hstored.flip.exists_of_mem hentry
    exact ⟨e.uri, hnormalized⟩

/-- The configuration of the examples below. -/
def plainEnv : Env where
  maxEntries := 64
  originHostIsPrivateIp := fun _ => false
  urlHost := fun _ => none
  webhookLoopbackAllowed := false

/-- A URL with two ports: the first pass drops the second one, and the origin it leaves is
refused. -/
def twoPorts : List RawEgressEntry :=
  [{ system := "webhook", uri := "http://a:b:80" }]

def onePort : List RawEgressEntry :=
  [{ system := "webhook", uri := "http://A:8080/x" }]

theorem settled_onePort : Settled "http://A:8080/x" :=
  (normalizeOrigin_self_iff (o := "http://a:8080") (by decide +kernel)).mp (by decide +kernel)

/-- The witness: a URL with a port of its own. -/
theorem normalizeOrigin_idempotent_onePort :
    normalizeOrigin "http://a:8080" = some "http://a:8080" ∧
      Allows [{ system := .webhook, uri := "http://a:8080" }] := by
  obtain ⟨hfixed, hallows⟩ := normalizeOrigin_idempotent_iff plainEnv
  refine ⟨(hfixed "http://A:8080/x" "http://a:8080" (by decide +kernel)).mpr settled_onePort, ?_⟩
  refine (hallows onePort _ (by decide +kernel)).mpr fun e he => ?_
  rw [onePort, List.mem_singleton] at he
  rw [he]
  exact settled_onePort

/-- An accepted entry whose origin is refused by the next pass, and whose URLs are denied. -/
theorem normalizeOrigin_twoPorts :
    normalizeOrigin "http://a:b:80" = some "http://a:b" ∧ normalizeOrigin "http://a:b" = none ∧
      validateEntries plainEnv twoPorts = .ok [{ system := .webhook, uri := "http://a:b" }] ∧
      checkEgress (some (toJson [{ system := .webhook, uri := "http://a:b" }])) .webhook
        "http://a:b:80" = false := by
  decide +kernel

end Egress

end Drust
