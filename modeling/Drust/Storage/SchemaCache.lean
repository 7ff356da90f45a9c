import Mathlib.Logic.Function.Basic
import Drust.Lib.Transition
import Drust.Storage.Schema

/-!
# The schema cache

Each tenant has one cache of collection schemas. A reader looks its collection up, and on a
miss describes it from the database, one query after the other, and inserts what it got. A
writer of configuration commits to the database and then drops the collection's entry. There
is no version check between a reader's queries and its insert.

The model is a transition system over any number of readers and writers. The database is
kept with its past: `State.db n` is what the `n`th commit left, and `State.version` is the
present one. Three further fields are history, which no step of the code reads: the commit
that each part of an entry was read at, `State.floor coll`, the newest commit on `coll` whose
invalidation has returned, and the floor at which a call of `ensureLoaded` started.

A query and a cache operation are atomic; the cache's lock is held for one operation only.
-/

namespace Drust

/-- The queries of `describeCollection`, by what they read. -/
inductive Part where
  | fields
  | anonCaps
  | userCaps
  | ownerField
  | vectorFields
  | ftsIndexes
  | policies
  deriving DecidableEq

/-- What a query returns. The owner field comes with its read scope. -/
def Part.Val : Part → Type
  | .fields => List Field
  | .anonCaps => Finset DmlVerb
  | .userCaps => Finset DmlVerb
  | .ownerField => Option String × Option String
  | .vectorFields => List VectorField
  | .ftsIndexes => List FtsIndex
  | .policies => CollectionPolicies

abbrev Parts := (p : Part) → p.Val

/-- What the queries of a collection see. The queries read their defaults when there is no
such collection. -/
structure Collection where
  present : Bool
  parts : Parts

/-- A description before its first query. -/
def Parts.blank : Parts
  | .fields => ([] : List Field)
  | .anonCaps => (∅ : Finset DmlVerb)
  | .userCaps => (∅ : Finset DmlVerb)
  | .ownerField => ((none, none) : Option String × Option String)
  | .vectorFields => ([] : List VectorField)
  | .ftsIndexes => ([] : List FtsIndex)
  | .policies => ({} : CollectionPolicies)

/-- A description, with the commit that each part was read at. -/
structure Entry where
  parts : Parts
  readAt : Part → Nat

def Entry.schema (e : Entry) (name : String) : CollectionSchema where
  name := name
  fields := e.parts .fields
  anonCaps := e.parts .anonCaps
  userCaps := e.parts .userCaps
  ownerField := (e.parts .ownerField).1
  readScope := (e.parts .ownerField).2
  vectorFields := e.parts .vectorFields
  ftsIndexes := e.parts .ftsIndexes
  policies := e.parts .policies

namespace SchemaCache

/-- The queries after the one for the collection itself, in order. -/
def queries : List Part :=
  [.fields, .anonCaps, .userCaps, .ownerField, .vectorFields, .ftsIndexes, .policies]

theorem mem_queries (p : Part) : p ∈ queries := by
  cases p <;> decide

instance {P : Part → Prop} [DecidablePred P] : Decidable (∀ p, P p) :=
  decidable_of_iff (∀ p ∈ queries, P p) ⟨fun h p => h p (mem_queries p), fun h p _ => h p⟩

/-- How a call of `ensureLoaded` ends. -/
inductive Answer where
  | loaded (e : Entry)
  | missing
  | failed

/-- A call of `ensureLoaded`; `floor` is the floor of the collection when it started. -/
inductive Reader where
  | idle
  /-- The lookup missed. -/
  | missed (coll : String) (floor : Nat)
  | describing (coll : String) (floor : Nat) (todo : List Part) (draft : Entry)
  | returned (coll : String) (floor : Nat) (answer : Answer)

/-- A writer of configuration. -/
inductive Writer where
  | idle
  | committed (coll : String) (version : Nat)

structure State where
  db : Nat → String → Collection
  version : Nat
  cache : String → Option Entry
  floor : String → Nat
  readers : Nat → Reader
  writers : Nat → Writer

inductive Label where
  | lookup (r : Nat) (coll : String)
  | describe (r : Nat)
  | query (r : Nat)
  | insert (r : Nat)
  /-- A query of the reader fails. -/
  | fail (r : Nat)
  | commit (w : Nat) (coll : String) (c : Collection)
  | invalidate (w : Nat)
  | clear

def init (db : String → Collection) : State where
  db := fun _ => db
  version := 0
  cache := fun _ => none
  floor := fun _ => 0
  readers := fun _ => .idle
  writers := fun _ => .idle

namespace State

/-- What a query on a collection sees. -/
def current (s : State) (coll : String) : Collection :=
  s.db s.version coll

def setReader (s : State) (r : Nat) (x : Reader) : State :=
  { s with readers := Function.update s.readers r x }

end State

/-- The first step of `ensureLoaded`. -/
def lookup (s : State) (r : Nat) (coll : String) : State :=
  match s.cache coll with
  | some e => s.setReader r (.returned coll (s.floor coll) (.loaded e))
  | none => s.setReader r (.missed coll (s.floor coll))

/-- The query for the collection itself. A collection that does not exist is not cached. -/
def describe (s : State) (r : Nat) (coll : String) (floor : Nat) : State :=
  if (s.current coll).present then
    s.setReader r (.describing coll floor queries { parts := .blank, readAt := fun _ => 0 })
  else s.setReader r (.returned coll floor .missing)

/-- One of the other queries. -/
def readPart (s : State) (coll : String) (p : Part) (draft : Entry) : Entry where
  parts := Function.update draft.parts p ((s.current coll).parts p)
  readAt := Function.update draft.readAt p s.version

def insert (s : State) (r : Nat) (coll : String) (floor : Nat) (e : Entry) : State :=
  { s with
    cache := Function.update s.cache coll (some e)
    readers := Function.update s.readers r (.returned coll floor (.loaded e)) }

def commit (s : State) (w : Nat) (coll : String) (c : Collection) : State :=
  { s with
    db := Function.update s.db (s.version + 1) (Function.update (s.db s.version) coll c)
    version := s.version + 1
    writers := Function.update s.writers w (.committed coll (s.version + 1)) }

def invalidate (s : State) (w : Nat) (coll : String) (n : Nat) : State :=
  { s with
    cache := Function.update s.cache coll none
    floor := Function.update s.floor coll (max (s.floor coll) n)
    writers := Function.update s.writers w .idle }

def step (s : State) : Label → Option State
  | .lookup r coll =>
    match s.readers r with
    | .idle => some (lookup s r coll)
    | _ => none
  | .describe r =>
    match s.readers r with
    | .missed coll floor => some (describe s r coll floor)
    | _ => none
  | .query r =>
    match s.readers r with
    | .describing coll floor (p :: todo) draft =>
      some (s.setReader r (.describing coll floor todo (readPart s coll p draft)))
    | _ => none
  | .insert r =>
    match s.readers r with
    | .describing coll floor [] draft => some (insert s r coll floor draft)
    | _ => none
  | .fail r =>
    match s.readers r with
    | .missed coll floor => some (s.setReader r (.returned coll floor .failed))
    | .describing coll floor (_ :: _) _ => some (s.setReader r (.returned coll floor .failed))
    | _ => none
  | .commit w coll c =>
    match s.writers w with
    | .idle => some (commit s w coll c)
    | _ => none
  | .invalidate w =>
    match s.writers w with
    | .committed coll n => some (invalidate s w coll n)
    | _ => none
  | .clear => some { s with cache := fun _ => none }

/-! ### What an entry is worth -/

/-- The part of the entry is that of a commit no older than the floor. -/
def Sound (s : State) (coll : String) (floor : Nat) (e : Entry) (p : Part) : Prop :=
  floor ≤ e.readAt p ∧ e.readAt p ≤ s.version ∧ e.parts p = (s.db (e.readAt p) coll).parts p

def ReaderInv (s : State) : Reader → Prop
  | .idle => True
  | .missed coll floor => floor ≤ s.floor coll
  | .describing coll floor todo draft =>
    floor ≤ s.floor coll ∧ ∀ p, p ∉ todo → Sound s coll floor draft p
  | .returned coll floor (.loaded e) => ∀ p, Sound s coll floor e p
  | .returned _ _ _ => True

/-- The invariant of the cache: an entry is as new as the last invalidation. -/
structure Inv (s : State) : Prop where
  floor_le : ∀ coll, s.floor coll ≤ s.version
  writer : ∀ w coll n, s.writers w = .committed coll n → n ≤ s.version
  cache : ∀ coll e, s.cache coll = some e → ∀ p, Sound s coll (s.floor coll) e p
  reader : ∀ r, ReaderInv s (s.readers r)

/-- A step only adds to the past. -/
structure Extends (s s' : State) : Prop where
  version : s.version ≤ s'.version
  db : ∀ n ≤ s.version, s'.db n = s.db n
  floor : ∀ coll, s.floor coll ≤ s'.floor coll

section Extends

variable {s s' : State} (h : Extends s s')

include h

theorem Extends.sound {coll : String} {floor : Nat} {e : Entry} {p : Part}
    (hs : Sound s coll floor e p) : Sound s' coll floor e p := by
  obtain ⟨hfloor, hread, hpart⟩ := hs
  refine ⟨hfloor, hread.trans h.version, ?_⟩
  rw [h.db _ hread]
  exact hpart

theorem Extends.readerInv {x : Reader} (hx : ReaderInv s x) : ReaderInv s' x := by
  cases x with
  | idle => trivial
  | missed coll floor => exact hx.trans (h.floor coll)
  | describing coll floor todo draft =>
    obtain ⟨hfloor, hdone⟩ := hx
    exact ⟨hfloor.trans (h.floor coll), fun p hp => h.sound (hdone p hp)⟩
  | returned coll floor answer =>
    cases answer with
    | loaded e => exact fun p => h.sound (hx p)
    | missing => trivial
    | failed => trivial

end Extends

theorem extends_setReader (s : State) (r : Nat) (x : Reader) : Extends s (s.setReader r x) :=
  ⟨le_rfl, fun _ _ => rfl, fun _ => le_rfl⟩

/-- A step of one reader that leaves the cache alone. -/
theorem Inv.setReader {s : State} (hinv : Inv s) {r : Nat} {x : Reader} (hx : ReaderInv s x) :
    Inv (s.setReader r x) where
  floor_le := hinv.floor_le
  writer := hinv.writer
  cache := hinv.cache
  reader := by
    intro r'
    refine (extends_setReader s r x).readerInv ?_
    show ReaderInv s (Function.update s.readers r x r')
    by_cases hr : r' = r
    · rw [hr, Function.update_self]
      exact hx
    · rw [Function.update_of_ne hr]
      exact hinv.reader r'

/-- A part that is read now is new enough for every call that has started. -/
theorem sound_readPart {s : State} (hinv : Inv s) {coll : String} {floor : Nat} {draft : Entry}
    {p : Part} {todo : List Part} (hfloor : floor ≤ s.floor coll)
    (hdone : ∀ q, q ∉ p :: todo → Sound s coll floor draft q) {q : Part} (hq : q ∉ todo) :
    Sound s coll floor (readPart s coll p draft) q := by
  by_cases hqp : q = p
  · subst hqp
    unfold Sound readPart
    simp only [Function.update_self]
    exact ⟨hfloor.trans (hinv.floor_le coll), le_rfl, rfl⟩
  · have hold := hdone q (by simp [hqp, hq])
    unfold Sound readPart
    simp only [Function.update_of_ne hqp]
    exact hold

/-- No commit made after one of the reader's queries has been invalidated. -/
def FreshDraft (floor : String → Nat) : Reader → Prop
  | .describing coll _ [] draft => ∀ p, floor coll ≤ draft.readAt p
  | _ => True

instance (floor : String → Nat) : DecidablePred (FreshDraft floor)
  | .idle => inferInstanceAs (Decidable True)
  | .missed _ _ => inferInstanceAs (Decidable True)
  | .describing _ _ (_ :: _) _ => inferInstanceAs (Decidable True)
  | .describing coll _ [] draft => inferInstanceAs (Decidable (∀ p, floor coll ≤ draft.readAt p))
  | .returned _ _ _ => inferInstanceAs (Decidable True)

/-- The inserts that would be safe. Nothing in the code sees to it. -/
def InsertsFresh (s : State) : Label → Prop
  | .insert r => FreshDraft s.floor (s.readers r)
  | _ => True

instance (s : State) : ∀ l, Decidable (InsertsFresh s l)
  | .insert r => inferInstanceAs (Decidable (FreshDraft s.floor (s.readers r)))
  | .lookup _ _ | .describe _ | .query _ | .fail _ | .commit _ _ _ | .invalidate _ | .clear =>
    inferInstanceAs (Decidable True)

/-! ### Every step keeps the invariant -/

variable {s s' : State}

theorem inv_lookup (hinv : Inv s) (r : Nat) (coll : String) : Inv (lookup s r coll) := by
  unfold lookup
  split
  · next e he => exact hinv.setReader (hinv.cache coll e he)
  · exact hinv.setReader le_rfl

theorem inv_describe (hinv : Inv s) (r : Nat) {coll : String} {floor : Nat}
    (hfloor : floor ≤ s.floor coll) : Inv (describe s r coll floor) := by
  unfold describe
  split
  · -- no part has been read yet
    exact hinv.setReader ⟨hfloor, fun p hp => absurd (mem_queries p) hp⟩
  · exact hinv.setReader trivial

/-- An insert keeps the invariant when it is fresh: the entry is sound for the reader anyway,
but the floor may have risen since the reader started. -/
theorem inv_insert (hinv : Inv s) {r : Nat} {coll : String} {floor : Nat} {draft : Entry}
    (hr : s.readers r = .describing coll floor [] draft)
    (hfresh : ∀ p, s.floor coll ≤ draft.readAt p) : Inv (insert s r coll floor draft) := by
  have hx := hinv.reader r
  rw [hr] at hx
  obtain ⟨-, hdone⟩ := hx
  have hsound : ∀ p, Sound s coll floor draft p := fun p => hdone p (by simp)
  have hset := hinv.setReader (r := r) (x := .returned coll floor (.loaded draft)) hsound
  refine ⟨hset.floor_le, hset.writer, ?_, hset.reader⟩
  intro coll' e he p
  change Function.update s.cache coll (some draft) coll' = some e at he
  by_cases hcoll : coll' = coll
  · subst hcoll
    rw [Function.update_self] at he
    obtain rfl := Option.some.inj he
    obtain ⟨-, hread, hpart⟩ := hsound p
    exact ⟨hfresh p, hread, hpart⟩
  · rw [Function.update_of_ne hcoll] at he
    exact hinv.cache coll' e he p

theorem extends_commit (s : State) (w : Nat) (coll : String) (c : Collection) :
    Extends s (commit s w coll c) := by
  refine ⟨Nat.le_succ _, ?_, fun _ => le_rfl⟩
  intro n hn
  exact Function.update_of_ne (by omega) _ _

theorem inv_commit (hinv : Inv s) (w : Nat) (coll : String) (c : Collection) :
    Inv (commit s w coll c) := by
  have hext := extends_commit s w coll c
  refine ⟨fun coll' => (hinv.floor_le coll').trans hext.version, ?_,
    fun coll' e he p => hext.sound (hinv.cache coll' e he p),
    fun r => hext.readerInv (hinv.reader r)⟩
  intro w' coll' n hw'
  change Function.update s.writers w (.committed coll (s.version + 1)) w' = _ at hw'
  by_cases hw : w' = w
  · rw [hw, Function.update_self] at hw'
    obtain ⟨-, rfl⟩ := Writer.committed.inj hw'
    exact le_rfl
  · rw [Function.update_of_ne hw] at hw'
    exact (hinv.writer w' coll' n hw').trans hext.version

theorem floor_invalidate (s : State) (w : Nat) (coll : String) (n : Nat) (coll' : String) :
    (invalidate s w coll n).floor coll'
      = if coll' = coll then max (s.floor coll) n else s.floor coll' :=
  Function.update_apply ..

/-- An invalidation raises the floor, and drops the one entry that it could make stale. -/
theorem inv_invalidate (hinv : Inv s) {w : Nat} {coll : String} {n : Nat}
    (hw : s.writers w = .committed coll n) : Inv (invalidate s w coll n) := by
  have hext : Extends s (invalidate s w coll n) := by
    refine ⟨le_rfl, fun _ _ => rfl, ?_⟩
    intro coll'
    rw [floor_invalidate]
    split
    · next h => exact h ▸ le_max_left _ _
    · exact le_rfl
  refine ⟨?_, ?_, ?_, fun r => hext.readerInv (hinv.reader r)⟩
  · intro coll'
    rw [floor_invalidate]
    split
    · exact max_le (hinv.floor_le coll) (hinv.writer w coll n hw)
    · exact hinv.floor_le coll'
  · intro w' coll' m hw'
    change Function.update s.writers w .idle w' = _ at hw'
    by_cases hww : w' = w
    · rw [hww, Function.update_self] at hw'
      cases hw'
    · rw [Function.update_of_ne hww] at hw'
      exact hinv.writer w' coll' m hw'
  · intro coll' e he p
    change Function.update s.cache coll none coll' = some e at he
    by_cases hcoll : coll' = coll
    · rw [hcoll, Function.update_self] at he
      cases he
    · rw [Function.update_of_ne hcoll] at he
      rw [floor_invalidate, if_neg hcoll]
      exact hext.sound (hinv.cache coll' e he p)

theorem inv_step (hinv : Inv s) {l : Label} (hfresh : InsertsFresh s l) (h : step s l = some s') :
    Inv s' := by
  cases l with
  | lookup r coll =>
    simp only [step] at h
    split at h
    · rw [← Option.some.inj h]
      exact inv_lookup hinv r coll
    · cases h
  | describe r =>
    have hx := hinv.reader r
    simp only [step] at h
    split at h
    · next coll floor hr =>
      rw [hr] at hx
      rw [← Option.some.inj h]
      exact inv_describe hinv r hx
    · cases h
  | query r =>
    have hx := hinv.reader r
    simp only [step] at h
    split at h
    · next coll floor p todo draft hr =>
      rw [hr] at hx
      obtain ⟨hfloor, hdone⟩ := hx
      rw [← Option.some.inj h]
      exact hinv.setReader ⟨hfloor, fun q hq => sound_readPart hinv hfloor hdone hq⟩
    · cases h
  | insert r =>
    simp only [step] at h
    split at h
    · next coll floor draft hr =>
      simp only [InsertsFresh, hr] at hfresh
      rw [← Option.some.inj h]
      exact inv_insert hinv hr hfresh
    · cases h
  | fail r =>
    simp only [step] at h
    split at h
    · rw [← Option.some.inj h]
      exact hinv.setReader trivial
    · rw [← Option.some.inj h]
      exact hinv.setReader trivial
    · cases h
  | commit w coll c =>
    simp only [step] at h
    split at h
    · rw [← Option.some.inj h]
      exact inv_commit hinv w coll c
    · cases h
  | invalidate w =>
    simp only [step] at h
    split at h
    · next coll n hw =>
      rw [← Option.some.inj h]
      exact inv_invalidate hinv hw
    · cases h
  | clear =>
    rw [← Option.some.inj h]
    have hext : Extends s { s with cache := fun _ => none } :=
      ⟨le_rfl, fun _ _ => rfl, fun _ => le_rfl⟩
    refine ⟨hinv.floor_le, hinv.writer, ?_, fun r => hext.readerInv (hinv.reader r)⟩
    intro coll e he
    cases he

theorem inv_init (db : String → Collection) : Inv (init db) where
  floor_le := fun _ => le_rfl
  writer := by
    intro w coll n hw
    cases hw
  cache := by
    intro coll e he
    cases he
  reader := fun _ => trivial

/-- In every run whose inserts are fresh, a call of `ensureLoaded` returns, for each part, what
a database state no older than the last commit that had been invalidated when it started
says. The commit of a part is the one its query saw, so the parts of a description that no
commit interrupted are all of one state. -/
theorem ensureLoaded_fresh {db : String → Collection} {ls : List Label} {s : State}
    (hfresh : Transition.Along step InsertsFresh (init db) ls)
    (hrun : Transition.run step (init db) ls = some s) {r : Nat} {coll : String} {floor : Nat}
    {e : Entry} (hr : s.readers r = .returned coll floor (.loaded e)) (p : Part) :
    floor ≤ e.readAt p ∧ e.readAt p ≤ s.version ∧
      e.parts p = (s.db (e.readAt p) coll).parts p := by
  have hinv : Inv s := 
    hfresh.invariant (fun hs hC hstep => inv_step hs hC hstep) (inv_init db) hrun
  have hx := hinv.reader r
  rw [hr] at hx
  exact hx p

/-! ### A stale insert -/

/-- A collection that everyone may read, and the owner field it is given. -/
def posts (owner : Option String) : Collection where
  present := true
  parts
    | .fields => ([⟨"id", "INTEGER"⟩, ⟨"author", "TEXT"⟩] : List Field)
    | .anonCaps => ({.select} : Finset DmlVerb)
    | .userCaps => ({.select} : Finset DmlVerb)
    | .ownerField => ((owner, owner.map fun _ => "own") : Option String × Option String)
    | .vectorFields => ([] : List VectorField)
    | .ftsIndexes => ([] : List FtsIndex)
    | .policies => ({} : CollectionPolicies)

/-- A reader looks the collection up and describes it. -/
def describes (r : Nat) : List Label :=
  .lookup r "posts" :: .describe r :: List.replicate 7 (.query r)

/-- Reader 0 describes the collection, `set_owner_field` commits and invalidates, and only
then reader 0 inserts; reader 1 starts after all of this. -/
def staleRun : List Label :=
  List.append (describes 0)
    [.commit 0 "posts" (posts (some "author")), .invalidate 0, .insert 0, .lookup 1 "posts"]

/-- The reader that starts after the invalidation is served the collection without its
owner field, which no database state since the commit says. -/
theorem ensureLoaded_stale :
    ∃ s e, Transition.run step (init fun _ => posts none) staleRun = some s ∧
      s.readers 1 = .returned "posts" 1 (.loaded e) ∧
      ∀ n, 1 ≤ n → n ≤ s.version →
        e.parts .ownerField ≠ (s.db n "posts").parts .ownerField := by
  refine ⟨_, _, rfl, rfl, ?_⟩
  intro n hn hle
  obtain rfl : n = 1 := le_antisymm hle hn
  intro h
  cases h

/-- The same parties, with the insert before the commit. -/
def freshRun : List Label :=
  (describes 0).append
    (.insert 0 :: .commit 0 "posts" (posts (some "author")) :: .invalidate 0 ::
      (describes 1).append [.insert 1])

theorem ensureLoaded_fresh_posts :
    ∃ s e, Transition.run step (init fun _ => posts none) freshRun = some s ∧
      s.readers 1 = .returned "posts" 1 (.loaded e) ∧ 1 ≤ e.readAt .ownerField := by
  have hfresh : Transition.Along step InsertsFresh (init fun _ => posts none) freshRun := by decide
  refine ⟨_, _, rfl, rfl, ?_⟩
  exact (@ensureLoaded_fresh (fun _ => posts none) freshRun _ hfresh rfl 1 "posts" 1 _ rfl
    .ownerField).1

end SchemaCache

end Drust
