import Drust.Storage.Catalog

/-!
# Reads that fail

`ensureLoaded` describes a collection that is not cached and keeps the description without
expiry. What it keeps decides who may do what with the collection, so a read that fails must
not leave the collection more open than it is stored.

The readers do not agree on this. The owner field is read strictly: any failure fails the
call. The capabilities fall back to the default set, which is harmless only where the stored
set has it, and the policies fall back to none at all. The main result says for exactly which
failures the call still errs on the closed side.
-/

namespace Drust

namespace DescribeFaults

/-- The cached descriptions. -/
abbrev Cache := String → Option CollectionDescription

/-- Read the cache, or else describe the collection and cache the description. -/
def ensureLoaded (rd : Reading) (c : Catalog) (cache : Cache) (coll : String) :
    Except SqlError (Option CollectionDescription) × Cache :=
  match cache coll with
  | some s => (.ok (some s), cache)
  | none =>
    match describeCollection rd c coll with
    | .error e => (.error e, cache)
    | .ok none => (.ok none, cache)
    | .ok (some s) => (.ok (some s), Function.update cache coll (some s))

/-! ### The stored configuration -/

section Stored

variable (c : Catalog) (coll : String)

def storedAnonCaps : Finset DmlVerb :=
  ((c.metas.lookup coll).map CollectionMeta.anonCaps).getD defaultAnonCaps

def storedUserCaps : Finset DmlVerb :=
  ((c.metas.lookup coll).bind CollectionMeta.userCaps).getD defaultUserCaps

def storedOwnerField : Option String :=
  (c.metas.lookup coll).bind CollectionMeta.ownerField

def storedPolicy (op : DmlVerb) : Option Policy :=
  (c.metas.lookup coll).bind fun m => m.policies.get op

end Stored

/-- The description leaves nothing open that is stored as closed. -/
structure AtLeastAsRestrictive (c : Catalog) (coll : String) (d : CollectionDescription) :
    Prop where
  policies : ∀ op, (storedPolicy c coll op).isSome → (d.policies.get op).isSome
  ownerField : ∀ field, storedOwnerField c coll = some field → d.ownerField = some field
  anonCaps : d.anonCaps ⊆ storedAnonCaps c coll
  userCaps : d.userCaps ⊆ storedUserCaps c coll

/-- The call errs and caches nothing, or returns and caches a description that is as
restrictive as what is stored. -/
def FailsClosed (rd : Reading) (c : Catalog) (cache : Cache) (coll : String) : Prop :=
  match ensureLoaded rd c cache coll with
  | (.error _, cache') => cache' coll = none
  | (.ok none, _) => False
  | (.ok (some d), cache') => cache' coll = some d ∧ AtLeastAsRestrictive c coll d

/-- No failure that the readers swallow matters: a default set of capabilities stands in for
one that has it, and the query for the policies and the text of every policy are fine. -/
structure SwallowsHarmlessly (rd : Reading) (c : Catalog) (coll : String) : Prop where
  anonCaps : rd.fails .anonCaps = true → DmlVerb.select ∈ storedAnonCaps c coll
  userCaps : rd.fails .userCaps = true → DmlVerb.select ∈ storedUserCaps c coll
  policies : ∀ op, (storedPolicy c coll op).isSome →
    rd.fails .policies = false ∧ rd.malformed (.policy op) = false

/-! ### The swallowing readers -/

section Readers

variable {rd : Reading} {c : Catalog} {coll : String}

theorem parseAnonCapsJson_subset (blob : Blob) (stored : Finset DmlVerb) :
    parseAnonCapsJson rd blob stored ⊆ stored := by
  rw [parseAnonCapsJson]
  split
  · exact Finset.empty_subset _
  · exact Finset.Subset.refl _

theorem readAnonCaps_subset_iff {caps : Finset DmlVerb} (h : readAnonCaps rd c coll = .ok caps) :
    caps ⊆ storedAnonCaps c coll ↔
      (rd.fails .anonCaps = true → DmlVerb.select ∈ storedAnonCaps c coll) := by
  obtain rfl := Except.ok.inj h
  rw [queryRow]
  cases rd.fails .anonCaps with
  | true =>
    -- the default set is returned
    show defaultAnonCaps ⊆ storedAnonCaps c coll ↔ _
    simp [defaultAnonCaps, Finset.singleton_subset_iff]
  | false =>
    refine iff_of_true ?_ (fun h => absurd h Bool.false_ne_true)
    rw [storedAnonCaps]
    cases c.metas.lookup coll with
    | none => exact Finset.Subset.refl _
    | some m => exact parseAnonCapsJson_subset _ _

theorem readUserCaps_subset_iff {caps : Finset DmlVerb} (h : readUserCaps rd c coll = .ok caps) :
    caps ⊆ storedUserCaps c coll ↔
      (rd.fails .userCaps = true → DmlVerb.select ∈ storedUserCaps c coll) := by
  obtain rfl := Except.ok.inj h
  rw [queryRow]
  cases rd.fails .userCaps with
  | true =>
    show defaultUserCaps ⊆ storedUserCaps c coll ↔ _
    simp [defaultUserCaps, Finset.singleton_subset_iff]
  | false =>
    refine iff_of_true ?_ (fun h => absurd h Bool.false_ne_true)
    rw [storedUserCaps]
    cases c.metas.lookup coll with
    | none => exact Finset.Subset.refl _
    | some m =>
      show ((m.userCaps.elim (Except.error SqlError.invalidColumnType) Except.ok).toOption.map
        (parseAnonCapsJson rd .userCaps)).getD defaultUserCaps ⊆ m.userCaps.getD defaultUserCaps
      cases m.userCaps with
      | none => exact Finset.Subset.refl _
      | some stored => exact parseAnonCapsJson_subset _ _

/-- The policy that is read for an operation. -/
theorem readPolicies_get {ps : CollectionPolicies} (h : readPolicies rd c coll = .ok ps)
    (op : DmlVerb) :
    ps.get op = if rd.fails .policies || rd.malformed (.policy op) then none
      else storedPolicy c coll op := by
  obtain rfl := Except.ok.inj h
  rw [queryRow, storedPolicy]
  cases rd.fails .policies with
  | true => cases op <;> simp [CollectionPolicies.get, Except.toOption]
  | false => cases c.metas.lookup coll <;> cases op <;> simp [CollectionPolicies.get, Except.toOption]

theorem readPolicies_isSome_iff {ps : CollectionPolicies} (h : readPolicies rd c coll = .ok ps) :
    (∀ op, (storedPolicy c coll op).isSome → (ps.get op).isSome) ↔
      ∀ op, (storedPolicy c coll op).isSome →
        rd.fails .policies = false ∧ rd.malformed (.policy op) = false := by
  refine forall_congr' fun op => imp_congr_right fun hstored => ?_
  rw [readPolicies_get h op]
  cases rd.fails .policies <;> cases rd.malformed (.policy op) <;> simp [hstored]

end Readers

section EnsureLoaded

variable {rd : Reading} {c : Catalog} {coll : String} {t : Table}

/-- The owner field is always that of the row: its query does not swallow a failure. -/
theorem ownerField_of_describes {d : CollectionDescription} (h : Describes rd c coll t d) :
    d.ownerField = storedOwnerField c coll := by
  obtain ⟨-, hread⟩ := readOwnerField_eq_ok_iff.mp h.ownerField
  rw [storedOwnerField]
  cases hmeta : c.metas.lookup coll with
  | none =>
    rw [hmeta] at hread
    exact (Prod.mk.inj hread).1
  | some m =>
    rw [hmeta] at hread
    exact (Prod.mk.inj hread).1

theorem atLeastAsRestrictive_iff {d : CollectionDescription}
    (h : Describes rd c coll t d) :
    AtLeastAsRestrictive c coll d ↔ SwallowsHarmlessly rd c coll := by
  constructor
  · rintro ⟨hpolicies, -, hanon, huser⟩
    exact ⟨(readAnonCaps_subset_iff h.anonCaps).mp hanon,
      (readUserCaps_subset_iff h.userCaps).mp huser,
      (readPolicies_isSome_iff h.policies).mp hpolicies⟩
  · rintro ⟨hanon, huser, hpolicies⟩
    refine ⟨(readPolicies_isSome_iff h.policies).mpr hpolicies, ?_,
      (readAnonCaps_subset_iff h.anonCaps).mpr hanon,
      (readUserCaps_subset_iff h.userCaps).mpr huser⟩
    intro field hfield
    rw [ownerField_of_describes h, hfield]

/-- On a collection that exists and is not cached, the call fails closed exactly when a query
fails whose failure is passed on, or else no failure that is swallowed matters. -/
theorem ensureLoaded_failsClosed_iff (ht : c.tables.lookup coll = some t) {cache : Cache}
    (hmiss : cache coll = none) :
    FailsClosed rd c cache coll ↔
      (∃ q ∈ passedOn t, rd.fails q = true) ∨ SwallowsHarmlessly rd c coll := by
  rw [FailsClosed, ensureLoaded, hmiss]
  by_cases hq : ∃ q ∈ passedOn t, rd.fails q = true
  · -- the failure is passed on, and the cache is left alone
    refine iff_of_true ?_ (.inl hq)
    obtain ⟨q, hmem, hfails⟩ := hq
    cases hdescribe : describeCollection rd c coll with
    | error e => exact hmiss
    | ok r =>
      have hok := (describes_of_describeCollection ht hdescribe).1 q hmem
      rw [hfails] at hok
      cases hok
  · have hok : ∀ q ∈ passedOn t, rd.fails q = false := by
      intro q hmem
      exact Bool.eq_false_iff.mpr fun hfails => hq ⟨q, hmem, hfails⟩
    obtain ⟨d, hdescribe⟩ := exists_describeCollection ht hok
    obtain ⟨-, d', hd', hdescribes⟩ := describes_of_describeCollection ht hdescribe
    obtain rfl := Option.some.inj hd'
    rw [hdescribe, or_iff_right hq, ← atLeastAsRestrictive_iff hdescribes]
    exact and_iff_right (Function.update_self ..)

end EnsureLoaded

/-! ### A policy that is lost -/

/-- A collection whose rows are hidden from anonymous callers. -/
def hidden : Catalog where
  tables := AList.singleton "posts" { columns := [{ name := "id", sqlType := "INTEGER" }] }
  metas := AList.singleton "posts"
    { policies := { select := some { usingClause := some (.leaf [("$authenticated", .bool true)]) } } }

/-- Only the query for the policies fails. -/
def lostPolicies : Reading where
  fails q := q = .policies
  malformed _ := false
  reread := some

/-- The collection is cached without its policy. -/
theorem failsClosed_lostPolicies : ¬ FailsClosed lostPolicies hidden (fun _ => none) "posts" := by
  rintro ⟨-, hrestrictive⟩
  have hpolicy := hrestrictive.policies .select rfl
  cases hpolicy

/-- Nothing fails but the query for the descriptions of the fields. -/
def lostDescriptions : Reading where
  fails q := q = .fieldDescriptions
  malformed _ := false
  reread := some

theorem failsClosed_lostDescriptions :
    FailsClosed lostDescriptions hidden (fun _ => none) "posts" := by
  refine (ensureLoaded_failsClosed_iff (t := ⟨[{ name := "id", sqlType := "INTEGER" }], [], 0⟩) rfl
    rfl).mpr (.inr ⟨fun h => ?_, fun h => ?_, fun op _ => ⟨rfl, rfl⟩⟩)
  · exact absurd h (by decide)
  · exact absurd h (by decide)

end DescribeFaults

end Drust
