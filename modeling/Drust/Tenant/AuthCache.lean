import Mathlib.Data.List.Basic
import Mathlib.Logic.Function.Basic
import Drust.Lib.Transition

/-!
# The auth cache and the revocation of sessions

A request with a user session's bearer is admitted from the auth cache, or else from the
session table, and in the second case it fills the cache on its way. A revocation deletes
session rows, clears the user's cache entries and then evicts the tenant's rooms. The steps
of requests and revocations interleave freely: the cache and the session table are two
stores, and nothing ties a fill to the row that it was read from.

The model is one tenant with any number of requests and revocations. A session is named by
the hash of its token; a token is drawn at random, so a deleted one is not issued again and
logins play no part. Two fields are history, which no step of the code reads:
`State.cleared` holds the tokens deleted by the revocations that have cleared the cache, and
`State.revoked` those of the revocations that have returned. `late` says of a request that
its token was revoked when it started.

Left out are the parts of a cache entry that decide no admission (publish flags, file
capabilities, quota tier).
-/

namespace Drust

namespace AuthCache

structure Config where
  safetyTtl : Nat
  maxEntries : Nat

/-- A cached user session. -/
structure CachedUser where
  userId : String
  expiresAt : Nat
  inserted : Nat
  deriving DecidableEq

/-- The cache's map, by the hash of the token. -/
abbrev Map := List (String × CachedUser)

def Map.find (m : Map) (hash : String) : Option CachedUser :=
  (m.find? (fun kv => kv.1 == hash)).map Prod.snd

def remove (m : Map) (hash : String) : Map :=
  m.filter (fun kv => kv.1 != hash)

/-- Look a token up. An entry past its time to live is dropped. -/
def get (cfg : Config) (now : Nat) (m : Map) (hash : String) : Option CachedUser × Map :=
  match m.find hash with
  | some e => if now - e.inserted < cfg.safetyTtl then (some e, m) else (none, remove m hash)
  | none => (none, remove m hash)

/-- Insert an entry. A full map is cleared first. -/
def insert (cfg : Config) (m : Map) (hash : String) (e : CachedUser) : Map :=
  let m := if cfg.maxEntries ≤ m.length then [] else m
  (hash, e) :: remove m hash

/-- Drop the entries of a user. -/
def clearUser (m : Map) (userId : String) : Map :=
  m.filter (fun kv => kv.2.userId != userId)

/-! ### The system -/

structure Session where
  userId : String
  expiresAt : Nat
  deriving DecidableEq

/-- The sessions that a revocation deletes: one of the user's, or all of them. -/
inductive Scope where
  | one (token : String)
  | all

/-- The row of the token is one of those to delete. -/
def Scope.covers (scope : Scope) (userId token : String) (row : Session) : Bool :=
  row.userId == userId && match scope with
    | .one t => t == token
    | .all => true

/-- A request, from its start to its admission. -/
inductive Request where
  | idle
  | missed (token : String) (late : Bool)
  | found (token userId : String) (late : Bool)
  /-- The cache is filled. -/
  | filled (token userId : String) (late : Bool)
  | admitted (token userId : String) (late : Bool)
  | refused

/-- A revocation; `gone` are the tokens that it deleted. -/
inductive Revocation where
  | idle
  | deleted (userId : String) (gone : String → Bool)
  | cleared (userId : String) (gone : String → Bool)
  | returned

structure State where
  now : Nat
  sessions : String → Option Session
  cache : Map
  /-- The eviction epoch of the tenant's rooms. -/
  epoch : Nat
  requests : Nat → Request
  revocations : Nat → Revocation
  cleared : String → Bool
  revoked : String → Bool

inductive Label where
  | tick (d : Nat)
  | lookup (a : Nat) (token : String)
  | lookupSession (a : Nat)
  | fill (a : Nat)
  | letIn (a : Nat)
  /-- The background update of a session's expiry. -/
  | slideExpiry (token : String)
  | deleteSessions (v : Nat) (userId : String) (scope : Scope)
  | clearUser (v : Nat)
  | evictTenant (v : Nat)

def init (sessions : String → Option Session) : State where
  now := 0
  sessions := sessions
  cache := []
  epoch := 0
  requests := fun _ => .idle
  revocations := fun _ => .idle
  cleared := fun _ => false
  revoked := fun _ => false

/-- Thirty days, in the unit of the clock (a millisecond). -/
def sessionTtl : Nat := 30 * 24 * 60 * 60 * 1000

section Step

variable (cfg : Config)

def setRequest (s : State) (a : Nat) (x : Request) : State :=
  { s with requests := Function.update s.requests a x }

/-- The consultation of the cache. A hit is served from the entry, unless the session has
expired, in which case the entry is dropped. -/
def lookup (s : State) (a : Nat) (token : String) : State :=
  match get cfg s.now s.cache token with
  | (some e, cache) =>
    if s.now < e.expiresAt then
      setRequest { s with cache := cache } a (.admitted token e.userId (s.revoked token))
    else setRequest { s with cache := remove cache token } a .refused
  | (none, cache) => setRequest { s with cache := cache } a (.missed token (s.revoked token))

/-- The lookup in the session table. -/
def lookupSession (s : State) (a : Nat) (token : String) (late : Bool) : State :=
  match s.sessions token with
  | some row =>
    if s.now < row.expiresAt then setRequest s a (.found token row.userId late)
    else setRequest s a .refused
  | none => setRequest s a .refused

/-- The fill of the cache with what was found. -/
def fill (s : State) (a : Nat) (token userId : String) (late : Bool) : State :=
  let e : CachedUser := { userId := userId, expiresAt := s.now + sessionTtl, inserted := s.now }
  setRequest { s with cache := insert cfg s.cache token e } a (.filled token userId late)

def slideExpiry (s : State) (token : String) : State :=
  { s with sessions := fun t =>
      if t = token then (s.sessions t).map (fun row => { row with expiresAt := s.now + sessionTtl })
      else s.sessions t }

/-- The tokens whose rows a delete removes. -/
def goneTokens (s : State) (userId : String) (scope : Scope) (token : String) : Bool :=
  match s.sessions token with
  | some row => scope.covers userId token row
  | none => false

def deleteSessions (s : State) (v : Nat) (userId : String) (scope : Scope) : State :=
  { s with
    sessions := fun t => if goneTokens s userId scope t then none else s.sessions t
    revocations := Function.update s.revocations v
      (.deleted userId (goneTokens s userId scope)) }

def clearCache (s : State) (v : Nat) (userId : String) (gone : String → Bool) : State :=
  { s with
    cache := clearUser s.cache userId
    cleared := fun t => s.cleared t || gone t
    revocations := Function.update s.revocations v (.cleared userId gone) }

def evictTenant (s : State) (v : Nat) (gone : String → Bool) : State :=
  { s with
    epoch := s.epoch + 1
    revoked := fun t => s.revoked t || gone t
    revocations := Function.update s.revocations v .returned }

def step (s : State) : Label → Option State
  | .tick d => some { s with now := s.now + d }
  | .lookup a token =>
    match s.requests a with
    | .idle => some (lookup cfg s a token)
    | _ => none
  | .lookupSession a =>
    match s.requests a with
    | .missed token late => some (lookupSession s a token late)
    | _ => none
  | .fill a =>
    match s.requests a with
    | .found token userId late => some (fill cfg s a token userId late)
    | _ => none
  | .letIn a =>
    match s.requests a with
    | .filled token userId late => some (setRequest s a (.admitted token userId late))
    | _ => none
  | .slideExpiry token => some (slideExpiry s token)
  | .deleteSessions v userId scope =>
    match s.revocations v with
    | .idle => some (deleteSessions s v userId scope)
    | _ => none
  | .clearUser v =>
    match s.revocations v with
    | .deleted userId gone => some (clearCache s v userId gone)
    | _ => none
  | .evictTenant v =>
    match s.revocations v with
    | .cleared _ gone => some (evictTenant s v gone)
    | _ => none

end Step

/-! ### The operations of the cache -/

section Cache

variable {cfg : Config} {m : Map} {kv : String × CachedUser}

theorem mem_of_find {hash : String} {e : CachedUser} (h : m.find hash = some e) : (hash, e) ∈ m := by
  unfold Map.find at h
  obtain ⟨kv, hfind, rfl⟩ := Option.map_eq_some_iff.mp h
  have hkey : kv.1 = hash := by simpa using List.find?_some hfind
  rw [← hkey]
  exact List.mem_of_find?_eq_some hfind

theorem mem_of_mem_remove {hash : String} (h : kv ∈ remove m hash) : kv ∈ m :=
  List.mem_of_mem_filter h

/-- A lookup returns an entry of the map, and adds none. -/
theorem get_spec (cfg : Config) (m : Map) (now : Nat) (hash : String) :
    (∀ e, (get cfg now m hash).1 = some e → (hash, e) ∈ m) ∧
      ∀ kv ∈ (get cfg now m hash).2, kv ∈ m := by
  unfold get
  split
  · next e he =>
    split
    · refine ⟨?_, fun _ h => h⟩
      intro e' he'
      obtain rfl := Option.some.inj he'
      exact mem_of_find he
    · exact ⟨by simp, fun _ h => mem_of_mem_remove h⟩
  · exact ⟨by simp, fun _ h => mem_of_mem_remove h⟩

theorem mem_insert {hash : String} {e : CachedUser} (h : kv ∈ insert cfg m hash e) :
    kv = (hash, e) ∨ kv ∈ m := by
  unfold insert at h
  obtain h | h := List.mem_cons.mp h
  · exact .inl h
  · right
    have h := mem_of_mem_remove h
    split at h
    · cases h
    · exact h

theorem mem_clearUser {userId : String} :
    kv ∈ clearUser m userId ↔ kv ∈ m ∧ kv.2.userId ≠ userId := by
  simp [clearUser]

end Cache

/-! ### The invariant -/

section Invariant

-- the session table that the system started with
variable {rows : String → Option Session}

/-- The token was issued to the user. -/
def Owns (rows : String → Option Session) (token userId : String) : Prop :=
  ∃ row, rows token = some row ∧ row.userId = userId

theorem Owns.unique {token u u' : String} (h : Owns rows token u) (h' : Owns rows token u') :
    u = u' := by
  obtain ⟨row, hrow, rfl⟩ := h
  obtain ⟨row', hrow', rfl⟩ := h'
  rw [Option.some.inj (hrow.symm.trans hrow')]

/-- A late request has missed the cache, and will miss the session table. -/
def RequestInv (rows : String → Option Session) (cleared : String → Bool) : Request → Prop
  | .missed token late => late = true → cleared token = true
  | .found token userId late => Owns rows token userId ∧ late = false
  | .filled _ _ late => late = false
  | .admitted _ _ late => late = false
  | _ => True

def RevocationInv (rows : String → Option Session) (s : State) : Revocation → Prop
  | .deleted userId gone => ∀ t, gone t = true → Owns rows t userId ∧ s.sessions t = none
  | .cleared _ gone => ∀ t, gone t = true → s.cleared t = true
  | _ => True

/-- The invariant of the auth layer: what a revocation has deleted and cleared is in neither
of the two stores. -/
structure Inv (rows : String → Option Session) (s : State) : Prop where
  owner : ∀ t row, s.sessions t = some row → Owns rows t row.userId
  cacheOwner : ∀ kv ∈ s.cache, Owns rows kv.1 kv.2.userId
  gone : ∀ t, s.cleared t = true → s.sessions t = none
  uncached : ∀ kv ∈ s.cache, s.cleared kv.1 = false
  revoked : ∀ t, s.revoked t = true → s.cleared t = true
  request : ∀ a, RequestInv rows s.cleared (s.requests a)
  revocation : ∀ v, RevocationInv rows s (s.revocations v)

/-- No revocation that deleted the session has cleared the cache. -/
def FillsInTime (cleared : String → Bool) : Request → Prop
  | .found token _ _ => cleared token = false
  | _ => True

instance (cleared : String → Bool) : DecidablePred (FillsInTime cleared)
  | .found token _ _ => inferInstanceAs (Decidable (cleared token = false))
  | .idle | .missed _ _ | .filled _ _ _ | .admitted _ _ _ | .refused =>
    inferInstanceAs (Decidable True)

/-- The fills that would be safe. Nothing in the code sees to it. -/
def FillsUnrevoked (s : State) : Label → Prop
  | .fill a => FillsInTime s.cleared (s.requests a)
  | _ => True

instance (s : State) : ∀ l, Decidable (FillsUnrevoked s l)
  | .fill a => inferInstanceAs (Decidable (FillsInTime s.cleared (s.requests a)))
  | .tick _ | .lookup _ _ | .lookupSession _ | .letIn _ | .slideExpiry _ | .deleteSessions _ _ _
  | .clearUser _ | .evictTenant _ => inferInstanceAs (Decidable True)

variable {cfg : Config} {s s' : State}

/-- A step of one request that adds nothing to the cache. -/
theorem Inv.setRequest (hinv : Inv rows s) {a : Nat} {x : Request} {cache : Map}
    (hcache : ∀ kv ∈ cache, kv ∈ s.cache) (hx : RequestInv rows s.cleared x) :
    Inv rows (setRequest { s with cache := cache } a x) where
  owner := hinv.owner
  cacheOwner := fun kv hkv => hinv.cacheOwner kv (hcache kv hkv)
  gone := hinv.gone
  uncached := fun kv hkv => hinv.uncached kv (hcache kv hkv)
  revoked := hinv.revoked
  request := (Function.forall_update_iff s.requests fun _ x => RequestInv rows s.cleared x).mpr
    ⟨hx, fun a' _ => hinv.request a'⟩
  revocation := hinv.revocation

theorem inv_lookup (hinv : Inv rows s) (a : Nat) (token : String) :
    Inv rows (lookup cfg s a token) := by
  unfold lookup
  obtain ⟨hhit, hsub⟩ := get_spec cfg s.cache s.now token
  split
  · next e cache hget =>
    rw [hget] at hhit hsub
    have hunrevoked : s.revoked token = false := by
      -- a revoked token is cleared, and a cleared token is not cached
      by_contra hrev
      have hcleared := hinv.revoked token (by simpa using hrev)
      rw [hinv.uncached _ (hhit e rfl)] at hcleared
      cases hcleared
    split
    · exact hinv.setRequest hsub hunrevoked
    · exact hinv.setRequest (fun kv hkv => hsub kv (mem_of_mem_remove hkv)) trivial
  · next cache hget =>
    rw [hget] at hsub
    exact hinv.setRequest hsub (hinv.revoked token)

theorem inv_lookupSession (hinv : Inv rows s) {a : Nat} {token : String} {late : Bool}
    (ha : s.requests a = .missed token late) : Inv rows (lookupSession s a token late) := by
  have hx := hinv.request a
  rw [ha] at hx
  unfold lookupSession
  split
  · next row hrow =>
    split
    · refine hinv.setRequest (fun _ h => h) ⟨hinv.owner token row hrow, ?_⟩
      -- a late request would have found no row
      by_contra hlate
      have hnone := hinv.gone token (hx (by simpa using hlate))
      rw [hrow] at hnone
      cases hnone
    · exact hinv.setRequest (fun _ h => h) trivial
  · exact hinv.setRequest (fun _ h => h) trivial

/-- A fill keeps the invariant when no revocation of the session has cleared the cache. -/
theorem inv_fill (hinv : Inv rows s) {a : Nat} {token userId : String} {late : Bool}
    (ha : s.requests a = .found token userId late) (hfill : s.cleared token = false) :
    Inv rows (fill cfg s a token userId late) := by
  have hx := hinv.request a
  rw [ha] at hx
  obtain ⟨howns, hlate⟩ := hx
  have hset := hinv.setRequest (a := a) (x := .filled token userId late) (fun _ h => h) hlate
  refine ⟨hset.owner, ?_, hset.gone, ?_, hset.revoked, hset.request, hset.revocation⟩
  · intro kv hkv
    obtain rfl | hkv := mem_insert hkv
    · exact howns
    · exact hinv.cacheOwner kv hkv
  · intro kv hkv
    obtain rfl | hkv := mem_insert hkv
    · exact hfill
    · exact hinv.uncached kv hkv

/-- No session comes back, whatever happens to those that are left. -/
theorem RevocationInv.mono {x : Revocation} (hx : RevocationInv rows s x)
    (hsessions : ∀ t, s.sessions t = none → s'.sessions t = none)
    (hcleared : ∀ t, s.cleared t = true → s'.cleared t = true) : RevocationInv rows s' x := by
  cases x with
  | idle => trivial
  | returned => trivial
  | deleted userId gone =>
    intro t ht
    obtain ⟨howns, hnone⟩ := hx t ht
    exact ⟨howns, hsessions t hnone⟩
  | cleared userId gone => exact fun t ht => hcleared t (hx t ht)

theorem inv_slideExpiry (hinv : Inv rows s) (token : String) : Inv rows (slideExpiry s token) := by
  have hnone : ∀ t, s.sessions t = none → (slideExpiry s token).sessions t = none := by
    intro t ht
    simp [slideExpiry, ht]
  refine ⟨?_, hinv.cacheOwner, fun t ht => hnone t (hinv.gone t ht), hinv.uncached, hinv.revoked,
    hinv.request, fun v => (hinv.revocation v).mono hnone (fun _ h => h)⟩
  intro t row hrow
  simp only [slideExpiry] at hrow
  split at hrow
  · obtain ⟨row', hrow', rfl⟩ := Option.map_eq_some_iff.mp hrow
    exact hinv.owner t row' hrow'
  · exact hinv.owner t row hrow

theorem inv_deleteSessions (hinv : Inv rows s) (v : Nat) (userId : String) (scope : Scope) :
    Inv rows (deleteSessions s v userId scope) := by
  have hnone : ∀ t, s.sessions t = none → (deleteSessions s v userId scope).sessions t = none := by
    intro t ht
    simp [deleteSessions, ht]
  refine ⟨?_, hinv.cacheOwner, fun t ht => hnone t (hinv.gone t ht), hinv.uncached, hinv.revoked,
    hinv.request, ?_⟩
  · intro t row hrow
    simp only [deleteSessions] at hrow
    split at hrow
    · cases hrow
    · exact hinv.owner t row hrow
  · refine (Function.forall_update_iff s.revocations fun _ x =>
      RevocationInv rows (deleteSessions s v userId scope) x).mpr
      ⟨?_, fun v' _ => (hinv.revocation v').mono hnone (fun _ h => h)⟩
    intro t ht
    refine ⟨?_, by simp [deleteSessions, ht]⟩
    -- the deleted row was the user's
    unfold goneTokens at ht
    split at ht
    · next row hrow =>
      have huser : row.userId = userId := by
        simp only [Scope.covers, Bool.and_eq_true, beq_iff_eq] at ht
        exact ht.1
      exact huser ▸ hinv.owner t row hrow
    · cases ht

/-- Clearing the cache drops every entry of the deleted sessions, because the entry of a
session names the user it was issued to. -/
theorem inv_clearCache (hinv : Inv rows s) {v : Nat} {userId : String} {gone : String → Bool}
    (hv : s.revocations v = .deleted userId gone) : Inv rows (clearCache s v userId gone) := by
  have hx := hinv.revocation v
  rw [hv] at hx
  have hgrow : ∀ t, s.cleared t = true → (clearCache s v userId gone).cleared t = true := by
    intro t ht
    simp [clearCache, ht]
  have hcases : ∀ t, (clearCache s v userId gone).cleared t = true →
      s.cleared t = true ∨ gone t = true := by
    intro t ht
    simpa [clearCache] using ht
  refine ⟨hinv.owner, ?_, ?_, ?_, fun t ht => hgrow t (hinv.revoked t ht), ?_, ?_⟩
  · intro kv hkv
    exact hinv.cacheOwner kv (mem_clearUser.mp hkv).1
  · intro t ht
    obtain ht | ht := hcases t ht
    · exact hinv.gone t ht
    · exact (hx t ht).2
  · intro kv hkv
    obtain ⟨hmem, huser⟩ := mem_clearUser.mp hkv
    by_contra hcleared
    obtain hold | hgone := hcases kv.1 (by simpa using hcleared)
    · rw [hinv.uncached kv hmem] at hold
      cases hold
    · exact huser ((hinv.cacheOwner kv hmem).unique (hx kv.1 hgone).1)
  · intro a
    have ha := hinv.request a
    show RequestInv rows (clearCache s v userId gone).cleared (s.requests a)
    cases hreq : s.requests a with
    | missed token late =>
      rw [hreq] at ha
      exact fun hlate => hgrow token (ha hlate)
    | _ =>
      rw [hreq] at ha
      exact ha
  · refine (Function.forall_update_iff s.revocations fun _ x =>
      RevocationInv rows (clearCache s v userId gone) x).mpr
      ⟨?_, fun v' _ => (hinv.revocation v').mono (fun _ h => h) hgrow⟩
    intro t ht
    simp [clearCache, ht]

theorem inv_evictTenant (hinv : Inv rows s) {v : Nat} {userId : String} {gone : String → Bool}
    (hv : s.revocations v = .cleared userId gone) : Inv rows (evictTenant s v gone) := by
  have hx := hinv.revocation v
  rw [hv] at hx
  refine ⟨hinv.owner, hinv.cacheOwner, hinv.gone, hinv.uncached, ?_, hinv.request, ?_⟩
  · intro t ht
    simp only [evictTenant, Bool.or_eq_true] at ht
    obtain ht | ht := ht
    · exact hinv.revoked t ht
    · exact hx t ht
  · exact (Function.forall_update_iff s.revocations fun _ x =>
      RevocationInv rows (evictTenant s v gone) x).mpr ⟨trivial, fun v' _ => hinv.revocation v'⟩

theorem inv_step (hinv : Inv rows s) {l : Label} (hfill : FillsUnrevoked s l)
    (h : step cfg s l = some s') : Inv rows s' := by
  cases l with
  | tick d =>
    rw [← Option.some.inj h]
    exact ⟨hinv.owner, hinv.cacheOwner, hinv.gone, hinv.uncached, hinv.revoked, hinv.request,
      fun v => (hinv.revocation v).mono (fun _ h => h) (fun _ h => h)⟩
  | lookup a token =>
    simp only [step] at h
    split at h
    · rw [← Option.some.inj h]
      exact inv_lookup hinv a token
    · cases h
  | lookupSession a =>
    simp only [step] at h
    split at h
    · next token late ha =>
      rw [← Option.some.inj h]
      exact inv_lookupSession hinv ha
    · cases h
  | fill a =>
    simp only [step] at h
    split at h
    · next token userId late ha =>
      simp only [FillsUnrevoked, ha] at hfill
      rw [← Option.some.inj h]
      exact inv_fill hinv ha hfill
    · cases h
  | letIn a =>
    have hx := hinv.request a
    simp only [step] at h
    split at h
    · next token userId late ha =>
      rw [ha] at hx
      rw [← Option.some.inj h]
      exact hinv.setRequest (fun _ h => h) hx
    · cases h
  | slideExpiry token =>
    rw [← Option.some.inj h]
    exact inv_slideExpiry hinv token
  | deleteSessions v userId scope =>
    simp only [step] at h
    split at h
    · rw [← Option.some.inj h]
      exact inv_deleteSessions hinv v userId scope
    · cases h
  | clearUser v =>
    simp only [step] at h
    split at h
    · next userId gone hv =>
      rw [← Option.some.inj h]
      exact inv_clearCache hinv hv
    · cases h
  | evictTenant v =>
    simp only [step] at h
    split at h
    · next userId gone hv =>
      rw [← Option.some.inj h]
      exact inv_evictTenant hinv hv
    · cases h

theorem inv_init (rows : String → Option Session) : Inv rows (init rows) where
  owner := fun t row hrow => ⟨row, hrow, rfl⟩
  cacheOwner := by simp [init]
  gone := by simp [init]
  uncached := by simp [init]
  revoked := by simp [init]
  request := fun _ => trivial
  revocation := fun _ => trivial

end Invariant

/-- In every run in which no request fills the cache after its session was deleted and the
user's entries cleared, no request is admitted that starts after the revocation of its token
has returned. -/
theorem admitted_not_late {cfg : Config} {rows : String → Option Session} {ls : List Label}
    {s : State} (hfill : Transition.Along (step cfg) FillsUnrevoked (init rows) ls)
    (hrun : Transition.run (step cfg) (init rows) ls = some s) {a : Nat} {token userId : String}
    {late : Bool} (ha : s.requests a = .admitted token userId late) : late = false := by
  have hinv : Inv rows s :=
    hfill.invariant (fun hs hC hstep => inv_step hs hC hstep) (inv_init rows) hrun
  have hx := hinv.request a
  rw [ha] at hx
  exact hx

/-! ### A late fill -/

/-- The settings of production, and one session. -/
def prod : Config where
  safetyTtl := 10000
  maxEntries := 200000

def oneSession (token : String) : Option Session :=
  if token = "drust_user_t" then some { userId := "u_1", expiresAt := sessionTtl } else none

def logout : List Label :=
  [.deleteSessions 0 "u_1" (.one "drust_user_t"), .clearUser 0, .evictTenant 0]

/-- Request 0 finds the session, the logout runs to its end, and then request 0 fills the
cache; request 1 starts after all of this. -/
def lateFill : List Label :=
  .lookup 0 "drust_user_t" :: .lookupSession 0 ::
    logout.append [.fill 0, .letIn 0, .lookup 1 "drust_user_t"]

/-- The request that starts after the revocation has returned is admitted from the cache,
with the token that the revocation deleted. -/
theorem admitted_after_revocation :
    ∃ s, Transition.run (step prod) (init oneSession) lateFill = some s ∧
      s.sessions "drust_user_t" = none ∧
      s.requests 1 = .admitted "drust_user_t" "u_1" true :=
  ⟨_, rfl, rfl, rfl⟩

/-- The same parties, with the fill before the logout. -/
def earlyFill : List Label :=
  .lookup 0 "drust_user_t" :: .lookupSession 0 :: .fill 0 :: .letIn 0 ::
    logout.append [.lookup 1 "drust_user_t", .lookupSession 1]

theorem admitted_before_revocation :
    ∃ s late, Transition.run (step prod) (init oneSession) earlyFill = some s ∧
      s.requests 0 = .admitted "drust_user_t" "u_1" late ∧ late = false := by
  have hfill : Transition.Along (step prod) FillsUnrevoked (init oneSession) earlyFill := by decide
  refine ⟨_, _, rfl, rfl, ?_⟩
  exact @admitted_not_late prod oneSession earlyFill _ hfill rfl 0 "drust_user_t" "u_1" _ rfl

end AuthCache

end Drust
