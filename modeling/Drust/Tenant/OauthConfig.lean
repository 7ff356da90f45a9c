import Drust.Error
import Drust.Lib.Ascii
import Drust.Lib.KeyMap
import Drust.Lib.Result
import Drust.Lib.Sql.Value
import Drust.Lib.Transition
import Drust.Tenant.Egress

/-!
# The settings of a provider

A tenant sets, for each provider of sign-ins, the credentials and the addresses that a sign-in may
return to. The addresses are one text in the row of the provider, joined by commas, and every reader
splits that text again.

The text is safe because of the check on an address: it has no comma, no blank and no `#`. So what is
read of a row is what the last accepted request has set, address by address (`get_run`), and the token
that is appended to an address as its fragment is the fragment, whatever the address (`fragment_cut`).
-/

namespace Drust

namespace OauthConfig

open Sql (utf8)
open Ascii (isControl)
open ExecWrite (trim trimStart isWhitespace)
open Egress (splitOnce)

/-! ### The checks -/

inductive OauthConfigError where
  | invalidProvider
  | invalidClientId
  | invalidClientSecret
  | emptyRedirectUris
  | invalidRedirectUri (uri : String)
  deriving DecidableEq, Repr

def OauthConfigError.errorCode : OauthConfigError → String
  | .invalidProvider => "INVALID_PROVIDER"
  | .invalidClientId => "INVALID_CLIENT_ID"
  | .invalidClientSecret => "INVALID_CLIENT_SECRET"
  | .emptyRedirectUris => "EMPTY_REDIRECT_URIS"
  | .invalidRedirectUri _ => "INVALID_REDIRECT_URI"

def OauthConfigError.message : OauthConfigError → String
  | .invalidProvider => "provider must be 'google' or 'github'"
  | .invalidClientId => "client_id must be non-empty and at most 256 chars"
  | .invalidClientSecret => "client_secret must be non-empty and at most 256 chars"
  | .emptyRedirectUris => "allowed_redirect_uris must be a non-empty array"
  | .invalidRedirectUri uri => "invalid redirect URI: " ++ uri

def OauthConfigError.toApi (e : OauthConfigError) : ApiError :=
  ⟨400, some e.errorCode, e.message⟩

def allowedProviders : List String := ["google", "github"]

def validateProvider (p : String) : Except OauthConfigError Unit :=
  if p ∈ allowedProviders then .ok () else .error .invalidProvider

/-- A host of the own machine, with a port or without one. An IPv6 address stands in brackets. -/
def isLoopbackAuthority (authority : List Char) : Bool :=
  if '@' ∈ authority then false
  else
    let host :=
      match authority with
      | '[' :: rest =>
        match splitOnce [']'] rest with
        | some (inner, after) =>
          if after.isEmpty || after.head? == some ':' then some inner else none
        | none => none
      | _ => some (authority.takeWhile (· ≠ ':'))
    host.any fun host => host ∈ ["localhost".toList, "127.0.0.1".toList, "::1".toList]

/-- What no address has. -/
def isRefused (c : Char) : Bool :=
  isWhitespace c || isControl c || c == ',' || c == '#'

/-- Without TLS on the own machine only. -/
def hasAllowedScheme (uri : List Char) : Bool :=
  match uri.dropPrefix? "https://".toList with
  | some rest => !rest.isEmpty
  | none =>
    match uri.dropPrefix? "http://".toList with
    | some rest => isLoopbackAuthority (rest.takeWhile fun c => c ≠ '/' ∧ c ≠ '?' ∧ c ≠ '#')
    | none => false

def validateRedirectUri (uri : String) : Except OauthConfigError Unit :=
  if uri.isEmpty || decide (1024 ≤ (utf8 uri).length) || uri.toList.any isRefused then
    .error (.invalidRedirectUri uri)
  else if !hasAllowedScheme uri.toList then .error (.invalidRedirectUri uri)
  else .ok ()

def validateRedirectUris (uris : List String) : Except OauthConfigError Unit :=
  if uris.isEmpty then .error .emptyRedirectUris else uris.forM validateRedirectUri

def validateUpsert (provider clientId clientSecret : String) (redirectUris : List String) :
    Except OauthConfigError Unit := do
  validateProvider provider
  if clientId.isEmpty || decide (256 < (utf8 clientId).length) then .error .invalidClientId
  else if clientSecret.isEmpty || decide (256 < (utf8 clientSecret).length) then
    .error .invalidClientSecret
  else validateRedirectUris redirectUris

/-! ### The table -/

structure OauthProviderConfig where
  provider : String
  clientId : String
  clientSecret : String
  allowedRedirectUris : List String
  deriving DecidableEq, Repr

/-- A row of `_system_oauth_providers`. Its key is the provider. -/
structure Row where
  clientId : String
  clientSecret : String
  allowedRedirectUris : String
  deriving DecidableEq, Repr

/-- `join(",")`. -/
def joinUris (uris : List String) : String :=
  .ofList ([','].intercalate (uris.map String.toList))

def parseUris (joined : String) : List String :=
  ((joined.toList.splitOn ',').map fun s => String.ofList (trim s)).filter fun s => !s.isEmpty

def Row.read (provider : String) (row : Row) : OauthProviderConfig where
  provider := provider
  clientId := row.clientId
  clientSecret := row.clientSecret
  allowedRedirectUris := parseUris row.allowedRedirectUris

abbrev Table := KeyMap String Row

def get (t : Table) (provider : String) : Option OauthProviderConfig :=
  (KeyMap.get t provider).map (Row.read provider)

def notConfigured : ApiError := ⟨404, some "NOT_FOUND", "provider not configured"⟩

/-- `PUT` of a provider. -/
def putOauthProvider (t : Table) (provider clientId clientSecret : String) (uris : List String) :
    Except ApiError Table :=
  match validateUpsert provider clientId clientSecret uris with
  | .error e => .error e.toApi
  | .ok () => .ok (t.set provider ⟨clientId, clientSecret, joinUris uris⟩)

/-- `PUT` of the addresses only. The provider has to be there. -/
def putOauthRedirectUris (t : Table) (provider : String) (uris : List String) :
    Except ApiError Table :=
  match validateRedirectUris uris with
  | .error e => .error e.toApi
  | .ok () =>
    if provider ∈ t.keys then
      .ok (t.mapValues fun k row =>
        if k = provider then { row with allowedRedirectUris := joinUris uris } else row)
    else .error notConfigured

def deleteOauthProvider (t : Table) (provider : String) : Except ApiError Table :=
  if provider ∈ t.keys then .ok (t.erase provider) else .error notConfigured

inductive Label where
  | put (provider clientId clientSecret : String) (uris : List String)
  | putRedirectUris (provider : String) (uris : List String)
  | delete (provider : String)

def step (t : Table) : Label → Option Table
  | .put provider clientId clientSecret uris =>
    (putOauthProvider t provider clientId clientSecret uris).toOption
  | .putRedirectUris provider uris => (putOauthRedirectUris t provider uris).toOption
  | .delete provider => (deleteOauthProvider t provider).toOption

/-- What an accepted request makes of the setting of a provider, with the addresses as a list. -/
def effect (provider : String) (c : Option OauthProviderConfig) : Label → Option OauthProviderConfig
  | .put p clientId clientSecret uris =>
    if p = provider then some ⟨provider, clientId, clientSecret, uris⟩ else c
  | .putRedirectUris p uris =>
    if p = provider then c.map fun c => { c with allowedRedirectUris := uris } else c
  | .delete p => if p = provider then none else c

/-! ### What an address has -/

theorem validateRedirectUri_eq_ok {uri : String} (h : validateRedirectUri uri = .ok ()) :
    uri ≠ "" ∧ (utf8 uri).length < 1024 ∧ ∀ c ∈ uri.toList, isRefused c = false := by
  unfold validateRedirectUri at h
  split at h
  · cases h
  · next hshape =>
    simp only [Bool.or_eq_true, String.isEmpty_iff, decide_eq_true_eq, not_or, not_le,
      List.any_eq_true, not_exists, not_and, Bool.not_eq_true] at hshape
    exact ⟨hshape.1.1, hshape.1.2, hshape.2⟩

theorem isRefused_eq_false {c : Char} (h : isRefused c = false) :
    isWhitespace c = false ∧ isControl c = false ∧ c ≠ ',' ∧ c ≠ '#' := by
  unfold isRefused at h
  simp only [Bool.or_eq_false_iff, beq_eq_false_iff_ne] at h
  exact ⟨h.1.1.1, h.1.1.2, h.1.2, h.2⟩

theorem forM_eq_ok_iff {ε α : Type} {f : α → Except ε Unit} {xs : List α} :
    xs.forM f = .ok () ↔ ∀ x ∈ xs, f x = .ok () := by
  induction xs with
  | nil => exact iff_of_true rfl fun x hx => by cases hx
  | cons x xs ih =>
    have hcons : (x :: xs).forM f = (f x >>= fun _ => xs.forM f) := rfl
    rw [hcons, Except.bind_eq_ok_iff, List.forall_mem_cons, ← ih]
    constructor
    · rintro ⟨⟨⟩, hx, hxs⟩
      exact ⟨hx, hxs⟩
    · rintro ⟨hx, hxs⟩
      exact ⟨(), hx, hxs⟩

theorem validateRedirectUris_eq_ok {uris : List String} (h : validateRedirectUris uris = .ok ()) :
    ∀ u ∈ uris, validateRedirectUri u = .ok () := by
  unfold validateRedirectUris at h
  split at h
  · cases h
  · exact forM_eq_ok_iff.mp h

theorem validateUpsert_eq_ok {provider clientId clientSecret : String} {uris : List String}
    (h : validateUpsert provider clientId clientSecret uris = .ok ()) :
    ∀ u ∈ uris, validateRedirectUri u = .ok () := by
  obtain ⟨-, -, h⟩ := Except.bind_eq_ok_iff.mp h
  split at h
  · cases h
  · split at h
    · cases h
    · exact validateRedirectUris_eq_ok h

/-! ### The addresses are read back -/

theorem dropWhile_of_forall {p : Char → Bool} {cs : List Char} (h : ∀ c ∈ cs, p c = false) :
    cs.dropWhile p = cs := by
  cases cs with
  | nil => rfl
  | cons c cs => exact List.dropWhile_cons_of_neg (by rw [h c List.mem_cons_self]; decide)

theorem trim_of_forall {cs : List Char} (h : ∀ c ∈ cs, isWhitespace c = false) : trim cs = cs := by
  have hstart : trimStart cs = cs := dropWhile_of_forall h
  have hend : trimStart cs.reverse = cs.reverse :=
    dropWhile_of_forall fun c hc => h c (List.mem_reverse.mp hc)
  rw [trim, hstart, hend, List.reverse_reverse]

theorem parseUris_joinUris {uris : List String}
    (h : ∀ u ∈ uris, validateRedirectUri u = .ok ()) : parseUris (joinUris uris) = uris := by
  unfold parseUris joinUris
  rw [String.toList_ofList]
  by_cases hnil : uris = []
  · subst hnil
    decide
  · have hcomma : ∀ cs ∈ uris.map String.toList, ',' ∉ cs := by
      intro cs hcs hmem
      obtain ⟨u, hu, rfl⟩ := List.mem_map.mp hcs
      obtain ⟨-, -, hchars⟩ := validateRedirectUri_eq_ok (h u hu)
      exact (isRefused_eq_false (hchars _ hmem)).2.2.1 rfl
    rw [List.splitOn_intercalate ',' hcomma (by rwa [Ne, List.map_eq_nil_iff]), List.map_map]
    -- No address is changed by the trimming, and none is empty.
    have htrim : uris.map ((fun s => String.ofList (trim s)) ∘ String.toList) = uris := by
      refine (List.map_congr_left fun u hu => ?_).trans uris.map_id
      obtain ⟨-, -, hchars⟩ := validateRedirectUri_eq_ok (h u hu)
      have hself := trim_of_forall fun c hc => (isRefused_eq_false (hchars c hc)).1
      change String.ofList (trim u.toList) = id u
      rw [hself, String.ofList_toList, id]
    rw [htrim, List.filter_eq_self]
    intro u hu
    have hne := (validateRedirectUri_eq_ok (h u hu)).1
    rw [String.isEmpty_eq_false_iff.mpr hne]
    rfl

/-- A row that a request has written is read as the request. -/
theorem read_joinUris {uris : List String} (h : ∀ u ∈ uris, validateRedirectUri u = .ok ())
    (provider clientId clientSecret : String) :
    Row.read provider ⟨clientId, clientSecret, joinUris uris⟩ =
      ⟨provider, clientId, clientSecret, uris⟩ :=
  congrArg (OauthProviderConfig.mk provider clientId clientSecret) (parseUris_joinUris h)

section Runs

variable {t t' : Table} {l : Label} {provider : String}

/-- The addresses of a request. -/
def Label.uris : Label → List String
  | .put _ _ _ uris => uris
  | .putRedirectUris _ uris => uris
  | .delete _ => []

theorem step_put {p clientId clientSecret : String} {uris : List String}
    (h : step t (.put p clientId clientSecret uris) = some t') :
    validateUpsert p clientId clientSecret uris = .ok () ∧
      t' = t.set p ⟨clientId, clientSecret, joinUris uris⟩ := by
  have hok := Except.toOption_eq_some_iff.mp h
  unfold putOauthProvider at hok
  split at hok
  · cases hok
  · next hvalid => exact ⟨hvalid, (Except.ok.inj hok).symm⟩

theorem step_putRedirectUris {p : String} {uris : List String}
    (h : step t (.putRedirectUris p uris) = some t') :
    validateRedirectUris uris = .ok () ∧ t' = t.mapValues fun k row =>
      if k = p then { row with allowedRedirectUris := joinUris uris } else row := by
  have hok := Except.toOption_eq_some_iff.mp h
  unfold putOauthRedirectUris at hok
  split at hok
  · cases hok
  · next hvalid =>
    split at hok
    · exact ⟨hvalid, (Except.ok.inj hok).symm⟩
    · cases hok

theorem step_delete {p : String} (h : step t (.delete p) = some t') : t' = t.erase p := by
  have hok := Except.toOption_eq_some_iff.mp h
  unfold deleteOauthProvider at hok
  split at hok
  · exact (Except.ok.inj hok).symm
  · cases hok

theorem step_uris (h : step t l = some t') : ∀ u ∈ l.uris, validateRedirectUri u = .ok () := by
  cases l with
  | put p clientId clientSecret uris => exact validateUpsert_eq_ok (step_put h).1
  | putRedirectUris p uris => exact validateRedirectUris_eq_ok (step_putRedirectUris h).1
  | delete p => exact fun u hu => by cases hu

/-- What is read after an accepted request is what the request means. -/
theorem get_step (h : step t l = some t') : get t' provider = effect provider (get t provider) l := by
  have huris := step_uris h
  cases l with
  | put p clientId clientSecret uris =>
    obtain ⟨-, rfl⟩ := step_put h
    by_cases heq : p = provider
    · subst heq
      rw [effect, if_pos rfl, get, KeyMap.get_set_self, Option.map_some]
      exact congrArg some (read_joinUris huris p clientId clientSecret)
    · rw [effect, if_neg heq, get, KeyMap.get_set_of_ne (Ne.symm heq), get]
  | putRedirectUris p uris =>
    obtain ⟨-, rfl⟩ := step_putRedirectUris h
    rw [get, KeyMap.get_mapValues, Option.map_map, effect]
    by_cases heq : p = provider
    · subst heq
      rw [if_pos rfl, get, Option.map_map]
      refine congrArg (Option.map · _) (funext fun row => ?_)
      change Row.read p (if p = p then _ else row) = _
      rw [if_pos rfl]
      exact read_joinUris huris p row.clientId row.clientSecret
    · rw [if_neg heq, get]
      refine congrArg (Option.map · _) (funext fun row => ?_)
      change Row.read provider (if provider = p then _ else row) = _
      rw [if_neg (Ne.symm heq)]
  | delete p =>
    obtain rfl := step_delete h
    by_cases heq : p = provider
    · subst heq
      rw [effect, if_pos rfl, get, KeyMap.get_erase_self, Option.map_none]
    · rw [effect, if_neg heq, get, KeyMap.get_erase_of_ne (Ne.symm heq), get]

/-- An address that a request leaves in a setting is one of its own, or was there. -/
theorem mem_effect {c : Option OauthProviderConfig} {c' : OauthProviderConfig} {u : String}
    (h : effect provider c l = some c') (hu : u ∈ c'.allowedRedirectUris) :
    u ∈ l.uris ∨ ∃ c₀, c = some c₀ ∧ u ∈ c₀.allowedRedirectUris := by
  cases l with
  | put p clientId clientSecret uris =>
    rw [effect] at h
    split at h
    · obtain rfl := Option.some.inj h
      exact .inl hu
    · exact .inr ⟨c', h, hu⟩
  | putRedirectUris p uris =>
    rw [effect] at h
    split at h
    · obtain ⟨c₀, -, rfl⟩ := Option.map_eq_some_iff.mp h
      exact .inl hu
    · exact .inr ⟨c', h, hu⟩
  | delete p =>
    rw [effect] at h
    split at h
    · cases h
    · exact .inr ⟨c', h, hu⟩

/-- Every address that is read has passed the check. -/
def Checked (t : Table) : Prop :=
  ∀ provider c, get t provider = some c → ∀ u ∈ c.allowedRedirectUris, validateRedirectUri u = .ok ()

theorem checked_step (h : step t l = some t') (ht : Checked t) : Checked t' := by
  intro provider c hget u hu
  rw [get_step h] at hget
  obtain hown | ⟨c₀, hc₀, hold⟩ := mem_effect hget hu
  · exact step_uris h u hown
  · exact ht provider c₀ hc₀ u hold

theorem checked_empty : Checked .empty := by
  intro provider c hget
  cases hget

theorem checked_run {ls : List Label} (h : Transition.run step t ls = some t') (ht : Checked t) :
    Checked t' := by
  induction ls generalizing t with
  | nil =>
    obtain rfl := Option.some.inj h
    exact ht
  | cons l ls ih =>
    obtain ⟨s, hs, hrun⟩ := Transition.run_cons h
    exact ih hrun (checked_step hs ht)

/-- What is read of the rows after a run is what the accepted requests mean, one after the other. -/
theorem get_run {ls : List Label} (h : Transition.run step t ls = some t') :
    get t' provider = ls.foldl (effect provider) (get t provider) := by
  induction ls generalizing t with
  | nil =>
    obtain rfl := Option.some.inj h
    rfl
  | cons l ls ih =>
    obtain ⟨s, hs, hrun⟩ := Transition.run_cons h
    rw [ih hrun, get_step hs, List.foldl_cons]

end Runs

/-! ### The fragment -/

def successLocation (frontend token : String) (expiresInSecs : Nat) : String :=
  frontend ++ "#access_token=" ++ token ++ "&token_type=Bearer&expires_in=" ++ toString expiresInSecs

def errorLocation (frontend code : String) : String :=
  frontend ++ "#error=" ++ code

/-- Where a browser goes with a location: the fragment stays with it. -/
def target (location : String) : String :=
  .ofList (location.toList.takeWhile (· ≠ '#'))

theorem takeWhile_append_hash {cs ds : List Char} (h : '#' ∉ cs) :
    (cs ++ '#' :: ds).takeWhile (· ≠ '#') = cs := by
  have hall : ∀ c ∈ cs, decide (c ≠ '#') = true := fun c hc => decide_eq_true fun heq => h (heq ▸ hc)
  rw [List.takeWhile_append_of_pos hall, List.takeWhile_cons_of_neg (by decide), List.append_nil]

/-- A checked address is cut off at its end, whatever is appended as a fragment. -/
theorem fragment_cut {uri : String} (h : validateRedirectUri uri = .ok ()) (rest : String) :
    target (uri ++ ("#" ++ rest)) = uri := by
  obtain ⟨-, -, hchars⟩ := validateRedirectUri_eq_ok h
  have hhash : '#' ∉ uri.toList := fun hmem => (isRefused_eq_false (hchars _ hmem)).2.2.2 rfl
  unfold target
  rw [String.toList_append, String.toList_append]
  change String.ofList ((uri.toList ++ '#' :: rest.toList).takeWhile (· ≠ '#')) = uri
  rw [takeWhile_append_hash hhash, String.ofList_toList]

theorem target_successLocation {uri : String} (h : validateRedirectUri uri = .ok ())
    (token : String) (secs : Nat) : target (successLocation uri token secs) = uri := by
  have hsplit : successLocation uri token secs = uri ++ ("#" ++ ("access_token=" ++ token ++
      "&token_type=Bearer&expires_in=" ++ toString secs)) := by
    have hhash : "#access_token=" = "#" ++ "access_token=" := rfl
    unfold successLocation
    rw [hhash]
    simp only [String.append_assoc]
  rw [hsplit]
  exact fragment_cut h _

theorem target_errorLocation {uri : String} (h : validateRedirectUri uri = .ok ()) (code : String) :
    target (errorLocation uri code) = uri := by
  have hsplit : errorLocation uri code = uri ++ ("#" ++ ("error=" ++ code)) := by
    have hhash : "#error=" = "#" ++ "error=" := rfl
    unfold errorLocation
    rw [hhash]
    simp only [String.append_assoc]
  rw [hsplit]
  exact fragment_cut h _

end OauthConfig

end Drust
