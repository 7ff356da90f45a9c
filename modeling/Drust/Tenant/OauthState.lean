import Drust.Lib.Base64Url
import Drust.Tenant.Accounts
import Drust.Tenant.OauthConfig

/-!
# The state of a sign-in through a provider

A sign-in leaves for the provider and comes back with a state, which the browser also holds in a
cookie. The state carries the address of the frontend that the user is sent on to, under a MAC with a
secret of the process, so that two tabs do not overwrite each other's address.

The wire format is a nonce of 16 bytes, the length of the address in two bytes, the address and the MAC
of all that, in URL-safe Base64. As that Base64 is strict, what is decoded is what was encoded, down to
the last bit (`decode_eq_ok_iff`), so a callback goes on exactly when the browser holds the state as a
cookie and the state was made under the secret for an address that is still allowed
(`callbackTarget_eq_ok_iff`). The browser is then sent to that address and no other, whatever the
settings were before (`callback_returns`).
-/

namespace Drust

namespace OauthState

open Sql (utf8 ofUtf8)
open ExecWrite (trim)
open OauthConfig (OauthProviderConfig)

/-! ### The token -/

structure TenantOauthStateToken where
  nonce : List UInt8
  redirectUri : String
  nonceLength : nonce.length = 16

inductive TenantOauthStateError where
  | badEncoding
  | tooShort
  | lengthMismatch
  | hmacMismatch
  | invalidUtf8
  deriving DecidableEq, Repr

/-- The two bytes of a length, the high one first. -/
def lengthBytes (n : Nat) : List UInt8 :=
  [.ofNat (n / 256), .ofNat (n % 256)]

/-- What the MAC is made of. -/
def payload (t : TenantOauthStateToken) : List UInt8 :=
  t.nonce ++ lengthBytes (utf8 t.redirectUri).length ++ utf8 t.redirectUri

/-- An engine of the crate `base64`. -/
structure Engine where
  encode : List UInt8 → String
  decode : String → Option (List UInt8)

/-- What is decoded is what is encoded, and no other text: there is no padding, and the bits that no
byte has are zero. -/
structure Engine.Strict (engine : Engine) : Prop where
  decode_eq_some_iff : ∀ {s bytes}, engine.decode s = some bytes ↔ s = engine.encode bytes
  encode_nil : engine.encode [] = ""

section Token

-- URL-safe Base64 without padding, and HMAC-SHA256 of a secret and a message.
variable (urlSafeNoPad : Engine) (hmacSha256 : List UInt8 → List UInt8 → List UInt8)
  (secret : List UInt8)

/-- There is no state for an address whose length does not fit. -/
def encode (t : TenantOauthStateToken) : Option String :=
  if (utf8 t.redirectUri).length < 2 ^ 16 then
    some (urlSafeNoPad.encode (payload t ++ hmacSha256 secret (payload t)))
  else none

def decode (s : String) : Except TenantOauthStateError TenantOauthStateToken :=
  match urlSafeNoPad.decode s with
  | none => .error .badEncoding
  | some raw =>
    if h : raw.length < 16 + 2 + 32 then .error .tooShort
    else
      let len := (raw.getD 16 0).toNat * 256 + (raw.getD 17 0).toNat
      if raw.length ≠ 16 + 2 + len + 32 then .error .lengthMismatch
      else if (raw.drop (18 + len)).take 32 ≠ hmacSha256 secret (raw.take (18 + len)) then
        .error .hmacMismatch
      else
        match ofUtf8 ((raw.drop 18).take len) with
        | none => .error .invalidUtf8
        | some redirectUri => .ok {
            nonce := raw.take 16
            redirectUri := redirectUri
            nonceLength := by rw [List.length_take]; omega }

end Token

/-! ### What is decoded was encoded -/

theorem length_lengthBytes (n : Nat) : (lengthBytes n).length = 2 := rfl

/-- The two bytes of a length that fits are read back. -/
theorem read_lengthBytes {n : Nat} (h : n < 2 ^ 16) :
    (UInt8.ofNat (n / 256)).toNat * 256 + (UInt8.ofNat (n % 256)).toNat = n := by
  rw [Base64Url.toNat_ofNat (by omega), Base64Url.toNat_ofNat (by omega)]
  omega

theorem lengthBytes_read (a b : UInt8) : lengthBytes (a.toNat * 256 + b.toNat) = [a, b] := by
  have ha := a.toNat_lt
  have hb := b.toNat_lt
  unfold lengthBytes
  rw [Base64Url.ofNat_eq (b := a) (by omega), Base64Url.ofNat_eq (b := b) (by omega)]

/-- A list is its first sixteen elements, the next two, and the rest. -/
theorem take_header {raw : List UInt8} (h : 18 ≤ raw.length) :
    raw = raw.take 16 ++ [raw.getD 16 0, raw.getD 17 0] ++ raw.drop 18 := by
  have htail : raw.drop 16 = raw.getD 16 0 :: raw.getD 17 0 :: raw.drop 18 := by
    rw [List.drop_eq_getElem_cons (by omega), List.drop_eq_getElem_cons (by omega),
      List.getD_eq_getElem _ _ (by omega), List.getD_eq_getElem _ _ (by omega)]
  calc raw = raw.take 16 ++ raw.drop 16 := (List.take_append_drop 16 raw).symm
    _ = raw.take 16 ++ [raw.getD 16 0, raw.getD 17 0] ++ raw.drop 18 := by
      rw [htail, List.append_assoc]
      rfl

section Token

variable {urlSafeNoPad : Engine} {hmacSha256 : List UInt8 → List UInt8 → List UInt8}
  {secret : List UInt8} {s : String} {t : TenantOauthStateToken}

theorem length_payload (t : TenantOauthStateToken) :
    (payload t).length = 18 + (utf8 t.redirectUri).length := by
  unfold payload
  rw [List.length_append, List.length_append, t.nonceLength, length_lengthBytes]

/-- The bytes of a token where they are looked for. -/
theorem decode_raw {mac : List UInt8} (hmac : mac.length = 32)
    (hfits : (utf8 t.redirectUri).length < 2 ^ 16) :
    let raw := payload t ++ mac
    let len := (utf8 t.redirectUri).length
    raw.length = 16 + 2 + len + 32 ∧ (raw.getD 16 0).toNat * 256 + (raw.getD 17 0).toNat = len ∧
      raw.take 16 = t.nonce ∧ raw.take (18 + len) = payload t ∧ (raw.drop 18).take len =
        utf8 t.redirectUri ∧ (raw.drop (18 + len)).take 32 = mac := by
  intro raw len
  have hpayload : (payload t).length = 18 + len := length_payload t
  have hraw : raw = t.nonce ++ (lengthBytes len ++ (utf8 t.redirectUri ++ mac)) := by
    simp only [raw, len, payload, List.append_assoc]
  have hnonce := t.nonceLength
  refine ⟨?_, ?_, ?_, List.take_left' hpayload, ?_, ?_⟩
  · rw [List.length_append, hpayload, hmac]
  · have h₁₆ : raw.getD 16 0 = .ofNat (len / 256) := by
      rw [hraw, List.getD_append_right _ _ _ _ (by omega), hnonce]
      rfl
    have h₁₇ : raw.getD 17 0 = .ofNat (len % 256) := by
      rw [hraw, List.getD_append_right _ _ _ _ (by omega), hnonce]
      rfl
    rw [h₁₆, h₁₇]
    exact read_lengthBytes hfits
  · rw [hraw]
    exact List.take_left' hnonce
  · have hdrop : raw.drop 18 = utf8 t.redirectUri ++ mac := by
      rw [hraw, ← List.append_assoc]
      exact List.drop_left' (by rw [List.length_append, hnonce, length_lengthBytes])
    rw [hdrop]
    exact List.take_left' rfl
  · rw [List.drop_left' hpayload]
    exact List.take_of_length_le (Nat.le_of_eq hmac)

theorem decode_encode (hstrict : urlSafeNoPad.Strict)
    (hlength : ∀ key msg, (hmacSha256 key msg).length = 32)
    (h : encode urlSafeNoPad hmacSha256 secret t = some s) :
    decode urlSafeNoPad hmacSha256 secret s = .ok t := by
  unfold encode at h
  split at h
  · next hfits =>
    obtain rfl := Option.some.inj h
    obtain ⟨htotal, hlen, hnonce, hsigned, huri, hmac⟩ :=
      decode_raw (hlength secret (payload t)) hfits
    unfold decode
    rw [hstrict.decode_eq_some_iff.mpr rfl]
    dsimp only
    rw [dif_neg (by omega), hlen, if_neg (not_not.mpr htotal), if_neg (by rw [hmac, hsigned]; simp)]
    split
    · next hnone =>
      rw [huri, Sql.ofUtf8_eq_some_iff.mpr rfl] at hnone
      cases hnone
    · next uri hsome =>
      rw [huri, Sql.ofUtf8_eq_some_iff.mpr rfl] at hsome
      obtain rfl := Option.some.inj hsome
      cases t
      simp only [Except.ok.injEq, TenantOauthStateToken.mk.injEq, and_true]
      exact hnonce
  · cases h

/-- The bytes of an accepted token are a payload and what is compared with the MAC. -/
theorem raw_eq {raw : List UInt8} {len : Nat} {uri : String} (hnonce : (raw.take 16).length = 16)
    (hlen : (raw.getD 16 0).toNat * 256 + (raw.getD 17 0).toNat = len)
    (htotal : raw.length = 16 + 2 + len + 32) (huri : (raw.drop 18).take len = utf8 uri) :
    (utf8 uri).length = len ∧ raw.take (18 + len) = payload ⟨raw.take 16, uri, hnonce⟩ ∧
      payload ⟨raw.take 16, uri, hnonce⟩ ++ (raw.drop (18 + len)).take 32 = raw := by
  have hlength : (utf8 uri).length = len := by
    rw [← huri, List.length_take, List.length_drop]
    omega
  have hbytes : lengthBytes len = [raw.getD 16 0, raw.getD 17 0] := by
    rw [← hlen]
    exact lengthBytes_read _ _
  have hrest : (raw.drop (18 + len)).take 32 = (raw.drop 18).drop len := by
    rw [List.drop_drop]
    exact List.take_of_length_le (by rw [List.length_drop]; omega)
  have hall : payload ⟨raw.take 16, uri, hnonce⟩ ++ (raw.drop (18 + len)).take 32 = raw := by
    rw [hrest, payload]
    dsimp only
    rw [hlength, hbytes, ← huri, List.append_assoc, List.take_append_drop]
    exact (take_header (by omega)).symm
  refine ⟨hlength, ?_, hall⟩
  conv_lhs => rw [← hall]
  exact List.take_left' (by rw [length_payload, hlength])

theorem encode_decode (hstrict : urlSafeNoPad.Strict)
    (h : decode urlSafeNoPad hmacSha256 secret s = .ok t) :
    encode urlSafeNoPad hmacSha256 secret t = some s := by
  unfold decode at h
  split at h
  · cases h
  · next raw hraw =>
    split at h
    · cases h
    · dsimp only at h
      generalize hlen : (raw.getD 16 0).toNat * 256 + (raw.getD 17 0).toNat = len at h
      split at h
      · cases h
      · next htotal =>
        split at h
        · cases h
        · next hmac =>
          split at h
          · cases h
          · next uri huri =>
            obtain rfl := Except.ok.inj h
            rw [not_not] at htotal hmac
            obtain ⟨hlength, hsigned, hall⟩ :=
              raw_eq (by rw [List.length_take]; omega) hlen htotal (Sql.ofUtf8_eq_some_iff.mp huri)
            have hhigh := (raw.getD 16 0).toNat_lt
            have hlow := (raw.getD 17 0).toNat_lt
            unfold encode
            rw [if_pos (by dsimp only; omega), ← hsigned, ← hmac, hsigned, hall,
              ← hstrict.decode_eq_some_iff.mp hraw]

theorem encode_ne_empty (hstrict : urlSafeNoPad.Strict)
    (h : encode urlSafeNoPad hmacSha256 secret t = some s) : s ≠ "" := by
  rintro rfl
  unfold encode at h
  split at h
  · have hraw := hstrict.decode_eq_some_iff.mpr (Option.some.inj h).symm
    rw [hstrict.decode_eq_some_iff.mpr hstrict.encode_nil.symm] at hraw
    have hlength := congrArg List.length (Option.some.inj hraw)
    rw [List.length_append, length_payload, List.length_nil] at hlength
    omega
  · cases h

/-- A state is accepted when it was made under the secret, and in no other spelling. -/
theorem decode_eq_ok_iff (hstrict : urlSafeNoPad.Strict)
    (hlength : ∀ key msg, (hmacSha256 key msg).length = 32) :
    decode urlSafeNoPad hmacSha256 secret s = .ok t ↔
      encode urlSafeNoPad hmacSha256 secret t = some s :=
  ⟨encode_decode hstrict, decode_encode hstrict hlength⟩

end Token

/-! ### The way out and the way back -/

def stateCookie : String := "drust_t_oauth_state"

def pkceCookie : String := "drust_t_oauth_pkce"

/-- The value of the first cookie with a name. -/
def parseCookie (header : Option String) (name : String) : Option String :=
  header.bind fun raw => (raw.toList.splitOn ';').findSome? fun kv =>
    let kv := trim kv
    if '=' ∈ kv ∧ kv.takeWhile (· ≠ '=') = name.toList then
      some (.ofList ((kv.dropWhile (· ≠ '=')).drop 1))
    else none

/-- The comparison takes the same time wherever the two differ; it decides their equality. -/
def verifyState (cookie query : String) : Bool :=
  !cookie.isEmpty && !query.isEmpty && utf8 cookie == utf8 query

def stateMismatch : ApiError := ⟨400, none, "oauth_state_mismatch"⟩

def invalidRedirect : ApiError := ⟨400, none, "oauth_invalid_redirect"⟩

section Callback

variable (urlSafeNoPad : Engine) (hmacSha256 : List UInt8 → List UInt8 → List UInt8)
  (secret : List UInt8)

/-- The state that leaves with the browser, if the address is one of those that the tenant allows. The
nonce is drawn. The encoder panics where there is no state. -/
def startState (allowed : List String) (t : TenantOauthStateToken) :
    Except ApiError (Option String) :=
  if t.redirectUri ∉ allowed then .error invalidRedirect
  else .ok (encode urlSafeNoPad hmacSha256 secret t)

/-- The address that a callback goes on to, and the verifier for the provider. -/
def callbackTarget (allowed : List String) (cookies : Option String) (state : String) :
    Except ApiError (String × String) :=
  if !verifyState ((parseCookie cookies stateCookie).getD "") state then .error stateMismatch
  else
    let verifier := (parseCookie cookies pkceCookie).getD ""
    if verifier.isEmpty then .error stateMismatch
    else
      match decode urlSafeNoPad hmacSha256 secret state with
      | .error _ => .error stateMismatch
      | .ok envelope =>
        if envelope.redirectUri ∉ allowed then .error invalidRedirect
        else .ok (envelope.redirectUri, verifier)

variable {urlSafeNoPad hmacSha256 secret}

theorem verifyState_iff {cookie query : String} :
    verifyState cookie query = true ↔ cookie = query ∧ query ≠ "" := by
  unfold verifyState
  simp only [Bool.and_eq_true, Bool.not_eq_true', beq_iff_eq, Sql.utf8_injective.eq_iff,
    String.isEmpty_eq_false_iff]
  constructor
  · rintro ⟨⟨-, hquery⟩, heq⟩
    exact ⟨heq, hquery⟩
  · rintro ⟨rfl, hquery⟩
    exact ⟨⟨hquery, hquery⟩, rfl⟩

theorem getD_eq_iff {o : Option String} {s : String} (h : s ≠ "") :
    o.getD "" = s ↔ o = some s := by
  cases o with
  | none => exact ⟨fun heq => absurd heq.symm h, fun heq => by cases heq⟩
  | some s' => exact ⟨fun heq => congrArg some heq, fun heq => Option.some.inj heq⟩

theorem callbackTarget_eq_ok (hstrict : urlSafeNoPad.Strict) {allowed : List String}
    {cookies : Option String} {state uri verifier : String}
    (h : callbackTarget urlSafeNoPad hmacSha256 secret allowed cookies state = .ok (uri, verifier)) :
    state ≠ "" ∧ parseCookie cookies stateCookie = some state ∧
      verifier ≠ "" ∧ parseCookie cookies pkceCookie = some verifier ∧ uri ∈ allowed ∧
      ∃ t, t.redirectUri = uri ∧ encode urlSafeNoPad hmacSha256 secret t = some state := by
  unfold callbackTarget at h
  split at h
  · cases h
  · next hstate =>
    dsimp only at h
    split at h
    · cases h
    · next hverifier =>
      split at h
      · cases h
      · next envelope hdecode =>
        split at h
        · cases h
        · next hallowed =>
          obtain ⟨rfl, rfl⟩ := Prod.mk.inj (Except.ok.inj h)
          rw [Bool.not_eq_true, Bool.not_eq_false', verifyState_iff] at hstate
          obtain ⟨hcookie, hne⟩ := hstate
          have hverifier : (parseCookie cookies pkceCookie).getD "" ≠ "" := by
            rwa [String.isEmpty_iff] at hverifier
          exact ⟨hne, (getD_eq_iff hne).mp hcookie, hverifier, (getD_eq_iff hverifier).mp rfl,
            not_not.mp hallowed, envelope, rfl, encode_decode hstrict hdecode⟩

/-- What comes of a state that the browser holds and that was made under the secret. -/
theorem callbackTarget_of_encode (hstrict : urlSafeNoPad.Strict)
    (hlength : ∀ key msg, (hmacSha256 key msg).length = 32)
    {cookies : Option String} {state verifier : String} {t : TenantOauthStateToken}
    (hne : state ≠ "") (hcookie : parseCookie cookies stateCookie = some state)
    (hverifier : verifier ≠ "") (hpkce : parseCookie cookies pkceCookie = some verifier)
    (hencode : encode urlSafeNoPad hmacSha256 secret t = some state) (allowed : List String) :
    callbackTarget urlSafeNoPad hmacSha256 secret allowed cookies state =
      if t.redirectUri ∉ allowed then .error invalidRedirect else .ok (t.redirectUri, verifier) := by
  have hstate : verifyState state state = true := verifyState_iff.mpr ⟨rfl, hne⟩
  have hempty : verifier.isEmpty = false := String.isEmpty_eq_false_iff.mpr hverifier
  unfold callbackTarget
  rw [hcookie, hpkce, Option.getD_some, Option.getD_some, hstate, decode_encode hstrict hlength hencode]
  simp only [hempty, Bool.not_true, Bool.false_eq_true, if_false]

/-- A callback goes on when the browser holds the state that comes back, and a verifier, and the state
was made under the secret for an address that the tenant allows by now. It goes on to that address. -/
theorem callbackTarget_eq_ok_iff (hstrict : urlSafeNoPad.Strict)
    (hlength : ∀ key msg, (hmacSha256 key msg).length = 32)
    (allowed : List String) (cookies : Option String) (state uri verifier : String) :
    callbackTarget urlSafeNoPad hmacSha256 secret allowed cookies state = .ok (uri, verifier) ↔
      state ≠ "" ∧ parseCookie cookies stateCookie = some state ∧
        verifier ≠ "" ∧ parseCookie cookies pkceCookie = some verifier ∧ uri ∈ allowed ∧
        ∃ t, t.redirectUri = uri ∧ encode urlSafeNoPad hmacSha256 secret t = some state := by
  refine ⟨callbackTarget_eq_ok hstrict, ?_⟩
  rintro ⟨hne, hcookie, hverifier, hpkce, hallowed, t, rfl, hencode⟩
  rw [callbackTarget_of_encode hstrict hlength hne hcookie hverifier hpkce hencode, if_neg (by simpa)]

/-! A sign-in of a small site. -/

def base64Url : Engine := ⟨Base64Url.encode, Base64Url.decode⟩

theorem base64Url_strict : base64Url.Strict :=
  ⟨Base64Url.decode_eq_some_iff, rfl⟩

def siteToken : TenantOauthStateToken := ⟨.replicate 16 1, "https://a.example/", rfl⟩

def siteSecret : List UInt8 := .replicate 32 7

/-- The HMAC of the token. -/
def siteMac : List UInt8 :=
  [248, 162, 127, 14, 172, 196, 153, 177, 164, 95, 96, 33, 154, 89, 216, 219, 247, 53, 130, 63, 141,
    31, 221, 137, 227, 189, 249, 39, 232, 231, 58, 158]

def siteState : String :=
  "AQEBAQEBAQEBAQEBAQEBAQASaHR0cHM6Ly9hLmV4YW1wbGUv-KJ_DqzEmbGkX2AhmlnY2_c1gj-NH92J4735J-jnOp4"

def siteCookies : Option String :=
  some ("theme=dark; drust_t_oauth_state=" ++ siteState ++ "; drust_t_oauth_pkce=v3rifier")

theorem callbackTarget_site :
    callbackTarget base64Url (fun _ _ => siteMac) siteSecret
      ["https://b.example/", "https://a.example/"] siteCookies siteState =
        .ok ("https://a.example/", "v3rifier") :=
  (callbackTarget_eq_ok_iff base64Url_strict (fun _ _ => rfl) _ _ _ _ _).mpr
    ⟨by decide +kernel, by decide +kernel, by decide +kernel, by decide +kernel, by decide +kernel,
      siteToken, rfl, by decide +kernel⟩

end Callback

/-! ### The whole callback -/

/-- What the provider says of the caller. -/
structure ProviderUser where
  email : String
  emailVerified : Bool
  /-- The name and the picture, as they are stored. -/
  profile : String

inductive Reply where
  | plainText (status : Nat) (body : String)
  /-- A redirect. -/
  | found (location : String)
  deriving DecidableEq, Repr

def replyOf (e : ApiError) : Reply := .plainText e.status e.message

/-- What a callback brings. -/
structure CallbackQuery where
  code : String
  state : String

def thirtyDaysSecs : Nat := 30 * 86400

section Whole

variable (urlSafeNoPad : Engine) (hmacSha256 : List UInt8 → List UInt8 → List UInt8)
  (secret : List UInt8)

-- Whether a text can be the value of a header, and the exchange of a code and a verifier.
variable (isHeaderValue : String → Bool) (exchange : String → String → Option ProviderUser)

def buildFragmentRedirect (location : String) : Reply :=
  if isHeaderValue location then .found location else .plainText 500 "oauth_redirect_error"

/-- `row` is the setting of the provider, `allow` the setting of the tenant, and `newId` and `draw` are
drawn. The answer, and the accounts after it. -/
def oauthCallback (row : Option OauthProviderConfig) (publicUrl : String) (cookies : Option String)
    (q : CallbackQuery) (cfg : Accounts.Config) (allow : Bool) (newId draw : String)
    (s : Accounts.State) : Reply × Accounts.State :=
  match row with
  | none => (.plainText 400 "oauth_misconfigured", s)
  | some row =>
    match callbackTarget urlSafeNoPad hmacSha256 secret row.allowedRedirectUris cookies q.state with
    | .error e => (replyOf e, s)
    | .ok (frontend, verifier) =>
      if publicUrl.isEmpty then (.plainText 500 "DRUST_PUBLIC_URL not set", s)
      else if row.provider ∉ OauthConfig.allowedProviders then (.plainText 400 "oauth_misconfigured", s)
      else
        let fail := fun code =>
          buildFragmentRedirect isHeaderValue (OauthConfig.errorLocation frontend code)
        match exchange q.code verifier with
        | none => (fail "oauth_provider_error", s)
        | some user =>
          match Accounts.oauthSignIn cfg s user.email user.emailVerified user.profile allow newId draw with
          | .error e => (fail e.code, s)
          | .ok s' =>
            (buildFragmentRedirect isHeaderValue (OauthConfig.successLocation frontend
              (Accounts.generateToken draw) thirtyDaysSecs), s')

variable {urlSafeNoPad hmacSha256 secret isHeaderValue exchange}

theorem buildFragmentRedirect_eq_found {location location' : String}
    (h : buildFragmentRedirect isHeaderValue location = .found location') : location' = location := by
  unfold buildFragmentRedirect at h
  split at h
  · exact (Reply.found.inj h).symm
  · cases h

/-- A redirect is to the address of the state with a fragment. -/
theorem oauthCallback_found {row : Option OauthProviderConfig} {publicUrl : String}
    {cookies : Option String} {q : CallbackQuery} {cfg : Accounts.Config} {allow : Bool}
    {newId draw location : String} {s s' : Accounts.State}
    (h : oauthCallback urlSafeNoPad hmacSha256 secret isHeaderValue exchange row publicUrl cookies q cfg
      allow newId draw s = (.found location, s')) :
    ∃ c frontend verifier, row = some c ∧
      callbackTarget urlSafeNoPad hmacSha256 secret c.allowedRedirectUris cookies q.state =
        .ok (frontend, verifier) ∧
      ((∃ code, location = OauthConfig.errorLocation frontend code) ∨
        location = OauthConfig.successLocation frontend (Accounts.generateToken draw)
          thirtyDaysSecs) := by
  unfold oauthCallback at h
  split at h
  · cases h
  · next c =>
    split at h
    · cases h
    · next frontend verifier htarget =>
      refine ⟨c, frontend, verifier, rfl, htarget, ?_⟩
      split at h
      · cases h
      · split at h
        · cases h
        · dsimp only at h
          split at h
          · exact .inl ⟨_, buildFragmentRedirect_eq_found (Prod.mk.inj h).1⟩
          · split at h
            · exact .inl ⟨_, buildFragmentRedirect_eq_found (Prod.mk.inj h).1⟩
            · exact .inr (buildFragmentRedirect_eq_found (Prod.mk.inj h).1)

/-- The requests that set the provider of the site. -/
def siteRequests : List OauthConfig.Label :=
  [.put "google" "client" "key" ["https://a.example/"],
    .putRedirectUris "google" ["https://b.example/", "https://a.example/"]]

def siteTable : OauthConfig.Table :=
  (KeyMap.empty.set "google" ⟨"client", "key", "https://a.example/"⟩).mapValues fun k row =>
    if k = "google" then
      { row with allowedRedirectUris := OauthConfig.joinUris ["https://b.example/", "https://a.example/"] }
    else row

theorem run_siteRequests :
    Transition.run OauthConfig.step .empty siteRequests = some siteTable := rfl

/-- After any requests that set the provider, a callback sends the browser only to an address of the
last setting, in full, and only when the browser holds a state that was made for that address. -/
theorem callback_returns (hstrict : urlSafeNoPad.Strict) (ls : List OauthConfig.Label)
    (t : OauthConfig.Table) (hrun : Transition.run OauthConfig.step .empty ls = some t)
    (provider publicUrl : String) (cookies : Option String) (q : CallbackQuery)
    (cfg : Accounts.Config) (allow : Bool) (newId draw location : String) (s s' : Accounts.State)
    (h : oauthCallback urlSafeNoPad hmacSha256 secret isHeaderValue exchange (OauthConfig.get t provider)
      publicUrl cookies q cfg allow newId draw s = (.found location, s')) :
    ∃ c, ls.foldl (OauthConfig.effect provider) none = some c ∧
      OauthConfig.target location ∈ c.allowedRedirectUris ∧
      parseCookie cookies stateCookie = some q.state ∧
      ∃ token, token.redirectUri = OauthConfig.target location ∧
        encode urlSafeNoPad hmacSha256 secret token = some q.state := by
  obtain ⟨c, frontend, verifier, hget, htarget, hlocation⟩ := oauthCallback_found h
  obtain ⟨-, hcookie, -, -, hallowed, token, huri, hencode⟩ :=
    callbackTarget_eq_ok hstrict htarget
  have hchecked := OauthConfig.checked_run hrun OauthConfig.checked_empty provider c hget frontend
    hallowed
  have hcut : OauthConfig.target location = frontend := by
    obtain ⟨code, rfl⟩ | rfl := hlocation
    · exact OauthConfig.target_errorLocation hchecked code
    · exact OauthConfig.target_successLocation hchecked _ _
  rw [OauthConfig.get_run hrun] at hget
  rw [hcut]
  exact ⟨c, hget, hallowed, hcookie, token, huri, hencode⟩

/-- The provider does not take the code of this callback. -/
theorem callback_returns_site :
    ∃ c, siteRequests.foldl (OauthConfig.effect "google") none = some c ∧
      OauthConfig.target "https://a.example/#error=oauth_provider_error" ∈ c.allowedRedirectUris ∧
      parseCookie siteCookies stateCookie = some siteState ∧
      ∃ token, token.redirectUri =
          OauthConfig.target "https://a.example/#error=oauth_provider_error" ∧
        encode base64Url (fun _ _ => siteMac) siteSecret token = some siteState := by
  have hrow : OauthConfig.get siteTable "google" = some
      ⟨"google", "client", "key", ["https://b.example/", "https://a.example/"]⟩ := by decide +kernel
  have htarget : callbackTarget base64Url (fun _ _ => siteMac) siteSecret
      ["https://b.example/", "https://a.example/"] siteCookies siteState =
        .ok ("https://a.example/", "v3rifier") := by decide +kernel
  have hreply : oauthCallback base64Url (fun _ _ => siteMac) siteSecret (fun _ => true)
      (fun _ _ => none) (OauthConfig.get siteTable "google") "https://drust.example" siteCookies ⟨"used", siteState⟩
      ⟨fun p _ => p, fun p h => p == h, id⟩ true "u1" "t1" {} =
      (.found "https://a.example/#error=oauth_provider_error", {}) := by
    unfold oauthCallback
    rw [hrow]
    dsimp only
    rw [htarget]
    rfl
  exact callback_returns base64Url_strict siteRequests siteTable run_siteRequests "google"
    "https://drust.example" siteCookies _ _ true "u1" "t1" _ _ _ hreply

/-- A sign-in leaves for any address of the setting, and returns to it if it is still an address of the
setting by then. Other requests may have changed the setting on the way, or deleted it. -/
theorem signIn_round_trip (hstrict : urlSafeNoPad.Strict)
    (hlength : ∀ key msg, (hmacSha256 key msg).length = 32) (ls ls' : List OauthConfig.Label)
    (t t' : OauthConfig.Table) (hrun : Transition.run OauthConfig.step .empty ls = some t)
    (hrun' : Transition.run OauthConfig.step t ls' = some t') (provider : String)
    (c : OauthProviderConfig) (hset : ls.foldl (OauthConfig.effect provider) none = some c)
    (token : TenantOauthStateToken) (huri : token.redirectUri ∈ c.allowedRedirectUris) :
    ∃ state, OauthConfig.get t provider = some c ∧
      startState urlSafeNoPad hmacSha256 secret c.allowedRedirectUris token = .ok (some state) ∧
      OauthConfig.get t' provider = ls'.foldl (OauthConfig.effect provider) (some c) ∧
      (∀ c', OauthConfig.get t' provider = some c' → ∀ cookies verifier,
        parseCookie cookies stateCookie = some state →
        parseCookie cookies pkceCookie = some verifier → verifier ≠ "" →
        callbackTarget urlSafeNoPad hmacSha256 secret c'.allowedRedirectUris cookies state =
          if token.redirectUri ∉ c'.allowedRedirectUris then .error invalidRedirect
          else .ok (token.redirectUri, verifier)) ∧
      (OauthConfig.get t' provider = none → ∀ publicUrl cookies code cfg allow newId draw s,
        oauthCallback urlSafeNoPad hmacSha256 secret isHeaderValue exchange
          (OauthConfig.get t' provider) publicUrl cookies ⟨code, state⟩ cfg allow newId draw s =
            (.plainText 400 "oauth_misconfigured", s)) := by
  have hget : OauthConfig.get t provider = some c := (OauthConfig.get_run hrun).trans hset
  have hget' : OauthConfig.get t' provider = ls'.foldl (OauthConfig.effect provider) (some c) := by
    rw [OauthConfig.get_run hrun', hget]
  have hchecked := OauthConfig.checked_run hrun OauthConfig.checked_empty provider c hget _ huri
  have hfits := (OauthConfig.validateRedirectUri_eq_ok hchecked).2.1
  have hencode : encode urlSafeNoPad hmacSha256 secret token =
      some (urlSafeNoPad.encode (payload token ++ hmacSha256 secret (payload token))) :=
    if_pos (by omega)
  refine ⟨_, hget, (if_neg (not_not.mpr huri)).trans (congrArg _ hencode), hget', ?_, ?_⟩
  · intro c' _ cookies verifier hcookie hpkce hverifier
    exact callbackTarget_of_encode hstrict hlength (encode_ne_empty hstrict hencode) hcookie hverifier
      hpkce hencode _
  · intro hnone publicUrl cookies code cfg allow newId draw s
    unfold oauthCallback
    rw [hnone]

theorem signIn_round_trip_site :
    ∃ state, startState base64Url (fun _ _ => siteMac) siteSecret ["https://a.example/"]
        siteToken = .ok (some state) ∧
      ∀ c', OauthConfig.get siteTable "google" = some c' → ∀ cookies verifier,
        parseCookie cookies stateCookie = some state →
        parseCookie cookies pkceCookie = some verifier → verifier ≠ "" →
        callbackTarget base64Url (fun _ _ => siteMac) siteSecret c'.allowedRedirectUris cookies
            state =
          if siteToken.redirectUri ∉ c'.allowedRedirectUris then .error invalidRedirect
          else .ok (siteToken.redirectUri, verifier) := by
  obtain ⟨state, -, hstart, -, hreturn, -⟩ := @signIn_round_trip base64Url
    (fun _ _ => siteMac) siteSecret (fun _ => true) (fun _ _ => none) base64Url_strict
    (fun _ _ => rfl) (siteRequests.take 1) (siteRequests.drop 1) _ siteTable rfl rfl "google" _ rfl
    siteToken (by decide)
  exact ⟨state, hstart, hreturn⟩

end Whole

end OauthState

end Drust
