import Drust.Lib.Base64Url
import Drust.Lib.Delimiter
import Drust.Lib.Digits
import Drust.Mgmt.Tenants
import Drust.Storage.FilePath

/-!
# Signed download URLs

A signed URL lets whoever holds it fetch one private file until a given time. Its token is the
HMAC of the owner, the key, the expiry and the download flag, joined by `|`. A key may hold any
characters, the delimiter too, and it stands in the middle; the label of the owner before it
and the decimal and the flag after it cannot hold one, so the fields are cut off from both ends
and the key is what is left (`message_injective`).

HMAC-SHA256 and Base64 are parameters. Of the first it is assumed that it has no collision among
the messages in use, of the second that it loses nothing.
-/

namespace Drust.SignedUrl

open Sql Tenants

inductive Owner where
  | admin
  | tenant (id : String)
  deriving DecidableEq

def Owner.label : Owner → String
  | .admin => "admin"
  | .tenant id => "t:" ++ id

/-- The id of the owner satisfies the grammar of tenant ids. -/
def Owner.Valid : Owner → Prop
  | .admin => True
  | .tenant id => validateTenantId id = .ok ()

/-- What a token is for. -/
structure Download where
  owner : Owner
  key : String
  expires : Int64
  download : Bool
  deriving DecidableEq

/-- The bytes that are fed to the HMAC, in order. -/
def message (d : Download) : List UInt8 :=
  utf8 d.owner.label ++ utf8 "|" ++ utf8 d.key ++ utf8 "|" ++ utf8 d.expires.toInt.repr ++
    utf8 "|" ++ utf8 (if d.download then "1" else "0")

section Token

-- HMAC-SHA256 of a secret and a message, and the URL-safe Base64 of its bytes.
variable (hmacSha256 : List UInt8 → List UInt8 → List UInt8) (encode : List UInt8 → String)
  (secret : List UInt8)

def compute (d : Download) : String :=
  encode (hmacSha256 secret (message d))

def mint (d : Download) : String :=
  compute hmacSha256 encode secret d

/-- The comparison takes the same time wherever two tokens differ; it decides their equality. -/
def verify (now : Int) (d : Download) (token : String) : Bool :=
  if d.expires.toInt ≤ now then false
  else utf8 (compute hmacSha256 encode secret d) == utf8 token

end Token

/-! ### The fields of a message -/

/-- The text behind a message. -/
def text (d : Download) : String :=
  d.owner.label ++ "|" ++ d.key ++ "|" ++ d.expires.toInt.repr ++ "|" ++
    (if d.download then "1" else "0")

theorem message_eq (d : Download) : message d = utf8 (text d) := by
  simp only [message, text, utf8_append]

/-- The flag as it is written. -/
def flagText (download : Bool) : List Char :=
  if download then ['1'] else ['0']

/-- The flag is behind the last delimiter, the label before the first, and the expiry behind the
last one that is left between them. -/
theorem text_toList (d : Download) :
    (text d).toList = (d.owner.label.toList ++ '|' :: (d.key.toList ++ '|' ::
      d.expires.toInt.repr.toList)) ++ '|' :: flagText d.download := by
  cases hflag : d.download <;> simp [text, flagText, hflag]

theorem delimiter_notMem_flagText (b : Bool) : '|' ∉ flagText b := by
  cases b <;> decide

theorem flagText_injective : Function.Injective flagText := by
  decide

theorem delimiter_notMem_label {o : Owner} (h : o.Valid) : '|' ∉ o.label.toList := by
  cases o with
  | admin => decide
  | tenant id =>
    intro hmem
    have hid : '|' ∈ id.toList := by simpa [Owner.label] using hmem
    rw [Owner.Valid, validateTenantId] at h
    split at h
    · cases h
    · split at h
      · cases h
      · next hchars =>
        simp only [Bool.not_eq_true', Bool.not_eq_false, List.all_eq_true] at hchars
        exact absurd (hchars _ hid) (by decide)

theorem label_injective : Function.Injective Owner.label := by
  have hne : ∀ id, Owner.label .admin ≠ Owner.label (.tenant id) := by
    intro id h
    have hlist := congrArg String.toList h
    simp [Owner.label] at hlist
  intro o o' h
  cases o with
  | admin =>
    cases o' with
    | admin => rfl
    | tenant id => exact absurd h (hne id)
  | tenant id =>
    cases o' with
    | admin => exact absurd h.symm (hne id)
    | tenant id' =>
      have hlist := congrArg String.toList h
      simp only [Owner.label, String.toList_append, List.append_cancel_left_eq] at hlist
      rw [String.toList_inj.mp hlist]

theorem delimiter_notMem_repr (i : Int) : '|' ∉ i.repr.toList := by
  have hdigits : ∀ n : Nat, '|' ∉ n.repr.toList := by
    intro n hmem
    rw [Nat.repr, String.toList_ofList] at hmem
    exact absurd (Digits.allDigits_toDigits n _ hmem) (by decide)
  cases i with
  | ofNat n => exact hdigits n
  | negSucc n =>
    rw [Int.repr, String.toList_append]
    simpa using hdigits (n + 1)

/-- Two downloads with one message are the same. -/
theorem message_injective {d d' : Download} (h : d.owner.Valid) (h' : d'.owner.Valid)
    (heq : message d = message d') : d = d' := by
  rw [message_eq, message_eq] at heq
  have htext := congrArg String.toList (utf8_injective heq)
  rw [text_toList, text_toList] at htext
  -- the key may hold the delimiter, so the text is cut at both of its ends
  obtain ⟨hfront, hflag⟩ :=
    Delimiter.cut_last (delimiter_notMem_flagText _) (delimiter_notMem_flagText _) htext
  obtain ⟨hlabel, hmiddle⟩ :=
    Delimiter.cut_first (delimiter_notMem_label h) (delimiter_notMem_label h') hfront
  obtain ⟨hkey, hexpires⟩ :=
    Delimiter.cut_last (delimiter_notMem_repr _) (delimiter_notMem_repr _) hmiddle
  obtain ⟨owner, key, expires, download⟩ := d
  obtain ⟨owner', key', expires', download'⟩ := d'
  obtain rfl : owner = owner' := label_injective (String.toList_inj.mp hlabel)
  obtain rfl : key = key' := String.toList_inj.mp hkey
  obtain rfl : expires = expires' :=
    Int64.toInt_inj.mp (Int.repr_injective (String.toList_inj.mp hexpires))
  obtain rfl : download = download' := flagText_injective hflag
  rfl

/-! ### Tokens -/

section Token

variable {hmacSha256 : List UInt8 → List UInt8 → List UInt8} {encode : List UInt8 → String}
  {secret : List UInt8}

/-- A token passes before its expiry, for the downloads that have the same one. -/
theorem verify_mint_eq_true_iff {now : Int} {d d' : Download} :
    verify hmacSha256 encode secret now d' (mint hmacSha256 encode secret d) = true ↔
      now < d'.expires.toInt ∧
        compute hmacSha256 encode secret d' = compute hmacSha256 encode secret d := by
  rw [verify, mint]
  split
  · next hexpired => simp [Int.not_lt.mpr hexpired]
  · next hlive =>
    rw [beq_iff_eq, utf8_injective.eq_iff]
    simp [Int.not_le.mp hlive]

end Token

/-- A token is for one download. No two downloads of valid owners have the same message. Where
HMAC has no collision among the messages in use and the encoding of the tags loses nothing, the
token of a download passes for that one only, and for it until it expires. -/
theorem token_binds_one_download :
    (∀ d d' : Download, d.owner.Valid → d'.owner.Valid → message d = message d' → d = d') ∧
    ∀ {hmacSha256 : List UInt8 → List UInt8 → List UInt8} {encode : List UInt8 → String}
      {secret : List UInt8} {inUse : Set (List UInt8)},
      Set.InjOn (hmacSha256 secret) inUse → Function.Injective encode →
      ∀ d d' : Download, d.owner.Valid → d'.owner.Valid → message d ∈ inUse → message d' ∈ inUse →
        ∀ now, verify hmacSha256 encode secret now d' (mint hmacSha256 encode secret d) = true ↔
          now < d'.expires.toInt ∧ d' = d := by
  refine ⟨fun d d' => message_injective, ?_⟩
  intro hmacSha256 encode secret inUse hfree hencode d d' hd hd' hmem hmem' now
  rw [verify_mint_eq_true_iff]
  refine and_congr_right fun _ => ⟨fun htoken => ?_, fun heq => by rw [heq]⟩
  have htag : hmacSha256 secret (message d') = hmacSha256 secret (message d) := hencode htoken
  exact message_injective hd' hd (hfree hmem' hmem htag)

/-- A report of the tenant `acme`, shown in the browser or saved. -/
def report (download : Bool) : Download where
  owner := .tenant "acme"
  key := "report.pdf"
  expires := 1700000000
  download := download

/-- The bytes 0 to 31. -/
def sampleSecret : List UInt8 :=
  (List.range 32).map UInt8.ofNat

/-- HMAC-SHA256 under `sampleSecret`, at the two messages of the report. -/
def reportTag (_secret msg : List UInt8) : List UInt8 :=
  if msg = message (report true) then
    [234, 161, 88, 32, 126, 50, 243, 105, 86, 170, 192, 49, 154, 250, 58, 11, 212, 15, 181, 117,
      223, 77, 39, 88, 127, 64, 110, 229, 252, 53, 115, 179]
  else
    [183, 155, 89, 187, 1, 28, 6, 201, 235, 150, 110, 165, 168, 176, 55, 6, 95, 75, 113, 227, 53,
      140, 130, 45, 206, 128, 210, 55, 84, 221, 27, 175]

theorem token_binds_report :
    mint reportTag Base64Url.encode sampleSecret (report true)
        = "6qFYIH4y82lWqsAxmvo6C9QPtXXfTSdYf0Bu5fw1c7M" ∧
      verify reportTag Base64Url.encode sampleSecret 1600000000 (report true)
        (mint reportTag Base64Url.encode sampleSecret (report true)) = true ∧
      verify reportTag Base64Url.encode sampleSecret 1600000000 (report false)
        (mint reportTag Base64Url.encode sampleSecret (report true)) = false := by
  have hacme : validateTenantId "acme" = .ok () := by decide +kernel
  have hvalid : ∀ b, (report b).owner.Valid := fun _ => hacme
  have hmessages : message (report true) ≠ message (report false) := by decide +kernel
  have hfree : Set.InjOn (reportTag sampleSecret)
      {message (report true), message (report false)} := by
    rintro m (rfl | rfl) m' (rfl | rfl) htag
    · rfl
    · simp [reportTag, hmessages.symm] at htag
    · simp [reportTag, hmessages.symm] at htag
    · rfl
  have hverify := token_binds_one_download.2 hfree Base64Url.encode_injective (report true)
  refine ⟨by decide +kernel, ?_, ?_⟩
  · exact (hverify _ (hvalid true) (hvalid true) (.inl rfl) (.inl rfl) _).mpr ⟨by decide, rfl⟩
  · rw [Bool.eq_false_iff, ne_eq,
      hverify _ (hvalid true) (hvalid false) (.inl rfl) (.inr rfl) 1600000000]
    decide

end Drust.SignedUrl
