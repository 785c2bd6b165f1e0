import AiSaas.Billing.Adapters.Toss
import AiSaas.Billing.Adapters.LemonSqueezy
import AiSaas.Lib.Base64

/-!
# The webhooks of Toss

The rest of `TossPaymentsAdapter` in `services/billing/adapters/toss.py`: how a
webhook is verified and what event it makes.  A signature that starts with `v1:`
goes through the official check, which takes the header apart at its colons,
decodes each part and compares the bytes with the *text* of the expected
signature.  A genuine signature decodes to the signature itself, which is shorter
than its text.

## Main definitions

* `TossWebhooks`, `HmacSha256` — what the adapter keeps for webhooks, and the hash.
* `Toss.verifyOfficialSignature`, `Toss.verifyAndNormalizeEvent` — the methods.
* `Toss.officialHeader` — a header with several signatures.
* `Toss.HasGenuine`, `Toss.HasDoubled` — a header with the signature, and one with
  the text of its text.

## Main results

* `Toss.verifyOfficialSignature_eq_ok_iff` — what the check accepts.
* `Toss.officialSignature_iff` — where it accepts the genuine signatures.
-/

namespace AiSaas

open Transaction

/-- What `TossPaymentsAdapter.__init__` keeps for webhooks. -/
structure TossWebhooks where
  /-- The secret key where there is no secret of its own. -/
  webhookSecret : String
  testMode : Bool
  statusVerifier : Option (List (String × Json) → Bool)

/-- `hmac.digest(key, message, "sha256")`. -/
structure HmacSha256 where
  digest : List UInt8 → List UInt8 → List UInt8
  length_digest : ∀ key message, (digest key message).length = 32

namespace Toss

/-- `text.encode()`. -/
def utf8 (text : String) : List UInt8 := text.toUTF8.data.toList

/-- The bytes of ASCII characters. -/
def asciiBytes (text : List Char) : List UInt8 := text.map fun c => .ofNat c.toNat

variable (lib : TossLib) (hmac : HmacSha256) (adapter : TossWebhooks)

/-- The time of a transmission, as its header has it. -/
def transmissionTime (headers : List (String × String)) : String :=
  header lib.toStdlib headers "tosspayments-webhook-transmission-time"

/-- The HMAC of a body and the time of its transmission. -/
def mac (rawBody : List UInt8) (timestamp : String) : List UInt8 :=
  hmac.digest (utf8 adapter.webhookSecret) (rawBody ++ utf8 ":" ++ utf8 timestamp)

/-- `signature.split(":")[1:]`. -/
def suppliedValues (signature : String) : List (List Char) := (signature.toList.splitOn ':').tail

/-- `_verify_official_signature`; what `b64decode` raises skips the item. -/
def verifyOfficialSignature (rawBody : List UInt8) (headers : List (String × String))
    (signature : String) : Except Error Unit := do
  let timestamp := transmissionTime lib headers
  ensure (timestamp ≠ "" ∧ adapter.webhookSecret ≠ "")
    (.invalidWebhook "Toss signature headers are incomplete")
  let expected := asciiBytes (Base64.encode (mac hmac adapter rawBody timestamp))
  ensure ((suppliedValues signature).any fun item => decide (Base64.decode item = some expected))
    (.invalidWebhook "Toss webhook signature is invalid")

/-- `data`. -/
def dataOf (value : List (String × Json)) : List (String × Json) :=
  match Json.get value "data" with
  | .obj fields => fields
  | _ => value

/-- `event_id`. -/
def webhookEventId (value : List (String × Json)) (headers : List (String × String)) : String :=
  lib.str ((Json.str (header lib.toStdlib headers "tosspayments-webhook-transmission-id")).orElse
    ((Json.get value "eventId").orElse ((Json.get value "event_id").orElse
      ((Json.get (dataOf value) "paymentKey").orElse
        ((Json.get (dataOf value) "transactionKey").orElse (.str ""))))))

/-- `idempotency`. -/
def webhookKey (value : List (String × Json)) (headers : List (String × String)) : String :=
  let transmissionId := header lib.toStdlib headers "tosspayments-webhook-transmission-id"
  if transmissionId ≠ "" then transmissionId
  else lib.str ((Json.get value "idempotency_key").orElse
    (.str (webhookEventId lib value headers)))

/-- The check of a webhook: by its signature, or by asking for its status where it has none. -/
def verifyWebhook (rawBody : List UInt8) (headers : List (String × String))
    (value : List (String × Json)) : Except Error Unit :=
  let named := header lib.toStdlib headers "tosspayments-webhook-signature"
  let signature := if named ≠ "" then named else header lib.toStdlib headers "x-signature"
  if signature ≠ "" then
    if "v1:".toList <+: signature.toList then
      verifyOfficialSignature lib hmac adapter rawBody headers signature
    else verifyHmac lib.toStdlib rawBody adapter.webhookSecret signature
  else ensure (adapter.statusVerifier.any fun verifier => verifier value)
    (.invalidWebhook "Toss payment webhook requires provider status verification")

/-- `verify_and_normalize_event`. -/
def verifyAndNormalizeEvent (env : Env) (rawBody : List UInt8) (headers : List (String × String)) :
    Except Error NormalizedEvent := do
  let value ← parseJson lib.toStdlib rawBody
  verifyWebhook lib hmac adapter rawBody headers value
  let data := dataOf value
  let amount := (Json.get data "totalAmount").orElse
    ((Json.get data "amount").orElse (Json.get value "amount_minor"))
  let occurredAt ← parseTime lib.toStdlib env
    ((Json.get value "createdAt").orElse (Json.get value "occurred_at"))
  normalized providerId (webhookEventId lib value headers)
    (lib.str ((Json.get value "eventType").orElse
      ((Json.get value "event_type").orElse (.str "payment.updated"))))
    (status lib (lib.str ((Json.get data "status").orElse
      ((Json.get value "status").orElse (.str "unknown")))))
    (lib.str ((Json.get data "orderId").orElse ((Json.get value "order_id").orElse (.str ""))))
    occurredAt adapter.testMode (webhookKey lib value headers) amount.asInt

/-! ### Headers with several signatures -/

/-- The header of the signatures `s` and `rest`: `v1:s` or `v1:s,v1:…`. -/
def officialHeader : String → List String → String
  | s, [] => "v1:" ++ s
  | s, t :: rest => "v1:" ++ s ++ "," ++ officialHeader t rest

/-- The parts between the colons of a header that are no signature with a comma
and a version behind it. -/
def cleanParts : String → List String → List (List Char)
  | s, [] => s.toList.splitOn ':'
  | s, t :: rest => (s.toList.splitOn ':').dropLast ++ cleanParts t rest

/-- Some signature of a header is the Base64 text of the HMAC. -/
def HasGenuine (mac : List UInt8) (signatures : List String) : Prop :=
  ∃ s ∈ signatures, s.toList = Base64.encode mac

/-- Some clean part of a header is Base64 of the Base64 text of the HMAC. -/
def HasDoubled (mac : List UInt8) (s : String) (rest : List String) : Prop :=
  ∃ part ∈ cleanParts s rest, Base64.decode part = some (asciiBytes (Base64.encode mac))

variable {lib hmac adapter} {rawBody : List UInt8} {headers : List (String × String)}

theorem splitOn_append_of_notMem {α : Type*} [DecidableEq α] {x : α} (l : List α) {t : List α}
    (ht : x ∉ t) : ∃ l', (l ++ t).splitOn x = (l.splitOn x).dropLast ++ [l' ++ t] := by
  induction l with
  | nil => exact ⟨[], by simp [List.splitOn_eq_singleton ht]⟩
  | cons y l ih =>
    obtain ⟨l', hl'⟩ := ih
    rw [List.cons_append, List.splitOn_cons_eq_if_modifyHead, List.splitOn_cons_eq_if_modifyHead, hl']
    by_cases hy : (y == x) = true
    · refine ⟨l', ?_⟩
      rw [if_pos hy, if_pos hy, List.dropLast_cons_of_ne_nil (List.splitOn_ne_nil x l),
        List.cons_append]
    · rw [if_neg hy, if_neg hy]
      -- the character joins the first part, which may be the last as well
      match hparts : l.splitOn x with
      | [] => exact absurd hparts (List.splitOn_ne_nil x l)
      | [part] => exact ⟨y :: l', by simp⟩
      | part :: next :: others => exact ⟨l', by simp⟩

/-- A part that ends in a version cannot be read. -/
theorem decode_version (part : List Char) : Base64.decode (part ++ ",v1".toList) = none := by
  cases h : Base64.decode (part ++ ",v1".toList) with
  | none => rfl
  | some bytes =>
    have hcomma := Base64.mem_alphabet_of_decode h ',' (by simp)
    exact absurd hcomma (by decide)

theorem suppliedValues_version (text : String) :
    suppliedValues ("v1:" ++ text) = text.toList.splitOn ':' := by
  have hsplit : ("v1:" ++ text).toList = ['v', '1'] ++ ':' :: text.toList := by simp
  rw [suppliedValues, hsplit, List.splitOn_append_cons_self_of_not_mem (by simp), List.tail_cons]

theorem exists_officialHeader (s : String) (rest : List String) :
    ∃ text, officialHeader s rest = "v1:" ++ text := by
  cases rest with
  | nil => exact ⟨s, rfl⟩
  | cons t rest => exact ⟨s ++ "," ++ officialHeader t rest, by simp [officialHeader, String.append_assoc]⟩

/-- Of the parts of a header, the clean ones alone can be read. -/
theorem exists_supplied_iff (s : String) (rest : List String) (bytes : List UInt8) :
    (∃ item ∈ suppliedValues (officialHeader s rest), Base64.decode item = some bytes) ↔
      ∃ part ∈ cleanParts s rest, Base64.decode part = some bytes := by
  induction rest generalizing s with
  | nil => rw [officialHeader, suppliedValues_version, cleanParts]
  | cons t rest ih =>
    obtain ⟨text, htext⟩ := exists_officialHeader t rest
    have hparts : (s ++ "," ++ officialHeader t rest).toList.splitOn ':'
        = (s.toList ++ ",v1".toList).splitOn ':' ++ suppliedValues (officialHeader t rest) := by
      rw [htext, suppliedValues_version, ← List.splitOn_append_cons_self]
      simp
    obtain ⟨last, hlast⟩ := splitOn_append_of_notMem (x := ':') s.toList (t := ",v1".toList) (by simp)
    rw [officialHeader, String.append_assoc, String.append_assoc, suppliedValues_version,
      ← String.append_assoc, hparts, hlast, cleanParts]
    simp only [List.mem_append, or_and_right, exists_or, ih, List.mem_singleton, exists_eq_left,
      decode_version, reduceCtorEq, or_false]

/-- **What the check accepts.** -/
theorem verifyOfficialSignature_eq_ok_iff (s : String) (rest : List String) :
    verifyOfficialSignature lib hmac adapter rawBody headers (officialHeader s rest) = .ok () ↔
      (transmissionTime lib headers ≠ "" ∧ adapter.webhookSecret ≠ "") ∧
        HasDoubled (mac hmac adapter rawBody (transmissionTime lib headers)) s rest := by
  simp only [verifyOfficialSignature, bind_eq_ok, ensure_eq_ok, HasDoubled, ← exists_supplied_iff]
  simp

/-- A refused signature is an invalid webhook. -/
theorem verifyOfficialSignature_refused {signature : String}
    (h : verifyOfficialSignature lib hmac adapter rawBody headers signature ≠ .ok ()) :
    ∃ message, verifyOfficialSignature lib hmac adapter rawBody headers signature
      = .error (.invalidWebhook message) := by
  simp only [verifyOfficialSignature, ensure] at h ⊢
  split_ifs at h ⊢
  · exact absurd rfl h
  all_goals exact ⟨_, rfl⟩

/-- The genuine signature is no Base64 of its own text. -/
theorem genuine_not_doubled (key message : List UInt8) :
    Base64.decode (Base64.encode (hmac.digest key message))
      ≠ some (asciiBytes (Base64.encode (hmac.digest key message))) := by
  intro h
  rw [Base64.decode_encode] at h
  have hlength := congrArg List.length (Option.some.inj h)
  rw [asciiBytes, List.length_map, Base64.length_encode, hmac.length_digest] at hlength
  omega

/-- **Where the official check is right**: exactly on the headers that carry the
genuine signature and, in a clean part, its doubled text, or neither of them. -/
theorem officialSignature_iff (lib : TossLib) (hmac : HmacSha256) (adapter : TossWebhooks)
    (rawBody : List UInt8) (headers : List (String × String)) (s : String) (rest : List String) :
    ((verifyOfficialSignature lib hmac adapter rawBody headers (officialHeader s rest) = .ok () ↔
        HasGenuine (mac hmac adapter rawBody (transmissionTime lib headers)) (s :: rest)) ∧
      (verifyOfficialSignature lib hmac adapter rawBody headers (officialHeader s rest) ≠ .ok () →
        ∃ message, verifyOfficialSignature lib hmac adapter rawBody headers (officialHeader s rest)
          = .error (.invalidWebhook message))) ↔
      (HasGenuine (mac hmac adapter rawBody (transmissionTime lib headers)) (s :: rest) ↔
        (transmissionTime lib headers ≠ "" ∧ adapter.webhookSecret ≠ "") ∧
          HasDoubled (mac hmac adapter rawBody (transmissionTime lib headers)) s rest) := by
  rw [verifyOfficialSignature_eq_ok_iff]
  constructor
  · rintro ⟨haccepts, -⟩
    exact haccepts.symm
  · intro hsame
    exact ⟨hsame.symm, verifyOfficialSignature_refused⟩

/-- A header whose one signature is genuine is refused. -/
theorem verifyOfficialSignature_genuine {s : String}
    (hs : s.toList = Base64.encode (mac hmac adapter rawBody (transmissionTime lib headers))) :
    ∃ message, verifyOfficialSignature lib hmac adapter rawBody headers (officialHeader s [])
      = .error (.invalidWebhook message) := by
  refine verifyOfficialSignature_refused fun hok => ?_
  obtain ⟨-, part, hpart, hdoubled⟩ := (verifyOfficialSignature_eq_ok_iff s []).mp hok
  have hcolon : ':' ∉ s.toList := by
    intro hmem
    have hread := Base64.decode_encode (mac hmac adapter rawBody (transmissionTime lib headers))
    rw [← hs] at hread
    exact absurd (Base64.mem_alphabet_of_decode hread ':' hmem) (by decide)
  rw [cleanParts, List.splitOn_eq_singleton hcolon, List.mem_singleton] at hpart
  rw [hpart, hs] at hdoubled
  exact genuine_not_doubled _ _ hdoubled

end Toss

/-! ### A genuine signature -/

namespace Sample

/-- The HMAC under `toss-secret` of an empty object, sent at midnight. -/
def tossMac : List UInt8 :=
  [134, 134, 223, 223, 47, 1, 219, 191, 241, 237, 128, 107, 7, 16, 233, 106, 121, 146, 203, 33,
    198, 15, 164, 149, 188, 176, 157, 172, 163, 93, 175, 54]

/-- HMAC-SHA256 where the sample needs it. -/
def tossHmac : HmacSha256 where
  digest _ _ := tossMac
  length_digest _ _ := rfl

/-- The adapter of the sample. -/
def tossWebhooks : TossWebhooks := ⟨"toss-secret", false, none⟩

/-- The headers of the transmission. -/
def tossTransmission : List (String × String) :=
  [("tosspayments-webhook-transmission-time", "2026-09-18T00:00:00Z")]

/-- The library of the sample. -/
def tossWebhookLib : TossLib where
  toStdlib := lib
  b64encode bytes := String.ofList (Base64.encode bytes)
  truncate _ := .error .typeError
  dumps _ := []

/-- **A genuine signature is refused.** -/
theorem genuine_refused :
    ¬ (Toss.verifyOfficialSignature tossWebhookLib tossHmac tossWebhooks (bytes "\x7b\x7d")
        tossTransmission
        (Toss.officialHeader "hobf3y8B27/x7YBrBxDpanmSyyHGD6SVvLCdrKNdrzY=" []) = .ok () ↔
      Toss.HasGenuine (Toss.mac tossHmac tossWebhooks (bytes "\x7b\x7d") "2026-09-18T00:00:00Z")
        ["hobf3y8B27/x7YBrBxDpanmSyyHGD6SVvLCdrKNdrzY="]) := by
  intro haccepts
  have hgenuine : "hobf3y8B27/x7YBrBxDpanmSyyHGD6SVvLCdrKNdrzY=".toList = Base64.encode tossMac := by
    decide +kernel
  obtain ⟨message, hrefused⟩ : ∃ message, Toss.verifyOfficialSignature tossWebhookLib tossHmac
      tossWebhooks (bytes "\x7b\x7d") tossTransmission
      (Toss.officialHeader "hobf3y8B27/x7YBrBxDpanmSyyHGD6SVvLCdrKNdrzY=" [])
        = .error (.invalidWebhook message) := Toss.verifyOfficialSignature_genuine hgenuine
  have haccepted := haccepts.mpr ⟨_, List.mem_singleton_self _, hgenuine⟩
  rw [hrefused] at haccepted
  cases haccepted

end Sample

end AiSaas
