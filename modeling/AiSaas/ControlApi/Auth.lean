import AiSaas.ControlApi.RepositoryCatalog
import AiSaas.Lib.Base64
import AiSaas.Lib.JsonText
import AiSaas.Python

/-!
# Signed tenant tokens

The control plane maps a request to a tenant by a bearer token: a payload with the
tenant and its time, in Base64 for URLs, a dot, and the payload's HMAC.  What a request
brings is text of any code points; each step of the reader may raise, and the exceptions
it expects become one.

* `TenantAuthenticator.issue`, `TenantAuthenticator.authenticate` — the two sides.
* `readToken` — the steps in the `try` block.
* `read_payloadText` — the JSON of a payload reads back.
* `tokens_sound_and_complete` — what a token that was issued gives, and what any other
  request can come to.
-/

namespace AiSaas
namespace ControlAuth

/-! ### Texts -/

/-- A code point, surrogates included. -/
abbrev CodePoint := Fin 0x110000

/-- A `str`. -/
abbrev PyText := List CodePoint

theorem toNat_lt_codePoints (c : Char) : c.toNat < 0x110000 := by
  rcases JsonText.toNat_lt_or c with h | h <;> omega

def pointOf (c : Char) : CodePoint := ⟨c.toNat, toNat_lt_codePoints c⟩

def textOf (cs : List Char) : PyText := cs.map pointOf

/-- The character of a code point that is no surrogate. -/
def charOf (p : CodePoint) : Option Char := if p.val.isValidChar then some (Char.ofNat p.val) else none

/-- The characters of a text without surrogates; others are not encoded. -/
def chars (t : PyText) : Option (List Char) := t.mapM charOf

@[simp] theorem charOf_pointOf (c : Char) : charOf (pointOf c) = some c := by
  have hvalid : c.toNat.isValidChar := c.valid
  rw [charOf, pointOf, if_pos hvalid, Char.ofNat_toNat]

@[simp] theorem chars_textOf (cs : List Char) : chars (textOf cs) = some cs := by
  induction cs with
  | nil => rfl
  | cons c cs ih =>
    unfold chars textOf at ih ⊢
    simp [ih]

/-- A text that is encoded is the text of its characters. -/
theorem eq_textOf_of_chars {t : PyText} {cs : List Char} (h : chars t = some cs) : t = textOf cs := by
  induction t generalizing cs with
  | nil =>
    have hnil : cs = [] := by simpa [chars] using h.symm
    rw [hnil]
    rfl
  | cons p t ih =>
    unfold chars at h ih
    rw [List.mapM_cons] at h
    simp only [bind, Option.bind_eq_some_iff] at h
    obtain ⟨c, hc, rest, hrest, hcs⟩ := h
    have hp : p = pointOf c := by
      unfold charOf at hc
      split at hc
      · next hvalid =>
        apply Fin.ext
        rw [← Option.some.inj hc, pointOf, Char.ofNat, dif_pos hvalid]
        rfl
      · cases hc
    rw [hp, ih hrest, ← Option.some.inj hcs]
    rfl

theorem pointOf_injective : Function.Injective pointOf := by
  intro c d h
  have hsome := congrArg charOf h
  simpa using hsome

/-- White space at both ends goes. -/
def stripText (t : PyText) : PyText :=
  let blank := fun p => (charOf p).any isSpace
  ((t.dropWhile blank).reverse.dropWhile blank).reverse

theorem stripText_textOf {cs : List Char} (h : ∀ c ∈ cs, isSpace c = false) :
    stripText (textOf cs) = textOf cs := by
  have hdrop : ∀ t : PyText, (∀ p ∈ t, (charOf p).any isSpace = false) →
      t.dropWhile (fun p => (charOf p).any isSpace) = t := by
    intro t ht
    cases t with
    | nil => rfl
    | cons p t => rw [List.dropWhile_cons_of_neg (by simp [ht p List.mem_cons_self])]
  have hall : ∀ p ∈ textOf cs, (charOf p).any isSpace = false := by
    intro p hp
    obtain ⟨c, hc, rfl⟩ := List.mem_map.mp hp
    simp [h c hc]
  rw [stripText, hdrop _ hall, hdrop _ (fun p hp => hall p (List.mem_reverse.mp hp)), List.reverse_reverse]

/-- `split(".", 1)`, where there is a dot. -/
def splitDot (t : PyText) : Option (PyText × PyText) :=
  match t.dropWhile (· ≠ pointOf '.') with
  | [] => none
  | _ :: rest => some (t.takeWhile (· ≠ pointOf '.'), rest)

theorem splitDot_append {u v : PyText} (h : pointOf '.' ∉ u) :
    splitDot (u ++ pointOf '.' :: v) = some (u, v) := by
  have hu : ∀ p ∈ u, decide (p ≠ pointOf '.') = true := fun p hp =>
    decide_eq_true fun heq => h (heq ▸ hp)
  rw [splitDot, List.dropWhile_append_of_pos hu, List.takeWhile_append_of_pos hu]
  simp

/-- A text that is split is its parts with the dot between them. -/
theorem eq_of_splitDot {t u v : PyText} (h : splitDot t = some (u, v)) : t = u ++ pointOf '.' :: v := by
  unfold splitDot at h
  split at h
  · cases h
  · next p rest hdrop =>
    cases h
    have hdot : p = pointOf '.' := by
      have hhead := List.head?_dropWhile_not (fun q => decide (q ≠ pointOf '.')) t
      rw [hdrop] at hhead
      simpa using hhead
    conv_lhs => rw [← List.takeWhile_append_dropWhile (p := fun q => decide (q ≠ pointOf '.')) (l := t)]
    rw [hdrop, hdot]

/-! ### The standard library -/

/-- What the calls raise. -/
inductive AuthRaised where
  | authentication (message : String)
  | valueError
  | keyError
  | typeError
  | overflowError
  | recursionError
deriving DecidableEq

/-- The encodings of JSON in bytes. -/
inductive JsonEncoding where
  | utf8
  | utf8Sig
  | utf16
  | utf16be
  | utf16le
  | utf32
  | utf32be
  | utf32le

/-- The library: the HMAC, the codecs other than UTF-8, `str` of numbers with a fraction and
of containers, `int` of a finite float, and which values nest beyond the interpreter's
limit; one without containers in it does not. -/
structure AuthLib where
  hmac : List UInt8 → List UInt8 → List UInt8
  decode : JsonEncoding → List UInt8 → Option (List Char)
  str : JsonText.Value → String
  truncate : JsonText.FloatText → ℤ
  tooDeep : JsonText.Value → Bool
  not_tooDeep : ∀ tenantId exp, tooDeep (.obj [("tenant_id", .str tenantId), ("exp", .int exp)]) = false

variable (lib : AuthLib)

def utf8Bytes (cs : List Char) : List UInt8 := (String.ofList cs).toUTF8.data.toList

/-- `json.detect_encoding`. -/
def detectEncoding (b : List UInt8) : JsonEncoding :=
  if [0, 0, 0xfe, 0xff].isPrefixOf b || [0xff, 0xfe, 0, 0].isPrefixOf b then .utf32
  else if [0xfe, 0xff].isPrefixOf b || [0xff, 0xfe].isPrefixOf b then .utf16
  else if [0xef, 0xbb, 0xbf].isPrefixOf b then .utf8Sig
  else
    match b with
    | [x, y] => if x = 0 then .utf16be else if y = 0 then .utf16le else .utf8
    | x :: y :: z :: w :: _ =>
      if x = 0 then (if y ≠ 0 then .utf16be else .utf32be)
      else if y = 0 then (if z ≠ 0 ∨ w ≠ 0 then .utf16le else .utf32le)
      else .utf8
    | _ => .utf8

/-- `b.decode(detect_encoding(b), "surrogatepass")`. -/
def decodeJsonBytes (b : List UInt8) : Option (List Char) :=
  match detectEncoding b with
  | .utf8 =>
    match String.fromUTF8? ⟨b.toArray⟩ with
    | some s => some s.toList
    | none => lib.decode .utf8 b
  | encoding => lib.decode encoding b

/-- `json.loads` of bytes. -/
def loads (b : List UInt8) : Except AuthRaised JsonText.Value :=
  match decodeJsonBytes lib b with
  | none => .error .valueError
  | some cs =>
    match JsonText.read cs with
    | none => .error .valueError
    | some v => if lib.tooDeep v then .error .recursionError else .ok v

/-- `value[name]` for a text. -/
def item (v : JsonText.Value) (name : String) : Except AuthRaised JsonText.Value :=
  match v with
  | .obj members =>
    match members.reverse.lookup name with
    | some x => .ok x
    | none => .error .keyError
  | _ => .error .typeError

/-- `str(value)`. -/
def strOf : JsonText.Value → String
  | .str s => s
  | .int n => toString n
  | .bool b => if b then "True" else "False"
  | .null => "None"
  | v => lib.str v

/-- `int(value)`. -/
def intOf : JsonText.Value → Except AuthRaised ℤ
  | .int n => .ok n
  | .bool b => .ok (if b then 1 else 0)
  | .str s =>
    match pyInt s with
    | some n => .ok n
    | none => .error .valueError
  | .float .nan => .error .valueError
  | .float .infinity => .error .overflowError
  | .float .negInfinity => .error .overflowError
  | .float x => .ok (lib.truncate x)
  | _ => .error .typeError

/-- `hexdigest` of a digest. -/
def hexDigest (digest : List UInt8) : List Char :=
  digest.flatMap fun b => [JsonText.hexDigit (b.toNat / 16), JsonText.hexDigit (b.toNat % 16)]

/-- `hmac.compare_digest`: texts that are not ASCII are a type error. -/
def compareDigest (expected : List Char) (signature : PyText) : Except AuthRaised Bool :=
  if signature.all fun p => p.val < 128 then .ok (decide (signature = textOf expected))
  else .error .typeError

/-! ### Tokens -/

/-- A secret, long enough. -/
abbrev Secret := {bytes : List UInt8 // 16 ≤ bytes.length}

structure TenantAuthenticator where
  secret : Option Secret
  allowInsecureLocal : Bool := false
  tokenTtlSeconds : ℤ := 3600

/-- `_TENANT.fullmatch`. -/
def validTenant (tenantId : PyText) : Bool :=
  match chars tenantId with
  | some cs => tenantMatches (String.ofList cs)
  | none => false

def validateTenant (tenantId : PyText) : Except AuthRaised Unit :=
  if validTenant tenantId then .ok () else .error (.authentication "invalid tenant identifier")

/-- `json.dumps` of a payload, with short separators. -/
def payloadText (tenantId : String) (exp : ℤ) : List Char :=
  '\x7b' :: JsonText.writeString "tenant_id" ++ ':' :: JsonText.writeString tenantId ++
    ',' :: JsonText.writeString "exp" ++ ':' :: JsonText.writeInt exp ++ ['\x7d']

/-- The part of a token before the dot. -/
def payloadPart (tenantId : String) (exp : ℤ) : List Char :=
  Base64.encodeUrl (utf8Bytes (payloadText tenantId exp))

/-- The part after it. -/
def signatureOf (secret : Secret) (payload : List Char) : List Char :=
  hexDigest (lib.hmac secret.val (utf8Bytes payload))

def bearer : List Char := "Bearer ".toList

/-- `issue`; an integer with too many digits is not written. -/
def TenantAuthenticator.issue (auth : TenantAuthenticator) (tenantId : String) (now : ℤ) :
    Except AuthRaised (List Char) :=
  if !validTenant (textOf tenantId.toList) then .error (.authentication "invalid tenant identifier")
  else
    match auth.secret with
    | none => .error (.authentication "signed tokens require CONTROL_API_TOKEN_SECRET")
    | some secret =>
      let exp := now + auth.tokenTtlSeconds
      if ¬ JsonText.ShortInt exp then .error .valueError
      else
        let payload := payloadPart tenantId exp
        .ok (bearer ++ payload ++ '.' :: signatureOf lib secret payload)

/-- `_decode(payload_part)`. -/
def decodePart (payload : List Char) : Except AuthRaised (List UInt8) :=
  if payload.all fun c => c.toNat < 128 then
    match Base64.decodeUrl payload with
    | some b => .ok b
    | none => .error .valueError
  else .error .valueError

/-- The `try` block of `authenticate`. -/
def readToken (secret : Secret) (token : PyText) (now : ℤ) : Except AuthRaised PyText :=
  match splitDot token with
  | none => .error .valueError
  | some (payloadPart, signature) =>
    match chars payloadPart with
    | none => .error .valueError
    | some payload => do
      let same ← compareDigest (signatureOf lib secret payload) signature
      if !same then throw (.authentication "invalid bearer token")
      let decoded ← decodePart payload
      let value ← loads lib decoded
      let tenantId ← item value "tenant_id"
      let exp ← item value "exp" >>= intOf lib
      if exp ≤ now then throw (.authentication "bearer token expired")
      pure (textOf (strOf lib tenantId).toList)

/-- The `except` clause: its exceptions become one. -/
def failClosed : AuthRaised → AuthRaised
  | .valueError => .authentication "invalid bearer token"
  | .keyError => .authentication "invalid bearer token"
  | .typeError => .authentication "invalid bearer token"
  | e => e

def TenantAuthenticator.authenticate (auth : TenantAuthenticator)
    (authorization tenantHeader : Option PyText) (now : ℤ) : Except AuthRaised PyText :=
  match auth.secret with
  | some secret =>
    match authorization with
    | none => .error (.authentication "signed bearer authentication is required")
    | some authorization =>
      if !(textOf bearer).isPrefixOf authorization then
        .error (.authentication "signed bearer authentication is required")
      else
        match readToken lib secret (stripText (authorization.drop 7)) now with
        | .error e => .error (failClosed e)
        | .ok tenantId => do
          validateTenant tenantId
          match tenantHeader with
          | some (p :: header) =>
            if p :: header ≠ tenantId then
              throw (.authentication "tenant header does not match bearer token")
            pure tenantId
          | _ => pure tenantId
  | none =>
    if !auth.allowInsecureLocal then
      .error (.authentication "CONTROL_API_TOKEN_SECRET is not configured")
    else
      match tenantHeader with
      | some (p :: header) => do
        validateTenant (p :: header)
        pure (p :: header)
      | _ => .error (.authentication "X-Tenant-ID is required for Local Lite")

/-! ### The payload reads back -/

theorem read_payloadText (tenantId : String) {exp : ℤ} (hexp : JsonText.ShortInt exp) :
    JsonText.read (payloadText tenantId exp)
      = some (.obj [("tenant_id", .str tenantId), ("exp", .int exp)]) := by
  have hlen : 4 ≤ 2 * (payloadText tenantId exp).length := by
    simp [payloadText, JsonText.writeString]
    omega
  obtain ⟨fuel, hfuel⟩ : ∃ fuel, 2 * (payloadText tenantId exp).length + 2 = fuel + 4 :=
    ⟨2 * (payloadText tenantId exp).length - 2, by omega⟩
  have hends : JsonText.Ends ['\x7d'] := JsonText.ends_cons (by decide)
  have hint : JsonText.readValue (fuel + 1) (JsonText.writeInt exp ++ ['\x7d'])
      = some (.int exp, ['\x7d']) := by
    apply JsonText.readValue_of_scanNumber
    · rw [hends.scanNumber, JsonText.scanNumber_writeInt]
      rfl
    · exact JsonText.readNumber_writeInt hexp hends
  have hskipInt : JsonText.skip (JsonText.writeInt exp ++ ['\x7d']) = JsonText.writeInt exp ++ ['\x7d'] := by
    have h := JsonText.skip_write (.int exp) ['\x7d']
    rwa [JsonText.write] at h
  have hsecond : JsonText.readMembers (fuel + 2)
      (JsonText.writeString "exp" ++ ':' :: (JsonText.writeInt exp ++ ['\x7d']))
        = some ([("exp", .int exp)], []) := by
    rw [JsonText.readMembers_of_value (by rw [hskipInt, hint])]
    rfl
  have hvalue : JsonText.readValue (fuel + 2) (JsonText.writeString tenantId ++
      ',' :: (JsonText.writeString "exp" ++ ':' :: (JsonText.writeInt exp ++ ['\x7d'])))
        = some (.str tenantId, ',' :: (JsonText.writeString "exp" ++
            ':' :: (JsonText.writeInt exp ++ ['\x7d']))) := by
    rw [JsonText.writeString, List.append_assoc, List.cons_append, List.singleton_append,
      JsonText.readValue, JsonText.readString_write]
    rfl
  have hfirst : JsonText.readMembers (fuel + 3) (JsonText.writeString "tenant_id" ++
      ':' :: (JsonText.writeString tenantId ++ ',' :: (JsonText.writeString "exp" ++
        ':' :: (JsonText.writeInt exp ++ ['\x7d']))))
        = some ([("tenant_id", .str tenantId), ("exp", .int exp)], []) := by
    have hquote : ∀ key t, JsonText.skip (JsonText.writeString key ++ t) = JsonText.writeString key ++ t :=
      fun key t => JsonText.skip_cons (by decide) _
    rw [JsonText.readMembers_of_value (by rw [hquote, hvalue]), JsonText.skip_cons (by decide)]
    simp only [hquote, hsecond]
    rfl
  have htext : payloadText tenantId exp = '\x7b' :: (JsonText.writeString "tenant_id" ++
      ':' :: (JsonText.writeString tenantId ++ ',' :: (JsonText.writeString "exp" ++
        ':' :: (JsonText.writeInt exp ++ ['\x7d'])))) := by
    simp [payloadText]
  rw [JsonText.writeString, List.append_assoc, List.cons_append] at hfirst
  have hobject := JsonText.readValue_members hfirst
  rw [JsonText.read, hfuel, htext, JsonText.skip_cons (by decide), JsonText.writeString,
    List.append_assoc, List.cons_append, hobject]
  rfl

theorem utf8Bytes_eq (cs : List Char) : utf8Bytes cs = cs.flatMap String.utf8EncodeChar := by
  rw [utf8Bytes, String.toUTF8, String.toByteArray_ofList, List.utf8Encode, List.data_toByteArray,
    List.toList_toArray]

theorem fromUTF8_utf8Bytes (cs : List Char) :
    String.fromUTF8? ⟨(utf8Bytes cs).toArray⟩ = some (String.ofList cs) := by
  rw [utf8Bytes, Array.toArray_toList, String.fromUTF8?]
  exact dif_pos (String.ofList cs).isValidUTF8

theorem loads_payload (tenantId : String) {exp : ℤ} (hexp : JsonText.ShortInt exp) :
    loads lib (utf8Bytes (payloadText tenantId exp))
      = .ok (.obj [("tenant_id", .str tenantId), ("exp", .int exp)]) := by
  have hencoding : detectEncoding (utf8Bytes (payloadText tenantId exp)) = .utf8 := by
    obtain ⟨rest, hrest⟩ : ∃ rest, payloadText tenantId exp = '\x7b' :: '"' :: 't' :: 'e' :: rest :=
      ⟨_, rfl⟩
    rw [utf8Bytes_eq, hrest]
    rfl
  rw [loads, decodeJsonBytes, hencoding]
  dsimp only
  rw [fromUTF8_utf8Bytes]
  dsimp only
  rw [String.toList_ofList, read_payloadText tenantId hexp]
  dsimp only
  rw [lib.not_tooDeep]
  rfl

/-! ### The parts of a token -/

theorem ascii_of_mem_payloadPart {tenantId : String} {exp : ℤ} {c : Char}
    (h : c ∈ payloadPart tenantId exp) : c.toNat < 128 ∧ c ≠ '.' ∧ isSpace c = false := by
  have hall : ('=' :: '-' :: '_' :: Base64.alphabet).all
      (fun c => c.toNat < 128 ∧ c ≠ '.' ∧ isSpace c = false) = true := by decide +kernel
  exact of_decide_eq_true (List.all_eq_true.mp hall c (Base64.mem_encodeUrl h))

theorem ascii_of_mem_hexDigest {digest : List UInt8} {c : Char} (h : c ∈ hexDigest digest) :
    c.toNat < 128 ∧ isSpace c = false := by
  have hall : ∀ n : Fin 16, (JsonText.hexDigit n).toNat < 128 ∧ isSpace (JsonText.hexDigit n) = false := by
    decide +kernel
  obtain ⟨b, -, hc⟩ := List.mem_flatMap.mp h
  have hb := b.toNat_lt
  rcases List.mem_pair.mp hc with rfl | rfl
  · exact hall ⟨b.toNat / 16, by omega⟩
  · exact hall ⟨b.toNat % 16, by omega⟩

theorem decodePart_payloadPart (tenantId : String) (exp : ℤ) :
    decodePart (payloadPart tenantId exp) = .ok (utf8Bytes (payloadText tenantId exp)) := by
  rw [decodePart, if_pos (List.all_eq_true.mpr fun c hc =>
    decide_eq_true (ascii_of_mem_payloadPart hc).1), payloadPart, Base64.decodeUrl_encodeUrl]

theorem compareDigest_self (digest : List UInt8) :
    compareDigest (hexDigest digest) (textOf (hexDigest digest)) = .ok true := by
  rw [compareDigest, if_pos, decide_eq_true rfl]
  refine List.all_eq_true.mpr fun p hp => ?_
  obtain ⟨c, hc, rfl⟩ := List.mem_map.mp hp
  exact decide_eq_true (ascii_of_mem_hexDigest hc).1

/-- The part of a token behind `Bearer`. -/
def tokenText (secret : Secret) (tenantId : String) (exp : ℤ) : List Char :=
  payloadPart tenantId exp ++ '.' :: signatureOf lib secret (payloadPart tenantId exp)

/-- A payload with its HMAC is read. -/
theorem readToken_tokenText (secret : Secret) (tenantId : String) {exp : ℤ}
    (hexp : JsonText.ShortInt exp) (now : ℤ) :
    readToken lib secret (textOf (tokenText lib secret tenantId exp)) now
      = if exp ≤ now then .error (.authentication "bearer token expired")
        else .ok (textOf tenantId.toList) := by
  have hdot : pointOf '.' ∉ textOf (payloadPart tenantId exp) := by
    intro h
    obtain ⟨c, hc, heq⟩ := List.mem_map.mp h
    exact (ascii_of_mem_payloadPart hc).2.1 (pointOf_injective heq)
  have hsplit : splitDot (textOf (tokenText lib secret tenantId exp))
      = some (textOf (payloadPart tenantId exp),
        textOf (signatureOf lib secret (payloadPart tenantId exp))) := by
    rw [tokenText, textOf, List.map_append, List.map_cons]
    exact splitDot_append hdot
  rw [readToken, hsplit]
  dsimp only
  rw [chars_textOf]
  dsimp only
  have hitems : item (.obj [("tenant_id", .str tenantId), ("exp", .int exp)]) "tenant_id" = .ok (.str tenantId) ∧
      item (.obj [("tenant_id", .str tenantId), ("exp", .int exp)]) "exp" = .ok (.int exp) := ⟨rfl, rfl⟩
  rw [signatureOf, compareDigest_self, decodePart_payloadPart]
  simp only [bind, Except.bind, loads_payload lib tenantId hexp, hitems, intOf, Bool.not_true,
    Bool.false_eq_true, if_false, pure, Except.pure]
  split <;> rfl

/-! ### Soundness and completeness -/

theorem prefix_bearer (cs : List Char) : (textOf bearer).isPrefixOf (textOf (bearer ++ cs)) = true := by
  rw [List.isPrefixOf_iff_prefix, textOf, textOf, List.map_append]
  exact List.prefix_append _ _

theorem strip_issued (secret : Secret) (tenantId : String) (exp : ℤ) :
    stripText ((textOf (bearer ++ tokenText lib secret tenantId exp)).drop 7)
      = textOf (tokenText lib secret tenantId exp) := by
  have hdrop : (textOf (bearer ++ tokenText lib secret tenantId exp)).drop 7
      = textOf (tokenText lib secret tenantId exp) := by
    rw [textOf, List.map_append]
    rfl
  rw [hdrop]
  refine stripText_textOf fun c hc => ?_
  rcases List.mem_append.mp hc with hc | hc
  · exact (ascii_of_mem_payloadPart hc).2.2
  · rcases List.mem_cons.mp hc with rfl | hc
    · decide
    · exact (ascii_of_mem_hexDigest hc).2

/-- A token that was issued, and what it is made of. -/
theorem issue_eq_ok {auth : TenantAuthenticator} {secret : Secret} {tenantId : String} {now : ℤ}
    {token : List Char} (hsecret : auth.secret = some secret) :
    auth.issue lib tenantId now = .ok token ↔ validTenant (textOf tenantId.toList) = true ∧
      JsonText.ShortInt (now + auth.tokenTtlSeconds) ∧
      token = bearer ++ tokenText lib secret tenantId (now + auth.tokenTtlSeconds) := by
  unfold TenantAuthenticator.issue tokenText
  rw [hsecret]
  cases hvalid : validTenant (textOf tenantId.toList) with
  | false => simp
  | true =>
    by_cases hshort : JsonText.ShortInt (now + auth.tokenTtlSeconds)
    · simp only [Bool.not_true, Bool.false_eq_true, if_false, hshort, not_true, Except.ok.injEq,
        true_and, List.append_assoc]
      exact eq_comm
    · simp [hshort]

/-- The answer to a token that was issued. -/
theorem authenticate_issued {auth : TenantAuthenticator} {secret : Secret} {tenantId : String}
    {exp : ℤ} (hsecret : auth.secret = some secret) (hvalid : validTenant (textOf tenantId.toList) = true)
    (hexp : JsonText.ShortInt exp) (tenantHeader : Option PyText) (now : ℤ) :
    auth.authenticate lib (some (textOf (bearer ++ tokenText lib secret tenantId exp))) tenantHeader now
        = .ok (textOf tenantId.toList) ↔
      now < exp ∧ (tenantHeader = none ∨ tenantHeader = some [] ∨
        tenantHeader = some (textOf tenantId.toList)) := by
  unfold TenantAuthenticator.authenticate
  rw [hsecret]
  dsimp only
  rw [prefix_bearer, strip_issued, readToken_tokenText lib secret tenantId hexp]
  by_cases hexpired : exp ≤ now
  · simp [hexpired, failClosed, not_lt.mpr hexpired]
  · have hvalidated : validateTenant (textOf tenantId.toList) = .ok () := by
      rw [validateTenant, if_pos hvalid]
    simp only [Bool.not_true, Bool.false_eq_true, if_false, hexpired, bind, Except.bind, hvalidated,
      not_le.mp hexpired, true_and]
    cases tenantHeader with
    | none => simp [pure, Except.pure]
    | some header =>
      cases header with
      | nil => simp [pure, Except.pure]
      | cons p header =>
        by_cases hsame : p :: header = textOf tenantId.toList
        · simp [hsame, pure, Except.pure]
        · simp [hsame, throw, throwThe, MonadExceptOf.throw]

/-- The text has a payload that is followed by its HMAC. -/
def Signed (secret : Secret) (authorization : Option PyText) : Prop :=
  ∃ text payload signature, authorization = some text ∧
    stripText (text.drop 7) = payload ++ pointOf '.' :: signature ∧ ∃ cs, chars payload = some cs ∧
      signature = textOf (signatureOf lib secret cs)

/-- Each payload that stands before its HMAC in the text is one that `issue` makes. -/
def Unforged (secret : Secret) (authorization : Option PyText) : Prop :=
  ∀ text payload cs, authorization = some text →
    stripText (text.drop 7) = payload ++ pointOf '.' :: textOf (signatureOf lib secret cs) →
    chars payload = some cs → ∃ tenantId exp, validTenant (textOf tenantId.toList) = true ∧
      JsonText.ShortInt exp ∧ cs = payloadPart tenantId exp

theorem compareDigest_eq_ok {expected : List Char} {signature : PyText}
    (h : compareDigest expected signature = .ok true) : signature = textOf expected := by
  unfold compareDigest at h
  split at h
  · exact of_decide_eq_true (Except.ok.inj h)
  · cases h

/-- The `try` block stops with an exception it expects, or finds the HMAC of the payload. -/
theorem readToken_cases (secret : Secret) (token : PyText) (now : ℤ) :
    (∃ e, readToken lib secret token now = .error e ∧ ∃ message, failClosed e = .authentication message) ∨
      ∃ payload signature cs, token = payload ++ pointOf '.' :: signature ∧ chars payload = some cs ∧
        signature = textOf (signatureOf lib secret cs) := by
  unfold readToken
  cases hsplit : splitDot token with
  | none => exact Or.inl ⟨_, rfl, _, rfl⟩
  | some parts =>
    obtain ⟨payload, signature⟩ := parts
    dsimp only
    cases hchars : chars payload with
    | none => exact Or.inl ⟨_, rfl, _, rfl⟩
    | some cs =>
      dsimp only
      cases hsame : compareDigest (signatureOf lib secret cs) signature with
      | error e =>
        have he : e = .typeError := by
          unfold compareDigest at hsame
          split at hsame
          · cases hsame
          · exact (Except.error.inj hsame).symm
        exact Or.inl ⟨e, rfl, by rw [he]; exact ⟨_, rfl⟩⟩
      | ok same =>
        cases same with
        | false => exact Or.inl ⟨_, rfl, _, rfl⟩
        | true =>
          exact Or.inr ⟨payload, signature, cs, eq_of_splitDot hsplit, hchars, compareDigest_eq_ok hsame⟩

theorem validateTenant_error {tenantId : PyText} {e : AuthRaised} (h : validateTenant tenantId = .error e) :
    ∃ message, e = .authentication message := by
  unfold validateTenant at h
  split at h
  · cases h
  · exact ⟨_, (Except.error.inj h).symm⟩

/-- What `authenticate` comes to with a secret. -/
theorem authenticate_cases {auth : TenantAuthenticator} {secret : Secret} (hsecret : auth.secret = some secret)
    (authorization tenantHeader : Option PyText) (now : ℤ) :
    (∃ message, auth.authenticate lib authorization tenantHeader now = .error (.authentication message)) ∨
      ∃ text payload cs, authorization = some text ∧
        stripText (text.drop 7) = payload ++ pointOf '.' :: textOf (signatureOf lib secret cs) ∧
        chars payload = some cs ∧
        ((∃ e, readToken lib secret (stripText (text.drop 7)) now = .error e ∧
            auth.authenticate lib authorization tenantHeader now = .error (failClosed e)) ∨
          ∃ tenantId, readToken lib secret (stripText (text.drop 7)) now = .ok tenantId ∧
            auth.authenticate lib authorization tenantHeader now = .ok tenantId) := by
  unfold TenantAuthenticator.authenticate
  rw [hsecret]
  cases authorization with
  | none => exact Or.inl ⟨_, rfl⟩
  | some text =>
    dsimp only
    cases hbearer : (textOf bearer).isPrefixOf text with
    | false => exact Or.inl ⟨_, rfl⟩
    | true =>
      simp only [Bool.not_true, Bool.false_eq_true, if_false]
      obtain ⟨e, hread, message, hclosed⟩ | ⟨payload, signature, cs, htoken, hchars, hsignature⟩ :=
        readToken_cases lib secret (stripText (text.drop 7)) now
      · rw [hread]
        dsimp only
        exact Or.inl ⟨message, by rw [hclosed]⟩
      · cases hread : readToken lib secret (stripText (text.drop 7)) now with
        | error e =>
          exact Or.inr ⟨text, payload, cs, rfl, hsignature ▸ htoken, hchars, Or.inl ⟨e, hread, rfl⟩⟩
        | ok tenantId =>
          dsimp only
          cases hvalid : validateTenant tenantId with
          | error e =>
            obtain ⟨message, rfl⟩ := validateTenant_error hvalid
            exact Or.inl ⟨message, rfl⟩
          | ok _ =>
            have hmine : ∀ result, result = Except.ok tenantId →
                ∃ text' payload cs, some text = some text' ∧
                  stripText (text'.drop 7) = payload ++ pointOf '.' :: textOf (signatureOf lib secret cs) ∧
                  chars payload = some cs ∧
                  ((∃ e, readToken lib secret (stripText (text'.drop 7)) now = .error e ∧
                      result = .error (failClosed e)) ∨
                    ∃ tenantId, readToken lib secret (stripText (text'.drop 7)) now = .ok tenantId ∧
                      result = .ok tenantId) := fun result hresult =>
              ⟨text, payload, cs, rfl, hsignature ▸ htoken, hchars, Or.inr ⟨tenantId, hread, hresult⟩⟩
            cases tenantHeader with
            | none => exact Or.inr (hmine _ rfl)
            | some header =>
              cases header with
              | nil => exact Or.inr (hmine _ rfl)
              | cons p header =>
                by_cases hsame : p :: header = tenantId
                · exact Or.inr (hmine _ (by simp [hsame, bind, Except.bind, pure, Except.pure]))
                · exact Or.inl ⟨_, by
                    simp [hsame, bind, Except.bind, throw, throwThe, MonadExceptOf.throw]
                    rfl⟩

/-- **Tokens.**  With a secret, a valid tenant is issued a token, which is answered with the
tenant exactly until it expires and to a request that names no other tenant.  Any other
request that is answered has a payload followed by its HMAC; and where such payloads
are those that are issued, the answer is the payload's tenant in its time, and every
other request raises the one exception. -/
theorem tokens_sound_and_complete (lib : AuthLib) (secret : Secret) (allowInsecureLocal : Bool)
    (ttl : ℤ) :
    let auth : TenantAuthenticator := ⟨some secret, allowInsecureLocal, ttl⟩
    (∀ tenantId now, validTenant (textOf tenantId.toList) = true → JsonText.ShortInt (now + ttl) →
      ∃ token, auth.issue lib tenantId now = .ok token) ∧
    (∀ tenantId now token, auth.issue lib tenantId now = .ok token → ∀ tenantHeader now',
      auth.authenticate lib (some (textOf token)) tenantHeader now' = .ok (textOf tenantId.toList) ↔
        now' < now + ttl ∧ (tenantHeader = none ∨ tenantHeader = some [] ∨
          tenantHeader = some (textOf tenantId.toList))) ∧
    ∀ authorization tenantHeader now,
      (∀ tenantId, auth.authenticate lib authorization tenantHeader now = .ok tenantId →
        Signed lib secret authorization) ∧
      (Unforged lib secret authorization →
        (∀ e, auth.authenticate lib authorization tenantHeader now = .error e →
          ∃ message, e = .authentication message) ∧
        ∀ tenantId, auth.authenticate lib authorization tenantHeader now = .ok tenantId →
          ∃ text name exp, authorization = some text ∧
            stripText (text.drop 7) = textOf (tokenText lib secret name exp) ∧
            tenantId = textOf name.toList ∧ now < exp) := by
  intro auth
  have hsecret : auth.secret = some secret := rfl
  refine ⟨fun tenantId now hvalid hshort => ?_, fun tenantId now token hissued tenantHeader now' => ?_,
    fun authorization tenantHeader now => ⟨fun tenantId hok => ?_, fun hunforged => ?_⟩⟩
  · exact ⟨_, (issue_eq_ok lib hsecret).mpr ⟨hvalid, hshort, rfl⟩⟩
  · obtain ⟨hvalid, hshort, rfl⟩ := (issue_eq_ok lib hsecret).mp hissued
    exact authenticate_issued lib hsecret hvalid hshort tenantHeader now'
  · obtain ⟨message, hraised⟩ | ⟨text, payload, cs, htext, htoken, hchars, -⟩ :=
      authenticate_cases lib hsecret authorization tenantHeader now
    · rw [hraised] at hok
      cases hok
    · exact ⟨text, payload, _, htext, htoken, cs, hchars, rfl⟩
  · obtain ⟨message, hraised⟩ | ⟨text, payload, cs, htext, htoken, hchars, hends⟩ :=
      authenticate_cases lib hsecret authorization tenantHeader now
    · refine ⟨fun e he => ⟨message, ?_⟩, fun tenantId hok => ?_⟩
      · rw [hraised] at he
        exact (Except.error.inj he).symm
      · rw [hraised] at hok
        cases hok
    · obtain ⟨name, exp, -, hshort, rfl⟩ := hunforged text payload cs htext htoken hchars
      have hissued : stripText (text.drop 7) = textOf (tokenText lib secret name exp) := by
        rw [htoken, eq_textOf_of_chars hchars, tokenText]
        simp [textOf]
      rw [hissued, readToken_tokenText lib secret name hshort] at hends
      by_cases hexpired : exp ≤ now
      · rw [if_pos hexpired] at hends
        obtain ⟨e, he, hanswer⟩ | ⟨tenantId, hread, -⟩ := hends
        · cases he
          refine ⟨fun e he => ⟨"bearer token expired", ?_⟩, fun tenantId hok => ?_⟩
          · rw [hanswer] at he
            exact (Except.error.inj he).symm
          · rw [hanswer] at hok
            cases hok
        · cases hread
      · rw [if_neg hexpired] at hends
        obtain ⟨e, he, -⟩ | ⟨tenantId, hread, hanswer⟩ := hends
        · cases he
        · cases hread
          refine ⟨fun e he => ?_, fun tenantId hok => ?_⟩
          · rw [hanswer] at he
            cases he
          · rw [hanswer] at hok
            exact ⟨text, name, exp, htext, hissued, (Except.ok.inj hok).symm, not_le.mp hexpired⟩

end ControlAuth
end AiSaas
