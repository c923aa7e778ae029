import CarplayRelay.Base64
import CarplayRelay.Crypto
import CarplayRelay.Lib.Json
import Mathlib.Data.List.TakeWhile

/-!
# The `crypto_init` message

The server announces its session nonce in a JSON text with the nonce in base64; both gateways read
it with `gateway_parse_crypto_init`. The JSON parser is `cJSON_Parse`, a parameter here: all that
is assumed of it is how it parses this one kind of text (`ParsesCryptoInit`).

* `gatewayParseCryptoInit_text`: the gateway reads the server's nonce from the server's text.
-/

namespace Crypto

open Bytes Base64
open Json (leftBrace rightBrace quote)

/-! ## The text -/

/-- The loop of `send_crypto_init_locked` over the encoded nonce. -/
def withoutLineBreaks (encoded : Bytes) : Bytes :=
  encoded.filter fun b => b != newline && b != carriageReturn

def jsonHead : Bytes :=
  leftBrace :: (ascii "\"type\":\"crypto_init\",\"result\":" ++
    leftBrace :: (ascii "\"status\":\"ok\",\"cipher\":\"chacha20\",\"protocol_version\":1," ++
      ascii "\"key_id\":\"carplay-poc-static-v1\",\"session_nonce\":\""))

def jsonTail : Bytes := [quote, rightBrace, rightBrace]

/-- `sizeof(json)`. -/
def jsonSize : Nat := 256

/-- What `snprintf` writes to `json` for the encoded nonce `clean`. -/
def cryptoInitJson (clean : Bytes) : Bytes :=
  (jsonHead ++ clean ++ jsonTail).take (jsonSize - 1)

/-! ## Parsing -/

/-- A `cJSON` value: `other` is one without a `valuestring` and without named members. Strings and
names are C strings, without the NUL at their end. -/
inductive Json
  | object (members : List (Bytes × Json))
  | string (valuestring : Bytes)
  | other

namespace Json

def valuestring : Json → Option Bytes
  | .string v => some v
  | .object _ | .other => none

/-- `tolower`. -/
def toLower (b : UInt8) : UInt8 := if 65 ≤ b ∧ b ≤ 90 then b + 32 else b

/-- `case_insensitive_strcmp`, true on a match. -/
def sameName (a b : Bytes) : Bool := a.map toLower == b.map toLower

/-- `cJSON_GetObjectItem`. -/
def getObjectItem (j : Json) (name : String) : Option Json :=
  match j with
  | .object members => (members.find? fun m => sameName (ascii name) m.1).map (·.2)
  | .string _ | .other => none

end Json

/-- What a gateway keeps of an upstream's nonce. -/
structure NonceState where
  sessionNonce : Nonce
  haveNonce : Bool

/-- A C string up to its terminator. -/
def cString (p : Bytes) : Bytes := p.takeWhile (· ≠ 0)

/-- `gateway_parse_crypto_init`: the result and the nonce afterwards. `textOk` and `decodedOk` are
the outcomes of the two allocations. -/
def gatewayParseCryptoInit (cJSONParse : Bytes → Option Json) (textOk decodedOk : Bool)
    (payload : Bytes) (s : NonceState) : Int × NonceState :=
  if !textOk then (-1, s)
  else
    match cJSONParse (cString payload) with
    | none => (0, s)
    | some root =>
      if (root.getObjectItem "type").bind Json.valuestring ≠ some (ascii "crypto_init") then (0, s)
      else
        match ((root.getObjectItem "result").bind (·.getObjectItem "session_nonce")).bind
          Json.valuestring with
        | none => (-1, s)
        | some v =>
          match base64Decode decodedOk (cString v) with
          | none => (-1, s)
          | some decoded =>
            if h : decoded.length = nonceSize then (0, ⟨⟨decoded, h⟩, true⟩) else (-1, s)

/-- The members of the server's text. -/
def cryptoInitMembers (clean : Bytes) : Json :=
  .object [(ascii "type", .string (ascii "crypto_init")),
    (ascii "result", .object [(ascii "status", .string (ascii "ok")),
      (ascii "cipher", .string (ascii "chacha20")), (ascii "protocol_version", .other),
      (ascii "key_id", .string (ascii "carplay-poc-static-v1")),
      (ascii "session_nonce", .string clean)])]

/-- What is assumed of `cJSON_Parse`: it parses the server's text, whatever base64 characters
stand in it. -/
def ParsesCryptoInit (cJSONParse : Bytes → Option Json) : Prop :=
  ∀ clean : Bytes, (∀ b ∈ clean, dtable b ≠ 0x80) →
    cJSONParse (jsonHead ++ clean ++ jsonTail) = some (cryptoInitMembers clean)

/-- Parses the server's text and takes any other for one. -/
def parseServerText (text : Bytes) : Option Json :=
  some (cryptoInitMembers ((text.drop jsonHead.length).take
    (text.length - jsonHead.length - jsonTail.length)))

theorem parsesCryptoInit_parseServerText : ParsesCryptoInit parseServerText := by
  intro clean _
  unfold parseServerText
  rw [List.append_assoc, List.drop_left]
  simp only [List.length_append]
  rw [show jsonHead.length + (clean.length + jsonTail.length) - jsonHead.length - jsonTail.length =
    clean.length by omega, List.take_left]

/-- The text of `send_crypto_init_locked` for a session nonce. -/
def cryptoInitText (n : Nonce) : Bytes :=
  cryptoInitJson (withoutLineBreaks (encodeFrom n.1 0))

/-- A text is a `crypto_init` that carries the nonce. -/
def CarriesNonce (cJSONParse : Bytes → Option Json) (text : Bytes) (n : Nonce) : Prop :=
  ∃ root v, cJSONParse (cString text) = some root ∧
    (root.getObjectItem "type").bind Json.valuestring = some (ascii "crypto_init") ∧
    ((root.getObjectItem "result").bind (·.getObjectItem "session_nonce")).bind
      Json.valuestring = some v ∧
    base64Decode true (cString v) = some n.1

/-- Only a `crypto_init` changes the nonce, to the one it carries. -/
theorem gatewayParseCryptoInit_cases (cJSONParse : Bytes → Option Json) (textOk decodedOk : Bool)
    (payload : Bytes) (s : NonceState) :
    (gatewayParseCryptoInit cJSONParse textOk decodedOk payload s).2 = s ∨
      ∃ n, CarriesNonce cJSONParse payload n ∧
        (gatewayParseCryptoInit cJSONParse textOk decodedOk payload s).2 = ⟨n, true⟩ := by
  unfold gatewayParseCryptoInit
  split
  · exact .inl rfl
  split
  · exact .inl rfl
  rename_i root hroot
  split
  · exact .inl rfl
  rename_i htype
  split
  · exact .inl rfl
  rename_i v hv
  split
  · exact .inl rfl
  rename_i decoded hdec
  split
  · rename_i hlen
    refine .inr ⟨⟨decoded, hlen⟩, ⟨root, v, hroot, not_not.1 htype, hv, ?_⟩, rfl⟩
    cases decodedOk with
    | true => exact hdec
    | false => simp [base64Decode] at hdec
  · exact .inl rfl

/-- The nonce is installed, or nothing is changed. -/
theorem gatewayParseCryptoInit_result (cJSONParse : Bytes → Option Json) (textOk decodedOk : Bool)
    (payload : Bytes) (s : NonceState) :
    (∃ n, gatewayParseCryptoInit cJSONParse textOk decodedOk payload s = (0, ⟨n, true⟩)) ∨
      gatewayParseCryptoInit cJSONParse textOk decodedOk payload s = (0, s) ∨
      gatewayParseCryptoInit cJSONParse textOk decodedOk payload s = (-1, s) := by
  unfold gatewayParseCryptoInit
  split
  · exact .inr (.inr rfl)
  split
  · exact .inr (.inl rfl)
  split
  · exact .inr (.inl rfl)
  split
  · exact .inr (.inr rfl)
  split
  · exact .inr (.inr rfl)
  split
  · rename_i decoded _ hlen
    exact .inl ⟨⟨decoded, hlen⟩, rfl⟩
  · exact .inr (.inr rfl)

/-- `result.session_nonce`. -/
def Json.sessionNonce (root : Json) : Option Json :=
  (root.getObjectItem "result").bind (·.getObjectItem "session_nonce")

/-- `result.session_nonce` is missing, not a string, or not 12 bytes in base64. -/
inductive BadNonce (root : Json) : Prop
  | missing (h : root.sessionNonce = none)
  | notString {j : Json} (h : root.sessionNonce = some j) (hj : j.valuestring = none)
  | notBase64 {v : Bytes} (h : root.sessionNonce.bind Json.valuestring = some v)
      (hv : ∀ n : Nonce, base64Decode true (cString v) ≠ some n.1)

theorem Json.eq_object {root j : Json} {name : String} (h : root.getObjectItem name = some j) :
    ∃ members, root = .object members := by
  cases root with
  | object members => exact ⟨members, rfl⟩
  | string _ => cases h
  | other => cases h

/-- The text is not refused but for an allocation or a bad nonce. -/
theorem gatewayParseCryptoInit_error {cJSONParse : Bytes → Option Json} {textOk decodedOk : Bool}
    {payload : Bytes} {s : NonceState}
    (h : (gatewayParseCryptoInit cJSONParse textOk decodedOk payload s).1 = -1) :
    textOk = false ∨ decodedOk = false ∨
      ∃ members, cJSONParse (cString payload) = some (.object members) ∧
        ((Json.object members).getObjectItem "type").bind Json.valuestring =
          some (ascii "crypto_init") ∧
        BadNonce (.object members) := by
  cases textOk with
  | false => exact .inl rfl
  | true =>
    cases decodedOk with
    | false => exact .inr (.inl rfl)
    | true =>
      refine .inr (.inr ?_)
      unfold gatewayParseCryptoInit at h
      rw [if_neg (by simp)] at h
      split at h
      · cases h
      rename_i root hroot
      split at h
      · cases h
      rename_i htype
      obtain ⟨type, hitem, -⟩ := Option.bind_eq_some_iff.1 (not_not.1 htype)
      obtain ⟨members, rfl⟩ := Json.eq_object hitem
      refine ⟨members, hroot, not_not.1 htype, ?_⟩
      split at h
      · rename_i hnone
        cases hitem : (Json.object members).sessionNonce with
        | none => exact .missing hitem
        | some j => exact .notString hitem (Option.bind_eq_none_iff.1 hnone j hitem)
      rename_i v hv
      refine .notBase64 hv fun n hn => ?_
      rw [hn] at h
      dsimp only at h
      rw [dif_pos n.2] at h
      cases h

/-! ## The gateway reads the server's nonce -/

theorem dtable_mem_clean {n : Nonce} {b : UInt8}
    (h : b ∈ withoutLineBreaks (encodeFrom n.1 0)) : dtable b ≠ 0x80 := by
  obtain ⟨hmem, hb⟩ := List.mem_filter.1 h
  rcases mem_encodeFrom hmem with rfl | hd
  · simp at hb
  · exact hd

theorem ne_zero_of_dtable {b : UInt8} (h : dtable b ≠ 0x80) : b ≠ 0 := by
  rintro rfl
  exact h (by decide)

theorem length_clean (n : Nonce) : (withoutLineBreaks (encodeFrom n.1 0)).length ≤ 17 := by
  apply (List.length_filter_le _ _).trans
  obtain ⟨l, hl⟩ := n
  match l, hl with
  | [_, _, _, _, _, _, _, _, _, _, _, _], _ => simp [encodeFrom]

theorem jsonHead_spec : jsonHead.length = 137 ∧ ∀ b ∈ jsonHead, b ≠ 0 := by decide +kernel

theorem jsonTail_spec : jsonTail.length = 3 ∧ ∀ b ∈ jsonTail, b ≠ 0 := by decide +kernel

theorem cryptoInitText_eq (n : Nonce) :
    cryptoInitText n = jsonHead ++ withoutLineBreaks (encodeFrom n.1 0) ++ jsonTail := by
  have := length_clean n
  apply List.take_of_length_le
  simp only [List.length_append, jsonHead_spec.1, jsonTail_spec.1, jsonSize]
  omega

theorem cString_of_ne_zero {p : Bytes} (h : ∀ b ∈ p, b ≠ 0) : cString p = p :=
  List.takeWhile_eq_self_iff.2 fun b hb => by simpa using h b hb

theorem ne_zero_of_mem_cString {p : Bytes} {b : UInt8} (h : b ∈ cString p) : b ≠ 0 := by
  simpa using List.mem_takeWhile_imp h

/-- A string that is shorter than its buffer ends at a NUL. -/
theorem cString_ends {p : Bytes} (h : (cString p).length < p.length) :
    ∃ rest, p = cString p ++ 0 :: rest := by
  induction p with
  | nil => cases h
  | cons b p ih =>
    by_cases hb : b = 0
    · exact ⟨p, by simp [cString, hb]⟩
    · have hcons : cString (b :: p) = b :: cString p := by simp [cString, hb]
      rw [hcons] at h ⊢
      obtain ⟨rest, hrest⟩ := ih (Nat.lt_of_succ_lt_succ h)
      exact ⟨rest, congrArg (b :: ·) hrest⟩

/-- What stands before the first NUL. -/
theorem cString_append_zero {value : Bytes} (h : ∀ b ∈ value, b ≠ 0) (rest : Bytes) :
    cString (value ++ 0 :: rest) = value := by
  rw [cString, List.takeWhile_append_of_pos fun b hb => by simpa using h b hb]
  simp

/-- **The gateway reads the server's nonce from the server's text.** -/
theorem gatewayParseCryptoInit_text {cJSONParse : Bytes → Option Json}
    (hparse : ParsesCryptoInit cJSONParse) (n : Nonce) (s : NonceState) :
    gatewayParseCryptoInit cJSONParse true true (cryptoInitText n) s = (0, ⟨n, true⟩) := by
  have hclean := fun b hb => dtable_mem_clean (n := n) (b := b) hb
  have htext : cString (cryptoInitText n) = cryptoInitText n := by
    apply cString_of_ne_zero
    intro b hb
    rw [cryptoInitText_eq, List.mem_append, List.mem_append] at hb
    rcases hb with (hb | hb) | hb
    · exact jsonHead_spec.2 b hb
    · exact ne_zero_of_dtable (hclean b hb)
    · exact jsonTail_spec.2 b hb
  have hdec : base64Decode true (cString (withoutLineBreaks (encodeFrom n.1 0))) = some n.1 := by
    rw [cString_of_ne_zero fun b hb => ne_zero_of_dtable (hclean b hb)]
    refine base64Decode_base64Encode ?_ ?_ ?_
    · exact List.ne_nil_of_length_pos (by rw [n.2]; decide)
    · simp [base64Encode, n.2, nonceSize, encodedSize]
    · intro b hb
      have h1 : b ≠ newline := by rintro rfl; exact hb (by decide)
      have h2 : b ≠ carriageReturn := by rintro rfl; exact hb (by decide)
      simp [h1, h2]
  have hroot := hparse _ hclean
  rw [← cryptoInitText_eq] at hroot
  have htype : ((cryptoInitMembers (withoutLineBreaks (encodeFrom n.1 0))).getObjectItem
      "type").bind Json.valuestring = some (ascii "crypto_init") := rfl
  have hnonce : (((cryptoInitMembers (withoutLineBreaks (encodeFrom n.1 0))).getObjectItem
      "result").bind (·.getObjectItem "session_nonce")).bind Json.valuestring =
      some (withoutLineBreaks (encodeFrom n.1 0)) := rfl
  simp [gatewayParseCryptoInit, htext, hroot, htype, hnonce, hdec, n.2]

end Crypto
