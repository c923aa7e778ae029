import CarplayRelay.CJson.Texts
import CarplayRelay.Server.Commands

/-!
# JSON texts end to end

`gateway_parse_crypto_init` and `process_command` with the parser they are linked with, in the
place of the parameter `cJSON_Parse`.

* `Item.toJson`: what the getters see of an item.
* `gateway_reads_text`: whoever writes a `crypto_init` text, the gateway reads its nonce.
* `onmessage_text`: the handler that a command text calls.

The gateway is that of the PC (`gateway.c`), which is linked with this parser; the firmware's comes
from its SDK.
-/

namespace CJson

open Bytes Json Crypto

mutual

/-- What the getters see of an item. An array has no names, and C strings end at a NUL. -/
def Item.toJson {double : Type} : Item double → Crypto.Json
  | .null | .bool _ | .number _ _ | .array _ => .other
  | .string valuestring => .string (cString valuestring)
  | .object child => .object (membersToJson child)

def membersToJson {double : Type} : List (Bytes × Item double) → List (Bytes × Crypto.Json)
  | [] => []
  | (name, item) :: members => (cString name, item.toJson) :: membersToJson members

end

mutual

/-- What the getters see of a value. -/
def valueToJson : Value → Crypto.Json
  | .null | .bool _ | .number _ _ | .array _ => .other
  | .string s => .string (cString s)
  | .object ms => .object (memberValuesToJson ms)

def memberValuesToJson : List (Bytes × Value) → List (Bytes × Crypto.Json)
  | [] => []
  | (k, v) :: ms => (cString k, valueToJson v) :: memberValuesToJson ms

end

mutual

theorem Item.Is.toJson {double : Type} {fp : Doubles double} {item : Item double} {v : Value}
    (h : item.Is fp v) : item.toJson = valueToJson v := by
  cases h with
  | null | bool | number | string | array => rfl
  | object h => exact congrArg Crypto.Json.object h.toJson

theorem MembersAre.toJson {double : Type} {fp : Doubles double}
    {members : List (Bytes × Item double)} {ms : List (Bytes × Value)}
    (h : MembersAre fp members ms) : membersToJson members = memberValuesToJson ms := by
  cases h with
  | nil => rfl
  | cons h h' => rw [membersToJson, memberValuesToJson, h.toJson, h'.toJson]

end

section
variable {double : Type} (fp : Doubles double)

/-- `cJSON_Parse` and the getters. A fault, which does not occur (`cJSONParseWithOpts_safe`), is no
item. -/
def parse (text : Bytes) : Option Crypto.Json := (cJSONParse fp text).join.map Item.toJson

theorem parse_isText {v : Value} {t : Bytes} (h : IsText v t) (hshort : ShortNumbers t) :
    parse fp t = if v.depth ≤ nestingLimit then some (valueToJson v) else none := by
  obtain ⟨r, offset, hparse, hgives⟩ := cJSONParse_gives fp h hshort
  rw [parse, hparse]
  split_ifs with hfits
  · obtain ⟨item, rfl, hitem⟩ := hgives.ok hfits
    exact congrArg some hitem.toJson
  · obtain ⟨o, rfl⟩ := hgives.fail hfits
    rfl

theorem parse_cString_isText {v : Value} {t : Bytes} (h : IsText v t) (hshort : ShortNumbers t)
    (hdepth : v.depth ≤ nestingLimit) : parse fp (cString t) = some (valueToJson v) := by
  have hstring : cString t = t := cString_of_ne_zero fun b hb heq => h.zero_notMem (heq ▸ hb)
  rw [hstring, parse_isText fp h hshort, if_pos hdepth]

end

/-! ## Names of members -/

/-- The letter in lower case. -/
def lower (b : UInt8) : UInt8 := if b ∈ ascii "ABCDEFGHIJKLMNOPQRSTUVWXYZ" then b ||| 0x20 else b

theorem toLower_eq (b : UInt8) : Json.toLower b = lower b := by
  revert b
  apply forall_byte
  decide +kernel

/-- The getters take the name for the word: neither case nor what stands behind a NUL is looked
at. -/
def Alike (name : Bytes) (word : String) : Prop :=
  (cString name).map lower = (ascii word).map lower

instance (name : Bytes) (word : String) : Decidable (Alike name word) :=
  inferInstanceAs (Decidable (_ = _))

/-- The object has one member of this name, and no other that is taken for it. -/
def TheMember (ms : List (Bytes × Value)) (word : String) (v : Value) : Prop :=
  (ascii word, v) ∈ ms ∧ ∀ m ∈ ms, Alike m.1 word → m = (ascii word, v)

theorem sameName_iff (name : Bytes) (word : String) :
    Json.sameName (ascii word) (cString name) = true ↔ Alike name word := by
  have hlower : Json.toLower = lower := funext toLower_eq
  rw [Json.sameName, beq_iff_eq, hlower, Alike, eq_comm]

theorem memberValuesToJson_eq (ms : List (Bytes × Value)) :
    memberValuesToJson ms = ms.map fun m => (cString m.1, valueToJson m.2) := by
  induction ms with
  | nil => rfl
  | cons m ms ih => rw [memberValuesToJson, List.map_cons, ih]

theorem getObjectItem_eq (ms : List (Bytes × Value)) (word : String) :
    (valueToJson (.object ms)).getObjectItem word =
      (ms.find? fun m => Json.sameName (ascii word) (cString m.1)).map (valueToJson ·.2) := by
  rw [valueToJson, Json.getObjectItem, memberValuesToJson_eq, List.find?_map, Option.map_map]
  rfl

theorem TheMember.getObjectItem {ms : List (Bytes × Value)} {word : String} {v : Value}
    (h : TheMember ms word v) (hword : cString (ascii word) = ascii word) :
    (valueToJson (.object ms)).getObjectItem word = some (valueToJson v) := by
  have halike : Alike (ascii word) word := congrArg (List.map lower) hword
  rw [getObjectItem_eq]
  cases hfind : ms.find? fun m => Json.sameName (ascii word) (cString m.1) with
  | none => exact absurd ((sameName_iff _ _).2 halike) (List.find?_eq_none.1 hfind _ h.1)
  | some m =>
    have hsame := List.find?_some hfind
    have hm := h.2 m (List.mem_of_find?_eq_some hfind) ((sameName_iff _ _).1 hsame)
    rw [hm]
    rfl

theorem getObjectItem_mem {v : Value} {word : String} {j : Crypto.Json}
    (h : (valueToJson v).getObjectItem word = some j) :
    ∃ ms m, v = .object ms ∧ m ∈ ms ∧ Alike m.1 word ∧ j = valueToJson m.2 := by
  cases v with
  | object ms =>
    rw [getObjectItem_eq, Option.map_eq_some_iff] at h
    obtain ⟨m, hfind, rfl⟩ := h
    have hsame := List.find?_some hfind
    exact ⟨ms, m, rfl, List.mem_of_find?_eq_some hfind, (sameName_iff _ _).1 hsame, rfl⟩
  | null | bool | number | string | array => cases h

theorem valuestring_valueToJson {v : Value} {text : Bytes}
    (h : (valueToJson v).valuestring = some text) : ∃ s, v = .string s ∧ text = cString s := by
  cases v with
  | string s => exact ⟨s, rfl, (Option.some.inj h).symm⟩
  | null | bool | number | object | array => cases h

/-! ## The server's text -/

/-- A string literal without escapes. -/
def stringText (s : Bytes) : Bytes := quote :: (s ++ [quote])

/-- A member without whitespace. -/
def memberText (name : String) (t : Bytes) : Bytes := quote :: (ascii name ++ quote :: colon :: t)

/-- The strings of the text. -/
def cryptoInitWords : List String :=
  ["type", "crypto_init", "result", "status", "ok", "cipher", "chacha20", "protocol_version",
    "key_id", "carplay-poc-static-v1", "session_nonce"]

/-- The value of the text. -/
def cryptoInitValue (clean : Bytes) : Value :=
  .object [(ascii "type", .string (ascii "crypto_init")),
    (ascii "result", .object [(ascii "status", .string (ascii "ok")),
      (ascii "cipher", .string (ascii "chacha20")), (ascii "protocol_version", .number 1 0),
      (ascii "key_id", .string (ascii "carplay-poc-static-v1")),
      (ascii "session_nonce", .string clean)])]

theorem isChars_cryptoInitWord {word : String} (h : word ∈ cryptoInitWords) :
    IsChars (ascii word) (ascii word) := by
  have hall : ∀ word ∈ cryptoInitWords, ∀ b ∈ ascii word, 0x20 ≤ b ∧ b ≠ quote ∧ b ≠ backslash := by
    decide +kernel
  exact isChars_self (hall word h)

theorem derives_memberText {name : String} {v : Value} {t : Bytes} (hname : name ∈ cryptoInitWords)
    (h : Derives (.value v) t) : Derives (.members [(ascii name, v)]) (memberText name t) :=
  .lastMember blank_nil (isChars_cryptoInitWord hname) blank_nil h.to_element

theorem derives_word {name word : String} (hname : name ∈ cryptoInitWords)
    (hword : word ∈ cryptoInitWords) :
    Derives (.members [(ascii name, .string (ascii word))])
      (memberText name (stringText (ascii word))) :=
  derives_memberText hname (.string (isChars_cryptoInitWord hword))

theorem isNumber_one : IsNumber (ascii "1") 1 0 := by
  have hdigits : IsDigits (ascii "1") := ⟨by decide, by decide +kernel⟩
  exact .pos (@IsUnsigned.mk _ [] [] [] 0 hdigits (by decide) .none .none)

theorem jsonHead_eq : jsonHead =
    leftBrace :: (memberText "type" (stringText (ascii "crypto_init")) ++
      comma :: quote :: (ascii "result" ++ quote :: colon :: leftBrace ::
        (memberText "status" (stringText (ascii "ok")) ++
          comma :: (memberText "cipher" (stringText (ascii "chacha20")) ++
            comma :: (memberText "protocol_version" (ascii "1") ++
              comma :: (memberText "key_id" (stringText (ascii "carplay-poc-static-v1")) ++
                comma :: quote :: (ascii "session_nonce" ++ [quote, colon, quote]))))))) := by
  decide +kernel

/-- **The server's text is a JSON text**, whatever characters the nonce has. -/
theorem isText_cryptoInit {clean : Bytes} (h : IsChars clean clean) :
    IsText (cryptoInitValue clean) (jsonHead ++ clean ++ jsonTail) := by
  have hnonce : Derives (.members [(ascii "session_nonce", .string clean)])
      (memberText "session_nonce" (stringText clean)) :=
    derives_memberText (by decide) (.string h)
  have hresult := Derives.object (.members (@derives_word "status" "ok" (by decide) (by decide))
    (.members (@derives_word "cipher" "chacha20" (by decide) (by decide))
      (.members (@derives_memberText "protocol_version" _ _ (by decide) (.number isNumber_one))
        (.members (@derives_word "key_id" "carplay-poc-static-v1" (by decide) (by decide))
          hnonce))))
  have hobject := Derives.to_element (.object
    (.members (@derives_word "type" "crypto_init" (by decide) (by decide))
      (@derives_memberText "result" _ _ (by decide) hresult)))
  rw [jsonHead_eq, show jsonTail = [quote, rightBrace, rightBrace] from rfl]
  simpa [cryptoInitValue, IsText, memberText, stringText] using hobject

/-- Base64 characters stand for themselves. -/
theorem plain_of_dtable {b : UInt8} (h : Base64.dtable b ≠ 0x80) :
    0x20 ≤ b ∧ b ≠ quote ∧ b ≠ backslash := by
  have htable : ∀ b ∈ Base64.table, 0x20 ≤ b ∧ b ≠ quote ∧ b ≠ backslash := by
    rw [show Base64.table = _ from ascii_ofList _]
    decide +kernel
  unfold Base64.dtable at h
  split_ifs at h with hequals hmem
  · rw [hequals]
    decide
  · exact htable b hmem
  · exact absurd rfl h

/-- What a scan finds in front of the nonce and behind it. -/
theorem scan_cryptoInit : Scan.after .outside jsonHead = .inside ∧
    (skeleton jsonHead ++ skeletonFrom .inside jsonTail).length ≤ numberMax := by
  decide +kernel

theorem shortNumbers_cryptoInit {clean : Bytes} (h : ∀ b ∈ clean, b ≠ quote ∧ b ≠ backslash) :
    ShortNumbers (jsonHead ++ clean ++ jsonTail) := by
  refine shortNumbers_of_length ?_
  rw [List.append_assoc, skeleton, skeletonFrom_append, scan_cryptoInit.1, skeletonFrom_append,
    (Has.inside_plain h).1, (Has.inside_plain h).2, List.nil_append]
  exact scan_cryptoInit.2

theorem parsesCryptoInit_parse {double : Type} (fp : Doubles double) :
    ParsesCryptoInit (parse fp) := by
  intro clean hclean
  have hplain := fun b hb => plain_of_dtable (hclean b hb)
  have hzero : cString clean = clean :=
    cString_of_ne_zero fun b hb => ne_zero_of_dtable (hclean b hb)
  have hdepth : (cryptoInitValue clean).depth ≤ nestingLimit := by
    rw [show (cryptoInitValue clean).depth = 2 from rfl]
    decide
  have hnames : valueToJson (cryptoInitValue clean) = cryptoInitMembers (cString clean) := by
    have hword : ∀ word ∈ cryptoInitWords, cString (ascii word) = ascii word := by decide +kernel
    simp only [cryptoInitWords, List.forall_mem_cons] at hword
    simp only [cryptoInitValue, valueToJson, memberValuesToJson, cryptoInitMembers, hword]
  rw [parse_isText fp (isText_cryptoInit (isChars_self hplain))
    (shortNumbers_cryptoInit fun b hb => (hplain b hb).2), if_pos hdepth, hnames, hzero]

end CJson

namespace E2E

open Bytes Json Crypto CJson

section
variable {double : Type} (fp : Doubles double)

/-! ## `crypto_init` texts -/

/-- **The gateway reads the server's nonce**, with the parser that it is linked with. -/
theorem gateway_reads_server (n : Nonce) (s : NonceState) :
    gatewayParseCryptoInit (parse fp) true true (cryptoInitText n) s = (0, ⟨n, true⟩) :=
  gatewayParseCryptoInit_text (parsesCryptoInit_parse fp) n s

/-- The value is a `crypto_init` of the nonce. Members stand in any order, and others beside
them. -/
def Announces (v : Value) (n : Nonce) : Prop :=
  ∃ ms result, v = .object ms ∧ TheMember ms "type" (.string (ascii "crypto_init")) ∧
    TheMember ms "result" (.object result) ∧
    TheMember result "session_nonce" (.string (Base64.textOf n.1))

/-- What the gateway takes for a `crypto_init` of the nonce: names in any case and not the only
ones, and a nonce with other characters between those of its text. -/
def Resembles (v : Value) (n : Nonce) : Prop :=
  ∃ ms result name type name' name'' text, v = .object ms ∧
    (name, .string type) ∈ ms ∧ Alike name "type" ∧ cString type = ascii "crypto_init" ∧
    (name', .object result) ∈ ms ∧ Alike name' "result" ∧
    (name'', .string text) ∈ result ∧ Alike name'' "session_nonce" ∧
    (cString text).filter Base64.isCharacter = Base64.textOf n.1

theorem base64Decode_nonce (n : Nonce) (text : Bytes) :
    Base64.base64Decode true text = some n.1 ↔
      text.filter Base64.isCharacter = Base64.textOf n.1 := by
  have hlength : n.1.length = 12 := n.2
  exact Base64.base64Decode_eq_some (List.ne_nil_of_length_pos (by omega)) (by omega)

/-- The nonce of a text that carries one resembles the text's. -/
theorem resembles_of_carriesNonce {t : Bytes} {v : Value} {n : Nonce}
    (hparse : parse fp (cString t) = some (valueToJson v))
    (h : CarriesNonce (parse fp) t n) : Resembles v n := by
  obtain ⟨root, text, hroot, htype, hnonce, hdecode⟩ := h
  cases hparse.symm.trans hroot
  obtain ⟨type, hitem, hstring⟩ := Option.bind_eq_some_iff.1 htype
  obtain ⟨ms, ⟨name, value⟩, rfl, hmem, halike, rfl⟩ := getObjectItem_mem hitem
  obtain ⟨type, rfl, htype⟩ := valuestring_valueToJson hstring
  obtain ⟨item, hitem, hstring⟩ := Option.bind_eq_some_iff.1 hnonce
  obtain ⟨object, hobject, hitem⟩ := Option.bind_eq_some_iff.1 hitem
  obtain ⟨ms', ⟨name', value'⟩, heq, hmem', halike', rfl⟩ := getObjectItem_mem hobject
  cases heq
  obtain ⟨result, ⟨name'', value''⟩, rfl, hmem'', halike'', rfl⟩ := getObjectItem_mem hitem
  obtain ⟨text, rfl, rfl⟩ := valuestring_valueToJson hstring
  have hzero : cString (cString text) = cString text :=
    cString_of_ne_zero fun b hb => ne_zero_of_mem_cString hb
  rw [hzero, base64Decode_nonce] at hdecode
  exact ⟨ms, result, name, type, name', name'', text, rfl, hmem, halike, htype.symm, hmem', halike',
    hmem'', halike'', hdecode⟩

/-- **The gateway takes the nonce of a JSON text**, however it is written. Only a nonce that a text
resembles changes its state. -/
theorem gateway_reads_text {v : Value} {t : Bytes} (h : IsText v t) (hshort : ShortNumbers t)
    (hdepth : v.depth ≤ nestingLimit) (s : NonceState) :
    (∀ n, Announces v n → gatewayParseCryptoInit (parse fp) true true t s = (0, ⟨n, true⟩)) ∧
      ((gatewayParseCryptoInit (parse fp) true true t s).2 = s ∨
        ∃ n, Resembles v n ∧ (gatewayParseCryptoInit (parse fp) true true t s).2 = ⟨n, true⟩) := by
  have hparse := parse_cString_isText fp h hshort hdepth
  constructor
  · rintro n ⟨ms, result, rfl, htype, hresult, hnonce⟩
    have hchars : ∀ b ∈ Base64.textOf n.1, Base64.isCharacter b = true := by
      rw [← Base64.filter_encodeFrom n.1 0]
      exact fun b hb => (List.mem_filter.1 hb).2
    have hzero : cString (Base64.textOf n.1) = Base64.textOf n.1 :=
      cString_of_ne_zero fun b hb =>
        ne_zero_of_dtable ((Base64.isCharacter_iff b).1 (hchars b hb))
    have hdecode : Base64.base64Decode true (cString (cString (Base64.textOf n.1))) =
        some n.1 := by
      rw [hzero, hzero, base64Decode_nonce, List.filter_eq_self]
      exact hchars
    have htype := htype.getObjectItem (by decide)
    have hresult := hresult.getObjectItem (by decide)
    have hnonce := hnonce.getObjectItem (by decide)
    have hword : cString (ascii "crypto_init") = ascii "crypto_init" := by decide
    rw [valueToJson] at htype hnonce
    simp [gatewayParseCryptoInit, hparse, htype, hresult, hnonce, Crypto.Json.valuestring, hword,
      hdecode, n.2]
  · refine (gatewayParseCryptoInit_cases (parse fp) true true t s).imp_right ?_
    rintro ⟨n, hcarries, hstate⟩
    exact ⟨n, resembles_of_carriesNonce fp hparse hcarries, hstate⟩

/-! ## Command texts -/

/-- What the value asks for: the handler of its `cmd`, or nothing. -/
inductive Selects (v : Value) : Option Server.Handler → Prop
  | handler {ms : List (Bytes × Value)} {name : String} {handler : Server.Handler}
      (hv : v = .object ms) (hcmd : TheMember ms "cmd" (.string (ascii name)))
      (hmem : (name, handler) ∈ Server.appCmd) : Selects v (some handler)
  | unknown {ms : List (Bytes × Value)} {cmd : Bytes} (hv : v = .object ms)
      (hcmd : TheMember ms "cmd" (.string cmd)) (hzero : 0 ∉ cmd)
      (hnone : ∀ entry ∈ Server.appCmd, ascii entry.1 ≠ cmd) : Selects v none
  | absent {ms : List (Bytes × Value)} (hv : v = .object ms)
      (hnone : ∀ m ∈ ms, ¬ Alike m.1 "cmd") : Selects v none
  | noObject (hv : ∀ ms, v ≠ .object ms) : Selects v none

theorem dispatch_find {printsNull : Bool} {root cmd : Crypto.Json} {name : Bytes}
    (hname : cmd.valuestring = some name) (table : List (String × Server.Handler)) :
    Server.dispatch printsNull root cmd table =
      match table.find? fun entry => ascii entry.1 = cString name with
      | none => some none
      | some (_, handler) =>
        (Server.handlerFunc printsNull (some root) handler).map fun _ => some handler := by
  induction table with
  | nil => rfl
  | cons entry table ih =>
    obtain ⟨name', handler⟩ := entry
    rw [Server.dispatch, hname, List.find?_cons]
    by_cases heq : ascii name' = cString name
    · simp only [Option.bind_eq_bind, Option.bind_some, if_pos heq, decide_eq_true heq]
      cases Server.handlerFunc printsNull (some root) handler <;> rfl
    · simp only [Option.bind_eq_bind, Option.bind_some, if_neg heq, decide_eq_false heq]
      exact ih

theorem find_appCmd {name : String} {handler : Server.Handler}
    (h : (name, handler) ∈ Server.appCmd) :
    cString (ascii name) = ascii name ∧
      Server.appCmd.find? (fun entry => ascii entry.1 = ascii name) = some (name, handler) := by
  have hall : ∀ entry ∈ Server.appCmd, cString (ascii entry.1) = ascii entry.1 ∧
      Server.appCmd.find? (fun entry' => ascii entry'.1 = ascii entry.1) = some entry := by
    decide +kernel
  exact hall _ h

end

/-! ## Two texts -/

/-- `crypto_init` without what a gateway does not read, and the other way round. -/
def reorderedText (clean : Bytes) : Bytes :=
  leftBrace :: (memberText "result"
    (leftBrace :: (memberText "session_nonce" (stringText clean) ++ [rightBrace])) ++
      comma :: memberText "type" (stringText (ascii "crypto_init")) ++ [rightBrace])

theorem isText_reordered {clean : Bytes} (h : IsChars clean clean) :
    IsText (.object [(ascii "result", .object [(ascii "session_nonce", .string clean)]),
      (ascii "type", .string (ascii "crypto_init"))]) (reorderedText clean) := by
  have hnonce : Derives (.members [(ascii "session_nonce", .string clean)])
      (memberText "session_nonce" (stringText clean)) :=
    derives_memberText (by decide) (.string h)
  exact (Derives.object (.members
    (@derives_memberText "result" _ _ (by decide) (.object hnonce))
    (@derives_word "type" "crypto_init" (by decide) (by decide)))).to_element

theorem gateway_reads_text_reordered :
    gatewayParseCryptoInit (parse wholeDoubles) true true (reorderedText (ascii "AQIDBAUGBwgJCgsM"))
      ⟨⟨List.replicate 12 0, rfl⟩, false⟩ =
        (0, ⟨⟨[1, 2, 3, 4, 5, 6, 7, 8, 9, 10, 11, 12], rfl⟩, true⟩) := by
  have hchars : IsChars (ascii "AQIDBAUGBwgJCgsM") (ascii "AQIDBAUGBwgJCgsM") :=
    isChars_self (by decide +kernel)
  have htype : ¬ Alike (ascii "result") "type" := by decide
  have hresult : ¬ Alike (ascii "type") "result" := by decide
  have htext : ascii "AQIDBAUGBwgJCgsM" =
      Base64.textOf [1, 2, 3, 4, 5, 6, 7, 8, 9, 10, 11, 12] := by
    decide +kernel
  refine (gateway_reads_text wholeDoubles (isText_reordered hchars)
    (shortNumbers_of_length (by decide +kernel)) (by decide +kernel) _).1 _
      ⟨_, _, rfl, ⟨.tail _ (.head _), ?_⟩, ⟨.head _, ?_⟩, ⟨htext ▸ .head _, ?_⟩⟩
  · simp [htype]
  · simp [hresult]
  · simp [htext]

end E2E
