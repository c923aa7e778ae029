import CarplayRelay.CryptoInit
import CarplayRelay.Lib.Json

/-!
# The JSON parser (`cJSON_Parse`)

The parser of the vendored `cJSON`, over the bytes of its buffer: a `parse_buffer` is its content
and an offset. Every read of the buffer and every write to a block that was allocated can be a
`fault`, which is an access outside of it. Allocations succeed.

The C library's `double` is a parameter (`Doubles`), with its value for the characters that `strtod`
converts. Nesting is counted down: `levels` is `CJSON_NESTING_LIMIT` less the depth of the buffer.
-/

namespace CJson

open Bytes Json

/-- The floating-point numbers of the C library: the one that `strtod` gives for the characters that
it converts, the comparisons with `INT_MAX` and `INT_MIN`, and the cast to `int`. -/
structure Doubles (double : Type) where
  value : Bytes → double
  atLeastIntMax : double → Bool
  atMostIntMin : double → Bool
  toInt : double → Int

/-- An item. Members of objects have their names. -/
inductive Item (double : Type)
  | null
  | bool (b : Bool)
  | number (valuedouble : double) (valueint : Int)
  | string (valuestring : Bytes)
  | array (child : List (Item double))
  | object (child : List (Bytes × Item double))

variable {double : Type}

/-- What a function leaves: its value, and the offset of the buffer. -/
inductive Result (α : Type)
  | ok (a : α) (offset : Nat)
  | fail (offset : Nat)
  /-- An access outside of a buffer. -/
  | fault

def Result.bind {α β : Type} (r : Result α) (f : α → Nat → Result β) : Result β :=
  match r with
  | .ok a offset => f a offset
  | .fail offset => .fail offset
  | .fault => .fault

def Result.map {α β : Type} (f : α → β) (r : Result α) : Result β :=
  r.bind fun a offset => .ok (f a) offset

/-! ## Whitespace -/

/-- `buffer_skip_whitespace`: it steps back from the end of the buffer. -/
def bufferSkipWhitespace (content : Bytes) (offset : Nat) : Nat :=
  if content.length ≤ offset then offset
  else
    let offset := offset + ((content.drop offset).takeWhile (· ≤ 32)).length
    if offset = content.length then offset - 1 else offset

/-- `skip_utf8_bom`. -/
def skipUtf8Bom (content : Bytes) : Nat :=
  if 4 < content.length ∧ content.take 3 = [0xef, 0xbb, 0xbf] then 3 else 0

/-! ## Strings -/

/-- The loop of `parse_hex4` with `left` digits to go. -/
def parseHex4Loop (content : Bytes) : Nat → Nat → Nat → Option Nat
  | 0, _, h => some h
  | left + 1, pos, h =>
    content[pos]?.bind fun c =>
      match hexDigit c with
      | none => some 0
      | some d => parseHex4Loop content left (pos + 1) (if 0 < left then (h + d) <<< 4 else h + d)

/-- `parse_hex4`: 0 for anything else than four digits. -/
def parseHex4 (content : Bytes) (pos : Nat) : Option Nat := parseHex4Loop content 4 pos 0

/-- `utf8_length` and `first_byte_mark` of `utf16_literal_to_utf8`. -/
def utf8Length (codepoint : Nat) : Nat × Nat :=
  if codepoint < 0x80 then (1, 0)
  else if codepoint < 0x800 then (2, 0xc0)
  else if codepoint < 0x10000 then (3, 0xe0)
  else if codepoint ≤ 0x10ffff then (4, 0xf0)
  else (0, 0)

/-- The bytes of a code point, from the one at `pos` back to the first; `behind` are written. -/
def encodeUtf8From (mark : Nat) : Nat → Nat → Bytes → Bytes
  | 0, codepoint, behind => UInt8.ofNat ((codepoint ||| mark) &&& 0xff) :: behind
  | pos + 1, codepoint, behind =>
    encodeUtf8From mark pos (codepoint >>> 6)
      (UInt8.ofNat ((codepoint ||| 0x80) &&& 0xbf) :: behind)

/-- The end of `utf16_literal_to_utf8`: the length of the literal and the bytes it stands for, or
0 for a failure. -/
def encodeUtf8 (sequenceLength codepoint : Nat) : Nat × Bytes :=
  match utf8Length codepoint with
  | (0, _) => (0, [])
  | (1, _) => (sequenceLength, [UInt8.ofNat (codepoint &&& 0x7f)])
  | (length + 1, mark) => (sequenceLength, encodeUtf8From mark length codepoint [])

/-- `utf16_literal_to_utf8`. -/
def utf16LiteralToUtf8 (content : Bytes) (first inputEnd : Nat) : Option (Nat × Bytes) :=
  if inputEnd < first + 6 then some (0, [])
  else
    (parseHex4 content (first + 2)).bind fun firstCode =>
      if 0xdc00 ≤ firstCode ∧ firstCode ≤ 0xdfff then some (0, [])
      else if 0xd800 ≤ firstCode ∧ firstCode ≤ 0xdbff then
        let second := first + 6
        if inputEnd < second + 6 then some (0, [])
        else
          content[second]?.bind fun c => content[second + 1]?.bind fun c' =>
            if c ≠ backslash ∨ c' ≠ 0x75 then some (0, [])
            else
              (parseHex4 content (second + 2)).bind fun secondCode =>
                if secondCode < 0xdc00 ∨ 0xdfff < secondCode then some (0, [])
                else some (encodeUtf8 12
                  (0x10000 + (((firstCode &&& 0x3ff) <<< 10) ||| (secondCode &&& 0x3ff))))
      else some (encodeUtf8 6 firstCode)

/-- The first loop of `parse_string`: how far away the quote at the end is, and how many bytes are
skipped. -/
def literalEnd : Bytes → Option (Nat × Nat)
  | [] => none
  | c :: t =>
    if c = quote then some (0, 0)
    else if c = backslash then
      match t with
      | [] => none
      | _ :: t => (literalEnd t).map fun e => (e.1 + 2, e.2 + 1)
    else (literalEnd t).map fun e => (e.1 + 1, e.2)

/-- The escapes of one character. -/
def unescaped (c : UInt8) : Option UInt8 :=
  if c = 0x62 then some 0x08
  else if c = 0x66 then some 0x0c
  else if c = 0x6e then some 0x0a
  else if c = 0x72 then some 0x0d
  else if c = 0x74 then some 0x09
  else if c = quote ∨ c = backslash ∨ c = 0x2f then some c
  else none

/-- One turn of the second loop of `parse_string`: how far it moves the pointer, 0 for a failure,
and what it writes. -/
def unescapeTurn (content : Bytes) (inputEnd pos : Nat) : Option (Nat × Bytes) :=
  content[pos]?.bind fun c =>
    if c ≠ backslash then some (1, [c])
    else
      content[pos + 1]?.bind fun e =>
        if e = 0x75 then utf16LiteralToUtf8 content pos inputEnd
        else some ((unescaped e).elim (0, []) fun b => (2, [b]))

/-- The second loop of `parse_string`; `out` stands in a block of `capacity` bytes. Every turn
moves the pointer, so there are no more than `inputEnd - pos`. -/
def unescape (content : Bytes) (inputEnd capacity : Nat) : Nat → Nat → Bytes → Result Bytes
  | 0, pos, out => if out.length < capacity then .ok out pos else .fault
  | turns + 1, pos, out =>
    if inputEnd ≤ pos then if out.length < capacity then .ok out pos else .fault
    else
      match unescapeTurn content inputEnd pos with
      | none => .fault
      | some (0, _) => .fail pos
      | some (step + 1, bytes) =>
        if out.length + bytes.length ≤ capacity then
          unescape content inputEnd capacity turns (pos + (step + 1)) (out ++ bytes)
        else .fault

/-- `parse_string`. -/
def parseString (content : Bytes) (offset : Nat) : Result Bytes :=
  match content[offset]? with
  | none => .fault
  | some c =>
    if c ≠ quote then .fail (offset + 1)
    else
      match literalEnd (content.drop (offset + 1)) with
      | none => .fail (offset + 1)
      | some (length, skippedBytes) =>
        let inputEnd := offset + 1 + length
        let allocationLength := inputEnd - offset - skippedBytes
        (unescape content inputEnd (allocationLength + 1) length (offset + 1) []).bind
          fun out _ => .ok out (inputEnd + 1)

/-! ## Numbers -/

def isDigit (b : UInt8) : Bool := 0x30 ≤ b ∧ b ≤ 0x39

/-- The characters that `parse_number` copies. -/
def isNumberChar (b : UInt8) : Bool :=
  isDigit b || b == 0x2b || b == 0x2d || b == 0x65 || b == 0x45 || b == 0x2e

/-- The sign that a number or an exponent may have. -/
def signOf (s : Bytes) : Bytes :=
  s.take (if s.head? = some 0x2b ∨ s.head? = some 0x2d then 1 else 0)

/-- The point and the digits behind it that `strtod` finds in front of `s`. -/
def fractionOf (s : Bytes) : Bytes :=
  if s.head? = some 0x2e then 0x2e :: s.tail.takeWhile isDigit else []

/-- The exponent that `strtod` finds in front of `s`: one without digits is none. -/
def exponentOf : Bytes → Bytes
  | [] => []
  | e :: s =>
    let digits := (s.drop (signOf s).length).takeWhile isDigit
    if (e = 0x65 ∨ e = 0x45) ∧ digits ≠ [] then e :: (signOf s ++ digits) else []

/-- The characters that `strtod` converts, of a string of number characters. -/
def strtod (s : Bytes) : Bytes :=
  let sign := signOf s
  let t := s.drop sign.length
  let int := t.takeWhile isDigit
  let t := t.drop int.length
  let fraction := fractionOf t
  if int = [] ∧ fraction.length ≤ 1 then []
  else sign ++ (int ++ (fraction ++ exponentOf (t.drop fraction.length)))

/-- `sizeof(number_c_string) - 1`. -/
def numberMax : Nat := 63

/-- `valueint` of a number, saturated. -/
def saturate (fp : Doubles double) (number : double) : Int :=
  if fp.atLeastIntMax number then 2 ^ 31 - 1
  else if fp.atMostIntMin number then -2 ^ 31
  else fp.toInt number

/-- The item that `parse_number` makes of the characters that `strtod` converts. -/
def numberItem (fp : Doubles double) (number : Bytes) : Item double :=
  .number (fp.value number) (saturate fp (fp.value number))

/-- `parse_number`. -/
def parseNumber (fp : Doubles double) (content : Bytes) (offset : Nat) : Result (Item double) :=
  let number := strtod (((content.drop offset).take numberMax).takeWhile isNumberChar)
  if number = [] then .fail offset else .ok (numberItem fp number) (offset + number.length)

/-! ## Arrays and objects -/

/-- The loop of `parse_array` and `parse_object` from the character in front of an element. Every
turn moves the offset, so that it does not run out of turns. -/
def parseElements {α : Type} (content : Bytes) (element : Nat → Result α) :
    Nat → Nat → List α → Result (List α)
  | 0, _, _ => .fault
  | turns + 1, offset, items =>
    (element (bufferSkipWhitespace content (offset + 1))).bind fun item offset =>
      let offset := bufferSkipWhitespace content offset
      if content[offset]? = some comma then
        parseElements content element turns offset (items ++ [item])
      else .ok (items ++ [item]) offset

/-- `parse_array` and `parse_object` behind the check of their first character. -/
def parseContainer {α : Type} (content : Bytes) (closing : UInt8) (element : Nat → Result α)
    (offset : Nat) : Result (List α) :=
  let offset := bufferSkipWhitespace content (offset + 1)
  if content[offset]? = some closing then .ok [] (offset + 1)
  else if content.length ≤ offset then .fail (offset - 1)
  else
    (parseElements content element content.length (offset - 1) []).bind fun items offset =>
      if content[offset]? = some closing then .ok items (offset + 1) else .fail offset

/-- `parse_array`, below the nesting limit. -/
def parseArray (content : Bytes) (value : Nat → Result (Item double)) (offset : Nat) :
    Result (Item double) :=
  match content[offset]? with
  | none => .fault
  | some c =>
    if c ≠ leftBracket then .fail offset
    else (parseContainer content rightBracket value offset).map .array

/-- The body of the loop of `parse_object`. -/
def parseMember (content : Bytes) (value : Nat → Result (Item double)) (offset : Nat) :
    Result (Bytes × Item double) :=
  (parseString content offset).bind fun name offset =>
    let offset := bufferSkipWhitespace content offset
    if content[offset]? ≠ some colon then .fail offset
    else
      (value (bufferSkipWhitespace content (offset + 1))).map fun item => (name, item)

/-- `parse_object`, below the nesting limit. -/
def parseObject (content : Bytes) (value : Nat → Result (Item double)) (offset : Nat) :
    Result (Item double) :=
  if content[offset]? ≠ some leftBrace then .fail offset
  else (parseContainer content rightBrace (parseMember content value) offset).map .object

/-! ## Values -/

/-- `can_read` and `strncmp`. -/
def hasLiteral (content : Bytes) (offset : Nat) (word : String) : Bool :=
  (ascii word).isPrefixOf (content.drop offset)

/-- `CJSON_NESTING_LIMIT`. -/
def nestingLimit : Nat := 1000

/-- `parse_value`. -/
def parseValue (fp : Doubles double) (content : Bytes) (levels offset : Nat) :
    Result (Item double) :=
  if hasLiteral content offset "null" then .ok .null (offset + 4)
  else if hasLiteral content offset "false" then .ok (.bool false) (offset + 5)
  else if hasLiteral content offset "true" then .ok (.bool true) (offset + 4)
  else
    match content[offset]? with
    | none => .fail offset
    | some c =>
      if c = quote then (parseString content offset).map .string
      else if c = 0x2d ∨ isDigit c then parseNumber fp content offset
      else if c = leftBracket then
        match levels with
        | 0 => .fail offset
        | levels + 1 => parseArray content (parseValue fp content levels) offset
      else if c = leftBrace then
        match levels with
        | 0 => .fail offset
        | levels + 1 => parseObject content (parseValue fp content levels) offset
      else .fail offset

/-! ## The entry points -/

/-- What `cJSON_ParseWithLengthOpts` leaves: the item, `*return_parse_end` and the position of
`global_error`, both as offsets. -/
structure Parsed (double : Type) where
  item : Option (Item double)
  parseEnd : Nat
  errorPosition : Option Nat

/-- `cJSON_ParseWithLengthOpts` after a failure. -/
def parseFailure (content : Bytes) (offset : Nat) : Parsed double :=
  let position := if offset < content.length then offset else content.length - 1
  ⟨none, position, some position⟩

/-- `cJSON_ParseWithLengthOpts` of a buffer with `content`; `none` is a fault. -/
def cJSONParseWithLengthOpts (fp : Doubles double) (content : Bytes)
    (requireNullTerminated : Bool) : Option (Parsed double) :=
  if content = [] then some (parseFailure content 0)
  else
    match parseValue fp content nestingLimit
      (bufferSkipWhitespace content (skipUtf8Bom content)) with
    | .fault => none
    | .fail offset => some (parseFailure content offset)
    | .ok item offset =>
      if requireNullTerminated then
        let offset := bufferSkipWhitespace content offset
        if content[offset]? = some 0 then some ⟨some item, offset, none⟩
        else some (parseFailure content offset)
      else some ⟨some item, offset, none⟩

/-- `cJSON_ParseWithOpts` of a C string, whose terminator is part of the buffer. -/
def cJSONParseWithOpts (fp : Doubles double) (value : Bytes) (requireNullTerminated : Bool) :
    Option (Parsed double) :=
  cJSONParseWithLengthOpts fp (Crypto.cString value ++ [0]) requireNullTerminated

/-- Whole numbers in the place of doubles: the digits of a text without sign, point and exponent. -/
def wholeDoubles : Doubles Int where
  value text := text.foldl (fun n b => 10 * n + (b.toNat - 0x30)) 0
  atLeastIntMax n := 2 ^ 31 - 1 ≤ n
  atMostIntMin n := n ≤ -2 ^ 31
  toInt n := n

/-- `cJSON_Parse`. -/
def cJSONParse (fp : Doubles double) (value : Bytes) : Option (Option (Item double)) :=
  (cJSONParseWithOpts fp value false).map (·.item)

end CJson
