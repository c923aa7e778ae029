import CarplayRelay.Lib.CInt
import CarplayRelay.Lib.Json
import Mathlib.Data.List.Induction

/-!
# The on-screen display commands (`RemoteOSD`)

`RemoteOSD` puts its drawing commands into one JSON text, with a counter of the commands and a
counter of the values of the current command to tell where commas go.

* `getJson_isText_iff`: the text says what was called exactly if no circle was drawn, whose command
  is not ended, and the counter of commands has not wrapped.
-/

namespace Osd

open Bytes CInt Json

/-! ## The class -/

/-- `RemoteOSD`. -/
structure RemoteOSD where
  cmdCount : Int
  keyCount : Int
  buf : Bytes
  deriving DecidableEq, Repr

/-- A value of a command, one of the two types of `addValue`. -/
inductive Arg
  | str (value : Bytes)
  | int (value : Int)
  deriving DecidableEq, Repr

/-- `std::to_string` of a number without a sign. -/
def digits (n : Nat) : Bytes := (Nat.toDigits 10 n).map fun c => c.toNat.toUInt8

/-- `std::to_string`. -/
def toString (value : Int) : Bytes :=
  if value < 0 then 0x2d :: digits value.natAbs else digits value.natAbs

namespace RemoteOSD

/-- `m_buf` of the constructor. -/
def head : Bytes := leftBrace :: ascii "\"type\":\"osd\", \"ver\":\"0.1\",\"serial\":["

/-- `RemoteOSD::RemoteOSD`. -/
def new : RemoteOSD := ⟨0, 0, head⟩

def startCmd (o : RemoteOSD) : RemoteOSD where
  buf := o.buf ++ if 0 < o.cmdCount then [comma, leftBrace] else [leftBrace]
  cmdCount := wrap32 (o.cmdCount + 1)
  keyCount := 0

def endCmd (o : RemoteOSD) : RemoteOSD := { o with buf := o.buf ++ [rightBrace] }

/-- What `addValue` writes for its value. -/
def valueText : Arg → Bytes
  | .str value => quote :: (value ++ [quote])
  | .int value => toString value

/-- `addValue`, for a string and for a number. A command has at most five values, which its counter
can count. -/
def addValue (o : RemoteOSD) (key : Bytes) (value : Arg) : RemoteOSD :=
  { o with
    buf := (if 0 < o.keyCount then o.buf ++ [comma] else o.buf) ++
      (quote :: (key ++ quote :: colon :: valueText value))
    keyCount := o.keyCount + 1 }

def getJson (o : RemoteOSD) : Bytes := o.buf ++ [rightBracket, rightBrace]

/-- The calls of a drawing method before its `endCmd`. -/
def openCommand (o : RemoteOSD) (name : String) (args : List (String × Arg)) : RemoteOSD :=
  args.foldl (fun o arg => o.addValue (ascii arg.1) arg.2)
    (o.startCmd.addValue (ascii "c") (.str (ascii name)))

/-- The calls of a drawing method. -/
def command (o : RemoteOSD) (name : String) (args : List (String × Arg)) : RemoteOSD :=
  (o.openCommand name args).endCmd

def strokeStyle (o : RemoteOSD) (style : Bytes) : RemoteOSD :=
  o.command "strokeStyle" [("v", .str style)]

def lineWidth (o : RemoteOSD) (w : Int) : RemoteOSD := o.command "lineWidth" [("v", .int w)]

def fillStyle (o : RemoteOSD) (style : Bytes) : RemoteOSD :=
  o.command "fillStyle" [("v", .str style)]

def fillText (o : RemoteOSD) (text : Bytes) (x y : Int) : RemoteOSD :=
  o.command "fillText" [("v", .str text), ("x", .int x), ("y", .int y)]

def rect (o : RemoteOSD) (x y w h : Int) : RemoteOSD :=
  o.command "rect" [("x", .int x), ("y", .int y), ("w", .int w), ("h", .int h)]

/-- `circle`, which does not end its command. -/
def circle (o : RemoteOSD) (x y r : Int) : RemoteOSD :=
  o.openCommand "circle" [("x", .int x), ("y", .int y), ("r", .int r)]

def fillRect (o : RemoteOSD) (x y w h : Int) : RemoteOSD :=
  o.command "fillRect" [("x", .int x), ("y", .int y), ("w", .int w), ("h", .int h)]

def beginPath (o : RemoteOSD) : RemoteOSD := o.command "beginPath" []

def stroke (o : RemoteOSD) : RemoteOSD := o.command "stroke" []

def fill (o : RemoteOSD) : RemoteOSD := o.command "fill" []

def font (o : RemoteOSD) (size : Int) (fontName : Bytes) : RemoteOSD :=
  o.command "font" [("s", .int size), ("v", .str fontName)]

def globalAlpha (o : RemoteOSD) (alpha : Int) : RemoteOSD :=
  o.command "globalAlpha" [("v", .int alpha)]

end RemoteOSD

/-! ## Calls -/

/-- A call of a drawing method. -/
inductive Call
  | strokeStyle (style : Bytes)
  | lineWidth (w : Int)
  | fillStyle (style : Bytes)
  | fillText (text : Bytes) (x y : Int)
  | rect (x y w h : Int)
  | circle (x y r : Int)
  | fillRect (x y w h : Int)
  | beginPath
  | stroke
  | fill
  | font (size : Int) (fontName : Bytes)
  | globalAlpha (alpha : Int)
  deriving DecidableEq, Repr

namespace Call

def apply (o : RemoteOSD) : Call → RemoteOSD
  | .strokeStyle style => o.strokeStyle style
  | .lineWidth w => o.lineWidth w
  | .fillStyle style => o.fillStyle style
  | .fillText text x y => o.fillText text x y
  | .rect x y w h => o.rect x y w h
  | .circle x y r => o.circle x y r
  | .fillRect x y w h => o.fillRect x y w h
  | .beginPath => o.beginPath
  | .stroke => o.stroke
  | .fill => o.fill
  | .font size fontName => o.font size fontName
  | .globalAlpha alpha => o.globalAlpha alpha

/-- The command a call stands for. -/
def name : Call → String
  | .strokeStyle _ => "strokeStyle"
  | .lineWidth _ => "lineWidth"
  | .fillStyle _ => "fillStyle"
  | .fillText _ _ _ => "fillText"
  | .rect _ _ _ _ => "rect"
  | .circle _ _ _ => "circle"
  | .fillRect _ _ _ _ => "fillRect"
  | .beginPath => "beginPath"
  | .stroke => "stroke"
  | .fill => "fill"
  | .font _ _ => "font"
  | .globalAlpha _ => "globalAlpha"

/-- The arguments of a call, under the keys of the protocol. -/
def args : Call → List (String × Arg)
  | .strokeStyle v | .fillStyle v => [("v", .str v)]
  | .lineWidth v | .globalAlpha v => [("v", .int v)]
  | .fillText v x y => [("v", .str v), ("x", .int x), ("y", .int y)]
  | .rect x y w h | .fillRect x y w h =>
    [("x", .int x), ("y", .int y), ("w", .int w), ("h", .int h)]
  | .circle x y r => [("x", .int x), ("y", .int y), ("r", .int r)]
  | .beginPath | .stroke | .fill => []
  | .font s v => [("s", .int s), ("v", .str v)]

def isCircle : Call → Bool
  | .circle _ _ _ => true
  | _ => false

/-- The string arguments are free of quotes, backslashes and control characters. -/
def Clean (call : Call) : Prop :=
  ∀ key s, (key, Arg.str s) ∈ call.args → ∀ b ∈ s, 0x20 ≤ b ∧ b ≠ quote ∧ b ≠ backslash

end Call

/-- The object after the calls. -/
def run (calls : List Call) : RemoteOSD := calls.foldl Call.apply .new

/-! ## What the text is to say -/

/-- The JSON value of an argument. -/
def Arg.value : Arg → Value
  | .str s => .string s
  | .int n => .number n 0

/-- The object of a call: the name of its command and its arguments. -/
def Call.value (call : Call) : Value :=
  .object ((ascii "c", .string (ascii call.name)) ::
    call.args.map fun arg => (ascii arg.1, arg.2.value))

/-- The JSON value of the calls: in `serial` there is one object per call, in order. -/
def osdValue (calls : List Call) : Value :=
  .object [(ascii "type", .string (ascii "osd")), (ascii "ver", .string (ascii "0.1")),
    (ascii "serial", .array (calls.map Call.value))]

/-! ## Numbers -/

theorem toUInt8_digitChar : ∀ n < 10,
    (Nat.digitChar n).toNat.toUInt8 = UInt8.ofNat (0x30 + n) := by decide

theorem digits_of_lt {n : Nat} (h : n < 10) : digits n = [UInt8.ofNat (0x30 + n)] := by
  rw [digits, Nat.toDigits_of_lt_base h, List.map_singleton, toUInt8_digitChar n h]

theorem digits_of_le {n : Nat} (h : 10 ≤ n) :
    digits n = digits (n / 10) ++ [UInt8.ofNat (0x30 + n % 10)] := by
  rw [digits, Nat.toDigits_of_base_le (by decide) h, List.map_append, List.map_singleton,
    toUInt8_digitChar _ (Nat.mod_lt n (by decide))]
  rfl

theorem natOf_append (t u : Bytes) :
    natOf (t ++ u) = u.foldl (fun n b => 10 * n + (b.toNat - 0x30)) (natOf t) :=
  List.foldl_append

/-- The digits of a number are digits, of that number, and start with a zero only for zero. -/
theorem digits_spec (n : Nat) : IsDigits (digits n) ∧ natOf (digits n) = n ∧
    ((digits n).head? = some 0x30 → n = 0) := by
  induction n using Nat.strongRecOn with
  | ind n ih =>
    have hdigit : ∀ d < 10, 0x30 ≤ UInt8.ofNat (0x30 + d) ∧ UInt8.ofNat (0x30 + d) ≤ 0x39 ∧
        (UInt8.ofNat (0x30 + d)).toNat - 0x30 = d ∧ (UInt8.ofNat (0x30 + d) = 0x30 → d = 0) := by
      decide
    by_cases hlt : n < 10
    · obtain ⟨hlo, hhi, hval, hzero⟩ := hdigit n hlt
      rw [digits_of_lt hlt]
      refine ⟨⟨List.cons_ne_nil _ _, ?_⟩, ?_, fun h => hzero (Option.some.inj h)⟩
      · intro b hb
        rw [List.mem_singleton.1 hb]
        exact ⟨hlo, hhi⟩
      · simpa [natOf] using hval
    · obtain ⟨⟨hne, hall⟩, hnat, hzero⟩ := ih (n / 10) (by omega)
      obtain ⟨hlo, hhi, hval, -⟩ := hdigit (n % 10) (Nat.mod_lt n (by decide))
      rw [digits_of_le (by omega)]
      refine ⟨⟨by simp, ?_⟩, ?_, ?_⟩
      · intro b hb
        rcases List.mem_append.1 hb with hb | hb
        · exact hall b hb
        · rw [List.mem_singleton.1 hb]
          exact ⟨hlo, hhi⟩
      · rw [natOf_append, hnat, List.foldl_cons, List.foldl_nil, hval]
        omega
      · rw [List.head?_append_of_ne_nil _ hne]
        intro h
        have := hzero h
        omega

theorem isUnsigned_digits (n : Nat) : IsUnsigned (digits n) n 0 := by
  obtain ⟨hdigits, hnat, hzero⟩ := digits_spec n
  have h : IsUnsigned (digits n ++ ([] ++ [])) (natOf (digits n ++ [])) (0 - ([] : Bytes).length) :=
    .mk hdigits (fun hhead => by rw [hzero hhead]; rfl) .none .none
  simpa [hnat] using h

theorem isNumber_toString (n : Int) : IsNumber (toString n) n 0 := by
  unfold toString
  split
  · rename_i h
    have hneg := IsNumber.neg (isUnsigned_digits n.natAbs)
    rwa [show (-(n.natAbs : Int)) = n by omega] at hneg
  · have hpos := IsNumber.pos (isUnsigned_digits n.natAbs)
    rwa [show ((n.natAbs : Nat) : Int) = n by omega] at hpos

/-! ## The text of a command -/

/-- A key and its value. -/
def pairText (arg : Bytes × Arg) : Bytes :=
  quote :: (arg.1 ++ quote :: colon :: RemoteOSD.valueText arg.2)

/-- What a drawing method writes behind its comma and before its `endCmd`. -/
def Call.openText (call : Call) : Bytes :=
  leftBrace :: (pairText (ascii "c", .str (ascii call.name)) ++
    call.args.flatMap fun arg => comma :: pairText (ascii arg.1, arg.2))

/-- The comma of `startCmd`. -/
def separator (cmdCount : Int) : Bytes := if 0 < cmdCount then [comma] else []

theorem buf_foldl_addValue {o : RemoteOSD} (h : 0 < o.keyCount) (args : List (String × Arg)) :
    (args.foldl (fun o arg => o.addValue (ascii arg.1) arg.2) o).buf =
      o.buf ++ args.flatMap fun arg => comma :: pairText (ascii arg.1, arg.2) := by
  induction args generalizing o with
  | nil => simp
  | cons arg args ih =>
    have hnext : 0 < (o.addValue (ascii arg.1) arg.2).keyCount := by
      show 0 < o.keyCount + 1
      omega
    rw [List.foldl_cons, ih hnext, RemoteOSD.addValue, if_pos h, List.flatMap_cons]
    simp [pairText]

theorem cmdCount_foldl_addValue (o : RemoteOSD) (args : List (String × Arg)) :
    (args.foldl (fun o arg => o.addValue (ascii arg.1) arg.2) o).cmdCount = o.cmdCount := by
  induction args generalizing o with
  | nil => rfl
  | cons arg args ih => exact ih _

theorem buf_openCommand (o : RemoteOSD) (call : Call) :
    (o.openCommand call.name call.args).buf =
      o.buf ++ (separator o.cmdCount ++ call.openText) := by
  rw [RemoteOSD.openCommand, buf_foldl_addValue (show (0 : Int) < 0 + 1 by decide)]
  by_cases h : 0 < o.cmdCount
  · simp [RemoteOSD.addValue, RemoteOSD.startCmd, separator, h, Call.openText, pairText]
  · simp [RemoteOSD.addValue, RemoteOSD.startCmd, separator, h, Call.openText, pairText]

/-- **What a call writes.** -/
theorem buf_apply (o : RemoteOSD) (call : Call) :
    (call.apply o).buf = o.buf ++ (separator o.cmdCount ++
      (call.openText ++ if call.isCircle then [] else [rightBrace])) := by
  have hopen := buf_openCommand o call
  have hcommand : (o.command call.name call.args).buf =
      o.buf ++ (separator o.cmdCount ++ (call.openText ++ [rightBrace])) := by
    rw [RemoteOSD.command, RemoteOSD.endCmd, hopen]
    simp
  cases call with
  | circle x y r => rwa [Call.isCircle, if_pos rfl, List.append_nil]
  | _ => exact hcommand

theorem cmdCount_apply (o : RemoteOSD) (call : Call) :
    (call.apply o).cmdCount = wrap32 (o.cmdCount + 1) := by
  have hopen : (o.openCommand call.name call.args).cmdCount = wrap32 (o.cmdCount + 1) :=
    cmdCount_foldl_addValue _ _
  cases call <;> exact hopen

/-! ## A command is an object -/

/-- The strings that the methods write themselves. -/
def words : List String :=
  ["strokeStyle", "lineWidth", "fillStyle", "fillText", "rect", "circle", "fillRect", "beginPath",
    "stroke", "fill", "font", "globalAlpha", "c", "v", "x", "y", "w", "h", "r", "s", "type", "osd",
    "ver", "0.1", "serial"]

theorem isChars_word {word : String} (h : word ∈ words) : IsChars (ascii word) (ascii word) := by
  have hall : ∀ word ∈ words, ∀ b ∈ ascii word, 0x20 ≤ b ∧ b ≠ quote ∧ b ≠ backslash := by
    decide +kernel
  exact isChars_self (hall word h)

theorem Call.name_word (call : Call) : call.name ∈ words := by
  cases call <;> simp [Call.name, words]

theorem Call.args_word (call : Call) : ∀ arg ∈ call.args, arg.1 ∈ words := by
  cases call <;> simp [Call.args, words]

theorem Arg.derives {arg : Arg}
    (h : ∀ s, arg = .str s → ∀ b ∈ s, 0x20 ≤ b ∧ b ≠ quote ∧ b ≠ backslash) :
    Derives (.value arg.value) (RemoteOSD.valueText arg) := by
  cases arg with
  | str s => exact .string (isChars_self (h s rfl))
  | int n => exact .number (isNumber_toString n)

theorem derives_pair {key : String} {arg : Arg} (hkey : key ∈ words)
    (harg : Derives (.value arg.value) (RemoteOSD.valueText arg)) :
    Derives (.members [(ascii key, arg.value)]) (pairText (ascii key, arg)) :=
  .lastMember blank_nil (isChars_word hkey) blank_nil harg.to_element

theorem derives_word {key word : String} (hkey : key ∈ words) (hword : word ∈ words) :
    Derives (.members [(ascii key, .string (ascii word))])
      (pairText (ascii key, .str (ascii word))) :=
  @derives_pair key (.str (ascii word)) hkey (.string (isChars_word hword))

/-- The values of a command are the members of its object. -/
theorem derives_pairs {key : String} {arg : Arg} {args : List (String × Arg)} (hkey : key ∈ words)
    (hargs : ∀ arg ∈ args, arg.1 ∈ words)
    (harg : Derives (.value arg.value) (RemoteOSD.valueText arg))
    (hvalues : ∀ arg ∈ args, Derives (.value arg.2.value) (RemoteOSD.valueText arg.2)) :
    Derives (.members ((ascii key, arg.value) :: args.map fun arg => (ascii arg.1, arg.2.value)))
      (pairText (ascii key, arg) ++
        args.flatMap fun arg => comma :: pairText (ascii arg.1, arg.2)) := by
  induction args generalizing key arg with
  | nil =>
    rw [List.flatMap_nil, List.append_nil]
    exact derives_pair hkey harg
  | cons next args ih =>
    rw [List.flatMap_cons, List.map_cons, List.cons_append]
    exact .members (derives_pair hkey harg) (ih (hargs next List.mem_cons_self)
      (fun arg h => hargs arg (List.mem_cons_of_mem _ h)) (hvalues next List.mem_cons_self)
      fun arg h => hvalues arg (List.mem_cons_of_mem _ h))

/-- **An ended command is the object of its call.** -/
theorem Call.derives {call : Call} (h : call.Clean) :
    Derives (.value call.value) (call.openText ++ [rightBrace]) := by
  apply Derives.object
  apply @derives_pairs "c" (.str (ascii call.name)) _ (by decide) call.args_word
  · exact .string (isChars_word call.name_word)
  · intro arg harg
    exact Arg.derives fun s hs => h arg.1 s (hs ▸ harg)

/-! ## Runs -/

theorem run_append (calls : List Call) (call : Call) :
    run (calls ++ [call]) = call.apply (run calls) := by
  rw [run, List.foldl_append]
  rfl

theorem cmdCount_run (calls : List Call) : (run calls).cmdCount = wrap32 calls.length := by
  induction calls using List.reverseRecOn with
  | nil => rfl
  | append_singleton calls call ih =>
    rw [run_append, cmdCount_apply, ih, wrap32, wrap32, Int.bmod_add_bmod, List.length_append]
    rfl

theorem head_eq : RemoteOSD.head =
    leftBrace :: (pairText (ascii "type", .str (ascii "osd")) ++
      comma :: ([0x20] ++ pairText (ascii "ver", .str (ascii "0.1")) ++
        comma :: (quote :: (ascii "serial" ++ quote :: ([] ++ [colon, leftBracket]))))) := by
  decide +kernel

/-- The text is one of the values, if the commands are the elements of the array. -/
theorem isText_of_serial {calls : List Call} {t : Bytes}
    (h : Derives (.value (.array (calls.map Call.value))) (leftBracket :: (t ++ [rightBracket]))) :
    IsText (osdValue calls) (RemoteOSD.head ++ (t ++ [rightBracket, rightBrace])) := by
  have htype : Derives (.members [(ascii "type", .string (ascii "osd"))])
      (pairText (ascii "type", .str (ascii "osd"))) := derives_word (by decide) (by decide)
  have hver : Derives (.members [(ascii "ver", .string (ascii "0.1"))])
      ([0x20] ++ pairText (ascii "ver", .str (ascii "0.1"))) :=
    .lastMember (by simp [Blank]) (isChars_word (by decide)) blank_nil
      (.to_element (.string (isChars_word (by decide))))
  have hserial : Derives (.members [(ascii "serial", .array (calls.map Call.value))])
      (quote :: (ascii "serial" ++ quote ::
        ([] ++ colon :: leftBracket :: (t ++ [rightBracket])))) :=
    .lastMember blank_nil (isChars_word (by decide)) blank_nil h.to_element
  have hobject := Derives.to_element (.object (.members htype (.members hver hserial)))
  rw [head_eq]
  simpa [osdValue, IsText] using hobject

/-- **Without a circle the commands are the elements of the array**, by induction on the calls from
the last one back. -/
theorem derives_run {calls : List Call} (hclean : ∀ call ∈ calls, call.Clean)
    (hcircle : ∀ call ∈ calls, call.isCircle = false) (hlen : calls.length ≤ 2 ^ 31)
    (hne : calls ≠ []) :
    ∃ t, (run calls).buf = RemoteOSD.head ++ t ∧ Derives (.elements (calls.map Call.value)) t := by
  induction calls using List.reverseRecOn with
  | nil => exact absurd rfl hne
  | append_singleton calls call ih =>
    have hmem : call ∈ calls ++ [call] := List.mem_append_right _ List.mem_cons_self
    have hvalue := (Call.derives (hclean call hmem)).to_element
    rw [run_append, buf_apply, cmdCount_run, hcircle call hmem, List.map_append, List.map_singleton]
    rw [List.length_append, List.length_singleton] at hlen
    by_cases hnil : calls = []
    · subst hnil
      exact ⟨call.openText ++ [rightBrace], rfl, .lastElement hvalue⟩
    · obtain ⟨t, hbuf, ht⟩ := ih (fun c hc => hclean c (List.mem_append_left _ hc))
        (fun c hc => hcircle c (List.mem_append_left _ hc)) (by omega) hnil
      have hpos := List.length_pos_of_ne_nil hnil
      have hcount : wrap32 calls.length = calls.length := wrap32_of_range (by omega) (by omega)
      refine ⟨t ++ comma :: (call.openText ++ [rightBrace]), ?_, ht.snoc hvalue⟩
      rw [hbuf, separator, hcount, if_pos (by omega)]
      simp

/-! ## What a circle and a wrapped counter leave out -/

/-- The number of commands that start without the comma they need. -/
def missing : Nat → Nat
  | 0 => 0
  | n + 1 => missing n + if 0 < n ∧ ¬ 0 < wrap32 n then 1 else 0

theorem missing_pos {k n : Nat} (hk : 0 < k) (hkn : k < n) (hwrap : ¬ 0 < wrap32 k) :
    0 < missing n := by
  induction n with
  | zero => omega
  | succ n ih =>
    rw [missing]
    rcases Nat.lt_succ_iff_lt_or_eq.1 hkn with hlt | rfl
    · exact Nat.add_pos_left (ih hlt) _
    · rw [if_pos ⟨hk, hwrap⟩]
      exact Nat.succ_pos _

theorem Call.has {call : Call} (h : call.Clean) {x : UInt8} (hx : IsStructural x) :
    Has x (call.openText ++ if call.isCircle then [] else [rightBrace])
      (call.value.tally x - if call.isCircle ∧ rightBrace = x then 1 else 0) := by
  have hended : Has x (call.openText ++ [rightBrace]) (call.value.tally x) :=
    (Call.derives h).has hx
  cases call.isCircle with
  | false => simpa using hended
  | true => simpa using hended.of_snoc (by decide)

theorem Call.tally_pos (call : Call) : 0 < call.value.tally rightBrace := by
  rw [Call.value, Value.tally, if_pos rfl]
  omega

/-- The commands that are not ended. -/
def circles (calls : List Call) : Nat := calls.countP Call.isCircle

/-- What a call adds to the commas and braces, against what its object calls for. -/
theorem has_step {calls : List Call} (call : Call) {x : UInt8} {m l : Nat}
    (heq : m + ((if rightBrace = x then circles calls else 0) +
      if comma = x then missing calls.length else 0) = l + elementsTally x (calls.map Call.value)) :
    m + ((if 0 < wrap32 calls.length ∧ comma = x then 1 else 0) +
        (call.value.tally x - if call.isCircle ∧ rightBrace = x then 1 else 0)) +
      ((if rightBrace = x then circles (calls ++ [call]) else 0) +
        if comma = x then missing (calls ++ [call]).length else 0) =
      l + elementsTally x ((calls ++ [call]).map Call.value) := by
  have hsnoc := elementsTally_snoc x (calls.map Call.value) call.value
  have hcircles : circles (calls ++ [call]) = circles calls + if call.isCircle then 1 else 0 := by
    rw [circles, List.countP_append, List.countP_singleton]
    rfl
  have hpos := call.tally_pos
  rw [List.map_append, List.map_singleton, hsnoc, hcircles, List.length_append,
    List.length_singleton, missing, List.isEmpty_map]
  by_cases hbrace : rightBrace = x
  · have hcomma : comma ≠ x := by
      rw [← hbrace]
      decide
    rw [hbrace] at hpos
    clear hsnoc
    cases call.isCircle <;>
      simp only [hbrace, hcomma, if_true, if_false, and_false, and_true, ite_self,
        Bool.false_eq_true] at heq ⊢ <;> omega
  · by_cases hcomma : comma = x
    · simp only [hbrace, hcomma, if_true, if_false, and_false, and_true] at heq ⊢
      cases calls with
      | nil => simp [missing, wrap32] at heq ⊢; omega
      | cons c calls =>
        have hlen : 0 < (c :: calls).length := Nat.succ_pos _
        by_cases hwrap : 0 < wrap32 (c :: calls).length <;>
          simp only [hlen, hwrap, List.isEmpty_cons, if_true, if_false, true_and, not_true,
            not_false_iff, Bool.false_eq_true] <;> omega
    · simp only [hbrace, hcomma, if_false, and_false, ite_self] at heq ⊢
      omega

/-- **Braces and commas of the text**, against those its value calls for. -/
theorem has_run {calls : List Call} (h : ∀ call ∈ calls, call.Clean) {x : UInt8}
    (hx : IsStructural x) :
    ∃ m, Has x (run calls).buf m ∧
      m + ((if rightBrace = x then circles calls else 0) +
        if comma = x then missing calls.length else 0) =
        (skeleton RemoteOSD.head).count x + elementsTally x (calls.map Call.value) := by
  induction calls using List.reverseRecOn with
  | nil =>
    have hclosed : Closed (run []).buf := by
      show Scan.after .outside RemoteOSD.head = .outside
      decide +kernel
    refine ⟨_, ⟨hclosed, rfl⟩, ?_⟩
    simp [circles, missing, run, RemoteOSD.new, elementsTally]
  | append_singleton calls call ih =>
    obtain ⟨m, hm, heq⟩ := ih fun c hc => h c (List.mem_append_left _ hc)
    have hcall := Call.has (h call (List.mem_append_right _ List.mem_cons_self)) hx
    have hsep : Has x (separator (wrap32 calls.length))
        (if 0 < wrap32 calls.length ∧ comma = x then 1 else 0) := by
      unfold separator
      split
      · simpa [*] using Has.byte (x := x) (by decide : comma ≠ quote)
      · simpa [*] using Has.plain hx isPlain_nil
    refine ⟨_, ?_, has_step call heq⟩
    rw [run_append, buf_apply, cmdCount_run]
    exact hm.append (hsep.append hcall)

theorem has_getJson {calls : List Call} {x : UInt8} {m : Nat} (h : Has x (run calls).buf m) :
    Has x (run calls).getJson
      (m + ((if rightBracket = x then 1 else 0) + if rightBrace = x then 1 else 0)) :=
  h.append (Has.cons (by decide) (Has.byte (by decide)))

theorem circles_eq_zero {calls : List Call} :
    circles calls = 0 ↔ ∀ call ∈ calls, call.isCircle = false := by
  simp [circles, List.countP_eq_zero]

/-- **After a circle the text is no JSON text**: a brace is not closed. -/
theorem not_isText_of_circle {calls : List Call} (h : ∀ call ∈ calls, call.Clean) {call : Call}
    (hmem : call ∈ calls) (hcircle : call.isCircle = true) (v : Value) :
    ¬ IsText v (run calls).getJson := by
  intro htext
  obtain ⟨m, hm, heq⟩ := has_run h (by decide : IsStructural leftBrace)
  obtain ⟨m', hm', heq'⟩ := has_run h (by decide : IsStructural rightBrace)
  have hbalanced := htext.balanced
  rw [(has_getJson hm).count, (has_getJson hm').count] at hbalanced
  have hopening : (skeleton RemoteOSD.head).count leftBrace = 1 := by decide +kernel
  have hclosing : (skeleton RemoteOSD.head).count rightBrace = 0 := by decide +kernel
  have hsame := elementsTally_braces (calls.map Call.value)
  have hne : rightBrace ≠ leftBrace ∧ rightBracket ≠ leftBrace ∧ rightBracket ≠ rightBrace ∧
      comma ≠ leftBrace ∧ comma ≠ rightBrace := by decide
  have hzero : circles calls = 0 := by
    simp [hopening, hclosing, hsame, hne] at hbalanced heq heq'
    omega
  rw [circles_eq_zero.1 hzero call hmem] at hcircle
  cases hcircle

/-- **The text says what was called exactly if no circle was**, and the counter of commands has not
wrapped: it is a JSON text of an object whose `serial` has one object per call, in order, with the
name of its command and its arguments. -/
theorem getJson_isText_iff {calls : List Call} (h : ∀ call ∈ calls, call.Clean) :
    IsText (osdValue calls) (run calls).getJson ↔
      (∀ call ∈ calls, call.isCircle = false) ∧ calls.length ≤ 2 ^ 31 := by
  refine ⟨?_, ?_⟩
  · intro htext
    refine ⟨?_, ?_⟩
    · intro call hmem
      by_contra hcircle
      exact not_isText_of_circle h hmem (by simpa using hcircle) _ htext
    · obtain ⟨m, hm, heq⟩ := has_run h (by decide : IsStructural comma)
      have hcount := (Derives.has htext (by decide : IsStructural comma)).count
      rw [(has_getJson hm).count] at hcount
      have hhead : (skeleton RemoteOSD.head).count comma = 2 := by decide +kernel
      have hmissing : missing calls.length = 0 := by
        simp [hhead, osdValue, Phrase.tally, Value.tally, membersTally] at hcount heq
        omega
      by_contra hlong
      have hwrap : ¬ 0 < wrap32 (2 ^ 31 : Nat) := by decide
      have hpos := missing_pos (by omega) (Nat.lt_of_not_le hlong) hwrap
      omega
  · rintro ⟨hcircle, hlen⟩
    by_cases hnil : calls = []
    · subst hnil
      exact @isText_of_serial [] [] (.emptyArray blank_nil)
    · obtain ⟨t, hbuf, ht⟩ := derives_run h hcircle hlen hnil
      rw [RemoteOSD.getJson, hbuf, List.append_assoc]
      exact isText_of_serial (.array ht)

/-- A label in a frame. -/
theorem getJson_isText_label :
    IsText (osdValue [.rect 10 (-20) 300 400, .fillText (ascii "front") 12 (-18), .stroke])
      (run [.rect 10 (-20) 300 400, .fillText (ascii "front") 12 (-18), .stroke]).getJson := by
  refine (getJson_isText_iff ?_).2 (by decide)
  simp only [List.mem_cons, List.not_mem_nil, or_false, forall_eq_or_imp, forall_eq]
  refine ⟨?_, ?_, ?_⟩ <;> simp [Call.Clean, Call.args]
  decide +kernel

/-- A circle: its command is not ended, and no value has the text. -/
theorem getJson_circle :
    (∀ call ∈ [Call.circle 10 20 5], call.Clean) ∧
      (run [.circle 10 20 5]).getJson =
        leftBrace :: (ascii "\"type\":\"osd\", \"ver\":\"0.1\",\"serial\":[" ++
          leftBrace :: (ascii "\"c\":\"circle\",\"x\":10,\"y\":20,\"r\":5]" ++ [rightBrace])) ∧
      ∀ v, ¬ IsText v (run [.circle 10 20 5]).getJson := by
  have hclean : ∀ call ∈ [Call.circle 10 20 5], call.Clean := by
    simp [Call.Clean, Call.args]
  refine ⟨hclean, by decide +kernel, ?_⟩
  intro v
  exact not_isText_of_circle hclean List.mem_cons_self rfl v

end Osd
