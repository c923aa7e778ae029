import CarplayRelay.CJson.Tokens

/-!
# JSON texts are parsed

A JSON text is parsed to an item of its value exactly if it is nested no deeper than
`nestingLimit`, as long as none of its numbers is longer than the buffer of `parse_number`.

* `Item.Is`: an item stands for a value.
* `Parses`: what the parser does on a text of a phrase, at any place of a buffer.
* `parses_of_derives`: by induction on the derivation.
* `cJSONParse_isText`: the whole text.
-/

namespace CJson

open Bytes Json

/-! ## Items and values -/

mutual

/-- An item stands for a value: a number is the `double` of one of its texts, with the saturated
`int` of it. -/
inductive Item.Is {double : Type} (fp : Doubles double) : Item double → Value → Prop
  | null : Item.Is fp .null .null
  | bool (b : Bool) : Item.Is fp (.bool b) (.bool b)
  | number {text : Bytes} {m e : Int} (h : IsNumber text m e) :
      Item.Is fp (numberItem fp text) (.number m e)
  | string (s : Bytes) : Item.Is fp (.string s) (.string s)
  | array {child : List (Item double)} {vs : List Value} (h : ItemsAre fp child vs) :
      Item.Is fp (.array child) (.array vs)
  | object {child : List (Bytes × Item double)} {ms : List (Bytes × Value)}
      (h : MembersAre fp child ms) : Item.Is fp (.object child) (.object ms)

inductive ItemsAre {double : Type} (fp : Doubles double) : List (Item double) → List Value → Prop
  | nil : ItemsAre fp [] []
  | cons {item : Item double} {v : Value} {items : List (Item double)} {vs : List Value}
      (h : item.Is fp v) (h' : ItemsAre fp items vs) : ItemsAre fp (item :: items) (v :: vs)

inductive MembersAre {double : Type} (fp : Doubles double) :
    List (Bytes × Item double) → List (Bytes × Value) → Prop
  | nil : MembersAre fp [] []
  | cons {k : Bytes} {item : Item double} {v : Value} {members : List (Bytes × Item double)}
      {ms : List (Bytes × Value)} (h : item.Is fp v) (h' : MembersAre fp members ms) :
      MembersAre fp ((k, item) :: members) ((k, v) :: ms)

end

/-! ## Outcomes -/

/-- The value is as `P` says if it `fits`, and a failure otherwise. -/
structure Result.Gives {α : Type} (r : Result α) (fits : Prop) (offset : Nat) (P : α → Prop) :
    Prop where
  ok : fits → ∃ a, r = .ok a offset ∧ P a
  fail : ¬ fits → ∃ o, r = .fail o

section
variable {α β : Type} {r : Result α} {fits fits' : Prop} {offset offset' : Nat} {P : α → Prop}

theorem Result.Gives.of_ok {a : α} (hr : r = .ok a offset) (hfits : fits) (ha : P a) :
    r.Gives fits offset P :=
  ⟨fun _ => ⟨a, hr, ha⟩, fun h => absurd hfits h⟩

theorem Result.Gives.bind {f : α → Nat → Result β} {Q : β → Prop} (h : r.Gives fits offset P)
    (hf : ∀ a, P a → (f a offset).Gives fits' offset' Q) :
    (r.bind f).Gives (fits ∧ fits') offset' Q := by
  by_cases hfits : fits
  · obtain ⟨a, rfl, ha⟩ := h.ok hfits
    exact ⟨fun h => (hf a ha).ok h.2, fun h => (hf a ha).fail fun h' => h ⟨hfits, h'⟩⟩
  · obtain ⟨o, rfl⟩ := h.fail hfits
    exact ⟨fun h => absurd h.1 hfits, fun _ => ⟨o, rfl⟩⟩

theorem Result.Gives.map {f : α → β} {Q : β → Prop} (h : r.Gives fits offset P)
    (hf : ∀ a, P a → Q (f a)) : (r.map f).Gives fits offset Q := by
  refine ⟨fun hfits => ?_, fun hfits => ?_⟩
  · obtain ⟨a, rfl, ha⟩ := h.ok hfits
    exact ⟨f a, rfl, hf a ha⟩
  · obtain ⟨o, rfl⟩ := h.fail hfits
    exact ⟨o, rfl⟩

theorem Result.Gives.congr (h : r.Gives fits offset P) (hfits : fits ↔ fits') :
    r.Gives fits' offset P :=
  ⟨fun h' => h.ok (hfits.2 h'), fun h' => h.fail fun h'' => h' (hfits.1 h'')⟩

end

/-! ## Whitespace -/

section
variable {content before t rest : Bytes} {c : UInt8} {offset : Nat}

/-- Whitespace is skipped up to the character behind it. -/
theorem skip_blank (hbefore : Blank before) (hc : 0x20 < c)
    (hdrop : content.drop offset = before ++ c :: rest) :
    bufferSkipWhitespace content offset = offset + before.length := by
  have hlen := congrArg List.length hdrop
  rw [List.length_drop, List.length_append, List.length_cons] at hlen
  have hrun : (content.drop offset).takeWhile (fun b => decide (b ≤ 32)) = before := by
    rw [hdrop]
    apply takeWhile_run
    · intro b hb
      rcases hbefore b hb with rfl | rfl | rfl | rfl <;> decide
    · intro b hb
      cases hb
      exact decide_eq_false (UInt8.not_le.2 hc)
  rw [bufferSkipWhitespace, if_neg (by omega), hrun]
  exact if_neg (by omega)

theorem getElem?_of_cons (hdrop : content.drop offset = c :: rest) : content[offset]? = some c :=
  getElem?_of_drop hdrop 0

theorem skip_none (hc : 0x20 < c) (hdrop : content.drop offset = c :: rest) :
    bufferSkipWhitespace content offset = offset :=
  skip_blank blank_nil hc hdrop

end

/-! ## Elements and members -/

/-- The characters behind an element. -/
def Ends (c : UInt8) : Prop := c = comma ∨ c = rightBracket ∨ c = rightBrace

theorem Ends.blank_lt {c : UInt8} (h : Ends c) : 0x20 < c := by
  rcases h with rfl | rfl | rfl <;> decide

theorem Ends.not_isNumberChar {c : UInt8} (h : Ends c) : isNumberChar c = false := by
  rcases h with rfl | rfl | rfl <;> decide

/-- The text is parsed as one element, with the whitespace around it. -/
def ParsesOne {α : Type} (content : Bytes) (element : Nat → Result α) (fits : Prop)
    (P : α → Prop) (t : Bytes) : Prop :=
  ∀ offset c rest, content.drop offset = t ++ c :: rest → Ends c →
    ∃ o, (element (bufferSkipWhitespace content offset)).Gives fits o P ∧
      bufferSkipWhitespace content o = offset + t.length

/-- What the loop goes on with behind an element. -/
def goOn {α : Type} (content : Bytes) (element : Nat → Result α) (c : UInt8) (turns offset : Nat)
    (items : List α) : Result (List α) :=
  if c = comma then parseElements content element turns offset items else .ok items offset

/-- The text is parsed as the elements of a list, and the loop goes on behind it. -/
def ParsesAll {α : Type} (content : Bytes) (element : Nat → Result α) (fits : Prop)
    (P : List α → Prop) (t : Bytes) : Prop :=
  ∀ offset c rest turns items fits' offset' Q, content.drop (offset + 1) = t ++ c :: rest →
    Ends c → content.length ≤ offset + turns →
    (∀ items' turns', P items' → content.length ≤ offset + 1 + t.length + turns' →
      (goOn content element c turns' (offset + 1 + t.length) (items ++ items')).Gives
        fits' offset' Q) →
    (parseElements content element turns offset items).Gives (fits ∧ fits') offset' Q

section
variable {α : Type} {content t t' : Bytes} {element : Nat → Result α} {fits fits' : Prop}

theorem lt_length_of_drop {offset : Nat} {c : UInt8} {rest : Bytes}
    (hdrop : content.drop offset = t ++ c :: rest) : offset + t.length < content.length := by
  have hlen := congrArg List.length hdrop
  rw [List.length_drop, List.length_append, List.length_cons] at hlen
  omega

/-- One turn of the loop. -/
theorem ParsesOne.all {P : α → Prop} (h : ParsesOne content element fits P t) :
    ParsesAll content element fits (fun items => ∃ a, items = [a] ∧ P a) t := by
  intro offset c rest turns items fits' offset' Q hdrop hc hturns hgoOn
  have hlt := lt_length_of_drop hdrop
  obtain ⟨turns, rfl⟩ := Nat.exists_eq_add_one_of_ne_zero (by omega : turns ≠ 0)
  obtain ⟨o, hgives, hskip⟩ := h (offset + 1) c rest hdrop hc
  rw [parseElements]
  refine hgives.bind fun a ha => ?_
  dsimp only
  rw [hskip, getElem?_of_cons (drop_add hdrop)]
  have hgoOn := hgoOn [a] turns ⟨a, rfl, ha⟩ (by omega)
  unfold goOn at hgoOn
  simp only [Option.some.injEq]
  exact hgoOn

/-- An element, a comma and the others. -/
theorem ParsesAll.append {P P' Q : List α → Prop} (h : ParsesAll content element fits P t)
    (h' : ParsesAll content element fits' P' t')
    (hQ : ∀ items items', P items → P' items' → Q (items ++ items')) :
    ParsesAll content element (fits ∧ fits') Q (t ++ comma :: t') := by
  intro offset c rest turns items fits'' offset' Q' hdrop hc hturns hgoOn
  rw [List.append_assoc, List.cons_append] at hdrop
  refine Result.Gives.congr (h offset comma (t' ++ c :: rest) turns items (fits' ∧ fits'') offset'
    Q' hdrop (.inl rfl) hturns ?_) and_assoc.symm
  intro items' turns' hitems' hturns'
  rw [goOn, if_pos rfl]
  refine h' (offset + 1 + t.length) c rest turns' (items ++ items') fits'' offset' Q'
    (drop_cons (drop_add hdrop)) hc hturns' ?_
  intro items'' turns'' hitems'' hturns''
  have hlen : offset + 1 + (t ++ comma :: t').length = offset + 1 + t.length + 1 + t'.length := by
    rw [List.length_append, List.length_cons]
    omega
  have hgoOn := hgoOn (items' ++ items'') turns'' (hQ _ _ hitems' hitems'') (by omega)
  rwa [hlen, ← List.append_assoc] at hgoOn

theorem ParsesAll.mono {P Q : List α → Prop} (h : ParsesAll content element fits P t)
    (hfits : fits ↔ fits') (hQ : ∀ items, P items → Q items) :
    ParsesAll content element fits' Q t := by
  intro offset c rest turns items fits'' offset' Q' hdrop hc hturns hgoOn
  refine (h offset c rest turns items fits'' offset' Q' hdrop hc hturns ?_).congr
    (and_congr_left' hfits)
  intro items' turns' hitems'
  exact hgoOn items' turns' (hQ items' hitems')

theorem parseElements_skip {turns offset offset' : Nat} {items : List α}
    (h : bufferSkipWhitespace content (offset + 1) = bufferSkipWhitespace content (offset' + 1)) :
    parseElements content element turns offset items =
      parseElements content element turns offset' items := by
  cases turns with
  | zero => rfl
  | succ turns => rw [parseElements, parseElements, h]

/-- The characters that a value may start with: they are no whitespace and close nothing. -/
def IsFirst (c : UInt8) : Prop := 0x20 < c ∧ c ≠ rightBracket ∧ c ≠ rightBrace ∧ c ≠ 0xef

instance (c : UInt8) : Decidable (IsFirst c) := inferInstanceAs (Decidable (_ ∧ _ ∧ _ ∧ _))

theorem isFirst_number {c : UInt8} (h : c = 0x2d ∨ 0x30 ≤ c ∧ c ≤ 0x39) : IsFirst c := by
  rcases h with rfl | ⟨hlo, hhi⟩
  · decide
  · refine ⟨UInt8.lt_of_lt_of_le (by decide) hlo, ?_, ?_, ?_⟩ <;> rintro rfl <;>
      exact absurd hhi (by decide)

/-- Behind whitespace the text starts as a value does. -/
def Starts (t : Bytes) : Prop :=
  ∃ before c inside, Blank before ∧ t = before ++ c :: inside ∧ IsFirst c

theorem Starts.append (h : Starts t) (u : Bytes) : Starts (t ++ u) := by
  obtain ⟨before, c, inside, hbefore, rfl, hfirst⟩ := h
  exact ⟨before, c, inside ++ u, hbefore, by rw [List.append_assoc, List.cons_append], hfirst⟩

/-- An array or an object with its brackets. -/
theorem ParsesAll.container {P : List α → Prop} (h : ParsesAll content element fits P t)
    (hstarts : Starts t) {opening closing : UInt8} {rest : Bytes} {offset : Nat}
    (hclosing : closing = rightBracket ∨ closing = rightBrace)
    (hdrop : content.drop offset = opening :: (t ++ closing :: rest)) :
    (parseContainer content closing element offset).Gives fits (offset + (t.length + 2)) P := by
  obtain ⟨before, c, inside, hbefore, ht, hc, hbracket, hbrace, -⟩ := hstarts
  have hinside := drop_cons hdrop
  have hinside' : content.drop (offset + 1) = before ++ c :: (inside ++ closing :: rest) := by
    rw [hinside, ht, List.append_assoc, List.cons_append]
  have hskip := skip_blank hbefore hc hinside'
  have hfirst := drop_add hinside'
  have hlt := lt_length_of_drop hinside'
  have hne : some c ≠ some closing := by
    rcases hclosing with rfl | rfl
    · exact fun heq => hbracket (Option.some.inj heq)
    · exact fun heq => hbrace (Option.some.inj heq)
  have hagain : bufferSkipWhitespace content (offset + 1 + before.length - 1 + 1) =
      bufferSkipWhitespace content (offset + 1) := by
    rw [hskip, Nat.sub_add_cancel (by omega)]
    exact skip_none hc hfirst
  rw [parseContainer, hskip, getElem?_of_cons hfirst, if_neg hne, if_neg (by omega),
    parseElements_skip hagain]
  have hends : Ends closing := .inr hclosing
  have hcomma : closing ≠ comma := by rcases hclosing with rfl | rfl <;> decide
  have hgives : (parseElements content element content.length offset []).Gives (fits ∧ True)
      (offset + 1 + t.length) P := by
    refine h offset closing rest content.length [] True (offset + 1 + t.length) P hinside hends
      (by omega) ?_
    intro items turns hitems _
    rw [goOn, if_neg hcomma, List.nil_append]
    exact .of_ok rfl trivial hitems
  refine ((hgives.congr (iff_of_eq (and_true fits))).bind ?_).congr (iff_of_eq (and_true fits))
  intro items hitems
  rw [getElem?_of_cons (drop_add hinside), if_pos rfl]
  exact .of_ok (congrArg (Result.ok items) (by omega)) trivial hitems

theorem parseContainer_empty {opening closing : UInt8} {rest : Bytes} {offset : Nat}
    (ht : Blank t) (hclosing : closing = rightBracket ∨ closing = rightBrace)
    (hdrop : content.drop offset = opening :: (t ++ closing :: rest)) :
    parseContainer content closing element offset = .ok [] (offset + (t.length + 2)) := by
  have hinside := drop_cons hdrop
  have hblank : 0x20 < closing := by rcases hclosing with rfl | rfl <;> decide
  rw [parseContainer, skip_blank ht hblank hinside, getElem?_of_cons (drop_add hinside), if_pos rfl]
  exact congrArg (Result.ok []) (by omega)

end

/-! ## Values -/

section
variable {double : Type} {fp : Doubles double} {content t rest : Bytes} {c : UInt8}
  {levels offset : Nat}

theorem hasLiteral_append (word : String) (h : content.drop offset = ascii word ++ rest) :
    hasLiteral content offset word = true := by
  rw [hasLiteral, h, List.isPrefixOf_iff_prefix]
  exact List.prefix_append _ _

theorem hasLiteral_head {word : String} {w : UInt8} (hword : (ascii word).head? = some w)
    (h : content.drop offset = c :: rest) (hc : c ≠ w) :
    hasLiteral content offset word = false := by
  rw [hasLiteral, h]
  obtain ⟨t, ht⟩ : ∃ t, ascii word = w :: t := List.head?_eq_some_iff.1 hword
  rw [ht, List.isPrefixOf_cons_cons, beq_false_of_ne hc.symm, Bool.false_and]

/-- A value that is none of the three literals, by its first character. -/
theorem parseValue_head (h : content.drop offset = c :: rest)
    (hc : c ≠ 0x6e ∧ c ≠ 0x66 ∧ c ≠ 0x74) :
    parseValue fp content levels offset =
      if c = quote then (parseString content offset).map .string
      else if c = 0x2d ∨ isDigit c then parseNumber fp content offset
      else if c = leftBracket then
        match levels with
        | 0 => .fail offset
        | levels + 1 =>
          (parseContainer content rightBracket (parseValue fp content levels) offset).map .array
      else if c = leftBrace then
        match levels with
        | 0 => .fail offset
        | levels + 1 =>
          (parseContainer content rightBrace (parseMember content (parseValue fp content levels))
            offset).map .object
      else .fail offset := by
  obtain ⟨hn, hf, ht⟩ := hc
  have hhead := getElem?_of_cons h
  rw [parseValue.eq_def, hasLiteral_head (w := 0x6e) rfl h hn, hasLiteral_head (w := 0x66) rfl h hf,
    hasLiteral_head (w := 0x74) rfl h ht, hhead]
  simp only [Bool.false_eq_true, if_false]
  split_ifs with hquote hnumber hbracket hbrace
  · rfl
  · rfl
  · cases levels with
    | zero => rfl
    | succ levels => simp [parseArray, hhead, hbracket]
  · cases levels with
    | zero => rfl
    | succ levels => simp [parseObject, hhead, hbrace]
  · rfl

/-- The text is parsed as a value, whatever stands behind it. -/
def ParsesValue (fp : Doubles double) (content : Bytes) (levels : Nat) (v : Value) (t : Bytes) :
    Prop :=
  ∀ offset rest, content.drop offset = t ++ rest →
    (∀ b, rest.head? = some b → isNumberChar b = false) →
    (parseValue fp content levels offset).Gives (v.depth ≤ levels) (offset + t.length) (·.Is fp v)

theorem parsesValue_null : ParsesValue fp content levels .null (ascii "null") := by
  intro offset rest hdrop _
  rw [parseValue.eq_def, hasLiteral_append "null" hdrop, if_pos rfl]
  exact .of_ok rfl (Nat.zero_le _) .null

theorem parsesValue_false : ParsesValue fp content levels (.bool false) (ascii "false") := by
  intro offset rest hdrop _
  have hnull : hasLiteral content offset "null" = false :=
    hasLiteral_head (w := 0x6e) rfl (c := 0x66) hdrop (by decide)
  rw [parseValue.eq_def, hnull, hasLiteral_append "false" hdrop, if_neg Bool.false_ne_true,
    if_pos rfl]
  exact .of_ok rfl (Nat.zero_le _) (.bool false)

theorem parsesValue_true : ParsesValue fp content levels (.bool true) (ascii "true") := by
  intro offset rest hdrop _
  have hnull : hasLiteral content offset "null" = false :=
    hasLiteral_head (w := 0x6e) rfl (c := 0x74) hdrop (by decide)
  have hfalse : hasLiteral content offset "false" = false :=
    hasLiteral_head (w := 0x66) rfl (c := 0x74) hdrop (by decide)
  rw [parseValue.eq_def, hnull, hfalse, hasLiteral_append "true" hdrop, if_neg Bool.false_ne_true,
    if_neg Bool.false_ne_true, if_pos rfl]
  exact .of_ok rfl (Nat.zero_le _) (.bool true)

theorem parsesValue_string {s : Bytes} (h : IsChars t s) :
    ParsesValue fp content levels (.string s) (quote :: (t ++ [quote])) := by
  intro offset rest hdrop _
  rw [List.cons_append, List.append_assoc, List.singleton_append] at hdrop
  rw [parseValue_head hdrop (by decide), if_pos rfl, parseString_chars h hdrop, List.length_cons,
    List.length_append, List.length_singleton]
  exact .of_ok rfl (Nat.zero_le _) (.string s)

theorem parsesValue_number {m e : Int} (h : IsNumber t m e) (hlength : t.length ≤ numberMax) :
    ParsesValue fp content levels (.number m e) t := by
  intro offset rest hdrop hrest
  have hparse := parseNumber_isNumber fp h hlength hdrop hrest
  obtain ⟨b, t, rfl, hb⟩ := h.starts
  have hnumber : b = 0x2d ∨ isDigit b := hb.imp_right fun hb => decide_eq_true hb
  have hhead : b ≠ quote ∧ b ≠ 0x6e ∧ b ≠ 0x66 ∧ b ≠ 0x74 := by
    refine ⟨?_, ?_, ?_, ?_⟩ <;> rintro rfl <;> revert hnumber <;> decide
  rw [parseValue_head hdrop hhead.2, if_neg hhead.1, if_pos hnumber, hparse]
  exact .of_ok rfl (Nat.zero_le _) (.number h)

theorem parsesValue_array {vs : List Value} (hstarts : Starts t)
    (h : ∀ levels, ParsesAll content (parseValue fp content levels) (elementsDepth vs ≤ levels)
      (ItemsAre fp · vs) t) :
    ParsesValue fp content levels (.array vs) (leftBracket :: (t ++ [rightBracket])) := by
  intro offset rest hdrop _
  rw [List.cons_append, List.append_assoc, List.singleton_append] at hdrop
  rw [parseValue_head hdrop (by decide), if_neg (by decide), if_neg (by decide), if_pos rfl,
    List.length_cons, List.length_append, List.length_singleton]
  cases levels with
  | zero => exact ⟨fun hfits => absurd hfits (Nat.not_succ_le_zero _), fun _ => ⟨offset, rfl⟩⟩
  | succ levels =>
    refine (((h levels).container hstarts (.inl rfl) hdrop).map fun items => ?_).congr
      Nat.succ_le_succ_iff.symm
    exact .array

theorem parsesValue_emptyArray (h : Blank t) :
    ParsesValue fp content levels (.array []) (leftBracket :: (t ++ [rightBracket])) := by
  intro offset rest hdrop _
  rw [List.cons_append, List.append_assoc, List.singleton_append] at hdrop
  rw [parseValue_head hdrop (by decide), if_neg (by decide), if_neg (by decide), if_pos rfl,
    List.length_cons, List.length_append, List.length_singleton]
  cases levels with
  | zero => exact ⟨fun hfits => absurd hfits (Nat.not_succ_le_zero _), fun _ => ⟨offset, rfl⟩⟩
  | succ levels =>
    dsimp only
    rw [parseContainer_empty h (.inl rfl) hdrop]
    exact .of_ok rfl (Nat.succ_le_succ (Nat.zero_le _)) (.array .nil)

theorem parsesValue_object {ms : List (Bytes × Value)} (hstarts : Starts t)
    (h : ∀ levels, ParsesAll content (parseMember content (parseValue fp content levels))
      (Json.membersDepth ms ≤ levels) (MembersAre fp · ms) t) :
    ParsesValue fp content levels (.object ms) (leftBrace :: (t ++ [rightBrace])) := by
  intro offset rest hdrop _
  rw [List.cons_append, List.append_assoc, List.singleton_append] at hdrop
  rw [parseValue_head hdrop (by decide), if_neg (by decide), if_neg (by decide),
    if_neg (by decide), if_pos rfl, List.length_cons, List.length_append, List.length_singleton]
  cases levels with
  | zero => exact ⟨fun hfits => absurd hfits (Nat.not_succ_le_zero _), fun _ => ⟨offset, rfl⟩⟩
  | succ levels =>
    refine (((h levels).container hstarts (.inr rfl) hdrop).map fun members => ?_).congr
      Nat.succ_le_succ_iff.symm
    exact .object

theorem parsesValue_emptyObject (h : Blank t) :
    ParsesValue fp content levels (.object []) (leftBrace :: (t ++ [rightBrace])) := by
  intro offset rest hdrop _
  rw [List.cons_append, List.append_assoc, List.singleton_append] at hdrop
  rw [parseValue_head hdrop (by decide), if_neg (by decide), if_neg (by decide),
    if_neg (by decide), if_pos rfl, List.length_cons, List.length_append, List.length_singleton]
  cases levels with
  | zero => exact ⟨fun hfits => absurd hfits (Nat.not_succ_le_zero _), fun _ => ⟨offset, rfl⟩⟩
  | succ levels =>
    dsimp only
    rw [parseContainer_empty h (.inr rfl) hdrop]
    exact .of_ok rfl (Nat.succ_le_succ (Nat.zero_le _)) (.object .nil)

/-- A value with the whitespace around it. -/
theorem ParsesValue.one {v : Value} {before behind : Bytes} (h : ParsesValue fp content levels v t)
    (hstarts : ∃ c inside, t = c :: inside ∧ IsFirst c) (hbefore : Blank before)
    (hbehind : Blank behind) :
    ParsesOne content (parseValue fp content levels) (v.depth ≤ levels) (·.Is fp v)
      (before ++ (t ++ behind)) := by
  intro offset c rest hdrop hc
  rw [List.append_assoc, List.append_assoc] at hdrop
  have hvalue := drop_add hdrop
  have hskip : bufferSkipWhitespace content offset = offset + before.length := by
    obtain ⟨c', inside, rfl, hfirst, -⟩ := hstarts
    exact skip_blank hbefore hfirst hdrop
  have hrest : ∀ b, (behind ++ c :: rest).head? = some b → isNumberChar b = false := by
    intro b hb
    cases behind with
    | nil => exact Option.some.inj hb ▸ hc.not_isNumberChar
    | cons b' behind =>
      rw [← Option.some.inj hb]
      rcases hbehind b' List.mem_cons_self with rfl | rfl | rfl | rfl <;> decide
  refine ⟨offset + before.length + t.length, ?_, ?_⟩
  · rw [hskip]
    exact h _ _ hvalue hrest
  · rw [skip_blank hbehind hc.blank_lt (drop_add hvalue), List.length_append, List.length_append,
      Nat.add_assoc, Nat.add_assoc]

/-- A member: its name, and a value. -/
theorem parsesMember {v : Value} {k t' before behind : Bytes} (hk : IsChars t k)
    (hbefore : Blank before) (hbehind : Blank behind)
    (h : ParsesOne content (parseValue fp content levels) (v.depth ≤ levels) (·.Is fp v) t') :
    ParsesOne content (parseMember content (parseValue fp content levels)) (v.depth ≤ levels)
      (fun m => m.1 = k ∧ m.2.Is fp v)
      (before ++ (quote :: (t ++ quote :: (behind ++ colon :: t')))) := by
  intro offset c rest hdrop hc
  simp only [List.append_assoc, List.cons_append] at hdrop
  have hname := drop_add hdrop
  have hname' := drop_cons (drop_add (drop_cons hname))
  have hcolon := drop_add hname'
  obtain ⟨o, hgives, hskip⟩ := h _ c rest (drop_cons hcolon) hc
  refine ⟨o, ?_, ?_⟩
  · rw [skip_blank hbefore (by decide) hdrop, parseMember, parseString_chars hk hname,
      show offset + before.length + (t.length + 2) = offset + before.length + 1 + t.length + 1 by
        omega, Result.bind, skip_blank hbehind (by decide) hname']
    dsimp only
    rw [getElem?_of_cons hcolon, if_neg (not_not.2 rfl)]
    exact hgives.map fun item hitem => ⟨rfl, hitem⟩
  · rw [hskip]
    simp only [List.length_append, List.length_cons]
    omega

end

/-! ## Texts -/

/-- No run of number characters outside of strings is longer than the buffer of `parse_number`. -/
def ShortNumbers (t : Bytes) : Prop :=
  ∀ u, u <:+: skeleton t → (∀ b ∈ u, isNumberChar b) → u.length ≤ numberMax

theorem shortNumbers_of_length {t : Bytes} (h : (skeleton t).length ≤ numberMax) : ShortNumbers t :=
  fun _ hu _ => hu.length_le.trans h

section
variable {before t behind : Bytes}

theorem ShortNumbers.left (h : ShortNumbers (t ++ behind)) (ht : Closed t) : ShortNumbers t := by
  intro u hu
  refine h u (hu.trans ?_)
  rw [ht.skeleton_append]
  exact (List.prefix_append _ _).isInfix

theorem ShortNumbers.right (h : ShortNumbers (before ++ t)) (hbefore : Closed before) :
    ShortNumbers t := by
  intro u hu
  refine h u (hu.trans ?_)
  rw [hbefore.skeleton_append]
  exact (List.suffix_append _ _).isInfix

end

/-- What the parser does on a text of a phrase. -/
def Parses {double : Type} (fp : Doubles double) (content : Bytes) : Phrase → Bytes → Prop
  | .value v, t => (∃ c inside, t = c :: inside ∧ IsFirst c) ∧
      ∀ levels, ParsesValue fp content levels v t
  | .element v, t => Starts t ∧
      ∀ levels, ParsesOne content (parseValue fp content levels) (v.depth ≤ levels) (·.Is fp v) t
  | .elements vs, t => Starts t ∧
      ∀ levels, ParsesAll content (parseValue fp content levels) (elementsDepth vs ≤ levels)
        (ItemsAre fp · vs) t
  | .members ms, t => Starts t ∧
      ∀ levels, ParsesAll content (parseMember content (parseValue fp content levels))
        (Json.membersDepth ms ≤ levels) (MembersAre fp · ms) t

/-- **A text of a phrase is parsed, wherever it stands.** -/
theorem parses_of_derives {double : Type} (fp : Doubles double) {ph : Phrase} {t : Bytes}
    (content : Bytes) (h : Derives ph t) (hshort : ShortNumbers t) : Parses fp content ph t := by
  have hbracket : Closed [leftBracket] ∧ Closed [leftBrace] ∧ Closed [comma] := ⟨rfl, rfl, rfl⟩
  induction h with
  | null => exact ⟨⟨0x6e, _, rfl, by decide⟩, fun levels => parsesValue_null⟩
  | boolTrue => exact ⟨⟨0x74, _, rfl, by decide⟩, fun levels => parsesValue_true⟩
  | boolFalse => exact ⟨⟨0x66, _, rfl, by decide⟩, fun levels => parsesValue_false⟩
  | number h =>
    have hlength : _ ≤ numberMax :=
      hshort _ (by simpa only [h.plain.skeleton] using List.infix_rfl) (isNumberChar_of_isNumber h)
    obtain ⟨b, t, rfl, hb⟩ := h.starts
    exact ⟨⟨b, t, rfl, isFirst_number hb⟩, fun levels => parsesValue_number h hlength⟩
  | string h => exact ⟨⟨quote, _, rfl, by decide⟩, fun levels => parsesValue_string h⟩
  | emptyArray h =>
    exact ⟨⟨leftBracket, _, rfl, by decide⟩, fun levels => parsesValue_emptyArray h⟩
  | array h ih =>
    have h' := ih ((hshort.right hbracket.1).left h.closed)
    exact ⟨⟨leftBracket, _, rfl, by decide⟩, fun levels => parsesValue_array h'.1 h'.2⟩
  | emptyObject h =>
    exact ⟨⟨leftBrace, _, rfl, by decide⟩, fun levels => parsesValue_emptyObject h⟩
  | object h ih =>
    have h' := ih ((hshort.right hbracket.2.1).left h.closed)
    exact ⟨⟨leftBrace, _, rfl, by decide⟩, fun levels => parsesValue_object h'.1 h'.2⟩
  | element hbefore h hbehind ih =>
    obtain ⟨⟨c, inside, rfl, hfirst⟩, hparses⟩ := ih ((hshort.right hbefore.closed).left h.closed)
    exact ⟨⟨_, c, _, hbefore, rfl, hfirst⟩,
      fun levels => (hparses levels).one ⟨c, inside, rfl, hfirst⟩ hbefore hbehind⟩
  | @lastElement v t h ih =>
    obtain ⟨hstarts, hparses⟩ := ih hshort
    refine ⟨hstarts, fun levels => (hparses levels).all.mono ?_ ?_⟩
    · rw [elementsDepth, elementsDepth, Nat.max_zero]
    · rintro _ ⟨item, rfl, hitem⟩
      exact .cons hitem .nil
  | elements h h' ih ih' =>
    obtain ⟨hstarts, hparses⟩ := ih (hshort.left h.closed)
    obtain ⟨-, hparses'⟩ := ih' ((hshort.right h.closed).right hbracket.2.2)
    refine ⟨hstarts.append _, fun levels => ?_⟩
    refine ((hparses levels).all.append (hparses' levels) ?_).mono Nat.max_le.symm fun _ => id
    rintro _ items ⟨item, rfl, hitem⟩ hitems
    exact .cons hitem hitems
  | @lastMember k v before t behind t' hbefore hk hbehind h ih =>
    have hname : ShortNumbers (behind ++ colon :: t') := by
      have hshort := hshort.right hbefore.closed
      rw [List.append_cons t quote, ← List.cons_append] at hshort
      exact hshort.right hk.closed
    obtain ⟨-, hparses⟩ := ih ((hname.right hbehind.closed).right (rfl : Closed [colon]))
    refine ⟨⟨before, quote, _, hbefore, rfl, by decide⟩, fun levels => ?_⟩
    refine (parsesMember hk hbefore hbehind (hparses levels)).all.mono ?_ ?_
    · rw [Json.membersDepth, Json.membersDepth, Nat.max_zero]
    · rintro _ ⟨⟨_, item⟩, rfl, rfl, hitem⟩
      exact .cons hitem .nil
  | members h h' ih ih' =>
    obtain ⟨hstarts, hparses⟩ := ih (hshort.left h.closed)
    obtain ⟨-, hparses'⟩ := ih' ((hshort.right h.closed).right hbracket.2.2)
    refine ⟨hstarts.append _, fun levels => ?_⟩
    refine ((hparses levels).append (hparses' levels) ?_).mono ?_ fun _ => id
    · intro members members' hmembers hmembers'
      cases hmembers with
      | cons hitem hnil =>
        cases hnil
        exact .cons hitem hmembers'
    · rw [Json.membersDepth, Json.membersDepth, Nat.max_zero]
      exact Nat.max_le.symm

/-- What `cJSON_Parse` makes of the result of `parse_value`. -/
def Result.parsed {double : Type} : Result (Item double) → Option (Option (Item double))
  | .ok item _ => some (some item)
  | .fail _ => some none
  | .fault => none

theorem cJSONParse_eq {double : Type} (fp : Doubles double) (value : Bytes) :
    cJSONParse fp value =
      (parseValue fp (Crypto.cString value ++ [0]) nestingLimit
        (bufferSkipWhitespace (Crypto.cString value ++ [0])
          (skipUtf8Bom (Crypto.cString value ++ [0])))).parsed := by
  have hne : Crypto.cString value ++ [0] ≠ [] :=
    List.append_ne_nil_of_right_ne_nil _ (List.cons_ne_nil _ _)
  rw [cJSONParse, cJSONParseWithOpts, cJSONParseWithLengthOpts, if_neg hne]
  generalize parseValue _ _ _ _ = r
  cases r <;> rfl

theorem skipUtf8Bom_eq {before rest : Bytes} {c : UInt8} (hbefore : Blank before)
    (hfirst : IsFirst c) : skipUtf8Bom (before ++ c :: rest) = 0 := by
  refine if_neg fun hbom => ?_
  have hhead := congrArg List.head? hbom.2
  rw [List.head?_take, if_neg (by decide)] at hhead
  cases before with
  | nil => exact hfirst.2.2.2 (Option.some.inj hhead)
  | cons b before =>
    rcases hbefore b List.mem_cons_self with rfl | rfl | rfl | rfl <;> cases hhead

/-- The whole text is one value. -/
theorem cJSONParse_gives {double : Type} (fp : Doubles double) {v : Value} {t : Bytes}
    (h : IsText v t) (hshort : ShortNumbers t) :
    ∃ r offset, cJSONParse fp t = Result.parsed r ∧
      r.Gives (v.depth ≤ nestingLimit) offset (·.Is fp v) := by
  have hzero := h.zero_notMem
  cases h with
  | @element v before t behind hbefore hvalue hbehind =>
    have hparses := parses_of_derives fp (before ++ (t ++ behind) ++ [0]) hvalue
      ((hshort.right hbefore.closed).left hvalue.closed)
    obtain ⟨⟨c, inside, rfl, hfirst⟩, hparses⟩ := hparses
    have hcontent : before ++ (c :: inside ++ behind) ++ [0] =
        before ++ c :: (inside ++ (behind ++ [0])) := by simp
    have hbom : skipUtf8Bom (before ++ (c :: inside ++ behind) ++ [0]) = 0 := by
      rw [hcontent]
      exact skipUtf8Bom_eq hbefore hfirst
    have hskip : bufferSkipWhitespace (before ++ (c :: inside ++ behind) ++ [0]) 0 =
        0 + before.length :=
      skip_blank hbefore hfirst.1 hcontent
    have hrest : ∀ b, (behind ++ [0]).head? = some b → isNumberChar b = false := by
      intro b hb
      cases behind with
      | nil => exact Option.some.inj hb ▸ rfl
      | cons b' behind =>
        rw [← Option.some.inj hb]
        rcases hbehind b' List.mem_cons_self with rfl | rfl | rfl | rfl <;> decide
    have hgives := hparses nestingLimit before.length (behind ++ [0])
      (by rw [hcontent, List.drop_left]; simp) hrest
    have hstring : Crypto.cString (before ++ (c :: inside ++ behind)) =
        before ++ (c :: inside ++ behind) :=
      Crypto.cString_of_ne_zero fun b hb heq => hzero (heq ▸ hb)
    rw [cJSONParse_eq, hstring, hbom, hskip, Nat.zero_add]
    exact ⟨_, _, rfl, hgives⟩

/-- `{ "cmd" : "\u0067et_version" }`. -/
def escapedCommand : Bytes :=
  leftBrace :: (([0x20] ++ (quote :: (ascii "cmd" ++ quote :: ([0x20] ++ colon :: ([0x20] ++
    ((quote :: (ascii "\\u0067et_version" ++ [quote])) ++ [0x20])))))) ++ [rightBrace])

theorem isText_escapedCommand :
    IsText (.object [(ascii "cmd", .string (ascii "get_version"))]) escapedCommand := by
  have hblank : Blank [0x20] := fun b hb => .inl (List.mem_singleton.1 hb)
  have hplain : ∀ b ∈ ascii "cmd" ++ ascii "et_version", 0x20 ≤ b ∧ b ≠ quote ∧ b ≠ backslash := by
    decide +kernel
  have hname := isChars_self fun b hb => hplain b (List.mem_append_left _ hb)
  have hrest := isChars_self fun b hb => hplain b (List.mem_append_right _ hb)
  have hhex : IsHex ('g').toNat (ascii "0067") :=
    ⟨by decide, by decide +kernel, by decide +kernel⟩
  have hchars : IsChars (ascii "\\u0067et_version") (ascii "get_version") := .unicode hhex hrest
  exact (Derives.object (.lastMember hblank hname hblank
    (.element hblank (.string hchars) hblank))).to_element

end CJson
