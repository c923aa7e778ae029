import CarplayRelay.CJson.Safety

/-!
# The tokens of a JSON text are parsed

* `parseString_chars`: string literals, with their escapes and surrogate pairs. That the block of a
  literal is large enough is `parseString_safe`.
* `strtod_isNumber`, `parseNumber_isNumber`: numbers, whatever stands behind them.
-/

namespace CJson

open Bytes Json

/-! ## Strings -/

theorem drop_add {content t u : Bytes} {offset : Nat} (h : content.drop offset = t ++ u) :
    content.drop (offset + t.length) = u := by
  rw [← List.drop_drop, h, List.drop_left]

theorem drop_cons {content t : Bytes} {b : UInt8} {offset : Nat}
    (h : content.drop offset = b :: t) : content.drop (offset + 1) = t :=
  @drop_add content [b] t offset h

theorem getElem?_of_drop {content t : Bytes} {offset : Nat} (h : content.drop offset = t)
    (i : Nat) : content[offset + i]? = t[i]? := by
  rw [← h, List.getElem?_drop]

section
variable {content hex hex' rest : Bytes} {n pos inputEnd : Nat} {c : Char}

theorem parseHex4_isHex (hhex : IsHex n hex) (h : content.drop pos = hex ++ rest) :
    parseHex4 content pos = some n := by
  obtain ⟨hlen, hdigits, rfl⟩ := hhex
  have hget (i : Nat) (hi : i < hex.length) : content[pos + i]? = some hex[i] := by
    rw [getElem?_of_drop h, List.getElem?_append_left hi, List.getElem?_eq_getElem hi]
  match hex, hlen with
  | [a, b, c, d], _ =>
    obtain ⟨va, ha⟩ := Option.isSome_iff_exists.1 (hdigits a (by simp))
    obtain ⟨vb, hb⟩ := Option.isSome_iff_exists.1 (hdigits b (by simp))
    obtain ⟨vc, hc⟩ := Option.isSome_iff_exists.1 (hdigits c (by simp))
    obtain ⟨vd, hd⟩ := Option.isSome_iff_exists.1 (hdigits d (by simp))
    have h0 := hget 0 (by simp)
    have h1 := hget 1 (by simp)
    have h2 := hget 2 (by simp)
    have h3 := hget 3 (by simp)
    simp only [List.getElem_cons_zero, List.getElem_cons_succ, Nat.add_zero] at h0 h1 h2 h3
    simp [parseHex4, parseHex4Loop, Nat.add_assoc, h0, h1, h2, h3, ha, hb, hc, hd,
      Nat.shiftLeft_eq, Nat.mul_comm]

theorem continuation_eq (v : Nat) : (v ||| 0x80) &&& 0xbf = v % 64 + 128 := by
  have hle : (v ||| 0x80) &&& 0xbf < 2 ^ 8 := Nat.lt_of_le_of_lt Nat.and_le_right (by decide)
  have hbyte : ∀ r < 256, (r ||| 0x80) &&& 0xbf = r % 64 + 128 := by decide +kernel
  rw [← Nat.mod_eq_of_lt hle, Nat.and_mod_two_pow, Nat.or_mod_two_pow,
    show 0x80 % 2 ^ 8 = 0x80 from rfl, show 0xbf % 2 ^ 8 = 0xbf from rfl,
    hbyte _ (Nat.mod_lt _ (by decide))]
  omega

theorem toNat_lt (c : Char) : c.toNat < 0x110000 := by
  rcases c.valid with h | ⟨-, h⟩
  · exact Nat.lt_trans h (by decide)
  · exact h

/-- **Code points are written as UTF-8.** -/
theorem encodeUtf8_char (n : Nat) (c : Char) :
    encodeUtf8 n c.toNat = (n, String.utf8EncodeChar c) := by
  have hlead2 : ∀ r < 32, (r ||| 0xc0) &&& 0xff = r % 32 + 0xc0 := by decide +kernel
  have hlead3 : ∀ r < 16, (r ||| 0xe0) &&& 0xff = r % 16 + 0xe0 := by decide +kernel
  have hlead4 : ∀ r < 8, (r ||| 0xf0) &&& 0xff = r % 8 + 0xf0 := by decide +kernel
  have hone : ∀ r < 128, r &&& 0x7f = r := by decide +kernel
  have hmax := toNat_lt c
  unfold encodeUtf8 utf8Length String.utf8EncodeChar
  dsimp only
  rw [show c.val.toNat = c.toNat from rfl]
  generalize c.toNat = v at hmax
  by_cases h1 : v < 0x80
  · rw [if_pos h1, if_pos (Nat.le_of_lt_succ h1), hone v h1]
    rfl
  by_cases h2 : v < 0x800
  · rw [if_neg h1, if_pos h2, if_neg (by omega), if_pos (by omega)]
    simp only [encodeUtf8From, continuation_eq, Nat.shiftRight_eq_div_pow]
    rw [hlead2 (v / 2 ^ 6) (by omega)]
  by_cases h3 : v < 0x10000
  · rw [if_neg h1, if_neg h2, if_pos h3, if_neg (by omega), if_neg (by omega), if_pos (by omega)]
    simp only [encodeUtf8From, continuation_eq, Nat.shiftRight_eq_div_pow, Nat.div_div_eq_div_mul]
    rw [hlead3 (v / (2 ^ 6 * 2 ^ 6)) (by omega)]
  · rw [if_neg h1, if_neg h2, if_neg h3, if_pos (by omega), if_neg (by omega), if_neg (by omega),
      if_neg (by omega)]
    simp only [encodeUtf8From, continuation_eq, Nat.shiftRight_eq_div_pow, Nat.div_div_eq_div_mul]
    rw [hlead4 (v / (2 ^ 6 * 2 ^ 6 * 2 ^ 6)) (by omega)]

theorem parseHex4_literal (hhex : IsHex n hex)
    (h : content.drop pos = backslash :: 0x75 :: (hex ++ rest)) :
    parseHex4 content (pos + 2) = some n :=
  parseHex4_isHex hhex (@drop_add content [backslash, 0x75] (hex ++ rest) pos h)

theorem utf16_unicode (hhex : IsHex c.toNat hex)
    (h : content.drop pos = backslash :: 0x75 :: (hex ++ rest)) (hend : pos + 6 ≤ inputEnd) :
    utf16LiteralToUtf8 content pos inputEnd = some (6, String.utf8EncodeChar c) := by
  have hvalid : c.toNat < 0xd800 ∨ 0xdfff < c.toNat := c.valid.imp_right And.left
  rw [utf16LiteralToUtf8, if_neg (by omega), parseHex4_literal hhex h, Option.bind_some,
    if_neg (by omega), if_neg (by omega), encodeUtf8_char]

theorem utf16_surrogates (hhex : IsHex (0xd800 + (c.toNat - 0x10000) / 0x400) hex)
    (hhex' : IsHex (0xdc00 + (c.toNat - 0x10000) % 0x400) hex') (hc : 0x10000 ≤ c.toNat)
    (h : content.drop pos =
      backslash :: 0x75 :: (hex ++ backslash :: 0x75 :: (hex' ++ rest)))
    (hend : pos + 12 ≤ inputEnd) :
    utf16LiteralToUtf8 content pos inputEnd = some (12, String.utf8EncodeChar c) := by
  have hmax := toNat_lt c
  have hsecond : content.drop (pos + 6) = backslash :: 0x75 :: (hex' ++ rest) := by
    have hdrop := @drop_add content (backslash :: 0x75 :: hex) _ pos h
    rwa [List.length_cons, List.length_cons, hhex.1] at hdrop
  have h6 := getElem?_of_drop hsecond 0
  have h7 := getElem?_of_drop hsecond 1
  rw [List.getElem?_cons_zero, Nat.add_zero] at h6
  rw [List.getElem?_cons_succ, List.getElem?_cons_zero] at h7
  have hcode : 0x10000 + (((0xd800 + (c.toNat - 0x10000) / 0x400) &&& 0x3ff) <<< 10 |||
      ((0xdc00 + (c.toNat - 0x10000) % 0x400) &&& 0x3ff)) = c.toNat := by
    rw [show 0x3ff = 2 ^ 10 - 1 from rfl, Nat.and_two_pow_sub_one_eq_mod,
      Nat.and_two_pow_sub_one_eq_mod, ← Nat.shiftLeft_add_eq_or_of_lt (Nat.mod_lt _ (by decide)),
      Nat.shiftLeft_eq]
    omega
  rw [utf16LiteralToUtf8, if_neg (by omega), parseHex4_literal hhex h, Option.bind_some,
    if_neg (by omega), if_pos (by omega)]
  dsimp only
  rw [if_neg (by omega), h6, h7, Option.bind_some, Option.bind_some, if_neg (by decide),
    parseHex4_literal hhex' hsecond, Option.bind_some, if_neg (by omega), hcode, encodeUtf8_char]

/-! ### The two loops -/

theorem literalEnd_quote (t : Bytes) : literalEnd (quote :: t) = some (0, 0) := by
  rw [literalEnd.eq_def]
  exact if_pos rfl

theorem literalEnd_plain {b : UInt8} (hquote : b ≠ quote) (hbackslash : b ≠ backslash)
    (t : Bytes) : literalEnd (b :: t) = (literalEnd t).map fun e => (e.1 + 1, e.2) := by
  rw [literalEnd.eq_def]
  dsimp only
  rw [if_neg hquote, if_neg hbackslash]

theorem literalEnd_escape (b : UInt8) (t : Bytes) :
    literalEnd (backslash :: b :: t) = (literalEnd t).map fun e => (e.1 + 2, e.2 + 1) := by
  rw [literalEnd.eq_def]
  dsimp only
  rw [if_neg (by decide), if_pos rfl]

theorem literalEnd_append {t : Bytes} (h : ∀ b ∈ t, b ≠ quote ∧ b ≠ backslash) (rest : Bytes) :
    literalEnd (t ++ rest) = (literalEnd rest).map fun e => (e.1 + t.length, e.2) := by
  induction t with
  | nil => exact (congrFun Option.map_id _).symm
  | cons b t ih =>
    obtain ⟨hquote, hbackslash⟩ := h b List.mem_cons_self
    rw [List.cons_append, literalEnd_plain hquote hbackslash,
      ih fun b hb => h b (List.mem_cons_of_mem _ hb), Option.map_map]
    rfl

/-- The first loop finds the end of a literal. -/
theorem literalEnd_chars {t s : Bytes} (h : IsChars t s) (rest : Bytes) :
    ∃ skipped, literalEnd (t ++ quote :: rest) = some (t.length, skipped) := by
  induction h with
  | nil => exact ⟨0, literalEnd_quote rest⟩
  | plain _ hquote hbackslash _ ih =>
    obtain ⟨skipped, ih⟩ := ih
    refine ⟨skipped, ?_⟩
    rw [List.cons_append, literalEnd_plain hquote hbackslash, ih]
    rfl
  | escape _ _ ih =>
    obtain ⟨skipped, ih⟩ := ih
    refine ⟨skipped + 1, ?_⟩
    rw [List.cons_append, List.cons_append, literalEnd_escape, ih]
    rfl
  | unicode hhex _ ih =>
    obtain ⟨skipped, ih⟩ := ih
    refine ⟨skipped + 1, ?_⟩
    rw [List.cons_append, List.cons_append, literalEnd_escape, List.append_assoc,
      literalEnd_append hhex.plain, ih]
    simp only [Option.map_some, List.length_cons, List.length_append]
    congr 2
    omega
  | surrogates hhex hhex' _ _ ih =>
    obtain ⟨skipped, ih⟩ := ih
    refine ⟨skipped + 2, ?_⟩
    rw [List.cons_append, List.cons_append, literalEnd_escape, List.append_assoc,
      literalEnd_append hhex.plain, List.cons_append, List.cons_append, literalEnd_escape,
      List.append_assoc, literalEnd_append hhex'.plain, ih]
    simp only [Option.map_some, List.length_cons, List.length_append]
    congr 2
    omega

theorem unescapeTurn_plain {b : UInt8} (hb : b ≠ backslash) (h : content.drop pos = b :: rest) :
    unescapeTurn content inputEnd pos = some (1, [b]) := by
  rw [unescapeTurn, ← Nat.add_zero pos, getElem?_of_drop h, List.getElem?_cons_zero,
    Option.bind_some, if_pos hb]

theorem unescapeTurn_backslash {e : UInt8} (h : content.drop pos = backslash :: e :: rest) :
    unescapeTurn content inputEnd pos =
      if e = 0x75 then utf16LiteralToUtf8 content pos inputEnd
      else some ((unescaped e).elim (0, []) fun b => (2, [b])) := by
  have h0 := getElem?_of_drop h 0
  have h1 := getElem?_of_drop h 1
  rw [List.getElem?_cons_zero, Nat.add_zero] at h0
  rw [List.getElem?_cons_succ, List.getElem?_cons_zero] at h1
  rw [unescapeTurn, h0, Option.bind_some, if_neg (not_not.2 rfl), h1, Option.bind_some]

theorem unescaped_escapes {e b : UInt8} (h : (e, b) ∈ escapes) :
    e ≠ 0x75 ∧ unescaped e = some b := by
  revert h
  simp only [escapes, List.mem_cons, Prod.mk.injEq, List.not_mem_nil, or_false]
  rintro (⟨rfl, rfl⟩ | ⟨rfl, rfl⟩ | ⟨rfl, rfl⟩ | ⟨rfl, rfl⟩ | ⟨rfl, rfl⟩ | ⟨rfl, rfl⟩ |
    ⟨rfl, rfl⟩ | ⟨rfl, rfl⟩) <;> decide

/-- One turn of the second loop, over a character of the string, and the turns behind it. -/
theorem unescape_turn {capacity turns step : Nat} {bytes out : Bytes} {r : Result Bytes}
    (hpos : pos + (step + 1) ≤ inputEnd) (hturns : inputEnd - pos ≤ turns)
    (h : unescapeTurn content inputEnd pos = some (step + 1, bytes))
    (hr : ∀ turns, inputEnd - (pos + (step + 1)) ≤ turns →
      unescape content inputEnd capacity turns (pos + (step + 1)) (out ++ bytes) = .fault ∨
        unescape content inputEnd capacity turns (pos + (step + 1)) (out ++ bytes) = r) :
    unescape content inputEnd capacity turns pos out = .fault ∨
      unescape content inputEnd capacity turns pos out = r := by
  obtain ⟨turns, rfl⟩ := Nat.exists_eq_add_one_of_ne_zero (by omega : turns ≠ 0)
  rw [unescape, if_neg (by omega), h]
  dsimp only
  split_ifs
  · exact hr turns (by omega)
  · exact .inl rfl

/-- The second loop writes the string of a literal, if the block is large enough. -/
theorem unescape_chars {t s out : Bytes} {capacity turns : Nat} (h : IsChars t s)
    (hdrop : content.drop pos = t ++ rest) (hend : inputEnd = pos + t.length)
    (hturns : inputEnd - pos ≤ turns) :
    unescape content inputEnd capacity turns pos out = .fault ∨
      unescape content inputEnd capacity turns pos out = .ok (out ++ s) inputEnd := by
  induction h generalizing pos out turns with
  | nil =>
    have hstop : unescape content inputEnd capacity turns pos out =
        if out.length < capacity then .ok out pos else .fault := by
      cases turns with
      | zero => rfl
      | succ turns => exact if_pos hend.le
    rw [hstop, List.append_nil, hend, List.length_nil, Nat.add_zero]
    split_ifs
    · exact .inr rfl
    · exact .inl rfl
  | @plain b t s _ _ hbackslash _ ih =>
    rw [List.length_cons] at hend
    refine unescape_turn (by omega) hturns (unescapeTurn_plain hbackslash hdrop) ?_
    intro turns hturns
    rw [List.append_cons out b s]
    exact ih (drop_cons hdrop) (by omega) hturns
  | @escape e b t s he _ ih =>
    obtain ⟨hu, hunescaped⟩ := unescaped_escapes he
    have hturn : unescapeTurn content inputEnd pos = some (1 + 1, [b]) := by
      rw [unescapeTurn_backslash hdrop, if_neg hu, hunescaped]
      rfl
    rw [List.length_cons, List.length_cons] at hend
    refine unescape_turn (by omega) hturns hturn ?_
    intro turns hturns
    rw [List.append_cons out b s]
    exact ih (drop_cons (drop_cons hdrop)) (by omega) hturns
  | @unicode c hex t s hhex _ ih =>
    rw [List.cons_append, List.cons_append, List.append_assoc] at hdrop
    simp only [List.length_cons, List.length_append, hhex.1] at hend
    have hturn : unescapeTurn content inputEnd pos = some (5 + 1, String.utf8EncodeChar c) := by
      rw [unescapeTurn_backslash hdrop, if_pos rfl, utf16_unicode hhex hdrop (by omega)]
    refine unescape_turn (by omega) hturns hturn ?_
    intro turns hturns
    rw [← List.append_assoc]
    have hnext := @drop_add content (backslash :: 0x75 :: hex) (t ++ rest) pos hdrop
    rw [List.length_cons, List.length_cons, hhex.1] at hnext
    exact ih hnext (by omega) hturns
  | @surrogates c hex hex' t s hhex hhex' hc _ ih =>
    simp only [List.cons_append, List.append_assoc] at hdrop
    simp only [List.length_cons, List.length_append, hhex.1, hhex'.1] at hend
    have hturn : unescapeTurn content inputEnd pos = some (11 + 1, String.utf8EncodeChar c) := by
      rw [unescapeTurn_backslash hdrop, if_pos rfl,
        utf16_surrogates hhex hhex' hc hdrop (by omega)]
    refine unescape_turn (by omega) hturns hturn ?_
    intro turns hturns
    rw [← List.append_assoc]
    have hnext := @drop_add content
      (backslash :: 0x75 :: (hex ++ backslash :: 0x75 :: hex')) (t ++ rest) pos
      (by simpa only [List.cons_append, List.append_assoc] using hdrop)
    simp only [List.length_cons, List.length_append, hhex.1, hhex'.1] at hnext
    exact ih hnext (by omega) hturns

/-- **A literal is parsed to its string.** -/
theorem parseString_chars {t s : Bytes} {offset : Nat} (h : IsChars t s)
    (hdrop : content.drop offset = quote :: (t ++ quote :: rest)) :
    parseString content offset = .ok s (offset + (t.length + 2)) := by
  have hquote := getElem?_of_drop hdrop 0
  rw [List.getElem?_cons_zero, Nat.add_zero] at hquote
  have hsafe := parseString_safe (List.getElem?_eq_some_iff.1 hquote).1
  have hinside := drop_cons hdrop
  obtain ⟨skipped, hend⟩ := literalEnd_chars h rest
  have hchars := @unescape_chars content (quote :: rest) (offset + 1)
    (offset + 1 + t.length) t s []
    (offset + 1 + t.length - offset - skipped + 1) t.length h hinside rfl (by omega)
  unfold parseString at hsafe ⊢
  rw [hquote] at hsafe ⊢
  dsimp only at hsafe ⊢
  rw [if_neg (not_not.2 rfl), hinside, hend] at hsafe ⊢
  dsimp only at hsafe ⊢
  rcases hchars with hfault | hok
  · rw [hfault] at hsafe
    cases hsafe
  · rw [hok, List.nil_append]
    exact congrArg (Result.ok s) (by omega)

end

/-! ## Numbers -/

theorem takeWhile_run {p : UInt8 → Bool} {t rest : Bytes} (ht : ∀ b ∈ t, p b)
    (hrest : ∀ b, rest.head? = some b → p b = false) : (t ++ rest).takeWhile p = t := by
  rw [List.takeWhile_append_of_pos ht]
  cases rest with
  | nil => exact List.append_nil t
  | cons b rest =>
    rw [List.takeWhile_cons_of_neg (by rw [hrest b rfl]; exact Bool.false_ne_true)]
    exact List.append_nil t

theorem isDigit_of_isDigits {t : Bytes} (h : IsDigits t) : ∀ b ∈ t, isDigit b := fun b hb =>
  decide_eq_true (h.2 b hb)

theorem takeWhile_isDigits {t : Bytes} (h : IsDigits t) : t.takeWhile isDigit = t :=
  List.takeWhile_eq_self_iff.2 (isDigit_of_isDigits h)

theorem signOf_digits {t : Bytes} (h : IsDigits t) (rest : Bytes) : signOf (t ++ rest) = [] := by
  obtain ⟨b, t, rfl⟩ := List.exists_cons_of_ne_nil h.1
  obtain ⟨hlo, -⟩ := h.2 b List.mem_cons_self
  have hsign : ¬ ((b :: t ++ rest).head? = some 0x2b ∨ (b :: t ++ rest).head? = some 0x2d) := by
    rintro (heq | heq) <;> cases heq <;> exact absurd hlo (by decide)
  rw [signOf, if_neg hsign, List.take_zero]

/-- The exponent that `strtod` finds is the one of the grammar. -/
theorem exponentOf_isExponent {t : Bytes} {e : Int} (h : IsExponent t e) : exponentOf t = t := by
  cases h with
  | none => rfl
  | @pos e plus ds he hplus h =>
    have hsign : signOf (plus ++ ds) = plus := by
      rcases hplus with rfl | rfl
      · simpa using signOf_digits h []
      · rfl
    rw [exponentOf, hsign, List.drop_left, takeWhile_isDigits h]
    exact if_pos ⟨he, h.1⟩
  | @neg e ds he h =>
    have hsign : signOf (0x2d :: ds) = [0x2d] := rfl
    rw [exponentOf, hsign, List.length_singleton, List.drop_one, List.tail_cons,
      takeWhile_isDigits h]
    exact if_pos ⟨he, h.1⟩

/-- The fraction and the exponent that `strtod` finds are those of the grammar. -/
theorem fractionOf_isFraction {t ds t' : Bytes} {e : Int} (h : IsFraction t ds)
    (h' : IsExponent t' e) : fractionOf (t ++ t') = t := by
  have hhead : ∀ b, t'.head? = some b → isDigit b = false := fun b hb => by
    rcases h'.head hb with rfl | rfl <;> decide
  cases h with
  | none =>
    refine if_neg fun hpoint => ?_
    rcases h'.head hpoint with heq | heq <;> cases heq
  | some h =>
    rw [fractionOf, List.cons_append, List.head?_cons, if_pos rfl, List.tail_cons,
      takeWhile_run (isDigit_of_isDigits h) hhead]

theorem strtod_isUnsigned {t : Bytes} {m e : Int} (sign : Bytes) (h : IsUnsigned t m e)
    (hsign : signOf (sign ++ t) = sign) : strtod (sign ++ t) = sign ++ t := by
  obtain ⟨hint, -, hfraction, hexponent⟩ := h
  rename_i int fraction ds exponent e
  have hhead : ∀ b, (fraction ++ exponent).head? = some b → isDigit b = false := by
    intro b hb
    cases hfraction with
    | none => rcases hexponent.head hb with rfl | rfl <;> decide
    | some => cases hb; decide
  unfold strtod
  dsimp only
  rw [hsign, List.drop_left, takeWhile_run (isDigit_of_isDigits hint) hhead, List.drop_left,
    fractionOf_isFraction hfraction hexponent, List.drop_left, exponentOf_isExponent hexponent,
    if_neg fun hnone => hint.1 hnone.1]

/-- **`strtod` converts the numbers of the grammar.** -/
theorem strtod_isNumber {t : Bytes} {m e : Int} (h : IsNumber t m e) : strtod t = t := by
  cases h with
  | pos h =>
    refine strtod_isUnsigned [] h ?_
    obtain ⟨hint, -, -, -⟩ := h
    exact (signOf_digits hint _ :)
  | neg h => exact strtod_isUnsigned [0x2d] h rfl

theorem isNumberChar_of_isDigits {t : Bytes} (h : IsDigits t) : ∀ b ∈ t, isNumberChar b := by
  intro b hb
  simp [isNumberChar, isDigit_of_isDigits h b hb]

theorem isNumberChar_of_isExponent {t : Bytes} {e : Int} (h : IsExponent t e) :
    ∀ b ∈ t, isNumberChar b := by
  cases h with
  | none => exact fun b hb => absurd hb List.not_mem_nil
  | pos he hplus h =>
    rcases he with rfl | rfl <;> rcases hplus with rfl | rfl <;>
      simpa [isNumberChar] using isNumberChar_of_isDigits h
  | neg he h =>
    rcases he with rfl | rfl <;> simpa [isNumberChar] using isNumberChar_of_isDigits h

theorem isNumberChar_of_isUnsigned {t : Bytes} {m e : Int} (h : IsUnsigned t m e) :
    ∀ b ∈ t, isNumberChar b := by
  obtain ⟨hint, -, hfraction, hexponent⟩ := h
  have hint := isNumberChar_of_isDigits hint
  have hexponent := isNumberChar_of_isExponent hexponent
  cases hfraction with
  | none =>
    intro b hb
    rcases List.mem_append.1 hb with hb | hb
    · exact hint b hb
    · exact hexponent b hb
  | some h =>
    intro b hb
    rcases List.mem_append.1 hb with hb | hb
    · exact hint b hb
    · rcases List.mem_cons.1 hb with rfl | hb
      · rfl
      · rcases List.mem_append.1 hb with hb | hb
        · exact isNumberChar_of_isDigits h b hb
        · exact hexponent b hb

theorem isNumberChar_of_isNumber {t : Bytes} {m e : Int} (h : IsNumber t m e) :
    ∀ b ∈ t, isNumberChar b := by
  cases h with
  | pos h => exact isNumberChar_of_isUnsigned h
  | neg h =>
    intro b hb
    rcases List.mem_cons.1 hb with rfl | hb
    · rfl
    · exact isNumberChar_of_isUnsigned h b hb

/-- **A number is parsed**, if it fits in the buffer of `parse_number`. -/
theorem parseNumber_isNumber {double : Type} (fp : Doubles double) {content t rest : Bytes}
    {offset : Nat} {m e : Int}
    (h : IsNumber t m e) (hlength : t.length ≤ numberMax) (hdrop : content.drop offset = t ++ rest)
    (hrest : ∀ b, rest.head? = some b → isNumberChar b = false) :
    parseNumber fp content offset = .ok (numberItem fp t) (offset + t.length) := by
  have htake : ∀ b, (rest.take (numberMax - t.length)).head? = some b → isNumberChar b = false := by
    intro b hb
    refine hrest b ?_
    rw [List.head?_take] at hb
    split_ifs at hb
    exact hb
  unfold parseNumber
  rw [hdrop, List.take_append, List.take_of_length_le hlength,
    takeWhile_run (isNumberChar_of_isNumber h) htake, strtod_isNumber h]
  obtain ⟨b, t, rfl, -⟩ := h.starts
  exact if_neg (List.cons_ne_nil b t)

end CJson
