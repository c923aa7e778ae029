import CarplayRelay.CJson.Parser
import Mathlib.Tactic.SplitIfs

/-!
# Memory safety of the JSON parser

No access of the parser is outside of its buffers, and what it returns is nested at most
`nestingLimit` deep.

* `parseString_safe`: a literal is decoded in place of its own length. The second loop of
  `parse_string` may be out of step with the first, which sized the block: `\u` takes four
  characters whatever they are. `skips` counts what the first loop skipped of the rest.
* `parseValue_safe`: the parser stays in its buffer, if the buffer does not end with a comma.
* `cJSONParseWithOpts_safe`: a C string ends with its terminator.
-/

namespace CJson

open Bytes Json

/-- No fault, and what is left is as `P` says. -/
def Result.Safe {α : Type} (r : Result α) (P : α → Nat → Prop) : Prop :=
  match r with
  | .ok a offset => P a offset
  | .fail _ => True
  | .fault => False

section
variable {α β : Type} {r : Result α} {P : α → Nat → Prop}

theorem Result.Safe.bind {f : α → Nat → Result β} {Q : β → Nat → Prop} (h : r.Safe P)
    (hf : ∀ a offset, P a offset → (f a offset).Safe Q) : (r.bind f).Safe Q := by
  cases r with
  | ok a offset => exact hf a offset h
  | fail offset => trivial
  | fault => exact h

theorem Result.Safe.map {f : α → β} {Q : β → Nat → Prop} (h : r.Safe P)
    (hf : ∀ a offset, P a offset → Q (f a) offset) : (r.map f).Safe Q :=
  h.bind fun a offset ha => hf a offset ha

theorem Result.Safe.mono {Q : α → Nat → Prop} (h : r.Safe P) (hPQ : ∀ a o, P a o → Q a o) :
    r.Safe Q := by
  cases r with
  | ok a offset => exact hPQ a offset h
  | fail offset => trivial
  | fault => exact h

end

section
variable {content : Bytes} {offset : Nat}

/-! ## Where a value ends -/

/-- The byte in front of the offset is in the buffer, and no terminator. -/
def Behind (content : Bytes) (offset : Nat) : Prop := ∃ c, content[offset - 1]? = some c ∧ c ≠ 0

theorem Behind.le (h : Behind content offset) : offset ≤ content.length := by
  obtain ⟨c, hc, -⟩ := h
  have := (List.getElem?_eq_some_iff.1 hc).1
  omega

theorem behind_of_prefix_self {word : Bytes} (h : word <+: content.drop offset) (hne : word ≠ [])
    (hword : ∀ c ∈ word, c ≠ 0) : Behind content (offset + word.length) := by
  have hpos : 1 ≤ word.length := List.length_pos_iff.2 hne
  refine ⟨word.getLast hne, ?_, hword _ (List.getLast_mem hne)⟩
  obtain ⟨r, hr⟩ := h
  rw [Nat.add_sub_assoc hpos, ← List.getElem?_drop, ← hr,
    List.getElem?_append_left (by omega), ← List.getLast?_eq_getElem?,
    List.getLast?_eq_some_getLast hne]

/-! ## Whitespace -/

theorem le_skip : offset ≤ bufferSkipWhitespace content offset := by
  unfold bufferSkipWhitespace
  split_ifs with hout
  · exact Nat.le_refl _
  · dsimp only
    split_ifs <;> omega

theorem skip_lt (h : offset < content.length) :
    bufferSkipWhitespace content offset < content.length := by
  have hrun := (List.takeWhile_sublist (fun b : UInt8 => decide (b ≤ 32))
    (l := content.drop offset)).length_le
  rw [List.length_drop] at hrun
  unfold bufferSkipWhitespace
  rw [if_neg (by omega)]
  dsimp only
  split_ifs <;> omega

theorem skip_le (h : offset ≤ content.length) :
    bufferSkipWhitespace content offset ≤ content.length := by
  rcases Nat.lt_or_eq_of_le h with hlt | heq
  · exact (skip_lt hlt).le
  · rw [bufferSkipWhitespace, if_pos heq.ge]
    exact h

/-! ## Escapes -/

theorem hexDigit_lt {c : UInt8} {d : Nat} (h : hexDigit c = some d) : d < 16 := by
  unfold hexDigit at h
  split_ifs at h with h1 h2 h3
  all_goals
    simp only [UInt8.le_iff_toNat_le, UInt8.reduceToNat] at *
    cases h
    omega

/-- The number of the digits up to here ends with the nibble that the next digit fills. -/
theorem parseHex4Loop_isSome {left pos h : Nat} (hpos : pos + left + 1 ≤ content.length)
    (hnibble : 16 ∣ h) (hlt : h + 16 ≤ 16 ^ (4 - left)) (hleft : left ≤ 3) :
    ∃ n, parseHex4Loop content (left + 1) pos h = some n ∧ n < 0x10000 := by
  induction left generalizing pos h with
  | zero =>
    rw [parseHex4Loop, List.getElem?_eq_getElem (by omega), Option.bind_some]
    cases hd : hexDigit content[pos] with
    | none => exact ⟨0, rfl, by decide⟩
    | some d =>
      have hd16 := hexDigit_lt hd
      exact ⟨h + d, rfl, by omega⟩
  | succ left ih =>
    rw [parseHex4Loop, List.getElem?_eq_getElem (by omega), Option.bind_some]
    cases hd : hexDigit content[pos] with
    | none => exact ⟨0, rfl, by decide⟩
    | some d =>
      have hd16 := hexDigit_lt hd
      have hpow : 16 ^ (4 - left) = 16 * 16 ^ (4 - (left + 1)) := by
        rw [show 4 - left = 4 - (left + 1) + 1 by omega, Nat.pow_succ, Nat.mul_comm]
      dsimp only
      rw [if_pos (Nat.succ_pos left), Nat.shiftLeft_eq]
      apply ih (by omega) (Nat.dvd_mul_left 16 (h + d))
      · omega
      · omega

theorem parseHex4_isSome {pos : Nat} (hpos : pos + 4 ≤ content.length) :
    ∃ n, parseHex4 content pos = some n ∧ n < 0x10000 :=
  parseHex4Loop_isSome hpos (Nat.dvd_zero 16) (by decide) (Nat.le_refl 3)

theorem utf8Length_le (codepoint : Nat) :
    (utf8Length codepoint).1 ≤ 4 ∧ (codepoint < 0x10000 → (utf8Length codepoint).1 ≤ 3) := by
  unfold utf8Length
  split_ifs with h1 h2 h3
  · exact ⟨by decide, fun _ => by decide⟩
  · exact ⟨by decide, fun _ => by decide⟩
  · exact ⟨by decide, fun _ => by decide⟩
  · exact ⟨by decide, fun h => absurd h h3⟩
  · exact ⟨by decide, fun _ => by decide⟩

theorem length_encodeUtf8From (mark pos codepoint : Nat) (behind : Bytes) :
    (encodeUtf8From mark pos codepoint behind).length = pos + 1 + behind.length := by
  induction pos generalizing codepoint behind with
  | zero => rw [encodeUtf8From, List.length_cons, Nat.add_comm, Nat.zero_add]
  | succ pos ih =>
    rw [encodeUtf8From, ih, List.length_cons]
    omega

/-- A literal of `n` bytes, if it is one, stands for no more than `max` bytes. -/
theorem encodeUtf8_le (n : Nat) {codepoint max : Nat} (hmax : (utf8Length codepoint).1 ≤ max) :
    ∃ step bytes, encodeUtf8 n codepoint = (step, bytes) ∧
      (step = 0 ∨ (step = n ∧ bytes.length ≤ max)) := by
  unfold encodeUtf8
  split
  · exact ⟨0, [], rfl, .inl rfl⟩
  · rename_i hlen
    rw [hlen] at hmax
    exact ⟨n, _, rfl, .inr ⟨rfl, hmax⟩⟩
  · rename_i hlen
    rw [hlen] at hmax
    exact ⟨n, _, rfl, .inr ⟨rfl, by rw [length_encodeUtf8From]; exact hmax⟩⟩

/-- `utf16_literal_to_utf8` stays in the literal, and writes no more than half of what it reads. -/
theorem utf16LiteralToUtf8_isSome {first inputEnd : Nat} (hend : inputEnd ≤ content.length) :
    ∃ step bytes, utf16LiteralToUtf8 content first inputEnd = some (step, bytes) ∧
      (step = 0 ∨ (first + step ≤ inputEnd ∧ bytes.length + (step + 1) / 2 ≤ step)) := by
  have hfail : ∃ step bytes, some (0, []) = some (step, bytes) ∧
      (step = 0 ∨ (first + step ≤ inputEnd ∧ bytes.length + (step + 1) / 2 ≤ step)) :=
    ⟨0, ([] : Bytes), rfl, .inl rfl⟩
  unfold utf16LiteralToUtf8
  by_cases hshort : inputEnd < first + 6
  · rw [if_pos hshort]
    exact hfail
  obtain ⟨firstCode, hfirst, hlt⟩ := @parseHex4_isSome content (first + 2) (by omega)
  rw [if_neg hshort, hfirst, Option.bind_some]
  by_cases hlow : 0xdc00 ≤ firstCode ∧ firstCode ≤ 0xdfff
  · rw [if_pos hlow]
    exact hfail
  by_cases hhigh : 0xd800 ≤ firstCode ∧ firstCode ≤ 0xdbff
  · rw [if_neg hlow, if_pos hhigh]
    by_cases hshort2 : inputEnd < first + 6 + 6
    · rw [if_pos hshort2]
      exact hfail
    rw [if_neg hshort2, List.getElem?_eq_getElem (by omega), List.getElem?_eq_getElem (by omega),
      Option.bind_some, Option.bind_some]
    split_ifs
    · exact hfail
    obtain ⟨secondCode, hsecond, -⟩ := @parseHex4_isSome content (first + 6 + 2) (by omega)
    rw [hsecond, Option.bind_some]
    split_ifs
    · exact hfail
    · generalize 0x10000 + ((firstCode &&& 0x3ff) <<< 10 ||| (secondCode &&& 0x3ff)) = codepoint
      obtain ⟨step, bytes, heq, hstep⟩ := encodeUtf8_le 12 (utf8Length_le codepoint).1
      exact ⟨step, bytes, congrArg some heq, by omega⟩
  · rw [if_neg hlow, if_neg hhigh]
    obtain ⟨step, bytes, heq, hstep⟩ := encodeUtf8_le 6 ((utf8Length_le firstCode).2 hlt)
    exact ⟨step, bytes, congrArg some heq, by omega⟩

/-! ## Literals -/

/-- What the first loop of `parse_string` skips of a text; `escaped` if it starts behind a
backslash. -/
def skips : Bool → Bytes → Nat
  | _, [] => 0
  | true, _ :: t => skips false t
  | false, c :: t => if c = backslash then skips true t + 1 else skips false t

/-- Whether the first loop ends behind a backslash. -/
def endsEscaped : Bool → Bytes → Bool
  | escaped, [] => escaped
  | true, _ :: t => endsEscaped false t
  | false, c :: t => endsEscaped (c = backslash) t

theorem endsEscaped_append (escaped : Bool) (t u : Bytes) :
    endsEscaped escaped (t ++ u) = endsEscaped (endsEscaped escaped t) u := by
  induction t generalizing escaped with
  | nil => rfl
  | cons c t ih => cases escaped <;> exact ih _

/-- Of `n` bytes no more than half are skipped. -/
theorem skips_drop (n : Nat) (t : Bytes) :
    skips false t ≤ skips (endsEscaped false (t.take n)) (t.drop n) + (n + 1) / 2 ∧
      skips true t ≤ skips (endsEscaped true (t.take n)) (t.drop n) + n / 2 := by
  induction n generalizing t with
  | zero => exact ⟨Nat.le_refl _, Nat.le_refl _⟩
  | succ n ih =>
    cases t with
    | nil => exact ⟨Nat.zero_le _, Nat.zero_le _⟩
    | cons c t =>
      obtain ⟨hfalse, htrue⟩ := ih t
      rw [List.take_succ_cons, List.drop_succ_cons, skips, skips, endsEscaped, endsEscaped]
      constructor
      · split_ifs with hc
        · rw [decide_eq_true hc]
          omega
        · rw [decide_eq_false hc]
          omega
      · omega

theorem skips_le (escaped : Bool) (t : Bytes) : skips escaped t ≤ t.length := by
  induction t generalizing escaped with
  | nil => cases escaped <;> exact Nat.le_refl _
  | cons c t ih =>
    rw [List.length_cons]
    cases escaped with
    | true => exact (ih false).trans (Nat.le_succ _)
    | false =>
      rw [skips]
      split_ifs
      · exact Nat.succ_le_succ (ih true)
      · exact (ih false).trans (Nat.le_succ _)

theorem literalEnd_spec {t : Bytes} {n skipped : Nat} (h : literalEnd t = some (n, skipped)) :
    t[n]? = some quote ∧ skips false (t.take n) = skipped ∧
      endsEscaped false (t.take n) = false := by
  fun_induction literalEnd t generalizing n skipped with
  | case1 => cases h
  | case2 t => cases h; exact ⟨rfl, rfl, rfl⟩
  | case3 => cases h
  | case4 hquote c t ih =>
    obtain ⟨⟨n', skipped'⟩, htail, heq⟩ := Option.map_eq_some_iff.1 h
    cases heq
    obtain ⟨hend, hskips, hescaped⟩ := ih htail
    exact ⟨hend, congrArg (· + 1) hskips, hescaped⟩
  | case5 c t hquote hbackslash ih =>
    obtain ⟨⟨n', skipped'⟩, htail, heq⟩ := Option.map_eq_some_iff.1 h
    cases heq
    obtain ⟨hend, hskips, hescaped⟩ := ih htail
    refine ⟨hend, ?_, ?_⟩
    · rw [List.take_succ_cons, skips, if_neg hbackslash, hskips]
    · rw [List.take_succ_cons, endsEscaped, decide_eq_false hbackslash, hescaped]

/-- What the second loop keeps: the bytes written and those to come are no more than the first loop
counted. `rest` is the literal from the pointer on. -/
structure Fits (skipped length : Nat) (escaped : Bool) (rest out : Bytes) : Prop where
  closed : endsEscaped escaped rest = false
  room : out.length + skipped + rest.length ≤ length + skips escaped rest

namespace Fits

variable {skipped length : Nat} {escaped : Bool} {c : UInt8} {rest out : Bytes}

theorem length_le (h : Fits skipped length escaped rest out) : out.length + skipped ≤ length := by
  have hroom := h.room
  have hle := skips_le escaped rest
  omega

/-- A character that is copied. -/
theorem plain (h : Fits skipped length escaped (c :: rest) out) (hc : c ≠ backslash) :
    Fits skipped length false rest (out ++ [c]) := by
  obtain ⟨hclosed, hroom⟩ := h
  cases escaped with
  | true =>
    rw [endsEscaped] at hclosed
    rw [skips, List.length_cons] at hroom
    exact ⟨hclosed, by rw [List.length_append, List.length_singleton]; omega⟩
  | false =>
    rw [endsEscaped, decide_eq_false hc] at hclosed
    rw [skips, if_neg hc, List.length_cons] at hroom
    exact ⟨hclosed, by rw [List.length_append, List.length_singleton]; omega⟩

/-- An escape, in or out of step with the first loop. -/
theorem escape {step : Nat} {bytes : Bytes} (h : Fits skipped length escaped rest out)
    (hstep : step ≤ rest.length) (hbytes : bytes.length + (step + 1) / 2 ≤ step) :
    ∃ escaped', Fits skipped length escaped' (rest.drop step) (out ++ bytes) := by
  obtain ⟨hclosed, hroom⟩ := h
  refine ⟨endsEscaped escaped (rest.take step), ?_, ?_⟩
  · rw [← endsEscaped_append, List.take_append_drop]
    exact hclosed
  · have hskips : skips escaped rest ≤
        skips (endsEscaped escaped (rest.take step)) (rest.drop step) + (step + 1) / 2 := by
      cases escaped with
      | false => exact (skips_drop step rest).1
      | true => exact (skips_drop step rest).2.trans (by omega)
    rw [List.length_append, List.length_drop]
    omega

/-- A backslash in front of the quote at the end: the first loop took it for an escaped one. -/
theorem atEnd {b : UInt8} (h : Fits skipped length escaped [backslash] out) :
    Fits skipped length false [] (out ++ [b]) := by
  obtain ⟨hclosed, hroom⟩ := h
  cases escaped with
  | false => cases hclosed
  | true =>
    simp only [skips, List.length_singleton] at hroom
    refine ⟨rfl, ?_⟩
    simp only [skips, List.length_append, List.length_singleton, List.length_nil]
    omega

end Fits

/-- One turn, which does not leave the literal and its quote. -/
theorem Fits.turn {inputEnd pos skipped length : Nat} {escaped : Bool} {out : Bytes}
    (hend : inputEnd < content.length) (hpos : pos < inputEnd)
    (h : Fits skipped length escaped ((content.drop pos).take (inputEnd - pos)) out) :
    ∃ step bytes, unescapeTurn content inputEnd pos = some (step, bytes) ∧ (step = 0 ∨
      ∃ escaped', Fits skipped length escaped'
        ((content.drop (pos + step)).take (inputEnd - (pos + step))) (out ++ bytes)) := by
  have hlen : ((content.drop pos).take (inputEnd - pos)).length = inputEnd - pos := by
    rw [List.length_take, List.length_drop]
    omega
  have hdrop (step : Nat) : ((content.drop pos).take (inputEnd - pos)).drop step =
      (content.drop (pos + step)).take (inputEnd - (pos + step)) := by
    rw [List.drop_take, List.drop_drop, Nat.sub_sub]
  have hcons : (content.drop pos).take (inputEnd - pos) =
      content[pos] :: (content.drop (pos + 1)).take (inputEnd - (pos + 1)) := by
    rw [List.drop_eq_getElem_cons (by omega),
      show inputEnd - pos = inputEnd - (pos + 1) + 1 by omega, List.take_succ_cons]
  rw [unescapeTurn, List.getElem?_eq_getElem (by omega), Option.bind_some]
  by_cases hc : content[pos] = backslash
  · rw [if_neg (not_not.2 hc), List.getElem?_eq_getElem (by omega), Option.bind_some]
    by_cases hu : content[pos + 1] = 0x75
    · rw [if_pos hu]
      obtain ⟨step, bytes, heq, hstep⟩ := @utf16LiteralToUtf8_isSome content pos inputEnd hend.le
      refine ⟨step, bytes, heq, hstep.imp_right ?_⟩
      rintro ⟨hin, hbytes⟩
      rw [← hdrop]
      exact h.escape (by omega) hbytes
    · rw [if_neg hu]
      cases unescaped content[pos + 1] with
      | none => exact ⟨0, [], rfl, .inl rfl⟩
      | some b =>
        refine ⟨2, [b], rfl, .inr ?_⟩
        by_cases hlast : pos + 1 = inputEnd
        · -- the backslash stands in front of the quote at the end
          rw [hcons, hc, show inputEnd - (pos + 1) = 0 by omega, List.take_zero] at h
          rw [show inputEnd - (pos + 2) = 0 by omega, List.take_zero]
          exact ⟨false, h.atEnd⟩
        · rw [← hdrop]
          exact h.escape (by omega) (Nat.le_refl 2)
  · rw [if_pos hc]
    rw [hcons] at h
    exact ⟨1, [content[pos]], rfl, .inr ⟨false, h.plain hc⟩⟩

/-- **The second loop** stays in the literal and in the block. -/
theorem unescape_safe {inputEnd capacity turns pos skipped length : Nat} {escaped : Bool}
    {out : Bytes} (hend : inputEnd < content.length) (hcapacity : length + 1 ≤ capacity + skipped)
    (h : Fits skipped length escaped ((content.drop pos).take (inputEnd - pos)) out) :
    (unescape content inputEnd capacity turns pos out).Safe fun _ _ => True := by
  have hroom {escaped : Bool} {rest out : Bytes} (h : Fits skipped length escaped rest out) :
      out.length < capacity := by
    have hle := h.length_le
    omega
  induction turns generalizing pos escaped out with
  | zero =>
    rw [unescape, if_pos (hroom h)]
    trivial
  | succ turns ih =>
    rw [unescape]
    by_cases hpos : inputEnd ≤ pos
    · rw [if_pos hpos, if_pos (hroom h)]
      trivial
    rw [if_neg hpos]
    obtain ⟨step, bytes, heq, hstep⟩ := h.turn hend (Nat.not_le.1 hpos)
    rw [heq]
    cases step with
    | zero => trivial
    | succ step =>
      obtain ⟨escaped', h'⟩ := hstep.resolve_left (Nat.succ_ne_zero step)
      have hlt := hroom h'
      rw [List.length_append] at hlt
      dsimp only
      rw [if_pos hlt.le]
      exact ih h'

/-- **A literal stays in its block**, for every buffer. -/
theorem parseString_safe (h : offset < content.length) :
    (parseString content offset).Safe fun _ o => offset < o ∧ Behind content o := by
  unfold parseString
  rw [List.getElem?_eq_getElem h]
  dsimp only
  split_ifs
  · trivial
  · cases hend : literalEnd (content.drop (offset + 1)) with
    | none => trivial
    | some e =>
      obtain ⟨length, skipped⟩ := e
      obtain ⟨hquote, hskips, hescaped⟩ := literalEnd_spec hend
      rw [List.getElem?_drop] at hquote
      have hlt := (List.getElem?_eq_some_iff.1 hquote).1
      have hfits : Fits skipped length false
          ((content.drop (offset + 1)).take (offset + 1 + length - (offset + 1))) [] := by
        rw [show offset + 1 + length - (offset + 1) = length by omega]
        refine ⟨hescaped, ?_⟩
        rw [hskips, List.length_take, List.length_nil]
        omega
      refine (unescape_safe hlt ?_ hfits).bind fun out _ _ =>
        ⟨by omega, quote, hquote, by decide⟩
      omega

/-! ## Numbers -/

theorem signOf_prefix_self (s : Bytes) : signOf s <+: s := List.take_prefix _ _

theorem exponentOf_prefix_self (s : Bytes) : exponentOf s <+: s := by
  cases s with
  | nil => exact List.prefix_rfl
  | cons e s =>
    rw [exponentOf]
    split_ifs
    · obtain ⟨t, ht⟩ := List.takeWhile_prefix isDigit (l := s.drop (signOf s).length)
      refine (List.prefix_cons_inj e).2 ⟨t, ?_⟩
      rw [List.append_assoc, ht]
      exact List.prefix_iff_eq_append.1 (signOf_prefix_self s)
    · exact List.nil_prefix

theorem prefix_append {s t u : Bytes} (h : t <+: s) (hu : u <+: s.drop t.length) :
    t ++ u <+: s := by
  obtain ⟨v, hv⟩ := hu
  refine ⟨v, ?_⟩
  rw [List.append_assoc, hv]
  exact List.prefix_iff_eq_append.1 h

theorem fractionOf_prefix_self (s : Bytes) : fractionOf s <+: s := by
  unfold fractionOf
  split_ifs with hpoint
  · cases s with
    | nil => cases hpoint
    | cons b s =>
      rw [List.head?_cons, Option.some.injEq] at hpoint
      rw [hpoint]
      exact (List.prefix_cons_inj _).2 (List.takeWhile_prefix _)
  · exact List.nil_prefix

theorem strtod_prefix_self (s : Bytes) : strtod s <+: s := by
  unfold strtod
  dsimp only
  split_ifs
  · exact List.nil_prefix
  · apply prefix_append (signOf_prefix_self s)
    apply prefix_append (List.takeWhile_prefix _)
    exact prefix_append (fractionOf_prefix_self _) (exponentOf_prefix_self _)

theorem parseNumber_safe {double : Type} (fp : Doubles double) :
    (parseNumber fp content offset).Safe fun item o =>
      offset < o ∧ Behind content o ∧ ∃ text, item = numberItem fp text := by
  unfold parseNumber
  dsimp only
  split_ifs with hnone
  · trivial
  · have hpos := List.length_pos_iff.2 hnone
    have hchars := strtod_prefix_self (((content.drop offset).take numberMax).takeWhile
      isNumberChar)
    have hstarts := (hchars.trans (List.takeWhile_prefix isNumberChar)).trans
      (List.take_prefix _ _)
    refine ⟨by omega, behind_of_prefix_self hstarts hnone fun c hc => ?_, _, rfl⟩
    rintro rfl
    exact absurd (List.mem_takeWhile_imp (hchars.subset hc)) (by decide)

end

/-! ## The nesting of items -/

mutual

/-- How deep an item is nested. -/
def Item.depth {double : Type} : Item double → Nat
  | .null | .bool _ | .number _ _ | .string _ => 0
  | .array child => itemsDepth child + 1
  | .object child => membersDepth child + 1

def itemsDepth {double : Type} : List (Item double) → Nat
  | [] => 0
  | item :: items => max item.depth (itemsDepth items)

def membersDepth {double : Type} : List (Bytes × Item double) → Nat
  | [] => 0
  | (_, item) :: members => max item.depth (membersDepth members)

end

theorem itemsDepth_le {double : Type} {items : List (Item double)} {n : Nat}
    (h : ∀ item ∈ items, item.depth ≤ n) :
    itemsDepth items ≤ n := by
  induction items with
  | nil => exact Nat.zero_le n
  | cons item items ih =>
    rw [itemsDepth]
    exact Nat.max_le.2 ⟨h item List.mem_cons_self, ih fun i hi => h i (List.mem_cons_of_mem _ hi)⟩

theorem membersDepth_le {double : Type} {members : List (Bytes × Item double)} {n : Nat}
    (h : ∀ m ∈ members, m.2.depth ≤ n) : membersDepth members ≤ n := by
  induction members with
  | nil => exact Nat.zero_le n
  | cons m members ih =>
    rw [membersDepth]
    exact Nat.max_le.2 ⟨h m List.mem_cons_self, ih fun i hi => h i (List.mem_cons_of_mem _ hi)⟩

/-! ## The parser -/

section
variable {content : Bytes} {offset : Nat} {α : Type} {element : Nat → Result α} {P : α → Prop}
  {double : Type} {fp : Doubles double} {value : Nat → Result (Item double)} {levels : Nat}

/-- What an element parser does: it moves on in the buffer, and what it returns is as `P` says. -/
def Moves (content : Bytes) (element : Nat → Result α) (P : α → Prop) (offset : Nat) : Prop :=
  (element offset).Safe fun a o => offset < o ∧ Behind content o ∧ P a

theorem parseElements_safe (hlast : content.getLast? ≠ some comma)
    (helement : ∀ o < content.length, Moves content element P o) {turns : Nat} {items : List α}
    (hitems : ∀ a ∈ items, P a) (hoffset : offset + 1 < content.length)
    (hturns : content.length ≤ offset + turns) :
    (parseElements content element turns offset items).Safe fun items o =>
      offset < o ∧ o ≤ content.length ∧ ∀ a ∈ items, P a := by
  induction turns generalizing offset items with
  | zero => omega
  | succ turns ih =>
    rw [parseElements]
    refine (helement _ (skip_lt hoffset)).bind fun a o ⟨hlt, hend, ha⟩ => ?_
    have hskip := @le_skip content (offset + 1)
    have hskip' := @le_skip content o
    have hle' := skip_le hend.le
    have hitems' : ∀ a' ∈ items ++ [a], P a' := by
      intro a' ha'
      rcases List.mem_append.1 ha' with hmem | hmem
      · exact hitems a' hmem
      · exact List.mem_singleton.1 hmem ▸ ha
    dsimp only
    split_ifs with hcomma
    · -- the comma is not the last byte of the buffer
      have hin : bufferSkipWhitespace content o < content.length :=
        (List.getElem?_eq_some_iff.1 hcomma).1
      have hnext : bufferSkipWhitespace content o + 1 ≠ content.length := by
        intro heq
        rw [List.getLast?_eq_getElem?, ← heq, Nat.add_sub_cancel] at hlast
        exact hlast hcomma
      refine (ih hitems' (by omega) (by omega)).mono ?_
      rintro items o ⟨h1, h2, h3⟩
      exact ⟨by omega, h2, h3⟩
    · exact ⟨by omega, hle', hitems'⟩

theorem parseContainer_safe (hlast : content.getLast? ≠ some comma) {closing : UInt8}
    (hnul : closing ≠ 0) (helement : ∀ o < content.length, Moves content element P o) :
    (parseContainer content closing element offset).Safe fun items o =>
      offset < o ∧ Behind content o ∧ ∀ a ∈ items, P a := by
  have hskip := @le_skip content (offset + 1)
  unfold parseContainer
  dsimp only
  split_ifs with hclosing hout
  · exact ⟨by omega, ⟨closing, hclosing, hnul⟩, fun _ h => absurd h List.not_mem_nil⟩
  · trivial
  · refine (parseElements_safe hlast helement (fun _ h => absurd h List.not_mem_nil)
      (by omega) (by omega)).bind ?_
    rintro items o ⟨hlt, hle, hitems⟩
    split_ifs with hend
    · exact ⟨by omega, ⟨closing, hend, hnul⟩, hitems⟩
    · trivial

theorem parseMember_safe {P : Item double → Prop} (hvalue : ∀ o, Moves content value P o)
    (hoffset : offset < content.length) :
    Moves content (parseMember content value) (fun m => P m.2) offset := by
  refine (parseString_safe hoffset).bind ?_
  rintro name o ⟨hlt, hle⟩
  have hskip := @le_skip content o
  dsimp only
  split_ifs
  · trivial
  · have hskip' := @le_skip content (bufferSkipWhitespace content o + 1)
    refine (hvalue _).map ?_
    rintro item o' ⟨hlt', hle', hitem⟩
    exact ⟨by omega, hle', hitem⟩

theorem hasLiteral_behind {word : String} (h : hasLiteral content offset word)
    (hne : ascii word ≠ []) (hword : ∀ c ∈ ascii word, c ≠ 0) :
    Behind content (offset + (ascii word).length) :=
  behind_of_prefix_self (List.isPrefixOf_iff_prefix.1 h) hne hword

/-- A value, by the values one level below. -/
theorem parseValue_step (hlast : content.getLast? ≠ some comma)
    (ih : ∀ levels', levels = levels' + 1 →
      ∀ o, Moves content (parseValue fp content levels') (·.depth ≤ levels') o) :
    Moves content (parseValue fp content levels) (·.depth ≤ levels) offset := by
  unfold Moves parseValue
  split_ifs with hnull hfalse htrue
  · exact ⟨by omega, hasLiteral_behind hnull (by decide) (by decide +kernel), Nat.zero_le levels⟩
  · exact ⟨by omega, hasLiteral_behind hfalse (by decide) (by decide +kernel), Nat.zero_le levels⟩
  · exact ⟨by omega, hasLiteral_behind htrue (by decide) (by decide +kernel), Nat.zero_le levels⟩
  split
  · trivial
  rename_i c hc
  have hoffset : offset < content.length := (List.getElem?_eq_some_iff.1 hc).1
  split_ifs with hquote hnumber hbracket hbrace
  · refine (parseString_safe hoffset).map ?_
    rintro s o ⟨hlt, hle⟩
    exact ⟨hlt, hle, Nat.zero_le levels⟩
  · refine (parseNumber_safe fp).mono ?_
    rintro item o ⟨hlt, hle, text, rfl⟩
    exact ⟨hlt, hle, Nat.zero_le levels⟩
  · cases levels with
    | zero => trivial
    | succ levels =>
      dsimp only
      rw [parseArray, hc]
      dsimp only
      rw [if_neg (not_not.2 hbracket)]
      refine (parseContainer_safe hlast (by decide) fun o _ => ih levels rfl o).map ?_
      rintro items o ⟨hlt, hle, hitems⟩
      exact ⟨hlt, hle, Nat.succ_le_succ (itemsDepth_le hitems)⟩
  · cases levels with
    | zero => trivial
    | succ levels =>
      dsimp only
      rw [parseObject, hc, if_neg (not_not.2 (congrArg some hbrace))]
      have hmember : ∀ o < content.length, Moves content
          (parseMember content (parseValue fp content levels)) (fun m => m.2.depth ≤ levels) o :=
        fun o ho => parseMember_safe (ih levels rfl) ho
      refine (parseContainer_safe hlast (by decide) hmember).map ?_
      rintro members o ⟨hlt, hle, hmembers⟩
      exact ⟨hlt, hle, Nat.succ_le_succ (membersDepth_le hmembers)⟩
  · trivial

/-- **The parser stays in its buffer**, if it does not end with a comma, and its items are nested
no deeper than it may go. -/
theorem parseValue_safe (hlast : content.getLast? ≠ some comma) (levels offset : Nat) :
    Moves content (parseValue fp content levels) (·.depth ≤ levels) offset := by
  induction levels generalizing offset with
  | zero => exact parseValue_step hlast fun levels' h => absurd h (Nat.succ_ne_zero levels').symm
  | succ levels ih =>
    apply parseValue_step hlast
    intro levels' h o
    cases h
    exact ih o

end

/-! ## The entry points -/

/-- What a caller gets: an end in the buffer, and an item or the position of an error. -/
structure Parsed.Ok {double : Type} (content : Bytes) (p : Parsed double) : Prop where
  parseEnd_lt : p.parseEnd < content.length
  error : p.item = none → p.errorPosition = some p.parseEnd
  depth_le : ∀ item, p.item = some item → item.depth ≤ nestingLimit

theorem parseFailure_ok {double : Type} {content : Bytes} (hne : content ≠ []) (offset : Nat) :
    (parseFailure content offset : Parsed double).Ok content := by
  have hpos := List.length_pos_iff.2 hne
  refine ⟨?_, fun _ => rfl, fun _ h => by cases h⟩
  unfold parseFailure
  dsimp only
  split_ifs with hin
  · exact hin
  · omega

theorem Behind.lt {content : Bytes} {offset : Nat} (h : Behind content offset)
    (hlast : content.getLast? = some 0) : offset < content.length := by
  refine Nat.lt_of_le_of_ne h.le ?_
  rintro rfl
  obtain ⟨c, hc, hne⟩ := h
  rw [← List.getLast?_eq_getElem?, hlast, Option.some.injEq] at hc
  exact hne hc.symm

/-- **A terminated buffer is parsed without leaving it.** -/
theorem cJSONParseWithLengthOpts_ok {double : Type} (fp : Doubles double) {content : Bytes}
    (hlast : content.getLast? = some 0) (requireNullTerminated : Bool) :
    ∃ p, cJSONParseWithLengthOpts fp content requireNullTerminated = some p ∧ p.Ok content := by
  have hne : content ≠ [] := by
    rintro rfl
    cases hlast
  have hcomma : content.getLast? ≠ some comma := by
    rw [hlast]
    decide
  have h := @parseValue_safe content double fp hcomma nestingLimit
    (bufferSkipWhitespace content (skipUtf8Bom content))
  unfold Moves at h
  unfold cJSONParseWithLengthOpts
  rw [if_neg hne]
  generalize parseValue fp content nestingLimit
    (bufferSkipWhitespace content (skipUtf8Bom content)) = r at h
  cases r with
  | fault => cases h
  | fail offset => exact ⟨_, rfl, parseFailure_ok hne offset⟩
  | ok item offset =>
    obtain ⟨-, hend, hdepth⟩ := h
    have hitem {o : Nat} (ho : o < content.length) : Parsed.Ok content ⟨some item, o, none⟩ := by
      refine ⟨ho, nofun, ?_⟩
      rintro item' heq
      cases heq
      exact hdepth
    dsimp only
    split_ifs with hnull hzero
    · exact ⟨_, rfl, hitem (List.getElem?_eq_some_iff.1 hzero).1⟩
    · exact ⟨_, rfl, parseFailure_ok hne _⟩
    · exact ⟨_, rfl, hitem (hend.lt hlast)⟩

/-- **A C string is parsed without leaving it**: every access is inside of the string and its
terminator, and of the blocks that were allocated. -/
theorem cJSONParseWithOpts_safe {double : Type} (fp : Doubles double) (value : Bytes)
    (requireNullTerminated : Bool) :
    ∃ p, cJSONParseWithOpts fp value requireNullTerminated = some p ∧
      p.Ok (Crypto.cString value ++ [0]) := by
  exact cJSONParseWithLengthOpts_ok fp List.getLast?_concat requireNullTerminated

/-- Without a terminator a comma at the end is followed out of the buffer. -/
example : (cJSONParseWithLengthOpts wholeDoubles (leftBrace :: ascii "\"a\":1,") false).isNone := by
  decide +kernel

end CJson
