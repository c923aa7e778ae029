import CarplayRelay.Lib.Bytes
import Mathlib.Data.List.Basic
import Mathlib.Tactic.IntervalCases

/-!
# Base64 (`base64.c`)

`base64Encode` writes four characters for every three bytes and breaks its lines; `base64Decode`
skips every character outside the alphabet.

* `base64Decode_base64Encode`: decoding inverts encoding, also after the line breaks were removed.
* `base64Decode_eq_some`: whole groups are decoded from exactly one text, up to other characters.
-/

namespace Base64

open Bytes

/-- `base64_table`. -/
def table : Bytes := ascii "ABCDEFGHIJKLMNOPQRSTUVWXYZabcdefghijklmnopqrstuvwxyz0123456789+/"

def tableAt (i : UInt8) : UInt8 := table.getD i.toNat 0

/-- `'\n'`, `'\r'`, `'='`. -/
def newline : UInt8 := 10
def carriageReturn : UInt8 := 13
def equals : UInt8 := 61

/-- The loop of `base64_encode` and what follows it, from `in` on. -/
def encodeFrom : Bytes → Nat → Bytes
  | a :: b :: c :: rest, lineLen =>
    tableAt (a >>> 2) :: tableAt (((a &&& 0x03) <<< 4) ||| (b >>> 4)) ::
      tableAt (((b &&& 0x0f) <<< 2) ||| (c >>> 6)) :: tableAt (c &&& 0x3f) ::
      if lineLen + 4 ≥ 72 then newline :: encodeFrom rest 0 else encodeFrom rest (lineLen + 4)
  | [a, b], _ =>
    [tableAt (a >>> 2), tableAt (((a &&& 0x03) <<< 4) ||| (b >>> 4)),
      tableAt ((b &&& 0x0f) <<< 2), equals, newline]
  | [a], _ => [tableAt (a >>> 2), tableAt ((a &&& 0x03) <<< 4), equals, equals, newline]
  | [], lineLen => if lineLen ≠ 0 then [newline] else []

/-- `olen`, a `size_t`. -/
def encodedSize (len : Nat) : Nat :=
  let olen := (len * 4 % 2 ^ 64 / 3 + 4) % 2 ^ 64
  (olen + olen / 72 + 1) % 2 ^ 64

/-- `base64_encode`; `mallocOk` is the outcome of its `malloc`. -/
def base64Encode (mallocOk : Bool) (src : Bytes) : Option Bytes :=
  if encodedSize src.length < src.length then none
  else if !mallocOk then none
  else some (encodeFrom src 0)

/-- `dtable`. -/
def dtable (b : UInt8) : UInt8 :=
  if b = equals then 0 else if b ∈ table then (table.idxOf b).toUInt8 else 0x80

/-- The second loop of `base64_decode`: `block` are the `count` values of the current group. -/
def decodeLoop : Bytes → Bytes → Nat → Bytes → Option Bytes
  | [], _, _, out => some out
  | b :: rest, block, pad, out =>
    let tmp := dtable b
    if tmp = 0x80 then decodeLoop rest block pad out
    else
      let pad := if b = equals then pad + 1 else pad
      let block := block ++ [tmp]
      if block.length = 4 then
        let out := out ++ [(block.byteAt 0 <<< 2) ||| (block.byteAt 1 >>> 4),
          (block.byteAt 1 <<< 4) ||| (block.byteAt 2 >>> 2),
          (block.byteAt 2 <<< 6) ||| block.byteAt 3]
        if pad = 0 then decodeLoop rest [] pad out
        else if pad = 1 then some (out.take (out.length - 1))
        else if pad = 2 then some (out.take (out.length - 2))
        else none
      else decodeLoop rest block pad out

/-- `base64_decode`; `mallocOk` is the outcome of its `malloc`. -/
def base64Decode (mallocOk : Bool) (src : Bytes) : Option Bytes :=
  let count := src.countP (dtable · ≠ 0x80)
  if count = 0 ∨ count % 4 ≠ 0 then none
  else if !mallocOk then none
  else decodeLoop src [] 0 []

/-! ## The alphabet -/

theorem dtable_tableAt {i : UInt8} (h : i < 64) : dtable (tableAt i) = i := by
  have key : ∀ j : Fin 64, dtable (tableAt j.val.toUInt8) = j.val.toUInt8 := by decide +kernel
  simpa using key ⟨i.toNat, h⟩

theorem tableAt_ne_equals {i : UInt8} (h : i < 64) : tableAt i ≠ equals := by
  have key : ∀ j : Fin 64, tableAt j.val.toUInt8 ≠ equals := by decide +kernel
  simpa using key ⟨i.toNat, h⟩

theorem dtable_equals : dtable equals = 0 := by decide

theorem dtable_newline : dtable newline = 0x80 := by decide

/-- The four values of three bytes. -/
theorem sextets (a b c : UInt8) :
    a >>> 2 < 64 ∧ ((a &&& 0x03) <<< 4) ||| (b >>> 4) < 64 ∧
      ((b &&& 0x0f) <<< 2) ||| (c >>> 6) < 64 ∧ c &&& 0x3f < 64 := by
  have ha := a.toNat_lt
  have hb := b.toNat_lt
  have hc := c.toNat_lt
  have h3 : a.toNat &&& 3 ≤ 3 := Nat.and_le_right
  have hf : b.toNat &&& 15 ≤ 15 := Nat.and_le_right
  have h3f : c.toNat &&& 63 ≤ 63 := Nat.and_le_right
  simp only [UInt8.lt_iff_toNat_lt, UInt8.toNat_or, UInt8.toNat_and, UInt8.toNat_shiftLeft,
    UInt8.toNat_shiftRight, UInt8.reduceToNat, Nat.reduceMod, Nat.shiftLeft_eq,
    Nat.shiftRight_eq_div_pow, Nat.reducePow]
  refine ⟨by omega, ?_, ?_, by omega⟩ <;>
    exact Nat.or_lt_two_pow (n := 6) (by omega) (by omega)

theorem unsextets (a b c : UInt8) :
    ((a >>> 2) <<< 2) ||| ((((a &&& 0x03) <<< 4) ||| (b >>> 4)) >>> 4) = a ∧
      ((((a &&& 0x03) <<< 4) ||| (b >>> 4)) <<< 4) |||
        ((((b &&& 0x0f) <<< 2) ||| (c >>> 6)) >>> 2) = b ∧
      ((((b &&& 0x0f) <<< 2) ||| (c >>> 6)) <<< 6) ||| (c &&& 0x3f) = c := by
  refine ⟨?_, ?_, ?_⟩ <;> apply UInt8.toBitVec_inj.1 <;> apply BitVec.eq_of_getLsbD_eq <;>
    intro i hi <;> interval_cases i <;> simp

/-! ## Decoding an encoded text -/

theorem ne_skip {i : UInt8} (h : i < 64) : i ≠ 0x80 := by rintro rfl; exact absurd h (by decide)

section
variable {w x y z : UInt8} (out rest : Bytes)

theorem decodeLoop_group (hw : w < 64) (hx : x < 64) (hy : y < 64) (hz : z < 64) :
    decodeLoop (tableAt w :: tableAt x :: tableAt y :: tableAt z :: rest) [] 0 out =
      decodeLoop rest [] 0
        (out ++ [(w <<< 2) ||| (x >>> 4), (x <<< 4) ||| (y >>> 2), (y <<< 6) ||| z]) := by
  simp [decodeLoop, dtable_tableAt, tableAt_ne_equals, ne_skip, hw, hx, hy, hz]

theorem decodeLoop_pad1 (hw : w < 64) (hx : x < 64) (hy : y < 64) :
    decodeLoop (tableAt w :: tableAt x :: tableAt y :: equals :: rest) [] 0 out =
      some (out ++ [(w <<< 2) ||| (x >>> 4), (x <<< 4) ||| (y >>> 2)]) := by
  simp [decodeLoop, dtable_tableAt, tableAt_ne_equals, ne_skip, hw, hx, hy, dtable_equals,
    List.take_append, List.take_of_length_le]

theorem decodeLoop_pad2 (hw : w < 64) (hx : x < 64) :
    decodeLoop (tableAt w :: tableAt x :: equals :: equals :: rest) [] 0 out =
      some (out ++ [(w <<< 2) ||| (x >>> 4)]) := by
  simp [decodeLoop, dtable_tableAt, tableAt_ne_equals, ne_skip, hw, hx, dtable_equals,
    List.take_append, List.take_of_length_le]

theorem decodeLoop_newline : decodeLoop (newline :: rest) [] 0 out = decodeLoop rest [] 0 out := by
  simp [decodeLoop, dtable_newline]

end

theorem decodeLoop_encodeFrom (src out : Bytes) (lineLen : Nat) :
    decodeLoop (encodeFrom src lineLen) [] 0 out = some (out ++ src) := by
  induction src, lineLen using encodeFrom.induct generalizing out with
  | case1 a b c rest lineLen ih0 ih =>
    obtain ⟨hw, hx, hy, hz⟩ := sextets a b c
    obtain ⟨ha, hb, hc⟩ := unsextets a b c
    simp only [encodeFrom, decodeLoop_group out _ hw hx hy hz, ha, hb, hc]
    split
    · rw [decodeLoop_newline, ih0]
      simp
    · rw [ih]
      simp
  | case2 a b =>
    obtain ⟨hw, hx, hy, -⟩ := sextets a b 0
    obtain ⟨ha, hb, -⟩ := unsextets a b 0
    simp only [UInt8.zero_shiftRight, UInt8.or_zero] at hy hb
    rw [encodeFrom, decodeLoop_pad1 out _ hw hx hy, ha, hb]
  | case3 a =>
    obtain ⟨hw, hx, -, -⟩ := sextets a 0 0
    obtain ⟨ha, -, -⟩ := unsextets a 0 0
    simp only [UInt8.zero_shiftRight, UInt8.or_zero] at hx ha
    rw [encodeFrom, decodeLoop_pad2 out _ hw hx, ha]
  | case4 lineLen h => simp [encodeFrom, h, decodeLoop, dtable_newline]
  | case5 lineLen h => simp [encodeFrom, not_not.1 h, decodeLoop]

/-- How many characters of the alphabet a text has. -/
def count (src : Bytes) : Nat := src.countP (dtable · ≠ 0x80)

theorem count_encodeFrom (src : Bytes) (lineLen : Nat) :
    count (encodeFrom src lineLen) % 4 = 0 ∧ (src ≠ [] → count (encodeFrom src lineLen) ≠ 0) := by
  have hadd (w x y z : UInt8) (rest : Bytes) (hw : dtable w ≠ 0x80) (hx : dtable x ≠ 0x80)
      (hy : dtable y ≠ 0x80) (hz : dtable z ≠ 0x80) :
      count (w :: x :: y :: z :: rest) = count rest + 4 := by
    simp [count, hw, hx, hy, hz]
  have hnl (rest : Bytes) : count (newline :: rest) = count rest := by
    simp [count, dtable_newline]
  have htable {i : UInt8} (h : i < 64) : dtable (tableAt i) ≠ 0x80 := by
    rw [dtable_tableAt h]; exact ne_skip h
  have heq : dtable equals ≠ 0x80 := by decide
  induction src, lineLen using encodeFrom.induct with
  | case1 a b c rest lineLen ih0 ih =>
    obtain ⟨hw, hx, hy, hz⟩ := sextets a b c
    rw [encodeFrom, hadd _ _ _ _ _ (htable hw) (htable hx) (htable hy) (htable hz)]
    refine ⟨?_, fun _ => by omega⟩
    split
    · rw [hnl]; omega
    · omega
  | case2 a b =>
    obtain ⟨hw, hx, hy, -⟩ := sextets a b 0
    simp only [UInt8.zero_shiftRight, UInt8.or_zero] at hy
    rw [encodeFrom, hadd _ _ _ _ _ (htable hw) (htable hx) (htable hy) heq, hnl]
    simp [count]
  | case3 a =>
    obtain ⟨hw, hx, -, -⟩ := sextets a 0 0
    simp only [UInt8.zero_shiftRight, UInt8.or_zero] at hx
    rw [encodeFrom, hadd _ _ _ _ _ (htable hw) (htable hx) heq heq, hnl]
    simp [count]
  | case4 lineLen h => simp [encodeFrom, h, count, dtable_newline]
  | case5 lineLen h => simp [encodeFrom, not_not.1 h, count]

theorem mem_encodeFrom {src : Bytes} {lineLen : Nat} {ch : UInt8}
    (h : ch ∈ encodeFrom src lineLen) : ch = newline ∨ dtable ch ≠ 0x80 := by
  have htable {i : UInt8} (hi : i < 64) : dtable (tableAt i) ≠ 0x80 := by
    rw [dtable_tableAt hi]; exact ne_skip hi
  have heq : dtable equals ≠ 0x80 := by decide
  induction src, lineLen using encodeFrom.induct with
  | case1 a b c rest lineLen ih0 ih =>
    obtain ⟨hw, hx, hy, hz⟩ := sextets a b c
    simp only [encodeFrom, List.mem_cons] at h
    rcases h with rfl | rfl | rfl | rfl | h
    · exact .inr (htable hw)
    · exact .inr (htable hx)
    · exact .inr (htable hy)
    · exact .inr (htable hz)
    · split at h
      · rcases List.mem_cons.1 h with rfl | h
        · exact .inl rfl
        · exact ih0 h
      · exact ih h
  | case2 a b =>
    obtain ⟨hw, hx, hy, -⟩ := sextets a b 0
    simp only [UInt8.zero_shiftRight, UInt8.or_zero] at hy
    simp only [encodeFrom, List.mem_cons, List.not_mem_nil, or_false] at h
    rcases h with rfl | rfl | rfl | rfl | rfl
    exacts [.inr (htable hw), .inr (htable hx), .inr (htable hy), .inr heq, .inl rfl]
  | case3 a =>
    obtain ⟨hw, hx, -, -⟩ := sextets a 0 0
    simp only [UInt8.zero_shiftRight, UInt8.or_zero] at hx
    simp only [encodeFrom, List.mem_cons, List.not_mem_nil, or_false] at h
    rcases h with rfl | rfl | rfl | rfl | rfl
    exacts [.inr (htable hw), .inr (htable hx), .inr heq, .inr heq, .inl rfl]
  | case4 lineLen hl =>
    simp only [encodeFrom, if_pos hl, List.mem_singleton] at h
    exact .inl h
  | case5 lineLen hl => simp [encodeFrom, not_not.1 hl] at h

theorem decodeLoop_filter {p : UInt8 → Bool} (hp : ∀ b, dtable b ≠ 0x80 → p b = true)
    (src block out : Bytes) (pad : Nat) :
    decodeLoop (src.filter p) block pad out = decodeLoop src block pad out := by
  induction src generalizing block pad out with
  | nil => rfl
  | cons b rest ih =>
    by_cases hb : dtable b = 0x80
    · cases hpb : p b <;> simp [hpb, decodeLoop, hb, ih]
    · simp only [List.filter_cons, hp b hb, if_true, decodeLoop, hb, if_false, ih]

/-- **Decoding inverts encoding**, with or without the line breaks. -/
theorem base64Decode_base64Encode {src enc : Bytes} (hne : src ≠ [])
    (h : base64Encode true src = some enc) {p : UInt8 → Bool}
    (hp : ∀ b, dtable b ≠ 0x80 → p b = true) :
    base64Decode true (enc.filter p) = some src := by
  simp only [base64Encode, Bool.not_true, Bool.false_eq_true, if_false,
    Option.ite_none_left_eq_some, Option.some.injEq] at h
  obtain ⟨-, rfl⟩ := h
  obtain ⟨h4, h0⟩ := count_encodeFrom src 0
  have hcount : count ((encodeFrom src 0).filter p) = count (encodeFrom src 0) := by
    rw [count, List.countP_filter, count]
    congr 1
    funext b
    by_cases hb : dtable b = 0x80 <;> simp [hb, hp]
  simp only [base64Decode]
  rw [← count, hcount, if_neg (by simp [h4, h0 hne])]
  simp [decodeLoop_filter hp, decodeLoop_encodeFrom]

/-! ## Texts in base64 -/

/-- A digit in base 64. -/
def digit (n : Nat) : UInt8 := table.getD (n % 64) 0

/-- Base64 without line breaks: three bytes are a number of four digits in base 64, and fewer bytes
at the end are padded. -/
def textOf : Bytes → Bytes
  | a :: b :: c :: rest =>
    let n := 2 ^ 16 * a.toNat + 2 ^ 8 * b.toNat + c.toNat
    digit (n / 64 ^ 3) :: digit (n / 64 ^ 2) :: digit (n / 64) :: digit n :: textOf rest
  | [a, b] =>
    let n := 2 ^ 16 * a.toNat + 2 ^ 8 * b.toNat
    [digit (n / 64 ^ 3), digit (n / 64 ^ 2), digit (n / 64), equals]
  | [a] =>
    let n := 2 ^ 16 * a.toNat
    [digit (n / 64 ^ 3), digit (n / 64 ^ 2), equals, equals]
  | [] => []

theorem sextets_digit (a b c : UInt8) :
    tableAt (a >>> 2) = digit ((2 ^ 16 * a.toNat + 2 ^ 8 * b.toNat + c.toNat) / 64 ^ 3) ∧
      tableAt (((a &&& 0x03) <<< 4) ||| (b >>> 4)) =
        digit ((2 ^ 16 * a.toNat + 2 ^ 8 * b.toNat + c.toNat) / 64 ^ 2) ∧
      tableAt (((b &&& 0x0f) <<< 2) ||| (c >>> 6)) =
        digit ((2 ^ 16 * a.toNat + 2 ^ 8 * b.toNat + c.toNat) / 64) ∧
      tableAt (c &&& 0x3f) = digit (2 ^ 16 * a.toNat + 2 ^ 8 * b.toNat + c.toNat) := by
  have ha := a.toNat_lt
  have hb := b.toNat_lt
  have hc := c.toNat_lt
  have h3 (n : Nat) : n &&& 3 = n % 4 := Nat.and_two_pow_sub_one_eq_mod n 2
  have hf (n : Nat) : n &&& 15 = n % 16 := Nat.and_two_pow_sub_one_eq_mod n 4
  have h3f (n : Nat) : n &&& 63 = n % 64 := Nat.and_two_pow_sub_one_eq_mod n 6
  have hor4 {m n : Nat} (hn : n < 16) : m * 16 ||| n = m * 16 + n := by
    have := Nat.shiftLeft_add_eq_or_of_lt (i := 4) hn m
    rw [Nat.shiftLeft_eq] at this
    exact this.symm
  have hor2 {m n : Nat} (hn : n < 4) : m * 4 ||| n = m * 4 + n := by
    have := Nat.shiftLeft_add_eq_or_of_lt (i := 2) hn m
    rw [Nat.shiftLeft_eq] at this
    exact this.symm
  have hmod4 : a.toNat % 4 * 16 % 256 = a.toNat % 4 * 16 := by omega
  have hmod2 : b.toNat % 16 * 4 % 256 = b.toNat % 16 * 4 := by omega
  simp only [tableAt, digit, UInt8.toNat_or, UInt8.toNat_and, UInt8.toNat_shiftLeft,
    UInt8.toNat_shiftRight, UInt8.reduceToNat, Nat.reduceMod, Nat.shiftLeft_eq,
    Nat.shiftRight_eq_div_pow, Nat.reducePow, h3, hf, h3f]
  rw [hmod4, hmod2, hor4 (by omega), hor2 (by omega)]
  refine ⟨?_, ?_, ?_, ?_⟩ <;> congr 1 <;> omega

/-- A character that counts. -/
def isCharacter (b : UInt8) : Bool := b = equals ∨ b ∈ table

theorem isCharacter_iff (b : UInt8) : isCharacter b = true ↔ dtable b ≠ 0x80 := by
  revert b
  apply forall_byte
  decide +kernel

theorem filter_encodeFrom (src : Bytes) (lineLen : Nat) :
    (encodeFrom src lineLen).filter isCharacter = textOf src := by
  have htable {i : UInt8} (h : i < 64) : isCharacter (tableAt i) = true := by
    rw [isCharacter_iff, dtable_tableAt h]
    exact ne_skip h
  have heq : isCharacter equals = true := by decide
  have hnl : isCharacter newline = false := by decide
  induction src, lineLen using encodeFrom.induct with
  | case1 a b c rest lineLen ih0 ih =>
    obtain ⟨hw, hx, hy, hz⟩ := sextets a b c
    obtain ⟨hw', hx', hy', hz'⟩ := sextets_digit a b c
    simp only [encodeFrom, textOf, ← hw', ← hx', ← hy', ← hz', List.filter_cons, htable, hw, hx, hy,
      hz, if_true, List.cons.injEq, true_and]
    split
    · rwa [List.filter_cons_of_neg (by rw [hnl]; decide)]
    · exact ih
  | case2 a b =>
    obtain ⟨hw, hx, hy, -⟩ := sextets a b 0
    obtain ⟨hw', hx', hy', -⟩ := sextets_digit a b 0
    simp only [UInt8.zero_shiftRight, UInt8.or_zero, UInt8.toNat_zero, Nat.add_zero]
      at hy hw' hx' hy'
    simpa [encodeFrom, textOf, htable, hw, hx, hy, heq, hnl] using ⟨hw', hx', hy'⟩
  | case3 a =>
    obtain ⟨hw, hx, -, -⟩ := sextets a 0 0
    obtain ⟨hw', hx', -, -⟩ := sextets_digit a 0 0
    simp only [UInt8.zero_shiftRight, UInt8.or_zero, UInt8.toNat_zero, Nat.mul_zero,
      Nat.add_zero] at hx hw' hx'
    simpa [encodeFrom, textOf, htable, hw, hx, heq, hnl] using ⟨hw', hx'⟩
  | case4 lineLen h => simp [encodeFrom, h, hnl, textOf]
  | case5 lineLen h => simp [encodeFrom, not_not.1 h, textOf]

/-- One group of four. -/
theorem decodeLoop_four {w x y z : UInt8} (hall : ∀ b ∈ [w, x, y, z], isCharacter b = true)
    (rest out : Bytes) :
    decodeLoop (w :: x :: y :: z :: rest) [] 0 out =
      let group := [(dtable w <<< 2) ||| (dtable x >>> 4), (dtable x <<< 4) ||| (dtable y >>> 2),
        (dtable y <<< 6) ||| dtable z]
      match [w, x, y, z].count equals with
      | 0 => decodeLoop rest [] 0 (out ++ group)
      | 1 => some (out ++ group.take 2)
      | 2 => some (out ++ group.take 1)
      | _ => none := by
  simp only [List.forall_mem_cons, isCharacter_iff] at hall
  obtain ⟨hw, hx, hy, hz, -⟩ := hall
  by_cases hw' : w = equals <;> by_cases hx' : x = equals <;> by_cases hy' : y = equals <;>
    by_cases hz' : z = equals <;>
    simp [decodeLoop, hw, hx, hy, hz, hw', hx', hy', hz', List.take_append,
      List.take_of_length_le, dtable_equals]

/-- The values of the three bytes of a group. -/
theorem resextets (w x y z : UInt8) :
    let w := w &&& 0x3f
    let x := x &&& 0x3f
    let y := y &&& 0x3f
    let z := z &&& 0x3f
    let a := (w <<< 2) ||| (x >>> 4)
    let b := (x <<< 4) ||| (y >>> 2)
    let c := (y <<< 6) ||| z
    a >>> 2 = w ∧ ((a &&& 0x03) <<< 4) ||| (b >>> 4) = x ∧
      ((b &&& 0x0f) <<< 2) ||| (c >>> 6) = y ∧ c &&& 0x3f = z := by
  refine ⟨?_, ?_, ?_, ?_⟩ <;> apply UInt8.toBitVec_inj.1 <;> apply BitVec.eq_of_getLsbD_eq <;>
    intro i hi <;> interval_cases i <;> simp

theorem tableAt_dtable {b : UInt8} (h : isCharacter b = true) (hne : b ≠ equals) :
    tableAt (dtable b) = b ∧ dtable b &&& 0x3f = dtable b := by
  revert b
  apply forall_byte
  decide +kernel

/-- Whole groups of three bytes are decoded from their text only. -/
theorem textOf_of_decodeLoop : ∀ {chars acc out : Bytes},
    (∀ b ∈ chars, isCharacter b = true) → 4 ∣ chars.length → 3 ∣ acc.length → 3 ∣ out.length →
    decodeLoop chars [] 0 acc = some out → ∃ body, out = acc ++ body ∧ chars = textOf body
  | [], acc, out, _, _, _, _, h => ⟨[], by simpa [decodeLoop, eq_comm] using h, rfl⟩
  | [_], _, _, _, h4, _, _, _ => absurd h4 (by simp)
  | [_, _], _, _, _, h4, _, _, _ => absurd h4 (by simp)
  | [_, _, _], _, _, _, h4, _, _, _ => absurd h4 (by simp)
  | w :: x :: y :: z :: rest, acc, out, hall, h4, hacc, hout, h => by
    have hgroup : ∀ b ∈ [w, x, y, z], isCharacter b = true := fun b hb =>
      hall b (List.mem_append_left rest hb)
    rw [decodeLoop_four hgroup] at h
    dsimp only at h
    split at h
    · rename_i hnone
      have hne : ∀ b ∈ [w, x, y, z], b ≠ equals := by
        rintro b hb rfl
        exact List.count_eq_zero.1 hnone hb
      simp only [List.forall_mem_cons] at hgroup hne
      obtain ⟨hw, hw'⟩ := tableAt_dtable hgroup.1 hne.1
      obtain ⟨hx, hx'⟩ := tableAt_dtable hgroup.2.1 hne.2.1
      obtain ⟨hy, hy'⟩ := tableAt_dtable hgroup.2.2.1 hne.2.2.1
      obtain ⟨hz, hz'⟩ := tableAt_dtable hgroup.2.2.2.1 hne.2.2.2.1
      obtain ⟨body, rfl, hrest⟩ := textOf_of_decodeLoop
        (fun b hb => hall b (List.mem_append_right [w, x, y, z] hb))
        ((Nat.dvd_add_iff_left (Nat.dvd_refl 4)).2 h4) (by simpa using hacc) hout h
      refine ⟨_ :: _ :: _ :: body, (List.append_assoc _ _ _), ?_⟩
      have hsextets := resextets (dtable w) (dtable x) (dtable y) (dtable z)
      simp only [hw', hx', hy', hz'] at hsextets
      obtain ⟨hw'', hx'', hy'', hz''⟩ := hsextets
      rw [textOf, ← hrest, ← (sextets_digit _ _ _).1, ← (sextets_digit _ _ _).2.1,
        ← (sextets_digit _ _ _).2.2.1, ← (sextets_digit _ _ _).2.2.2, hw'', hx'', hy'', hz'',
        hw, hx, hy, hz]
    · -- a padded group is not whole
      cases h
      simp at hout
      omega
    · cases h
      simp at hout
      omega
    · cases h

/-- **Whole groups of three bytes are decoded from their text**, whatever stands between its
characters, and from no other. -/
theorem base64Decode_eq_some {src out : Bytes} (hne : out ≠ []) (h3 : 3 ∣ out.length) :
    base64Decode true src = some out ↔ src.filter isCharacter = textOf out := by
  have hcount : src.countP (dtable · ≠ 0x80) = (src.filter isCharacter).length := by
    rw [← List.countP_eq_length_filter]
    exact List.countP_congr fun b _ => by simp [isCharacter_iff]
  have hloop : decodeLoop (src.filter isCharacter) [] 0 [] = decodeLoop src [] 0 [] :=
    decodeLoop_filter (fun b => (isCharacter_iff b).2) src [] [] 0
  simp only [base64Decode, hcount, ← hloop, Bool.not_true, Bool.false_eq_true, if_false]
  constructor
  · intro h
    split_ifs at h with hbad
    obtain ⟨body, hbody, htext⟩ := @textOf_of_decodeLoop _ [] _
      (fun b hb => (List.mem_filter.1 hb).2) (by omega) (Nat.dvd_zero 3) h3 h
    rw [htext, hbody, List.nil_append]
  · intro h
    obtain ⟨hfour, hzero⟩ := count_encodeFrom out 0
    have hlength : (textOf out).length = count (encodeFrom out 0) := by
      rw [← filter_encodeFrom out 0, ← List.countP_eq_length_filter]
      exact List.countP_congr fun b _ => by simp [isCharacter_iff]
    rw [h, hlength, if_neg (by simp [hfour, hzero hne]), ← filter_encodeFrom out 0,
      decodeLoop_filter fun b => (isCharacter_iff b).2, decodeLoop_encodeFrom, List.nil_append]

end Base64
