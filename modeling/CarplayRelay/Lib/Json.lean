import CarplayRelay.Lib.Bytes
import Mathlib.Data.List.Basic

/-!
# JSON texts

`IsText v t`: the bytes `t` are a JSON text of the value `v`. The grammar is the usual one, with
whitespace around tokens, fractions and exponents, and escapes in strings; the encoding of
characters in strings is not looked at. A number is `mantissa * 10 ^ exponent`.

`skeleton` is a text without the insides of its strings.

* `Derives.snoc`: arrays grow at their end.
* `Derives.count_skeleton`: outside strings a text has the brackets and commas its value calls for.
* `IsText.balanced`: in particular as many opening as closing braces.
-/

namespace Json

open Bytes

/-- A value. -/
inductive Value
  | null
  | bool (b : Bool)
  | number (mantissa exponent : Int)
  | string (s : Bytes)
  | array (vs : List Value)
  | object (ms : List (Bytes × Value))

/-! ## Tokens -/

abbrev quote : UInt8 := 0x22
abbrev comma : UInt8 := 0x2c
abbrev colon : UInt8 := 0x3a
abbrev leftBracket : UInt8 := 0x5b
abbrev backslash : UInt8 := 0x5c
abbrev rightBracket : UInt8 := 0x5d
abbrev leftBrace : UInt8 := 0x7b
abbrev rightBrace : UInt8 := 0x7d

/-- Whitespace. -/
def Blank (t : Bytes) : Prop := ∀ b ∈ t, b = 0x20 ∨ b = 0x09 ∨ b = 0x0a ∨ b = 0x0d

theorem blank_nil : Blank [] := fun _ hb => absurd hb List.not_mem_nil

/-- The escapes of one letter, and what they stand for. -/
def escapes : List (UInt8 × UInt8) :=
  [(quote, quote), (backslash, backslash), (0x2f, 0x2f), (0x62, 0x08), (0x66, 0x0c), (0x6e, 0x0a),
    (0x72, 0x0d), (0x74, 0x09)]

/-- The value of a hexadecimal digit. -/
def hexDigit (b : UInt8) : Option Nat :=
  if 0x30 ≤ b ∧ b ≤ 0x39 then some (b.toNat - 0x30)
  else if 0x61 ≤ b ∧ b ≤ 0x66 then some (b.toNat - 0x61 + 10)
  else if 0x41 ≤ b ∧ b ≤ 0x46 then some (b.toNat - 0x41 + 10)
  else none

/-- Four hexadecimal digits of the number `n`. -/
def IsHex (n : Nat) (t : Bytes) : Prop :=
  t.length = 4 ∧ (∀ b ∈ t, (hexDigit b).isSome) ∧
    t.foldl (fun n b => 16 * n + (hexDigit b).getD 0) 0 = n

/-- The inside of a string literal, and the string it stands for. -/
inductive IsChars : Bytes → Bytes → Prop
  | nil : IsChars [] []
  | plain {b : UInt8} {t s : Bytes} (hb : 0x20 ≤ b) (hquote : b ≠ quote)
      (hbackslash : b ≠ backslash) (h : IsChars t s) : IsChars (b :: t) (b :: s)
  | escape {e b : UInt8} {t s : Bytes} (he : (e, b) ∈ escapes) (h : IsChars t s) :
      IsChars (backslash :: e :: t) (b :: s)
  | unicode {c : Char} {hex t s : Bytes} (hhex : IsHex c.toNat hex) (h : IsChars t s) :
      IsChars (backslash :: 0x75 :: (hex ++ t)) (String.utf8EncodeChar c ++ s)
  | surrogates {c : Char} {hex hex' t s : Bytes}
      (hhex : IsHex (0xd800 + (c.toNat - 0x10000) / 0x400) hex)
      (hhex' : IsHex (0xdc00 + (c.toNat - 0x10000) % 0x400) hex') (hc : 0x10000 ≤ c.toNat)
      (h : IsChars t s) :
      IsChars (backslash :: 0x75 :: (hex ++ backslash :: 0x75 :: (hex' ++ t)))
        (String.utf8EncodeChar c ++ s)

/-- Decimal digits, at least one. -/
def IsDigits (t : Bytes) : Prop := t ≠ [] ∧ ∀ b ∈ t, 0x30 ≤ b ∧ b ≤ 0x39

/-- The number digits stand for. -/
def natOf (t : Bytes) : Nat := t.foldl (fun n b => 10 * n + (b.toNat - 0x30)) 0

/-- The part of a number behind the point. -/
inductive IsFraction : Bytes → Bytes → Prop
  | none : IsFraction [] []
  | some {ds : Bytes} (h : IsDigits ds) : IsFraction (0x2e :: ds) ds

/-- The exponent of a number. -/
inductive IsExponent : Bytes → Int → Prop
  | none : IsExponent [] 0
  | pos {e : UInt8} {plus ds : Bytes} (he : e = 0x65 ∨ e = 0x45) (hplus : plus = [] ∨ plus = [0x2b])
      (h : IsDigits ds) : IsExponent (e :: (plus ++ ds)) (natOf ds)
  | neg {e : UInt8} {ds : Bytes} (he : e = 0x65 ∨ e = 0x45) (h : IsDigits ds) :
      IsExponent (e :: 0x2d :: ds) (-natOf ds)

/-- A number without a sign: no zero stands in front of other digits. -/
inductive IsUnsigned : Bytes → Int → Int → Prop
  | mk {int fraction ds exponent : Bytes} {e : Int} (hint : IsDigits int)
      (hzero : int.head? = some 0x30 → int = [0x30]) (hfraction : IsFraction fraction ds)
      (hexponent : IsExponent exponent e) :
      IsUnsigned (int ++ (fraction ++ exponent)) (natOf (int ++ ds)) (e - ds.length)

inductive IsNumber : Bytes → Int → Int → Prop
  | pos {t : Bytes} {m e : Int} (h : IsUnsigned t m e) : IsNumber t m e
  | neg {t : Bytes} {m e : Int} (h : IsUnsigned t m e) : IsNumber (0x2d :: t) (-m) e

/-! ## The grammar -/

/-- What a text can be derived from. -/
inductive Phrase
  | value (v : Value)
  | element (v : Value)
  | elements (vs : List Value)
  | members (ms : List (Bytes × Value))

/-- The text can be derived from the phrase. -/
inductive Derives : Phrase → Bytes → Prop
  | null : Derives (.value .null) (ascii "null")
  | boolTrue : Derives (.value (.bool true)) (ascii "true")
  | boolFalse : Derives (.value (.bool false)) (ascii "false")
  | number {t : Bytes} {m e : Int} (h : IsNumber t m e) : Derives (.value (.number m e)) t
  | string {t s : Bytes} (h : IsChars t s) : Derives (.value (.string s)) (quote :: (t ++ [quote]))
  | emptyArray {t : Bytes} (h : Blank t) :
      Derives (.value (.array [])) (leftBracket :: (t ++ [rightBracket]))
  | array {vs : List Value} {t : Bytes} (h : Derives (.elements vs) t) :
      Derives (.value (.array vs)) (leftBracket :: (t ++ [rightBracket]))
  | emptyObject {t : Bytes} (h : Blank t) :
      Derives (.value (.object [])) (leftBrace :: (t ++ [rightBrace]))
  | object {ms : List (Bytes × Value)} {t : Bytes} (h : Derives (.members ms) t) :
      Derives (.value (.object ms)) (leftBrace :: (t ++ [rightBrace]))
  | element {v : Value} {before t behind : Bytes} (hbefore : Blank before)
      (h : Derives (.value v) t) (hbehind : Blank behind) :
      Derives (.element v) (before ++ (t ++ behind))
  | lastElement {v : Value} {t : Bytes} (h : Derives (.element v) t) : Derives (.elements [v]) t
  | elements {v : Value} {vs : List Value} {t t' : Bytes} (h : Derives (.element v) t)
      (h' : Derives (.elements vs) t') : Derives (.elements (v :: vs)) (t ++ comma :: t')
  | lastMember {k : Bytes} {v : Value} {before t behind t' : Bytes} (hbefore : Blank before)
      (hk : IsChars t k) (hbehind : Blank behind) (h : Derives (.element v) t') :
      Derives (.members [(k, v)]) (before ++ (quote :: (t ++ quote :: (behind ++ colon :: t'))))
  | members {k : Bytes} {v : Value} {ms : List (Bytes × Value)} {t t' : Bytes}
      (h : Derives (.members [(k, v)]) t) (h' : Derives (.members ms) t') :
      Derives (.members ((k, v) :: ms)) (t ++ comma :: t')

/-- **A JSON text of a value.** -/
def IsText (v : Value) (t : Bytes) : Prop := Derives (.element v) t

theorem Derives.to_element {v : Value} {t : Bytes} (h : Derives (.value v) t) :
    Derives (.element v) t := by
  have helement := Derives.element blank_nil h blank_nil
  rwa [List.nil_append, List.append_nil] at helement

/-- An array grows at its end. -/
theorem Derives.snoc {vs : List Value} {v : Value} {t t' : Bytes} (h : Derives (.elements vs) t)
    (hv : Derives (.element v) t') : Derives (.elements (vs ++ [v])) (t ++ comma :: t') := by
  generalize hph : Phrase.elements vs = ph at h
  induction h generalizing vs with
  | lastElement h =>
    cases hph
    exact .elements h (.lastElement hv)
  | elements h _ _ ih =>
    cases hph
    rw [List.cons_append, List.append_assoc, List.cons_append]
    exact .elements h (ih rfl)
  | _ => cases hph

theorem isChars_self {s : Bytes} (h : ∀ b ∈ s, 0x20 ≤ b ∧ b ≠ quote ∧ b ≠ backslash) :
    IsChars s s := by
  induction s with
  | nil => exact .nil
  | cons b s ih =>
    obtain ⟨hb, hquote, hbackslash⟩ := h b List.mem_cons_self
    exact .plain hb hquote hbackslash (ih fun b hb => h b (List.mem_cons_of_mem _ hb))

/-! ## Outside strings -/

/-- Where a scan of a text is. -/
inductive Scan
  | outside
  | inside
  | escaped
  deriving DecidableEq, Repr

def Scan.next : Scan → UInt8 → Scan
  | .outside, b => if b = quote then .inside else .outside
  | .inside, b => if b = quote then .outside else if b = backslash then .escaped else .inside
  | .escaped, _ => .inside

/-- Where the scan is after a text. -/
def Scan.after (st : Scan) (t : Bytes) : Scan := t.foldl Scan.next st

/-- The bytes of a text that the scan finds outside strings. -/
def skeletonFrom : Scan → Bytes → Bytes
  | _, [] => []
  | .outside, b :: t => b :: skeletonFrom (Scan.next .outside b) t
  | .inside, b :: t => skeletonFrom (Scan.next .inside b) t
  | .escaped, b :: t => skeletonFrom (Scan.next .escaped b) t

def skeleton (t : Bytes) : Bytes := skeletonFrom .outside t

/-- The strings of the text end in it. -/
def Closed (t : Bytes) : Prop := Scan.after .outside t = .outside

theorem after_append (st : Scan) (t u : Bytes) : st.after (t ++ u) = (st.after t).after u :=
  List.foldl_append

theorem skeletonFrom_append (st : Scan) (t u : Bytes) :
    skeletonFrom st (t ++ u) = skeletonFrom st t ++ skeletonFrom (st.after t) u := by
  induction t generalizing st with
  | nil => cases st <;> rfl
  | cons b t ih => cases st <;> simp [skeletonFrom, ih, Scan.after]

theorem Closed.append {t u : Bytes} (ht : Closed t) (hu : Closed u) : Closed (t ++ u) := by
  rw [Closed, after_append, ht, hu]

theorem Closed.skeleton_append {t : Bytes} (ht : Closed t) (u : Bytes) :
    skeleton (t ++ u) = skeleton t ++ skeleton u := by
  rw [skeleton, skeletonFrom_append, ht]
  rfl

/-- The commas, brackets and braces. -/
def IsStructural (x : UInt8) : Prop :=
  x = comma ∨ x = leftBracket ∨ x = rightBracket ∨ x = leftBrace ∨ x = rightBrace

instance (x : UInt8) : Decidable (IsStructural x) :=
  inferInstanceAs (Decidable (_ ∨ _ ∨ _ ∨ _ ∨ _))

/-- Bytes outside strings that are not structural. -/
def IsPlain (t : Bytes) : Prop := ∀ b ∈ t, b ≠ quote ∧ ¬ IsStructural b

instance (t : Bytes) : Decidable (IsPlain t) :=
  inferInstanceAs (Decidable (∀ b ∈ t, b ≠ quote ∧ ¬ IsStructural b))

/-- A text that ends outside strings and has `n` bytes `x` there. -/
structure Has (x : UInt8) (t : Bytes) (n : Nat) : Prop where
  closed : Closed t
  count : (skeleton t).count x = n

namespace Has

variable {x : UInt8} {t u : Bytes} {m n : Nat}

theorem append (ht : Has x t m) (hu : Has x u n) : Has x (t ++ u) (m + n) where
  closed := ht.closed.append hu.closed
  count := by rw [ht.closed.skeleton_append, List.count_append, ht.count, hu.count]

theorem byte {b : UInt8} (hb : b ≠ quote) : Has x [b] (if b = x then 1 else 0) where
  closed := if_neg hb
  count := by
    rw [show skeleton [b] = [b] from rfl, List.count_singleton]
    simp

theorem cons {b : UInt8} (hb : b ≠ quote) (ht : Has x t n) :
    Has x (b :: t) ((if b = x then 1 else 0) + n) :=
  (byte hb).append ht

theorem plain (hx : IsStructural x) (ht : IsPlain t) : Has x t 0 := by
  induction t with
  | nil => exact ⟨rfl, rfl⟩
  | cons b t ih =>
    obtain ⟨hquote, hb⟩ := ht b List.mem_cons_self
    have h := cons (x := x) hquote (ih fun b hb => ht b (List.mem_cons_of_mem _ hb))
    rwa [if_neg fun heq : b = x => hb (heq ▸ hx)] at h

/-- What is left without a last byte that is no quote. -/
theorem of_snoc {b : UInt8} (hb : b ≠ quote) (h : Has x (t ++ [b]) n) :
    Has x t (n - if b = x then 1 else 0) := by
  have hclosed : Closed t := by
    have hnext : Scan.next (Scan.after .outside t) b = .outside := by
      have hafter := h.closed
      rwa [Closed, after_append] at hafter
    unfold Closed
    cases hst : Scan.after .outside t with
    | outside => rfl
    | inside =>
      rw [hst, Scan.next, if_neg hb] at hnext
      split at hnext <;> cases hnext
    | escaped => rw [hst] at hnext; cases hnext
  refine ⟨hclosed, ?_⟩
  have hcount := (hclosed.skeleton_append [b]).symm ▸ h.count
  rw [List.count_append, (byte hb).count] at hcount
  omega

/-- A scan that is inside a string sees nothing. -/
theorem inside_plain (ht : ∀ b ∈ t, b ≠ quote ∧ b ≠ backslash) :
    Scan.after .inside t = .inside ∧ skeletonFrom .inside t = [] := by
  induction t with
  | nil => exact ⟨rfl, rfl⟩
  | cons b t ih =>
    obtain ⟨hquote, hbackslash⟩ := ht b List.mem_cons_self
    have hnext : Scan.next .inside b = .inside := by
      rw [Scan.next, if_neg hquote, if_neg hbackslash]
    obtain ⟨hafter, hskeleton⟩ := ih fun b hb => ht b (List.mem_cons_of_mem _ hb)
    refine ⟨?_, ?_⟩
    · show Scan.after (Scan.next .inside b) t = _
      rw [hnext, hafter]
    · rw [skeletonFrom, hnext, hskeleton]

end Has

theorem IsHex.plain {n : Nat} {t : Bytes} (h : IsHex n t) :
    ∀ b ∈ t, b ≠ quote ∧ b ≠ backslash := by
  intro b hb
  have hdigit := h.2.1 b hb
  refine ⟨?_, ?_⟩
  · rintro rfl
    exact absurd hdigit (by decide)
  · rintro rfl
    exact absurd hdigit (by decide)

/-- The inside of a literal leaves the scan inside, and shows nothing. -/
theorem IsChars.inside {t s : Bytes} (h : IsChars t s) :
    Scan.after .inside t = .inside ∧ skeletonFrom .inside t = [] := by
  have hexes {n : Nat} {hex : Bytes} (hhex : IsHex n hex) := Has.inside_plain hhex.plain
  induction h with
  | nil => exact ⟨rfl, rfl⟩
  | @plain b t s _ hquote hbackslash _ ih =>
    have hnext : Scan.next .inside b = .inside := by
      rw [Scan.next, if_neg hquote, if_neg hbackslash]
    refine ⟨?_, ?_⟩
    · show Scan.after (Scan.next .inside b) t = _
      rw [hnext, ih.1]
    · rw [skeletonFrom, hnext, ih.2]
  | escape _ _ ih => exact ih
  | @unicode c hex t s hhex _ ih =>
    refine ⟨?_, ?_⟩
    · show Scan.after .inside (hex ++ t) = _
      rw [after_append, (hexes hhex).1, ih.1]
    · show skeletonFrom .inside (hex ++ t) = _
      rw [skeletonFrom_append, (hexes hhex).1, (hexes hhex).2, ih.2]
      rfl
  | @surrogates c hex hex' t s hhex hhex' _ _ ih =>
    refine ⟨?_, ?_⟩
    · show Scan.after .inside (hex ++ backslash :: 0x75 :: (hex' ++ t)) = _
      rw [after_append, (hexes hhex).1]
      show Scan.after .inside (hex' ++ t) = _
      rw [after_append, (hexes hhex').1, ih.1]
    · show skeletonFrom .inside (hex ++ backslash :: 0x75 :: (hex' ++ t)) = _
      rw [skeletonFrom_append, (hexes hhex).1, (hexes hhex).2]
      show skeletonFrom .inside (hex' ++ t) = _
      rw [skeletonFrom_append, (hexes hhex').1, (hexes hhex').2, ih.2]
      rfl

/-- A literal has nothing structural. -/
theorem IsChars.has {t s : Bytes} (h : IsChars t s) {x : UInt8} (hx : IsStructural x) :
    Has x (quote :: (t ++ [quote])) 0 where
  closed := by
    show Scan.after .inside (t ++ [quote]) = _
    rw [after_append, h.inside.1]
    rfl
  count := by
    have hskeleton : skeleton (quote :: (t ++ [quote])) = [quote] := by
      show quote :: skeletonFrom .inside (t ++ [quote]) = _
      rw [skeletonFrom_append, h.inside.1, h.inside.2]
      rfl
    rw [hskeleton, List.count_eq_zero]
    intro hmem
    cases List.mem_singleton.1 hmem
    exact absurd hx (by decide)

theorem Blank.plain {t : Bytes} (h : Blank t) : IsPlain t := by
  intro b hb
  rcases h b hb with rfl | rfl | rfl | rfl <;> decide

theorem IsDigits.plain {t : Bytes} (h : IsDigits t) : IsPlain t := by
  intro b hb
  obtain ⟨hlo, hhi⟩ := h.2 b hb
  refine ⟨?_, ?_⟩
  · rintro rfl
    exact absurd hlo (by decide)
  · rintro (rfl | rfl | rfl | rfl | rfl)
    · exact absurd hlo (by decide)
    all_goals exact absurd hhi (by decide)

theorem IsPlain.append {t u : Bytes} (ht : IsPlain t) (hu : IsPlain u) : IsPlain (t ++ u) := by
  intro b hb
  exact (List.mem_append.1 hb).elim (ht b) (hu b)

theorem IsPlain.cons {b : UInt8} {t : Bytes} (hb : b ≠ quote ∧ ¬ IsStructural b)
    (ht : IsPlain t) : IsPlain (b :: t) := by
  intro b' hb'
  rcases List.mem_cons.1 hb' with rfl | hb'
  · exact hb
  · exact ht b' hb'

theorem isPlain_nil : IsPlain [] := fun _ hb => absurd hb List.not_mem_nil

theorem IsExponent.plain {t : Bytes} {e : Int} (h : IsExponent t e) : IsPlain t := by
  cases h with
  | none => exact isPlain_nil
  | @pos e plus ds he hplus h =>
    refine IsPlain.cons (by rcases he with rfl | rfl <;> decide) (IsPlain.append ?_ h.plain)
    rcases hplus with rfl | rfl
    · exact isPlain_nil
    · exact IsPlain.cons (by decide) isPlain_nil
  | neg he h =>
    exact IsPlain.cons (by rcases he with rfl | rfl <;> decide) (IsPlain.cons (by decide) h.plain)

theorem IsUnsigned.plain {t : Bytes} {m e : Int} (h : IsUnsigned t m e) : IsPlain t := by
  obtain ⟨hint, -, hfraction, hexponent⟩ := h
  apply hint.plain.append
  apply IsPlain.append ?_ hexponent.plain
  cases hfraction with
  | none => exact isPlain_nil
  | some h => exact IsPlain.cons (by decide) h.plain

theorem IsNumber.plain {t : Bytes} {m e : Int} (h : IsNumber t m e) : IsPlain t := by
  cases h with
  | pos h => exact h.plain
  | neg h => exact IsPlain.cons (by decide) h.plain

theorem IsExponent.head {t : Bytes} {e : Int} (h : IsExponent t e) {b : UInt8}
    (hb : t.head? = some b) : b = 0x65 ∨ b = 0x45 := by
  cases h with
  | none => cases hb
  | pos he => exact Option.some.inj hb ▸ he
  | neg he => exact Option.some.inj hb ▸ he

theorem IsNumber.starts {t : Bytes} {m e : Int} (h : IsNumber t m e) :
    ∃ b t', t = b :: t' ∧ (b = 0x2d ∨ 0x30 ≤ b ∧ b ≤ 0x39) := by
  cases h with
  | pos h =>
    obtain ⟨hint, -, -, -⟩ := h
    rename_i int _ _ _ _
    obtain ⟨b, int, rfl⟩ := List.exists_cons_of_ne_nil hint.1
    exact ⟨b, _, rfl, .inr (hint.2 b List.mem_cons_self)⟩
  | neg h => exact ⟨0x2d, _, rfl, .inl rfl⟩

/-- A text without strings is its skeleton. -/
theorem IsPlain.skeleton {t : Bytes} (h : IsPlain t) : Json.skeleton t = t := by
  induction t with
  | nil => rfl
  | cons b t ih =>
    have hnext : Scan.next .outside b = .outside := if_neg (h b List.mem_cons_self).1
    rw [Json.skeleton, skeletonFrom, hnext]
    exact congrArg (b :: ·) (ih fun b hb => h b (List.mem_cons_of_mem _ hb))

/-! ## A text has no zero bytes -/

theorem Blank.zero_notMem {t : Bytes} (h : Blank t) : 0 ∉ t := by
  intro hmem
  rcases h 0 hmem with heq | heq | heq | heq <;> cases heq

theorem IsDigits.zero_notMem {t : Bytes} (h : IsDigits t) : 0 ∉ t := fun hmem =>
  absurd (h.2 0 hmem).1 (by decide)

theorem IsHex.zero_notMem {n : Nat} {t : Bytes} (h : IsHex n t) : 0 ∉ t := fun hmem =>
  absurd (h.2.1 0 hmem) (by decide)

theorem IsExponent.zero_notMem {t : Bytes} {e : Int} (h : IsExponent t e) : 0 ∉ t := by
  cases h with
  | none => exact List.not_mem_nil
  | pos he hplus h =>
    rcases he with rfl | rfl <;> rcases hplus with rfl | rfl <;> simpa using h.zero_notMem
  | neg he h => rcases he with rfl | rfl <;> simpa using h.zero_notMem

theorem IsUnsigned.zero_notMem {t : Bytes} {m e : Int} (h : IsUnsigned t m e) : 0 ∉ t := by
  obtain ⟨hint, -, hfraction, hexponent⟩ := h
  cases hfraction with
  | none => simpa using ⟨hint.zero_notMem, hexponent.zero_notMem⟩
  | some h => simpa using ⟨hint.zero_notMem, h.zero_notMem, hexponent.zero_notMem⟩

theorem IsNumber.zero_notMem {t : Bytes} {m e : Int} (h : IsNumber t m e) : 0 ∉ t := by
  cases h with
  | pos h => exact h.zero_notMem
  | neg h => simpa using h.zero_notMem

theorem IsChars.zero_notMem {t s : Bytes} (h : IsChars t s) : 0 ∉ t := by
  induction h with
  | nil => exact List.not_mem_nil
  | @plain b _ _ hb _ _ _ ih =>
    have hne : (0 : UInt8) ≠ b := by
      rintro rfl
      cases hb
    simpa [hne] using ih
  | @escape e b _ _ he _ ih =>
    have hne : (0 : UInt8) ≠ e := by
      rintro rfl
      revert he
      simp [escapes, quote, backslash]
    simpa [hne, backslash] using ih
  | unicode hhex _ ih => simpa [hhex.zero_notMem, backslash] using ih
  | surrogates hhex hhex' _ _ ih =>
    simpa [hhex.zero_notMem, hhex'.zero_notMem, backslash] using ih

theorem Derives.zero_notMem {ph : Phrase} {t : Bytes} (h : Derives ph t) : 0 ∉ t := by
  induction h with
  | null | boolTrue | boolFalse => decide +kernel
  | number h => exact h.zero_notMem
  | string h => simpa [quote] using h.zero_notMem
  | emptyArray h => simpa [leftBracket, rightBracket] using h.zero_notMem
  | array _ ih => simpa [leftBracket, rightBracket] using ih
  | emptyObject h => simpa [leftBrace, rightBrace] using h.zero_notMem
  | object _ ih => simpa [leftBrace, rightBrace] using ih
  | element hbefore _ hbehind ih => simpa [hbefore.zero_notMem, hbehind.zero_notMem] using ih
  | lastElement _ ih => exact ih
  | elements _ _ ih ih' | members _ _ ih ih' => simpa [ih, comma] using ih'
  | lastMember hbefore hk hbehind _ ih =>
    simpa [hbefore.zero_notMem, hk.zero_notMem, hbehind.zero_notMem, quote, colon] using ih

/-! ## What a value calls for -/

mutual

/-- How often the structural byte `x` stands in a text of a value. -/
def Value.tally (x : UInt8) : Value → Nat
  | .null | .bool _ | .number _ _ | .string _ => 0
  | .array vs => (if leftBracket = x then 1 else 0) +
      (elementsTally x vs + if rightBracket = x then 1 else 0)
  | .object ms => (if leftBrace = x then 1 else 0) +
      (membersTally x ms + if rightBrace = x then 1 else 0)

def elementsTally (x : UInt8) : List Value → Nat
  | [] => 0
  | v :: vs => v.tally x +
      ((if vs.isEmpty then 0 else if comma = x then 1 else 0) + elementsTally x vs)

def membersTally (x : UInt8) : List (Bytes × Value) → Nat
  | [] => 0
  | (_, v) :: ms => v.tally x +
      ((if ms.isEmpty then 0 else if comma = x then 1 else 0) + membersTally x ms)

end

def Phrase.tally (x : UInt8) : Phrase → Nat
  | .value v | .element v => v.tally x
  | .elements vs => elementsTally x vs
  | .members ms => membersTally x ms

theorem Derives.elements_isEmpty {vs : List Value} {t : Bytes} (h : Derives (.elements vs) t) :
    vs.isEmpty = false := by
  cases h <;> rfl

theorem Derives.members_isEmpty {ms : List (Bytes × Value)} {t : Bytes}
    (h : Derives (.members ms) t) : ms.isEmpty = false := by
  cases h <;> rfl

theorem elementsTally_snoc (x : UInt8) (vs : List Value) (v : Value) :
    elementsTally x (vs ++ [v]) =
      elementsTally x vs +
        ((if vs.isEmpty then 0 else if comma = x then 1 else 0) + v.tally x) := by
  induction vs with
  | nil => simp [elementsTally]
  | cons w vs ih =>
    rw [List.cons_append, elementsTally, elementsTally, ih]
    cases vs with
    | nil => simp [elementsTally]
    | cons w' vs =>
      simp only [List.cons_append, List.isEmpty_cons]
      omega

/-- **Outside strings a text has the structural bytes its value calls for.** -/
theorem Derives.has {ph : Phrase} {t : Bytes} (h : Derives ph t) {x : UInt8}
    (hx : IsStructural x) : Has x t (ph.tally x) := by
  have hbracket : leftBracket ≠ quote ∧ rightBracket ≠ quote := by decide
  have hbrace : leftBrace ≠ quote ∧ rightBrace ≠ quote := by decide
  have hcomma : comma ≠ quote := by decide
  induction h with
  | null | boolTrue | boolFalse => exact Has.plain hx (by decide +kernel)
  | number h => exact Has.plain hx h.plain
  | string h => exact h.has hx
  | emptyArray h =>
    exact Has.cons hbracket.1 ((Has.plain hx h.plain).append (Has.byte hbracket.2))
  | array _ ih => exact Has.cons hbracket.1 (ih.append (Has.byte hbracket.2))
  | emptyObject h =>
    exact Has.cons hbrace.1 ((Has.plain hx h.plain).append (Has.byte hbrace.2))
  | object _ ih => exact Has.cons hbrace.1 (ih.append (Has.byte hbrace.2))
  | element hbefore _ hbehind ih =>
    have hhas := (Has.plain hx hbefore.plain).append (ih.append (Has.plain hx hbehind.plain))
    rwa [Nat.zero_add, Nat.add_zero] at hhas
  | lastElement _ ih => exact ih
  | elements _ h' ih ih' =>
    rw [Phrase.tally, elementsTally, h'.elements_isEmpty]
    exact ih.append (Has.cons hcomma ih')
  | @lastMember k v before t behind t' hbefore hk hbehind _ ih =>
    have hcolon : Has x (colon :: t') (v.tally x) := by
      have hhas := Has.cons (x := x) (by decide : colon ≠ quote) ih
      rwa [if_neg, Nat.zero_add] at hhas
      rintro rfl
      exact absurd hx (by decide)
    have hkey := (hk.has hx).append ((Has.plain hx hbehind.plain).append hcolon)
    have hhas := (Has.plain hx hbefore.plain).append hkey
    simpa [Phrase.tally, membersTally] using hhas
  | members _ h' ih ih' =>
    rw [Phrase.tally, membersTally, h'.members_isEmpty]
    exact ih.append (Has.cons hcomma ih')

theorem Derives.closed {ph : Phrase} {t : Bytes} (h : Derives ph t) : Closed t :=
  (h.has (by decide : IsStructural comma)).closed

theorem Blank.closed {t : Bytes} (h : Blank t) : Closed t :=
  (Has.plain (by decide : IsStructural comma) h.plain).closed

theorem IsChars.closed {t s : Bytes} (h : IsChars t s) : Closed (quote :: (t ++ [quote])) :=
  (h.has (by decide : IsStructural comma)).closed

mutual

theorem Value.tally_braces : ∀ v : Value, v.tally leftBrace = v.tally rightBrace
  | .null | .bool _ | .number _ _ | .string _ => rfl
  | .array vs => congrArg (fun n => 0 + (n + 0)) (elementsTally_braces vs)
  | .object ms => by
    have h := membersTally_braces ms
    show 1 + (membersTally leftBrace ms + 0) = 0 + (membersTally rightBrace ms + 1)
    omega

theorem elementsTally_braces : ∀ vs : List Value,
    elementsTally leftBrace vs = elementsTally rightBrace vs
  | [] => rfl
  | v :: vs => by
    have hv := v.tally_braces
    have hvs := elementsTally_braces vs
    rw [elementsTally, elementsTally, hv, hvs]
    rfl

theorem membersTally_braces : ∀ ms : List (Bytes × Value),
    membersTally leftBrace ms = membersTally rightBrace ms
  | [] => rfl
  | (k, v) :: ms => by
    have hv := v.tally_braces
    have hms := membersTally_braces ms
    rw [membersTally, membersTally, hv, hms]
    rfl

end

mutual

/-- How deep a value is nested. -/
def Value.depth : Value → Nat
  | .null | .bool _ | .number _ _ | .string _ => 0
  | .array vs => elementsDepth vs + 1
  | .object ms => membersDepth ms + 1

def elementsDepth : List Value → Nat
  | [] => 0
  | v :: vs => max v.depth (elementsDepth vs)

def membersDepth : List (Bytes × Value) → Nat
  | [] => 0
  | (_, v) :: ms => max v.depth (membersDepth ms)

end

/-- **A text has as many opening as closing braces outside strings.** -/
theorem IsText.balanced {v : Value} {t : Bytes} (h : IsText v t) :
    (skeleton t).count leftBrace = (skeleton t).count rightBrace := by
  rw [(Derives.has h (by decide : IsStructural leftBrace)).count,
    (Derives.has h (by decide : IsStructural rightBrace)).count]
  exact v.tally_braces

end Json
