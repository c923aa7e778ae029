import CarplayRelay.Lib.Bytes
import Mathlib.Tactic.SplitIfs

/-!
# UTF-8

`IsText t`: the bytes are the encodings of characters. A scan reads the bytes one by one; between
the bytes of a character it knows which bytes may come next, and how many are to come then.

* `Scan.after_start`: the scan is between characters exactly behind a text.
* `Scan.after_invalid`: it is invalid exactly behind bytes that no text starts with.
-/

namespace Utf8

/-- The bytes of a text. -/
def IsText (t : Bytes) : Prop := ∃ cs : List Char, t = cs.flatMap String.utf8EncodeChar

/-- Where a scan is: between characters, in front of a byte from `lo` to `hi` and `more` bytes
behind it, or behind bytes of no text. -/
inductive Scan
  | start
  | tail (lo hi : UInt8) (more : Nat)
  | invalid
  deriving DecidableEq, Repr

namespace Scan

/-- Behind the first byte of a character. -/
def first (b : UInt8) : Scan :=
  if b < 0x80 then start
  else if b < 0xc2 then invalid
  else if b < 0xe0 then tail 0x80 0xbf 0
  else if b < 0xf0 then
    tail (if b = 0xe0 then 0xa0 else 0x80) (if b = 0xed then 0x9f else 0xbf) 1
  else if b < 0xf5 then
    tail (if b = 0xf0 then 0x90 else 0x80) (if b = 0xf4 then 0x8f else 0xbf) 2
  else invalid

/-- Behind a byte in `tail`. -/
def behind : Nat → Scan
  | 0 => start
  | more + 1 => tail 0x80 0xbf more

def next : Scan → UInt8 → Scan
  | start, b => first b
  | tail lo hi more, b => if lo ≤ b ∧ b ≤ hi then behind more else invalid
  | invalid, _ => invalid

def after (s : Scan) (t : Bytes) : Scan := t.foldl next s

theorem after_append (s : Scan) (t u : Bytes) : s.after (t ++ u) = (s.after t).after u :=
  List.foldl_append

theorem after_cons (s : Scan) (b : UInt8) (t : Bytes) : s.after (b :: t) = (s.next b).after t := rfl

@[simp] theorem invalid_after (t : Bytes) : invalid.after t = invalid := by
  induction t with
  | nil => rfl
  | cons b t ih => exact ih

/-! ## The bytes of a character -/

theorem after_tail_cons {lo hi b : UInt8} {more : Nat} (t : Bytes) (h : lo ≤ b ∧ b ≤ hi) :
    (tail lo hi more).after (b :: t) = (behind more).after t := by
  rw [after_cons, next, if_pos h]

/-- What the scan finds up to the next character. -/
theorem after_tail {lo hi : UInt8} {more : Nat} {t : Bytes}
    (h : (tail lo hi more).after t = start) :
    ∃ b bs rest, t = b :: (bs ++ rest) ∧ lo.toNat ≤ b.toNat ∧ b.toNat ≤ hi.toNat ∧
      bs.length = more ∧ (∀ b ∈ bs, 0x80 ≤ b.toNat ∧ b.toNat ≤ 0xbf) ∧
      start.after rest = start := by
  induction more generalizing lo hi t with
  | zero =>
    cases t with
    | nil => cases h
    | cons b t =>
      rw [after_cons, next] at h
      split_ifs at h with hb
      · exact ⟨b, [], t, rfl, UInt8.le_iff_toNat_le.1 hb.1, UInt8.le_iff_toNat_le.1 hb.2, rfl,
          fun _ h => absurd h List.not_mem_nil, h⟩
      · rw [invalid_after] at h
        cases h
  | succ more ih =>
    cases t with
    | nil => cases h
    | cons b t =>
      rw [after_cons, next] at h
      split_ifs at h with hb
      · obtain ⟨b', bs, rest, rfl, hlo, hhi, hlen, hbs, hrest⟩ := ih h
        refine ⟨b, b' :: bs, rest, rfl, UInt8.le_iff_toNat_le.1 hb.1,
          UInt8.le_iff_toNat_le.1 hb.2, congrArg (· + 1) hlen, ?_, hrest⟩
        intro c hc
        rcases List.mem_cons.1 hc with rfl | hc
        · exact ⟨hlo, hhi⟩
        · exact hbs c hc
      · rw [invalid_after] at h
        cases h

/-- The first byte, by its number. -/
theorem first_toNat (b : UInt8) :
    first b =
      if b.toNat < 0x80 then start
      else if b.toNat < 0xc2 then invalid
      else if b.toNat < 0xe0 then tail 0x80 0xbf 0
      else if b.toNat < 0xf0 then
        tail (if b.toNat = 0xe0 then 0xa0 else 0x80) (if b.toNat = 0xed then 0x9f else 0xbf) 1
      else if b.toNat < 0xf5 then
        tail (if b.toNat = 0xf0 then 0x90 else 0x80) (if b.toNat = 0xf4 then 0x8f else 0xbf) 2
      else invalid := by
  unfold first
  simp only [UInt8.lt_iff_toNat_lt, ← UInt8.toNat_inj, UInt8.reduceToNat]

theorem toNat_byte {n : Nat} (h : n < 256) : (UInt8.ofNat n).toNat = n :=
  UInt8.toNat_ofNat_of_lt' h

theorem toNat_valid (c : Char) : c.toNat < 0xd800 ∨ 0xdfff < c.toNat ∧ c.toNat < 0x110000 :=
  c.valid

theorem after_last {lo hi : UInt8} (n : Nat) (t : Bytes) (hlo : lo.toNat ≤ 0x80 + n % 64)
    (hhi : 0x80 + n % 64 ≤ hi.toNat) (more : Nat) :
    (tail lo hi more).after (UInt8.ofNat (n % 64 + 0x80) :: t) = (behind more).after t := by
  have hbyte := @toNat_byte (n % 64 + 0x80) (by omega)
  apply after_tail_cons
  rw [UInt8.le_iff_toNat_le, UInt8.le_iff_toNat_le, hbyte]
  omega

/-- **The scan goes through the encoding of a character.** -/
theorem after_encode (c : Char) (t : Bytes) :
    start.after (String.utf8EncodeChar c ++ t) = start.after t := by
  have hvalid := toNat_valid c
  unfold String.utf8EncodeChar
  dsimp only
  rw [show c.val.toNat = c.toNat from rfl]
  generalize c.toNat = v at hvalid
  by_cases h1 : v ≤ 0x7f
  · rw [if_pos h1, List.singleton_append, after_cons, next, first_toNat,
      toNat_byte (by omega), if_pos (by omega)]
  by_cases h2 : v ≤ 0x7ff
  · have hfirst := @toNat_byte (v / 64 % 32 + 0xc0) (by omega)
    rw [if_neg h1, if_pos h2, List.cons_append, List.singleton_append, after_cons, next,
      first_toNat, hfirst, if_neg (by omega), if_neg (by omega), if_pos (by omega),
      after_last v t (by simp) (by simp; omega)]
    rfl
  by_cases h3 : v ≤ 0xffff
  · have hfirst := @toNat_byte (v / 4096 % 16 + 0xe0) (by omega)
    rw [if_neg h1, if_neg h2, if_pos h3]
    simp only [List.cons_append, List.nil_append]
    rw [after_cons, next, first_toNat, hfirst, if_neg (by omega), if_neg (by omega),
      if_neg (by omega), if_pos (by omega), after_last (v / 64)]
    · exact after_last v t (by simp) (by simp; omega) 0
    · split_ifs
      · simp only [UInt8.reduceToNat]
        omega
      · simp only [UInt8.reduceToNat]
        omega
    · split_ifs
      · simp only [UInt8.reduceToNat]
        omega
      · simp only [UInt8.reduceToNat]
        omega
  · have hfirst := @toNat_byte (v / 262144 % 8 + 0xf0) (by omega)
    rw [if_neg h1, if_neg h2, if_neg h3]
    simp only [List.cons_append, List.nil_append]
    rw [after_cons, next, first_toNat, hfirst, if_neg (by omega), if_neg (by omega),
      if_neg (by omega), if_neg (by omega), if_pos (by omega), after_last (v / 4096)]
    · rw [behind, after_last (v / 64) _ (by simp) (by simp; omega)]
      exact after_last v t (by simp) (by simp; omega) 0
    · split_ifs
      · simp only [UInt8.reduceToNat]
        omega
      · simp only [UInt8.reduceToNat]
        omega
    · split_ifs
      · simp only [UInt8.reduceToNat]
        omega
      · simp only [UInt8.reduceToNat]
        omega

/-! ## The characters of bytes -/

theorem exists_char {v : Nat} (h : v < 0xd800 ∨ 0xdfff < v ∧ v < 0x110000) :
    ∃ c : Char, c.toNat = v :=
  ⟨Char.ofNatAux v h, rfl⟩

theorem ofNat_eq {n : Nat} {b : UInt8} (h : n = b.toNat) : UInt8.ofNat n = b := by
  rw [h, UInt8.ofNat_toNat]

theorem exists_one {a : UInt8} (ha : a.toNat < 0x80) : ∃ c, String.utf8EncodeChar c = [a] := by
  obtain ⟨c, hc⟩ := @exists_char a.toNat (by omega)
  refine ⟨c, ?_⟩
  unfold String.utf8EncodeChar
  dsimp only
  rw [show c.val.toNat = a.toNat from hc, if_pos (by omega), ofNat_eq rfl]

theorem exists_two {a b : UInt8} (ha : 0xc2 ≤ a.toNat ∧ a.toNat < 0xe0)
    (hb : 0x80 ≤ b.toNat ∧ b.toNat ≤ 0xbf) : ∃ c, String.utf8EncodeChar c = [a, b] := by
  obtain ⟨c, hc⟩ := @exists_char ((a.toNat - 0xc0) * 64 + (b.toNat - 0x80)) (by omega)
  refine ⟨c, ?_⟩
  unfold String.utf8EncodeChar
  dsimp only
  rw [show c.val.toNat = _ from hc, if_neg (by omega), if_pos (by omega), ofNat_eq (b := a)
    (by omega), ofNat_eq (b := b) (by omega)]

theorem exists_three {a b c : UInt8} (ha : 0xe0 ≤ a.toNat ∧ a.toNat < 0xf0)
    (hb : 0x80 ≤ b.toNat ∧ b.toNat ≤ 0xbf) (hc : 0x80 ≤ c.toNat ∧ c.toNat ≤ 0xbf)
    (hlow : a.toNat = 0xe0 → 0xa0 ≤ b.toNat) (hhigh : a.toNat = 0xed → b.toNat ≤ 0x9f) :
    ∃ ch, String.utf8EncodeChar ch = [a, b, c] := by
  obtain ⟨ch, hch⟩ := @exists_char
    ((a.toNat - 0xe0) * 4096 + (b.toNat - 0x80) * 64 + (c.toNat - 0x80)) (by omega)
  refine ⟨ch, ?_⟩
  unfold String.utf8EncodeChar
  dsimp only
  rw [show ch.val.toNat = _ from hch, if_neg (by omega), if_neg (by omega), if_pos (by omega),
    ofNat_eq (b := a) (by omega), ofNat_eq (b := b) (by omega), ofNat_eq (b := c) (by omega)]

theorem exists_four {a b c d : UInt8} (ha : 0xf0 ≤ a.toNat ∧ a.toNat < 0xf5)
    (hb : 0x80 ≤ b.toNat ∧ b.toNat ≤ 0xbf) (hc : 0x80 ≤ c.toNat ∧ c.toNat ≤ 0xbf)
    (hd : 0x80 ≤ d.toNat ∧ d.toNat ≤ 0xbf) (hlow : a.toNat = 0xf0 → 0x90 ≤ b.toNat)
    (hhigh : a.toNat = 0xf4 → b.toNat ≤ 0x8f) :
    ∃ ch, String.utf8EncodeChar ch = [a, b, c, d] := by
  obtain ⟨ch, hch⟩ := @exists_char ((a.toNat - 0xf0) * 262144 + (b.toNat - 0x80) * 4096 +
    (c.toNat - 0x80) * 64 + (d.toNat - 0x80)) (by omega)
  refine ⟨ch, ?_⟩
  unfold String.utf8EncodeChar
  dsimp only
  rw [show ch.val.toNat = _ from hch, if_neg (by omega), if_neg (by omega), if_neg (by omega),
    ofNat_eq (b := a) (by omega), ofNat_eq (b := b) (by omega), ofNat_eq (b := c) (by omega),
    ofNat_eq (b := d) (by omega)]

/-- A scan that comes to the next character has read one. -/
theorem exists_encode {b : UInt8} {t : Bytes} (h : start.after (b :: t) = start) :
    ∃ c rest, b :: t = String.utf8EncodeChar c ++ rest ∧ start.after rest = start := by
  rw [after_cons, next, first_toNat] at h
  by_cases h1 : b.toNat < 0x80
  · obtain ⟨c, hc⟩ := exists_one h1
    rw [if_pos h1] at h
    exact ⟨c, t, by rw [hc, List.singleton_append], h⟩
  by_cases h2 : b.toNat < 0xc2
  · rw [if_neg h1, if_pos h2, invalid_after] at h
    cases h
  by_cases h3 : b.toNat < 0xe0
  · rw [if_neg h1, if_neg h2, if_pos h3] at h
    obtain ⟨b1, bs, rest, rfl, hlo, hhi, hlen, -, hrest⟩ := after_tail h
    obtain rfl := List.eq_nil_of_length_eq_zero hlen
    obtain ⟨c, hc⟩ := @exists_two b b1 (by omega) ⟨hlo, hhi⟩
    exact ⟨c, rest, by rw [hc]; rfl, hrest⟩
  by_cases h4 : b.toNat < 0xf0
  · rw [if_neg h1, if_neg h2, if_neg h3, if_pos h4] at h
    obtain ⟨b1, bs, rest, rfl, hlo, hhi, hlen, hbs, hrest⟩ := after_tail h
    obtain ⟨b2, rfl⟩ := List.length_eq_one_iff.1 hlen
    rw [apply_ite UInt8.toNat] at hlo hhi
    simp only [UInt8.reduceToNat] at hlo hhi
    obtain ⟨c, hc⟩ := @exists_three b b1 b2 (by omega) (by split_ifs at hlo hhi <;> omega)
      (hbs b2 (List.mem_singleton.2 rfl)) (fun heq => by rwa [if_pos heq] at hlo)
      (fun heq => by rwa [if_pos heq] at hhi)
    exact ⟨c, rest, by rw [hc]; rfl, hrest⟩
  by_cases h5 : b.toNat < 0xf5
  · rw [if_neg h1, if_neg h2, if_neg h3, if_neg h4, if_pos h5] at h
    obtain ⟨b1, bs, rest, rfl, hlo, hhi, hlen, hbs, hrest⟩ := after_tail h
    obtain ⟨b2, b3, rfl⟩ := List.length_eq_two.1 hlen
    rw [apply_ite UInt8.toNat] at hlo hhi
    simp only [UInt8.reduceToNat] at hlo hhi
    obtain ⟨c, hc⟩ := @exists_four b b1 b2 b3 (by omega) (by split_ifs at hlo hhi <;> omega)
      (hbs b2 (by simp)) (hbs b3 (by simp)) (fun heq => by rwa [if_pos heq] at hlo)
      (fun heq => by rwa [if_pos heq] at hhi)
    exact ⟨c, rest, by rw [hc]; rfl, hrest⟩
  · rw [if_neg h1, if_neg h2, if_neg h3, if_neg h4, if_neg h5, invalid_after] at h
    cases h

/-- **The scan is between characters exactly behind a text.** -/
theorem after_start {t : Bytes} : start.after t = start ↔ IsText t := by
  constructor
  · intro h
    induction hlen : t.length using Nat.strongRecOn generalizing t with
    | ind n ih =>
      cases t with
      | nil => exact ⟨[], rfl⟩
      | cons b t =>
        obtain ⟨c, rest, heq, hrest⟩ := exists_encode h
        rw [heq] at hlen ⊢
        rw [List.length_append] at hlen
        have hpos := (String.length_utf8EncodeChar c).symm ▸ c.utf8Size_pos
        obtain ⟨cs, rfl⟩ := ih rest.length (by omega) hrest rfl
        exact ⟨c :: cs, rfl⟩
  · rintro ⟨cs, rfl⟩
    induction cs with
    | nil => rfl
    | cons c cs ih => rw [List.flatMap_cons, after_encode, ih]

/-- A scan that can go on. -/
inductive Live : Scan → Prop
  | start : Live start
  | tail {lo hi : UInt8} (more : Nat) (h : lo ≤ hi) : Live (tail lo hi more)

theorem Live.behind (more : Nat) : Live (behind more) := by
  cases more with
  | zero => exact .start
  | succ more => exact .tail more (by decide)

theorem next_live {s : Scan} (h : Live s) (b : UInt8) : s.next b = invalid ∨ Live (s.next b) := by
  cases h with
  | start =>
    rw [next]
    unfold first
    split_ifs
    all_goals first
      | exact .inl rfl
      | exact .inr .start
      | exact .inr (.tail _ (by decide))
      | simp_all
  | tail more h =>
    rw [next]
    split_ifs
    · exact .inr (.behind more)
    · exact .inl rfl

theorem after_live {s : Scan} (h : Live s) (t : Bytes) :
    s.after t = invalid ∨ Live (s.after t) := by
  induction t generalizing s with
  | nil => exact .inr h
  | cons b t ih =>
    rw [after_cons]
    rcases next_live h b with heq | hnext
    · rw [heq]
      exact .inl (invalid_after t)
    · exact ih hnext

theorem Live.complete {s : Scan} (h : Live s) : ∃ u, s.after u = Scan.start := by
  cases h with
  | start => exact ⟨[], rfl⟩
  | @tail lo hi more h =>
    refine ⟨lo :: List.replicate more 0x80, ?_⟩
    induction more generalizing lo hi with
    | zero => rw [after_tail_cons _ ⟨UInt8.le_refl _, h⟩]; rfl
    | succ more ih =>
      rw [after_tail_cons _ ⟨UInt8.le_refl _, h⟩, List.replicate_succ]
      exact ih (by decide)

/-- **The scan is invalid exactly behind bytes that no text starts with.** -/
theorem after_invalid {t : Bytes} : start.after t = invalid ↔ ∀ u, ¬ IsText (t ++ u) := by
  constructor
  · intro h u htext
    rw [← after_start, after_append, h, invalid_after] at htext
    cases htext
  · intro h
    refine (after_live .start t).resolve_right fun hlive => ?_
    obtain ⟨u, hu⟩ := hlive.complete
    exact h u (after_start.1 (by rw [after_append, hu]))

end Scan

end Utf8
