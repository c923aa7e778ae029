import CarplayRelay.Ws.Frames
import Mathlib.Tactic.SplitIfs

/-!
# What a frame is read from

A source has a stream, whatever buffers it comes in: `nextByte` takes its next byte. Behind a frame
that was read the block of the message has its payload (`readFrame_data`, `readFrame_control`), and
a fault is that of a frame of certain lengths only (`readFrame_cases`). No build compiles `ws.c`.
-/

namespace Ws

open Bytes Recv WebSocket

/-! ## The stream of a source -/

section
variable {s s' : Source} {b : UInt8} {bytes rest : Bytes} {n : Nat}

theorem received_leave (b : UInt8) (bytes : Bytes) (n : Nat) (rs : List Result) :
    received (leave (b :: bytes) n rs) = (b :: bytes).drop n ++ received rs := by
  unfold leave
  split_ifs with h
  · rw [List.drop_eq_nil_of_le h, List.nil_append]
  · cases hdrop : (b :: bytes).drop n with
    | nil => exact absurd (List.drop_eq_nil_iff.1 hdrop) h
    | cons c rest => rfl

/-- **A byte is the next one of the stream.** -/
theorem nextByte_stream (s : Source) :
    (s.stream = [] ∧ nextByte s = none) ∨
      ∃ b s', s.stream = b :: s'.stream ∧ nextByte s = some (b, s') := by
  unfold nextByte
  split_ifs with h
  · have hstream : s.stream = received s.socket := by
      unfold Source.stream
      rcases h with h | h
      · rw [if_pos h, List.nil_append]
      · split_ifs
        · rfl
        · rw [h, List.drop_length, List.nil_append]
    rw [hstream]
    match s.socket with
    | .data (b :: bytes) :: rs =>
      refine .inr ⟨b, _, ?_, rfl⟩
      have hdrop := received_leave b bytes messageLength rs
      simp only [Source.stream, one_ne_zero, if_false]
      rw [hdrop, ← List.append_assoc]
      simp [received, messageLength]
    | [] | .data [] :: _ | .interrupted :: _ | .failed :: _ => exact .inl ⟨rfl, rfl⟩
  · obtain ⟨hzero, hend⟩ := not_or.1 h
    have hlt := Nat.lt_of_le_of_ne s.pos_le hend
    refine .inr ⟨_, _, ?_, rfl⟩
    simp only [Source.stream, if_neg hzero, if_neg (Nat.succ_ne_zero _)]
    rw [List.drop_eq_getElem_cons hlt, List.cons_append, byteAt, List.getD_eq_getElem?_getD,
      List.getElem?_eq_getElem hlt, Option.getD_some]

theorem nextByte_cons (h : s.stream = b :: rest) :
    ∃ s', nextByte s = some (b, s') ∧ s'.stream = rest := by
  rcases nextByte_stream s with ⟨hnil, -⟩ | ⟨b', s', hcons, hnext⟩
  · rw [hnil] at h
    cases h
  · rw [hcons] at h
    cases h
    exact ⟨s', hnext, rfl⟩

theorem nextByte_some (h : nextByte s = some (b, s')) : s.stream = b :: s'.stream := by
  rcases nextByte_stream s with ⟨-, hnone⟩ | ⟨b', s'', hcons, hnext⟩
  · rw [hnone] at h
    cases h
  · rw [hnext] at h
    cases h
    exact hcons

theorem nextBytes_append (h : s.stream = bytes ++ rest) :
    ∃ s', nextBytes bytes.length s = some (bytes, s') ∧ s'.stream = rest := by
  induction bytes generalizing s with
  | nil => exact ⟨s, rfl, h⟩
  | cons b bytes ih =>
    obtain ⟨s₁, hb, h₁⟩ := nextByte_cons h
    obtain ⟨s₂, hbytes, h₂⟩ := ih h₁
    refine ⟨s₂, ?_, h₂⟩
    simp only [List.length_cons, nextBytes, hb, Option.bind_eq_bind, Option.bind_some, hbytes]

theorem nextBytes_some (h : nextBytes n s = some (bytes, s')) :
    bytes.length = n ∧ s.stream = bytes ++ s'.stream := by
  induction n generalizing s bytes with
  | zero =>
    cases h
    exact ⟨rfl, rfl⟩
  | succ n ih =>
    simp only [nextBytes, Option.bind_eq_bind, Option.bind_eq_some_iff] at h
    obtain ⟨⟨b, s₁⟩, hb, ⟨bs, s₂⟩, hbs, heq⟩ := h
    cases heq
    obtain ⟨hlen, hstream⟩ := ih hbs
    exact ⟨congrArg (· + 1) hlen, by rw [nextByte_some hb, hstream, List.cons_append]⟩

end

/-! ## Lengths -/

/-- The bytes behind the first byte of a frame say a length. -/
def SaysLength (length : Nat) (second : UInt8) (ext : Bytes) : Prop :=
  ∃ width : Width, width.Expresses length ∧ second &&& 0x7f = width.lowBits length ∧
    ext = width.ext length

theorem shiftLeft_or_shiftLeft (a : Nat) {b : Nat} (hb : b < 256) (n : Nat) :
    a <<< (n + 8) ||| b <<< n = (a * 256 + b) <<< n := by
  rw [← shiftLeft_or hb, Nat.shiftLeft_or_distrib, ← Nat.shiftLeft_add, Nat.add_comm 8]

theorem long_bigEndian (b₀ b₁ b₂ b₃ b₄ b₅ b₆ b₇ : UInt8) :
    b₀.toNat <<< 56 ||| b₁.toNat <<< 48 ||| b₂.toNat <<< 40 ||| b₃.toNat <<< 32 |||
      b₄.toNat <<< 24 ||| b₅.toNat <<< 16 ||| b₆.toNat <<< 8 ||| b₇.toNat =
        bigEndian 0 [b₀, b₁, b₂, b₃, b₄, b₅, b₆, b₇] := by
  rw [shiftLeft_or_shiftLeft _ b₁.toNat_lt 48, shiftLeft_or_shiftLeft _ b₂.toNat_lt 40,
    shiftLeft_or_shiftLeft _ b₃.toNat_lt 32, shiftLeft_or_shiftLeft _ b₄.toNat_lt 24,
    shiftLeft_or_shiftLeft _ b₅.toNat_lt 16, shiftLeft_or_shiftLeft _ b₆.toNat_lt 8,
    shiftLeft_or b₇.toNat_lt]
  simp [bigEndian]

theorem medium_bigEndian (b c : UInt8) : b.toNat <<< 8 ||| c.toNat = bigEndian 0 [b, c] := by
  rw [shiftLeft_or c.toNat_lt, bigEndian, List.foldl_cons, List.foldl_cons, List.foldl_nil,
    Nat.zero_mul, Nat.zero_add]

theorem bigEndian_long {n : Nat} (h : n < 2 ^ 64) : bigEndian 0 (Width.ext .long n) = n := by
  have hlt := bigEndian_lt 0 (Width.ext .long n)
  rw [show (Width.ext .long n).length = 8 from rfl] at hlt
  have hlong := @long_eq 64 n h
  rw [longLength_eq, Nat.mod_eq_of_lt h] at hlong
  exact (Nat.mod_eq_of_lt (by omega)).symm.trans hlong

theorem bigEndian_medium {n : Nat} (h : n < 2 ^ 16) : bigEndian 0 (Width.ext .medium n) = n := by
  have hmedium := medium_eq h
  rwa [medium_bigEndian] at hmedium

theorem medium_ext {ext : Bytes} (h : ext.length = 2) :
    (Width.medium).Expresses (bigEndian 0 ext) ∧ ext = Width.ext .medium (bigEndian 0 ext) := by
  have hlt : bigEndian 0 ext < 2 ^ 16 := by
    have := bigEndian_lt 0 ext
    rwa [h] at this
  exact ⟨hlt, (bigEndian_inj (by rw [h]; rfl) (bigEndian_medium hlt).symm).2⟩

theorem long_ext {ext : Bytes} (h : ext.length = 8) :
    (Width.long).Expresses (bigEndian 0 ext) ∧ ext = Width.ext .long (bigEndian 0 ext) := by
  have hlt : bigEndian 0 ext < 2 ^ 64 := by
    have := bigEndian_lt 0 ext
    rwa [h] at this
  exact ⟨hlt, (bigEndian_inj (by rw [h]; rfl) (bigEndian_long hlt).symm).2⟩

section
variable {s s' : Source} {second : UInt8} {ext rest : Bytes} {length : Nat}

theorem readLength_medium (s : Source) : readLength 126 s =
    (nextBytes 2 s).map fun r => (bigEndian 0 r.1, r.2) := by
  rw [readLength, if_pos rfl]
  cases hread : nextBytes 2 s with
  | none => rfl
  | some r =>
    obtain ⟨ext, s'⟩ := r
    obtain ⟨b, c, rfl⟩ := List.length_eq_two.1 (nextBytes_some hread).1
    simp only [Option.bind_eq_bind, Option.bind_some, Option.map_some, byteAt_cons_zero,
      byteAt_cons_succ, medium_bigEndian]

theorem readLength_long (s : Source) : readLength 127 s =
    (nextBytes 8 s).map fun r => (bigEndian 0 r.1, r.2) := by
  rw [readLength, if_neg (by decide), if_pos rfl]
  cases hread : nextBytes 8 s with
  | none => rfl
  | some r =>
    obtain ⟨ext, s'⟩ := r
    match ext, (nextBytes_some hread).1 with
    | [b₀, b₁, b₂, b₃, b₄, b₅, b₆, b₇], _ =>
      simp only [Option.bind_eq_bind, Option.bind_some, Option.map_some, byteAt_cons_zero,
        byteAt_cons_succ, long_bigEndian]

/-- **A length is read behind the second byte**, in each of its three forms. -/
theorem readLength_saysLength (h : SaysLength length second ext) (hs : s.stream = ext ++ rest) :
    ∃ s', readLength (second &&& 0x7f).toNat s = some (length, s') ∧ s'.stream = rest := by
  obtain ⟨width, hexpr, hlow, rfl⟩ := h
  rw [hlow]
  obtain ⟨s', hread, hrest⟩ := nextBytes_append hs
  cases width with
  | short =>
    have hn : (Width.lowBits .short length).toNat = length :=
      UInt8.toNat_ofNat_of_lt' (Nat.lt_trans hexpr (by decide))
    have hlt : length < 126 := hexpr
    rw [hn, readLength, if_neg (by omega), if_neg (by omega)]
    exact ⟨s, rfl, hs⟩
  | medium =>
    have hread' : nextBytes 2 s = some (Width.ext .medium length, s') := hread
    refine ⟨s', ?_, hrest⟩
    rw [show (Width.lowBits .medium length).toNat = 126 from rfl, readLength_medium, hread',
      Option.map_some, bigEndian_medium hexpr]
  | long =>
    have hread' : nextBytes 8 s = some (Width.ext .long length, s') := hread
    refine ⟨s', ?_, hrest⟩
    rw [show (Width.lowBits .long length).toNat = 127 from rfl, readLength_long, hread',
      Option.map_some, bigEndian_long hexpr]

theorem readLength_some (h : readLength (second &&& 0x7f).toNat s = some (length, s')) :
    ∃ ext, SaysLength length second ext ∧ s.stream = ext ++ s'.stream := by
  have hle : second &&& 0x7f ≤ 0x7f := UInt8.and_le_right
  by_cases h126 : second &&& 0x7f = 126
  · rw [h126, show (126 : UInt8).toNat = 126 from rfl, readLength_medium] at h
    obtain ⟨⟨ext, s₁⟩, hread, heq⟩ := Option.map_eq_some_iff.1 h
    cases heq
    obtain ⟨hlen, hstream⟩ := nextBytes_some hread
    obtain ⟨hexpr, hext⟩ := medium_ext hlen
    exact ⟨ext, ⟨.medium, hexpr, h126, hext⟩, hstream⟩
  by_cases h127 : second &&& 0x7f = 127
  · rw [h127, show (127 : UInt8).toNat = 127 from rfl, readLength_long] at h
    obtain ⟨⟨ext, s₁⟩, hread, heq⟩ := Option.map_eq_some_iff.1 h
    cases heq
    obtain ⟨hlen, hstream⟩ := nextBytes_some hread
    obtain ⟨hexpr, hext⟩ := long_ext hlen
    exact ⟨ext, ⟨.long, hexpr, h127, hext⟩, hstream⟩
  · have hlt : (second &&& 0x7f).toNat < 126 := by
      rw [UInt8.le_iff_toNat_le] at hle
      rw [← UInt8.toNat_inj] at h126 h127
      simp only [UInt8.reduceToNat] at hle h126 h127
      omega
    rw [readLength, if_neg (by omega), if_neg (by omega)] at h
    cases h
    exact ⟨[], ⟨.short, hlt, by rw [Width.lowBits, UInt8.ofNat_toNat], rfl⟩, rfl⟩

end

/-! ## Payloads -/

/-- The payload from byte `i` on. -/
def unmask (masks : Bytes) (i : Nat) (raw : Bytes) : Bytes :=
  raw.mapIdx fun k b => b ^^^ masks.byteAt ((i + k) % 4)

theorem unmask_zero (masks raw : Bytes) : unmask masks 0 raw = applyMask masks raw := by
  simp only [unmask, applyMask, Nat.zero_add]

theorem unmask_cons (masks : Bytes) (i : Nat) (b : UInt8) (raw : Bytes) :
    unmask masks i (b :: raw) = (b ^^^ masks.byteAt (i % 4)) :: unmask masks (i + 1) raw := by
  simp only [unmask, List.mapIdx_cons, Nat.add_zero]
  refine congrArg _ (congrArg (raw.mapIdx ·) (funext fun k => ?_))
  rw [show i + (k + 1) = i + 1 + k by omega]

@[simp] theorem length_unmask (masks : Bytes) (i : Nat) (raw : Bytes) :
    (unmask masks i raw).length = raw.length := by
  simp [unmask]

section
variable {control : Bool} {frameLength : Nat} {masks : Bytes} {s : Source} {msg : Bytes}

/-- **The payload is copied to its place**, if the source has all of it. -/
theorem copyPayload_room {n i msgIdx : Nat} (h : msgIdx + n ≤ msg.length) :
    (s.stream.length < n ∧
      copyPayload control frameLength masks n i s msg msgIdx = .error .error) ∨
    ∃ raw s', raw.length = n ∧ s.stream = raw ++ s'.stream ∧
      copyPayload control frameLength masks n i s msg msgIdx =
        .ok (s', msg.take msgIdx ++ (unmask masks i raw ++ msg.drop (msgIdx + n)), msgIdx + n) := by
  induction n generalizing s msg i msgIdx with
  | zero =>
    refine .inr ⟨[], s, rfl, rfl, ?_⟩
    rw [copyPayload, Nat.add_zero]
    simp [unmask]
  | succ n ih =>
    rcases nextByte_stream s with ⟨hnil, hnone⟩ | ⟨b, s₁, hcons, hnext⟩
    · refine .inl ⟨by rw [hnil]; exact Nat.succ_pos n, ?_⟩
      rw [copyPayload, hnone]
    · have hroom : msgIdx < msg.length := by omega
      have hset : (msg.set msgIdx (b ^^^ masks.byteAt (i % 4))).length = msg.length :=
        List.length_set
      simp only [copyPayload, hnext, if_pos hroom]
      rcases @ih s₁ (msg.set msgIdx (b ^^^ masks.byteAt (i % 4))) (i + 1) (msgIdx + 1)
        (by omega) with ⟨hshort, herror⟩ | ⟨raw, s', hlen, hstream, hok⟩
      · refine .inl ⟨?_, herror⟩
        rw [hcons, List.length_cons]
        omega
      · refine .inr ⟨b :: raw, s', congrArg (· + 1) hlen, by rw [hcons, hstream]; rfl, ?_⟩
        rw [hok, unmask_cons, List.drop_set_of_lt (by omega), List.take_add_one,
          List.take_set_of_le (Nat.le_refl _), List.getElem?_set_self hroom,
          show msgIdx + 1 + n = msgIdx + (n + 1) by omega]
        simp

theorem copyPayload_noRoom {n i msgIdx : Nat} (hn : 0 < n) (h : msg.length ≤ msgIdx) :
    (s.stream = [] ∧ copyPayload control frameLength masks n i s msg msgIdx = .error .error) ∨
    (s.stream ≠ [] ∧ copyPayload control frameLength masks n i s msg msgIdx =
      .error (.fault (.store control frameLength))) := by
  obtain ⟨n, rfl⟩ := Nat.exists_eq_succ_of_ne_zero (Nat.pos_iff_ne_zero.1 hn)
  rw [Nat.succ_eq_add_one, copyPayload]
  rcases nextByte_stream s with ⟨hnil, hnone⟩ | ⟨b, s₁, hcons, hnext⟩
  · exact .inl ⟨hnil, by rw [hnone]⟩
  · refine .inr ⟨by rw [hcons]; exact List.cons_ne_nil _ _, ?_⟩
    simp only [hnext, if_neg (Nat.not_lt.2 h)]

end

/-- What stands behind a message that is complete. -/
def terminator (isFin : Bool) (frameSize : Nat) : Bytes :=
  if isFin = true ∧ 0 < frameSize then [0] else []

theorem realloc_grow {msg : Bytes} {size : Nat} (h : msg.length ≤ size) :
    realloc msg size = msg ++ List.replicate (size - msg.length) 0 := by
  rw [realloc, List.take_of_length_le h]

section
variable {opcode : UInt8} {frameLength frameSize : Nat} {masks : Bytes} {isFin reallocOk : Bool}
  {s : Source} {msg : Bytes}

/-- **The fragments of a message**: the next one is put behind the others, and a terminator behind
the last. -/
theorem readPayload_data (hop : isControlFrame opcode = false)
    (hmax : msg.length + frameLength ≤ maxFrameLength) :
    ((reallocOk = true → s.stream.length < frameLength) ∧
      readPayload opcode msg frameLength (msg.length + frameLength) msg.length masks isFin reallocOk
        s = .error .error) ∨
    ∃ raw s', raw.length = frameLength ∧ s.stream = raw ++ s'.stream ∧
      readPayload opcode msg frameLength (msg.length + frameLength) msg.length masks isFin reallocOk
        s = .ok ⟨s', msg ++ (applyMask masks raw ++
          terminator isFin (msg.length + frameLength)), frameLength, msg.length + frameLength,
          msg.length + frameLength⟩ := by
  have hbound : maxFrameLength + 1 < 2 ^ 64 := by decide
  have hfin : isFin.toNat ≤ 1 := Bool.toNat_le isFin
  have hsize : (msg.length + frameLength + isFin.toNat) % 2 ^ 64 =
      msg.length + frameLength + isFin.toNat := Nat.mod_eq_of_lt (by omega)
  unfold readPayload
  simp only [hop, hsize]
  rcases Nat.eq_zero_or_pos frameLength with rfl | hpos
  · simp only [copyPayload, Nat.lt_irrefl, false_and, if_false, Nat.add_zero]
    by_cases hterm : isFin = true ∧ 0 < msg.length
    · rw [if_pos hterm]
      cases reallocOk with
      | false => exact .inl ⟨fun h => Bool.noConfusion h, by simp⟩
      | true =>
        refine .inr ⟨[], s, rfl, rfl, ?_⟩
        simp [realloc_grow, terminator, hterm, applyMask]
    · refine .inr ⟨[], s, rfl, rfl, ?_⟩
      rw [if_neg hterm, terminator, if_neg hterm]
      simp [applyMask]
  · have hne : msg.length + frameLength + isFin.toNat ≠ 0 := by omega
    have hne' : frameLength ≠ 0 := Nat.pos_iff_ne_zero.1 hpos
    simp only [hpos, true_and, hne, and_false, if_false, hne', false_and]
    cases reallocOk with
    | false => exact .inl ⟨fun h => Bool.noConfusion h, by simp⟩
    | true =>
      simp only [Bool.false_eq_true, not_false_eq_true, not_true, and_false, if_false, if_true]
      rw [realloc_grow (by omega)]
      rcases @copyPayload_room false frameLength masks s
        (msg ++ List.replicate (msg.length + frameLength + isFin.toNat - msg.length) 0)
        frameLength 0 msg.length (by simp; omega) with ⟨hshort, herror⟩ | ⟨raw, s', hlen, hs, hok⟩
      · exact .inl ⟨fun _ => hshort, by rw [herror]⟩
      · refine .inr ⟨raw, s', hlen, hs, ?_⟩
        have hblock : (msg ++ List.replicate
              (msg.length + frameLength + isFin.toNat - msg.length) (0 : UInt8)).take msg.length ++
            (unmask masks 0 raw ++ (msg ++ List.replicate
              (msg.length + frameLength + isFin.toNat - msg.length) 0).drop
              (msg.length + frameLength)) =
            msg ++ (applyMask masks raw ++ List.replicate isFin.toNat 0) := by
          rw [List.take_left, unmask_zero, List.drop_append, List.drop_eq_nil_of_le (by omega),
            List.drop_replicate, List.nil_append]
          congr 4
          omega
        rw [hok, hblock]
        dsimp only
        cases isFin with
        | false => simp [terminator]
        | true =>
          have hterm : true = true ∧ 0 < msg.length + frameLength := ⟨rfl, by omega⟩
          rw [if_pos hterm, terminator, if_pos hterm]
          simp [← hlen, List.set_append_right]

/-- A fragment that takes the size of its message past 2^64 makes the block smaller. -/
theorem readPayload_wraps (hop : isControlFrame opcode = false) (hmsg : msg.length ≤ maxFrameLength)
    (hlen : frameLength < 2 ^ 64) (hwrap : 2 ^ 64 ≤ msg.length + frameLength) :
    ((reallocOk = true → s.stream = []) ∧
      readPayload opcode msg frameLength frameSize msg.length masks isFin reallocOk s =
        .error .error) ∨
    readPayload opcode msg frameLength frameSize msg.length masks isFin reallocOk s =
      .error (.fault (.store false frameLength)) ∨
    readPayload opcode msg frameLength frameSize msg.length masks isFin reallocOk s =
      .error (.fault (.free frameLength)) := by
  have hbound : maxFrameLength + 1 < 2 ^ 64 := by decide
  have hfin : isFin.toNat ≤ 1 := Bool.toNat_le isFin
  have hpos : 0 < frameLength := by omega
  have hsmall : (msg.length + frameLength + isFin.toNat) % 2 ^ 64 ≤ msg.length := by omega
  unfold readPayload
  simp only [hop]
  generalize (msg.length + frameLength + isFin.toNat) % 2 ^ 64 = size at hsmall
  simp only [hpos, true_and, Bool.false_eq_true, not_false_eq_true, if_true]
  by_cases hzero : size = 0
  · rw [if_pos hzero]
    exact .inr (.inr rfl)
  rw [if_neg hzero]
  cases reallocOk with
  | false => exact .inl ⟨fun h => Bool.noConfusion h, rfl⟩
  | true =>
    have hroom : (realloc msg size).length ≤ msg.length := by
      simp only [realloc, List.length_append, List.length_take, List.length_replicate]
      omega
    rw [if_neg (by simp)]
    rcases @copyPayload_noRoom false frameLength masks s (realloc msg size) frameLength 0 msg.length
      hpos hroom with ⟨hnil, herror⟩ | ⟨-, hfault⟩
    · exact .inl ⟨fun _ => hnil, by rw [herror]⟩
    · exact .inr (.inl (by rw [hfault]))

/-- **A control frame** fills its buffer from the start. A payload as long as the buffer leaves no
room for the terminator. -/
theorem readPayload_control (hop : isControlFrame opcode = true) (hmsg : msg.length = 125)
    (hlen : frameLength ≤ 125) :
    (s.stream.length < frameLength ∧
      readPayload opcode msg frameLength frameLength 0 masks true reallocOk s = .error .error) ∨
    ∃ raw s', raw.length = frameLength ∧ s.stream = raw ++ s'.stream ∧
      if frameLength = 125 then
        readPayload opcode msg frameLength frameLength 0 masks true reallocOk s =
          .error (.fault (.store true frameLength))
      else ∃ msg', msg'.length = 125 ∧ msg'.take frameLength = applyMask masks raw ∧
        readPayload opcode msg frameLength frameLength 0 masks true reallocOk s =
          .ok ⟨s', msg', frameLength, frameLength, frameLength⟩ := by
  unfold readPayload
  simp only [hop, not_true, false_and, and_false, if_false, true_and]
  rcases @copyPayload_room true frameLength masks s msg frameLength 0 0 (by omega) with
    ⟨hshort, herror⟩ | ⟨raw, s', hraw, hs, hok⟩
  · exact .inl ⟨hshort, by rw [herror]⟩
  · refine .inr ⟨raw, s', hraw, hs, ?_⟩
    rw [hok, List.take_zero, List.nil_append, unmask_zero, Nat.zero_add]
    have hblock : (applyMask masks raw ++ msg.drop frameLength).length = 125 := by
      rw [List.length_append, length_applyMask, List.length_drop]
      omega
    have htake : (applyMask masks raw ++ msg.drop frameLength).take frameLength =
        applyMask masks raw := List.take_left' (by rw [length_applyMask, hraw])
    dsimp only
    rw [hblock]
    by_cases hfull : frameLength = 125
    · rw [if_pos hfull, if_pos (by omega), if_neg (by omega)]
    · rw [if_neg hfull]
      split_ifs with hterm hroom
      · refine ⟨_, ?_, ?_, rfl⟩
        · rw [List.length_set, hblock]
        · rw [List.take_set_of_le (Nat.le_refl _), htake]
      · exact absurd (by omega) hroom
      · exact ⟨_, hblock, htake, rfl⟩

end

/-! ## Frames -/

section
variable {opcode second : UInt8} {length frameSize msgIdx : Nat} {isFin reallocOk : Bool}
  {s : Source} {msg ext masks rest : Bytes}

/-- A frame is read up to its payload. -/
theorem readFrame_header (hsaid : SaysLength length second ext) (hmasks : masks.length = 4)
    (hs : s.stream = ext ++ (masks ++ rest))
    (hmax : (frameSize + length) % 2 ^ 64 ≤ maxFrameLength) :
    ∃ s', s'.stream = rest ∧
      readFrame opcode msg (second &&& 0x7f).toNat frameSize msgIdx isFin reallocOk s =
        readPayload opcode msg length ((frameSize + length) % 2 ^ 64) msgIdx masks isFin reallocOk
          s' := by
  obtain ⟨s₁, hlength, hs₁⟩ := readLength_saysLength hsaid hs
  obtain ⟨s₂, hread, hs₂⟩ := nextBytes_append hs₁
  rw [hmasks] at hread
  refine ⟨s₂, hs₂, ?_⟩
  simp only [readFrame, hlength, hread, if_neg (Nat.not_lt.2 hmax)]

/-- A frame is not read, or it is up to its payload. -/
theorem readFrame_cases :
    readFrame opcode msg (second &&& 0x7f).toNat frameSize msgIdx isFin reallocOk s =
      .error .error ∨
    ∃ length ext masks s', SaysLength length second ext ∧ masks.length = 4 ∧
      s.stream = ext ++ (masks ++ s'.stream) ∧ (frameSize + length) % 2 ^ 64 ≤ maxFrameLength ∧
      readFrame opcode msg (second &&& 0x7f).toNat frameSize msgIdx isFin reallocOk s =
        readPayload opcode msg length ((frameSize + length) % 2 ^ 64) msgIdx masks isFin reallocOk
          s' := by
  unfold readFrame
  cases hlength : readLength (second &&& 0x7f).toNat s with
  | none => exact .inl rfl
  | some r =>
    obtain ⟨length, s₁⟩ := r
    obtain ⟨ext, hsaid, hs⟩ := readLength_some hlength
    dsimp only
    by_cases hmax : (frameSize + length) % 2 ^ 64 > maxFrameLength
    · exact .inl (if_pos hmax)
    rw [if_neg hmax]
    cases hread : nextBytes 4 s₁ with
    | none => exact .inl rfl
    | some r =>
      obtain ⟨masks, s₂⟩ := r
      obtain ⟨hmasks, hs₁⟩ := nextBytes_some hread
      exact .inr ⟨length, ext, masks, s₂, hsaid, hmasks, by rw [hs, hs₁], Nat.le_of_not_lt hmax,
        rfl⟩

theorem SaysLength.lt (h : SaysLength length second ext) : length < 2 ^ 64 := by
  obtain ⟨width, hexpr, -, -⟩ := h
  cases width with
  | short => exact Nat.lt_trans hexpr (by decide)
  | medium => exact Nat.lt_trans hexpr (by decide)
  | long => exact hexpr

theorem SaysLength.short (h : SaysLength length second ext) (hlow : (second &&& 0x7f).toNat ≤ 125) :
    length = (second &&& 0x7f).toNat ∧ ext = [] := by
  obtain ⟨width, hexpr, hsecond, rfl⟩ := h
  rw [hsecond] at hlow ⊢
  cases width with
  | short => exact ⟨(UInt8.toNat_ofNat_of_lt' (Nat.lt_trans hexpr (by decide))).symm, rfl⟩
  | medium => exact absurd hlow (by simp [Width.lowBits])
  | long => exact absurd hlow (by simp [Width.lowBits])

/-- **What comes of a fragment**, whatever the source gives. -/
theorem readFrame_data (hop : isControlFrame opcode = false) (hmsg : msg.length ≤ maxFrameLength) :
    let r := readFrame opcode msg (second &&& 0x7f).toNat msg.length msg.length isFin reallocOk s
    r = .error .error ∨
    (∃ length ext rest, SaysLength length second ext ∧ s.stream = ext ++ rest ∧
      2 ^ 64 - maxFrameLength ≤ length ∧
      (r = .error (.fault (.store false length)) ∨ r = .error (.fault (.free length)))) ∨
    ∃ payload consumed s', msg.length + payload.length ≤ maxFrameLength ∧
      s.stream = consumed ++ s'.stream ∧
      r = .ok ⟨s', msg ++ (payload ++ terminator isFin (msg.length + payload.length)),
        payload.length, msg.length + payload.length, msg.length + payload.length⟩ := by
  intro r
  rcases @readFrame_cases opcode second msg.length msg.length isFin reallocOk s msg with
    herror | ⟨length, ext, masks, s', hsaid, hmasks, hs, hmax, hread⟩
  · exact .inl herror
  have hlt := hsaid.lt
  have hbound : maxFrameLength < 2 ^ 64 := by decide
  rcases Nat.lt_or_ge (msg.length + length) (2 ^ 64) with hnowrap | hwrap
  · rw [Nat.mod_eq_of_lt hnowrap] at hmax hread
    rcases @readPayload_data opcode length masks isFin reallocOk s' msg hop hmax with
      ⟨-, herror⟩ | ⟨raw, s'', hraw, hs', hok⟩
    · exact .inl (hread.trans herror)
    · refine .inr (.inr ⟨applyMask masks raw, ext ++ (masks ++ raw), s'', ?_, ?_, ?_⟩)
      · rw [length_applyMask, hraw]
        exact hmax
      · rw [hs, hs']
        simp only [List.append_assoc]
      · rw [length_applyMask, hraw]
        exact hread.trans hok
  · rcases readPayload_wraps hop hmsg hlt hwrap with ⟨-, herror⟩ | hstore | hfree
    · exact .inl (hread.trans herror)
    · exact .inr (.inl ⟨length, ext, _, hsaid, hs, by omega, .inl (hread.trans hstore)⟩)
    · exact .inr (.inl ⟨length, ext, _, hsaid, hs, by omega, .inr (hread.trans hfree)⟩)

/-- **What comes of a control frame**, whatever the source gives. -/
theorem readFrame_control (hop : isControlFrame opcode = true) (hmsg : msg.length = 125)
    (hlow : (second &&& 0x7f).toNat ≤ 125) :
    let r := readFrame opcode msg (second &&& 0x7f).toNat 0 0 true reallocOk s
    r = .error .error ∨
    (SaysLength 125 second [] ∧ r = .error (.fault (.store true 125))) ∨
    ∃ payload msg' consumed s', payload.length < 125 ∧ msg'.length = 125 ∧
      msg'.take payload.length = payload ∧ s.stream = consumed ++ s'.stream ∧
      r = .ok ⟨s', msg', payload.length, payload.length, payload.length⟩ := by
  intro r
  rcases @readFrame_cases opcode second 0 0 true reallocOk s msg with
    herror | ⟨length, ext, masks, s', hsaid, hmasks, hs, hmax, hread⟩
  · exact .inl herror
  obtain ⟨hlength, rfl⟩ := hsaid.short hlow
  have hlen : length ≤ 125 := hlength ▸ hlow
  rw [Nat.zero_add, Nat.mod_eq_of_lt (by omega)] at hread
  rcases @readPayload_control opcode length masks reallocOk s' msg hop hmsg hlen with
    ⟨-, herror⟩ | ⟨raw, s'', hraw, hs', hrest⟩
  · exact .inl (hread.trans herror)
  · split_ifs at hrest with hfull
    · subst hfull
      exact .inr (.inl ⟨hsaid, hread.trans hrest⟩)
    · obtain ⟨msg', hmsg', htake, hok⟩ := hrest
      refine .inr (.inr ⟨applyMask masks raw, msg', masks ++ raw, s'', ?_, hmsg', ?_, ?_, ?_⟩)
      · rw [length_applyMask, hraw]
        omega
      · rw [length_applyMask, hraw, htake]
      · rw [hs, hs', List.nil_append, List.append_assoc]
      · rw [length_applyMask, hraw]
        exact hread.trans hok

/-! ## Frames that are sent whole -/

theorem applyMask_raw {payload raw rest rest' : Bytes} (hlen : raw.length = payload.length)
    (h : applyMask masks payload ++ rest = raw ++ rest') :
    applyMask masks raw = payload ∧ rest' = rest := by
  obtain ⟨hraw, hrest⟩ := List.append_inj h (by rw [length_applyMask, hlen])
  exact ⟨by rw [← hraw, applyMask_applyMask], hrest.symm⟩

theorem readFrame_fragment {payload : Bytes} (hop : isControlFrame opcode = false)
    (hsaid : SaysLength payload.length second ext) (hmasks : masks.length = 4)
    (hs : s.stream = ext ++ (masks ++ (applyMask masks payload ++ rest)))
    (hmax : msg.length + payload.length ≤ maxFrameLength) :
    ∃ s', s'.stream = rest ∧
      readFrame opcode msg (second &&& 0x7f).toNat msg.length msg.length isFin true s =
        .ok ⟨s', msg ++ (payload ++ terminator isFin (msg.length + payload.length)),
          payload.length, msg.length + payload.length, msg.length + payload.length⟩ := by
  have hbound : maxFrameLength < 2 ^ 64 := by decide
  have hnowrap : (msg.length + payload.length) % 2 ^ 64 = msg.length + payload.length :=
    Nat.mod_eq_of_lt (by omega)
  obtain ⟨s₁, hs₁, hread⟩ := @readFrame_header opcode second _ msg.length msg.length isFin true s
    msg ext masks _ hsaid hmasks hs (by rw [hnowrap]; exact hmax)
  rw [hnowrap] at hread
  rcases @readPayload_data opcode payload.length masks isFin true s₁ msg hop hmax with
    ⟨hshort, -⟩ | ⟨raw, s₂, hraw, hs₂, hok⟩
  · have hlen := hshort rfl
    rw [hs₁, List.length_append, length_applyMask] at hlen
    omega
  · obtain ⟨hpayload, hrest⟩ := applyMask_raw hraw (hs₁.symm.trans hs₂)
    rw [hpayload] at hok
    exact ⟨s₂, hrest, hread.trans hok⟩

theorem readFrame_controlled {payload : Bytes} (hop : isControlFrame opcode = true)
    (hmsg : msg.length = 125) (hsaid : SaysLength payload.length second ext)
    (hmasks : masks.length = 4)
    (hs : s.stream = ext ++ (masks ++ (applyMask masks payload ++ rest)))
    (hlen : payload.length ≤ 125) :
    if payload.length = 125 then
      readFrame opcode msg (second &&& 0x7f).toNat 0 0 true reallocOk s =
        .error (.fault (.store true 125))
    else ∃ s' msg', s'.stream = rest ∧ msg'.take payload.length = payload ∧
      readFrame opcode msg (second &&& 0x7f).toNat 0 0 true reallocOk s =
        .ok ⟨s', msg', payload.length, payload.length, payload.length⟩ := by
  have hbound : 125 ≤ maxFrameLength := by decide
  have hnowrap : (0 + payload.length) % 2 ^ 64 = payload.length := by omega
  obtain ⟨s₁, hs₁, hread⟩ := @readFrame_header opcode second _ 0 0 true reallocOk s msg
    ext masks _ hsaid hmasks hs (by omega)
  rw [hnowrap] at hread
  rcases @readPayload_control opcode payload.length masks reallocOk s₁ msg hop hmsg hlen with
    ⟨hshort, -⟩ | ⟨raw, s₂, hraw, hs₂, hend⟩
  · rw [hs₁, List.length_append, length_applyMask] at hshort
    omega
  · obtain ⟨hpayload, hrest⟩ := applyMask_raw hraw (hs₁.symm.trans hs₂)
    split_ifs at hend ⊢ with hfull
    · rw [hread, hend, hfull]
    · obtain ⟨msg', -, htake, hok⟩ := hend
      exact ⟨s₂, msg', hrest, htake.trans hpayload, hread.trans hok⟩

/-- A fragment that takes the size past 2^64 stores behind the block, or has it freed. -/
theorem readFrame_wraps {b : UInt8} (hop : isControlFrame opcode = false)
    (hmsg : msg.length ≤ maxFrameLength) (hsaid : SaysLength length second ext)
    (hwrap : 2 ^ 64 ≤ msg.length + length) (hmasks : masks.length = 4)
    (hs : s.stream = ext ++ (masks ++ b :: rest)) :
    ∃ f, (f = .store false length ∨ f = .free length) ∧
      readFrame opcode msg (second &&& 0x7f).toNat msg.length msg.length isFin true s =
        .error (.fault f) := by
  have hlt := hsaid.lt
  obtain ⟨s₁, hs₁, hread⟩ := @readFrame_header opcode second _ msg.length msg.length isFin true s
    msg ext masks _ hsaid hmasks hs (by omega)
  rcases @readPayload_wraps opcode length ((msg.length + length) % 2 ^ 64) masks isFin true s₁ msg
    hop hmsg hlt hwrap with ⟨hnil, -⟩ | hstore | hfree
  · rw [hnil rfl] at hs₁
    cases hs₁
  · exact ⟨_, .inl rfl, hread.trans hstore⟩
  · exact ⟨_, .inr rfl, hread.trans hfree⟩

end

end Ws
