import CarplayRelay.Lib.CInt
import CarplayRelay.Lib.Find
import CarplayRelay.Server.Media

/-!
# Reading the bitstream file (`next_chunk`, `check_size`, `h264_streaming`)

The streaming thread cuts the file in memory at its start codes. Pointers are offsets into the
buffer; every read of the buffer goes through `readAt` and is `none` outside of it. What the loop
does apart from the file (the QP, the sends, the pause) is left out.

* `h264Scan_eq`: one iteration cuts the next NAL unit off the rest of the file (`unitLength`).
* `pass_serialise`: a pass over a serialised list of NAL units yields these NAL units and goes
  back to the beginning; over any file a pass ends.
* `reads_in_bounds`: no iteration reads outside of the buffer exactly if the file does not end in
  a start code; `start_code_at_end`: the smallest such file.
-/

namespace Server

open CInt Find Media

/-! ## The code -/

/-- The byte at an offset of the buffer. -/
def readAt (bs : Bytes) (p : Int) : Option UInt8 := if p < 0 then none else bs[p.toNat]?

/-- `(start[i] == 0x01) && (start[i-1] == 0x00) && (start[i-2] == 0x00)` at `p = start + i`. -/
def isStartCode (bs : Bytes) (p : Int) : Option Bool := do
  if (← readAt bs p) ≠ 1 then return false
  if (← readAt bs (p - 1)) ≠ 0 then return false
  return (← readAt bs (p - 2)) = 0

/-- The loop of `check_size`, with `left` iterations to go. -/
def checkSizeLoop (bs : Bytes) (start size : Int) : Nat → Int → Option Int
  | 0, _ => some size
  | left + 1, i => do
    if ← isStartCode bs (start + i) then
      if 0 ≤ i - 3 then
        if (← readAt bs (start + i - 3)) = 0 then some (wrapSize (i - 3))
        else some (wrapSize (i - 2))
      else some (wrapSize (i - 2))
    else checkSizeLoop bs start size left (i + 1)

/-- `check_size`. -/
def checkSize (bs : Bytes) (start size : Int) : Option Int :=
  checkSizeLoop bs start size (wrap32 size).toNat 0

/-- `chunk_t`. -/
structure Chunk where
  start : Int
  size : Int
  deriving DecidableEq, Repr

/-- The loop of `next_chunk`, with `left` iterations to go. -/
def nextChunkLoop (bs : Bytes) (start size : Int) : Nat → Int → Option (Option Chunk)
  | 0, _ => some none
  | left + 1, i => do
    if ← isStartCode bs (start + i) then
      let i := i + 1
      let chunkSize ← checkSize bs (start + i) (wrapSize (size - i))
      some (some ⟨start + i, chunkSize⟩)
    else nextChunkLoop bs start size left (i + 1)

/-- `next_chunk`: `some none` leaves the chunk's start `NULL`. -/
def nextChunk (bs : Bytes) (start size : Int) : Option (Option Chunk) :=
  nextChunkLoop bs start size (wrap32 size - 2).toNat 2

/-- The loop's `start` and `size`. -/
structure Pos where
  start : Int
  size : Int
  deriving DecidableEq, Repr

/-- The beginning of the file. -/
def beginning (bs : Bytes) : Pos := ⟨0, wrap32 bs.length⟩

/-- The next chunk and the advance of `start` and `size`. -/
def h264Scan (bs : Bytes) (pos : Pos) : Option (Option Chunk × Pos) := do
  match ← nextChunk bs pos.start (wrapSize pos.size) with
  | none => some (none, beginning bs)
  | some c =>
    let advance := wrapSize (c.start - pos.start + c.size)
    some (some c, ⟨c.start + c.size, wrap32 (wrapSize (wrapSize pos.size - advance))⟩)

/-- What the loop of `send_video_media` reads of its payload, as offsets and lengths, with `left`
iterations to go. -/
def fragmentReads (payloadLen : Nat) : Nat → Nat → List (Nat × Nat)
  | 0, _ => []
  | left + 1, offset =>
    let fragLen := min (payloadLen - offset) videoFragmentDataSize
    (offset, fragLen) :: fragmentReads payloadLen left (offset + fragLen)

/-- What `send_video_media` reads of its payload if no call fails. -/
def sendVideoMediaReads (payloadLen : Nat) : List (Nat × Nat) :=
  if payloadLen = 0 then []
  else if payloadLen ≤ videoFragmentDataSize then [(0, payloadLen)]
  else
    let fragCount := UInt16.ofNat ((payloadLen + videoFragmentDataSize - 1) / videoFragmentDataSize)
    (0, 1) :: fragmentReads payloadLen fragCount.toNat 0

/-- The ranges lie in the buffer, counted from `p`. -/
def readRanges (bs : Bytes) (p : Int) (ranges : List (Nat × Nat)) : Option Unit :=
  if ∀ r ∈ ranges, 0 ≤ p + r.1 ∧ p + r.1 + r.2 ≤ bs.length then some () else none

/-- An iteration of `h264_streaming`: the NAL unit handed to `send_video_media`, if there is one. -/
def h264Iteration (bs : Bytes) (pos : Pos) : Option (Option Bytes × Pos) := do
  match ← h264Scan bs pos with
  | (none, pos) => some (none, pos)
  | (some c, pos) =>
    -- the first byte in `bitrate_ctrl_update_frame`
    let _ ← readAt bs c.start
    readRanges bs c.start (sendVideoMediaReads c.size.toNat)
    -- the first byte for `nal_type`
    let _ ← readAt bs c.start
    some (some ((bs.drop c.start.toNat).take c.size.toNat), pos)

/-- The first `n` iterations from `pos`. -/
def h264Run (bs : Bytes) : Nat → Pos → Option (List (Option Bytes) × Pos)
  | 0, pos => some ([], pos)
  | n + 1, pos => do
    let (nal, pos) ← h264Iteration bs pos
    let (nals, pos) ← h264Run bs n pos
    some (nal :: nals, pos)

/-! ## NAL units of a byte string -/

/-- The start code. -/
def startCode : Bytes := [0, 0, 1]

/-- The length of the NAL unit that `after` starts with: up to the next start code, or to the zero
byte in front of that. -/
def unitLength (after : Bytes) : Nat :=
  match find startCode after with
  | none => after.length
  | some k => if 1 ≤ k ∧ after.byteAt (k - 1) = 0 then k - 1 else k

theorem unitLength_le (after : Bytes) : unitLength after ≤ after.length := by
  unfold unitLength
  split
  · exact le_rfl
  · rename_i k hk
    have hle := find_le hk (by decide)
    split_ifs <;> omega

/-! ## The tests of the scanners -/

section
variable {bs : Bytes}

theorem readAt_natCast (bs : Bytes) (p : Nat) : readAt bs p = bs[p]? := by
  unfold readAt
  rw [if_neg (by omega), Int.toNat_natCast]

theorem drop_eq_three {p : Nat} (h : p + 2 < bs.length) :
    bs.drop p = bs[p] :: bs[p + 1] :: bs[p + 2] :: bs.drop (p + 3) := by
  rw [List.drop_eq_getElem_cons (by omega), List.drop_eq_getElem_cons (by omega),
    List.drop_eq_getElem_cons (by omega)]

theorem isStartCode_eq {p : Nat} (h : p + 2 < bs.length) :
    isStartCode bs (p + 2 : Nat) = some (decide (startCode <+: bs.drop p)) := by
  have h1 : ((p + 2 : Nat) : Int) - 1 = (p + 1 : Nat) := by omega
  have h2 : ((p + 2 : Nat) : Int) - 2 = p := by omega
  unfold isStartCode
  rw [h1, h2, readAt_natCast, readAt_natCast, readAt_natCast, drop_eq_three h,
    List.getElem?_eq_getElem h, List.getElem?_eq_getElem (by omega),
    List.getElem?_eq_getElem (by omega)]
  generalize bs[p] = a, bs[p + 1] = b, bs[p + 2] = c
  simp only [startCode, List.cons_prefix_cons, List.nil_prefix, and_true, Option.bind_eq_bind,
    Option.bind_some]
  by_cases hc : c = 1
  · by_cases hb : b = 0
    · subst hc hb
      simp [eq_comm]
    · simp [hb, Ne.symm hb]
  · simp [hc, Ne.symm hc]

/-- No start code ends at the first or the second byte after a start code. -/
theorem isStartCode_after {c : Nat} (hc : 3 ≤ c) (hone : bs[c - 1]? = some 1) :
    (c < bs.length → isStartCode bs c = some false) ∧
      (c + 1 < bs.length → isStartCode bs (c + 1 : Nat) = some false) := by
  obtain ⟨q, rfl⟩ : ∃ q, c = q + 2 := ⟨c - 2, by omega⟩
  obtain ⟨hq, hone⟩ := List.getElem?_eq_some_iff.1 hone
  constructor
  · intro hlt
    rw [isStartCode_eq hlt, drop_eq_three hlt]
    simp_all [startCode]
  · intro hlt
    rw [isStartCode_eq (p := q + 1) hlt, drop_eq_three (p := q + 1) hlt]
    simp_all [startCode]

theorem find_short {rest : Bytes} (h : rest.length ≤ 2) : find startCode rest = none := by
  apply find_eq_none
  intro hinfix
  have hle := hinfix.length_le
  exact absurd hle (by simp [startCode]; omega)

theorem find_drop {p : Nat} (h : p + 2 < bs.length) :
    find startCode (bs.drop p) =
      if startCode <+: bs.drop p then some 0
      else (find startCode (bs.drop (p + 1))).map (· + 1) := by
  rw [List.drop_eq_getElem_cons (by omega)]
  rfl

theorem checkSizeLoop_eq {c left j : Nat} {size : Int} (hc : 3 ≤ c)
    (hlen : c + j + 2 + left = bs.length) (hbig : bs.length < 2 ^ 31) :
    checkSizeLoop bs c size left (j + 2 : Nat) =
      match find startCode (bs.drop (c + j)) with
      | none => some size
      | some k =>
        some ↑(if 1 ≤ j + k ∧ bs.byteAt (c + j + k - 1) = 0 then j + k - 1 else j + k) := by
  induction left generalizing j with
  | zero =>
    rw [find_short (by rw [List.length_drop]; omega)]
    rfl
  | succ left ih =>
    have hp : (c : Int) + (j + 2 : Nat) = (c + j + 2 : Nat) := by omega
    have hnext : ((j + 2 : Nat) : Int) + 1 = (j + 1 + 2 : Nat) := by omega
    rw [checkSizeLoop, hp, isStartCode_eq (by omega), find_drop (by omega), hnext,
      ih (by omega)]
    simp only [Option.bind_eq_bind, Option.bind_some, decide_eq_true_eq]
    split
    · -- the start code ends here
      cases j with
      | zero => rfl
      | succ j =>
        have hread : ((c + (j + 1) + 2 : Nat) : Int) - 3 = (c + j : Nat) := by omega
        have hlt : c + j < bs.length := by omega
        have hbyte : bs.byteAt (c + j) = bs[c + j] := by
          rw [Bytes.byteAt, List.getD_eq_getElem?_getD, List.getElem?_eq_getElem hlt]
          rfl
        have hthree : wrapSize (((j + 1 + 2 : Nat) : Int) - 3) = j := by
          rw [wrapSize_of_range (by omega) (by omega)]
          omega
        have htwo : wrapSize (((j + 1 + 2 : Nat) : Int) - 2) = (j + 1 : Nat) := by
          rw [wrapSize_of_range (by omega) (by omega)]
          omega
        rw [if_pos (by omega), hread, readAt_natCast, List.getElem?_eq_getElem hlt,
          Option.bind_some, hthree, htwo]
        simp only [Nat.add_zero, show c + (j + 1) - 1 = c + j by omega, hbyte]
        split_ifs with hzero hboth hboth
        · rfl
        · exact absurd ⟨by omega, hzero⟩ hboth
        · exact absurd hboth.2 hzero
        · rfl
    · cases find startCode (bs.drop (c + j + 1)) with
      | none => simp
      | some k =>
        have hsum : j + (k + 1) = j + 1 + k := by omega
        have hoff : c + j + (k + 1) = c + (j + 1) + k := by omega
        simp [hsum, hoff]

theorem byteAt_drop (bs : Bytes) (c i : Nat) :
    Bytes.byteAt (bs.drop c) i = bs.byteAt (c + i) := by
  simp only [Bytes.byteAt, List.getD_eq_getElem?_getD, List.getElem?_drop]

/-- **`check_size` finds the next start code**; it looks behind its start only at a one. -/
theorem checkSize_eq {c : Nat} (hc : 3 ≤ c) (hle : c ≤ bs.length) (hbig : bs.length < 2 ^ 31)
    (hone : bs[c - 1]? = some 1) :
    checkSize bs c (bs.length - c : Nat) = some ↑(unitLength (bs.drop c)) := by
  obtain ⟨hfirst, hsecond⟩ := isStartCode_after hc hone
  have hsize : (wrap32 (bs.length - c : Nat)).toNat = bs.length - c := by
    rw [wrap32_of_range (by omega) (by omega), Int.toNat_natCast]
  unfold checkSize
  rw [hsize]
  obtain hshort | hlong := Nat.lt_or_ge (bs.length - c) 2
  · have hnone : find startCode (bs.drop c) = none := find_short (by rw [List.length_drop]; omega)
    have hunit : unitLength (bs.drop c) = bs.length - c := by
      unfold unitLength
      rw [hnone, List.length_drop]
    rw [hunit]
    obtain hzero | hsingle : bs.length - c = 0 ∨ bs.length - c = 1 := by omega
    · rw [hzero]
      rfl
    · rw [hsingle, checkSizeLoop, Int.add_zero, hfirst (by omega)]
      rfl
  · obtain ⟨left, hleft⟩ : ∃ left, bs.length - c = left + 2 := ⟨bs.length - c - 2, by omega⟩
    have hloop := @checkSizeLoop_eq bs c left 0 (bs.length - c : Nat) hc (by omega) hbig
    have hoff : (c : Int) + (0 + 1) = (c + 1 : Nat) := by omega
    have htwo : (0 : Int) + 1 + 1 = (0 + 2 : Nat) := by omega
    rw [hleft] at hloop ⊢
    rw [checkSizeLoop, Int.add_zero, hfirst (by omega)]
    simp only [Option.bind_eq_bind, Option.bind_some, Bool.false_eq_true, if_false]
    rw [checkSizeLoop, hoff, hsecond (by omega)]
    simp only [Option.bind_eq_bind, Option.bind_some, Bool.false_eq_true, if_false]
    rw [htwo, hloop]
    unfold unitLength
    simp only [Nat.add_zero, Nat.zero_add]
    cases find startCode (bs.drop c) with
    | none => rw [List.length_drop, hleft]
    | some k =>
      simp only [byteAt_drop]
      obtain hk | hk := Nat.eq_zero_or_pos k
      · simp [hk]
      · rw [← Nat.add_sub_assoc hk]

theorem nextChunkLoop_eq {s left j : Nat} (hlen : s + j + 2 + left = bs.length)
    (hbig : bs.length < 2 ^ 31) :
    nextChunkLoop bs s (bs.length - s : Nat) left (j + 2 : Nat) =
      match find startCode (bs.drop (s + j)) with
      | none => some none
      | some k => some (some
          ⟨(s + j + k + 3 : Nat), (unitLength (bs.drop (s + j + k + 3)) : Nat)⟩) := by
  induction left generalizing j with
  | zero =>
    rw [find_short (by rw [List.length_drop]; omega)]
    rfl
  | succ left ih =>
    have hp : (s : Int) + (j + 2 : Nat) = (s + j + 2 : Nat) := by omega
    have hnext : ((j + 2 : Nat) : Int) + 1 = (j + 1 + 2 : Nat) := by omega
    rw [nextChunkLoop, hp, isStartCode_eq (by omega), find_drop (by omega), hnext, ih (by omega)]
    simp only [Option.bind_eq_bind, Option.bind_some, decide_eq_true_eq]
    split
    · rename_i hcode
      have hstart : (s : Int) + (j + 1 + 2 : Nat) = (s + j + 3 : Nat) := by omega
      have hsize : wrapSize ((bs.length - s : Nat) - (j + 1 + 2 : Nat)) =
          (bs.length - (s + j + 3) : Nat) := by
        rw [wrapSize_of_range (by omega) (by omega)]
        omega
      have hone : bs[s + j + 3 - 1]? = some 1 := by
        rw [drop_eq_three (by omega)] at hcode
        simp only [startCode, List.cons_prefix_cons] at hcode
        rw [List.getElem?_eq_getElem (by omega)]
        exact congrArg some hcode.2.2.1.symm
      rw [hstart, hsize, checkSize_eq (by omega) (by omega) hbig hone]
      rfl
    · cases find startCode (bs.drop (s + j + 1)) with
      | none => simp
      | some k =>
        have hsum : s + j + (k + 1) = s + (j + 1) + k := by omega
        simp [hsum]

/-! ## One iteration -/

/-- The position at offset `s`. -/
def posAt (bs : Bytes) (s : Nat) : Pos := ⟨s, (bs.length - s : Nat)⟩

theorem beginning_eq (hbig : bs.length < 2 ^ 31) : beginning bs = posAt bs 0 := by
  unfold beginning posAt
  rw [wrap32_of_range (by omega) (by omega), Nat.sub_zero]
  rfl

theorem nextChunk_eq {s : Nat} (hle : s ≤ bs.length) (hbig : bs.length < 2 ^ 31) :
    nextChunk bs s (bs.length - s : Nat) =
      match find startCode (bs.drop s) with
      | none => some none
      | some k => some (some ⟨(s + k + 3 : Nat), (unitLength (bs.drop (s + k + 3)) : Nat)⟩) := by
  have hwrap : wrap32 (bs.length - s : Nat) = (bs.length - s : Nat) :=
    wrap32_of_range (by omega) (by omega)
  unfold nextChunk
  rw [hwrap]
  obtain hshort | hlong := Nat.lt_or_ge (bs.length - s) 2
  · have hnone : find startCode (bs.drop s) = none := find_short (by rw [List.length_drop]; omega)
    have hzero : (((bs.length - s : Nat) : Int) - 2).toNat = 0 := by omega
    rw [hnone, hzero]
    rfl
  · exact nextChunkLoop_eq (j := 0) (by omega) hbig

/-- **One scan finds the next start code and the end of the NAL unit after it.** -/
theorem h264Scan_eq {s : Nat} (hle : s ≤ bs.length) (hbig : bs.length < 2 ^ 31) :
    h264Scan bs (posAt bs s) =
      match find startCode (bs.drop s) with
      | none => some (none, posAt bs 0)
      | some k => some (some ⟨(s + k + 3 : Nat), (unitLength (bs.drop (s + k + 3)) : Nat)⟩,
          posAt bs (s + k + 3 + unitLength (bs.drop (s + k + 3)))) := by
  have hsize : wrapSize (posAt bs s).size = (bs.length - s : Nat) :=
    wrapSize_of_range (by simp [posAt]) (by simp [posAt]; omega)
  unfold h264Scan
  rw [hsize, show (posAt bs s).start = s from rfl, nextChunk_eq hle hbig]
  cases hk : find startCode (bs.drop s) with
  | none => exact congrArg (fun b => some (none, b)) (beginning_eq hbig)
  | some k =>
    have hfound := find_le hk (by decide)
    have hunit := unitLength_le (bs.drop (s + k + 3))
    rw [List.length_drop] at hfound hunit
    simp only [startCode, List.length_cons, List.length_nil] at hfound
    simp only [Option.bind_eq_bind, Option.bind_some]
    generalize unitLength (bs.drop (s + k + 3)) = n at hunit ⊢
    have hadvance : wrapSize (((s + k + 3 : Nat) : Int) - s + n) = (k + 3 + n : Nat) := by
      rw [wrapSize_of_range (by omega) (by omega)]
      omega
    have hrest : wrap32 (wrapSize ((bs.length - s : Nat) - (k + 3 + n : Nat))) =
        (bs.length - (s + k + 3 + n) : Nat) := by
      rw [wrapSize_of_range (by omega) (by omega), wrap32_of_range (by omega) (by omega)]
      omega
    rw [hadvance, hrest]
    rfl

theorem fragmentReads_le (payloadLen left offset : Nat) (hoff : offset ≤ payloadLen) :
    ∀ r ∈ fragmentReads payloadLen left offset, r.1 + r.2 ≤ payloadLen := by
  induction left generalizing offset with
  | zero => exact fun r hr => absurd hr List.not_mem_nil
  | succ left ih =>
    intro r hr
    rcases List.mem_cons.1 hr with rfl | hr
    · show offset + min _ _ ≤ _
      omega
    · exact ih _ (by omega) r hr

theorem sendVideoMediaReads_le (payloadLen : Nat) :
    ∀ r ∈ sendVideoMediaReads payloadLen, r.1 + r.2 ≤ payloadLen := by
  unfold sendVideoMediaReads
  split_ifs with hzero hsmall
  · exact fun r hr => absurd hr List.not_mem_nil
  · intro r hr
    rw [List.mem_singleton.1 hr]
    omega
  · intro r hr
    rcases List.mem_cons.1 hr with rfl | hr
    · show 0 + 1 ≤ payloadLen
      omega
    · exact fragmentReads_le payloadLen _ 0 (by omega) r hr

/-- **An iteration hands on the next NAL unit**, unless its first byte is past the buffer. -/
theorem h264Iteration_eq {s : Nat} (hle : s ≤ bs.length) (hbig : bs.length < 2 ^ 31) :
    h264Iteration bs (posAt bs s) =
      match find startCode (bs.drop s) with
      | none => some (none, posAt bs 0)
      | some k =>
        if s + k + 3 < bs.length then
          some (some ((bs.drop (s + k + 3)).take (unitLength (bs.drop (s + k + 3)))),
            posAt bs (s + k + 3 + unitLength (bs.drop (s + k + 3))))
        else none := by
  unfold h264Iteration
  rw [h264Scan_eq hle hbig]
  cases find startCode (bs.drop s) with
  | none => rfl
  | some k =>
    have hunit := unitLength_le (bs.drop (s + k + 3))
    rw [List.length_drop] at hunit
    simp only [Option.bind_eq_bind, Option.bind_some]
    generalize unitLength (bs.drop (s + k + 3)) = n at hunit ⊢
    generalize s + k + 3 = c at hunit ⊢
    split
    · rename_i hlt
      have hranges : readRanges bs c (sendVideoMediaReads (n : Int).toNat) = some () := by
        apply if_pos
        intro r hr
        have hread := sendVideoMediaReads_le _ r hr
        omega
      rw [readAt_natCast, List.getElem?_eq_getElem hlt, hranges]
      rfl
    · rename_i hge
      rw [readAt_natCast, List.getElem?_eq_none (by omega)]
      rfl

/-! ## Reads outside of the buffer -/

theorem next_le {s k : Nat} (hk : find startCode (bs.drop s) = some k) :
    s + k + 3 ≤ bs.length ∧
      s + k + 3 + unitLength (bs.drop (s + k + 3)) ≤ bs.length := by
  have hfound := find_le hk (by decide)
  have hunit := unitLength_le (bs.drop (s + k + 3))
  rw [List.length_drop] at hfound hunit
  simp only [startCode, List.length_cons, List.length_nil] at hfound
  omega

theorem iteration_isSome {s : Nat} (hle : s ≤ bs.length) (hbig : bs.length < 2 ^ 31)
    (hend : ¬ startCode <:+ bs) :
    ∃ nal t, h264Iteration bs (posAt bs s) = some (nal, posAt bs t) ∧ t ≤ bs.length := by
  rw [h264Iteration_eq hle hbig]
  cases hk : find startCode (bs.drop s) with
  | none => exact ⟨none, 0, rfl, by omega⟩
  | some k =>
    obtain ⟨hstart, hnext⟩ := next_le hk
    by_cases hlt : s + k + 3 < bs.length
    · exact ⟨_, _, if_pos hlt, hnext⟩
    · -- the start code found is the end of the file
      have hpre := (find_eq_some hk).1
      rw [List.drop_drop] at hpre
      have hlen : startCode.length = (bs.drop (s + k)).length := by
        rw [List.length_drop]
        show 3 = _
        omega
      exact absurd (hpre.eq_of_length hlen ▸ List.drop_suffix (s + k) bs) hend

/-- A start code at the end stays at the end of what follows an earlier start code. -/
theorem suffix_after {rest : Bytes} {k : Nat} (hk : find startCode rest = some k)
    (hend : startCode <:+ rest) (hlt : k + 3 < rest.length) :
    startCode <:+ rest.drop (k + 3) := by
  obtain ⟨t, rfl⟩ := hend
  obtain ⟨hpre, hfirst⟩ := find_eq_some hk
  rw [List.length_append] at hlt
  have hcode : startCode.length = 3 := rfl
  have hle : k ≤ t.length := by
    by_contra hgt
    apply hfirst t.length (by omega)
    rw [List.drop_left]
  have hfar : k + 3 ≤ t.length := by
    by_contra hnear
    rw [List.drop_append_of_le_length hle] at hpre
    -- a start code one or two bytes earlier has its one where this one has a zero
    obtain hone | htwo : (t.drop k).length = 1 ∨ (t.drop k).length = 2 := by
      rw [List.length_drop]
      omega
    · obtain ⟨a, ha⟩ := List.length_eq_one_iff.1 hone
      rw [ha] at hpre
      simp [startCode] at hpre
    · obtain ⟨a, b, hab⟩ := List.length_eq_two.1 htwo
      rw [hab] at hpre
      simp [startCode] at hpre
  rw [List.drop_append_of_le_length hfar]
  exact List.suffix_append _ _

theorem suffix_unit {after : Bytes} (hend : startCode <:+ after) :
    startCode <:+ after.drop (unitLength after) := by
  have hlen : startCode.length = 3 := rfl
  obtain ⟨k, hk⟩ := Option.isSome_iff_exists.1 (find_isSome hend.isInfix)
  have hfound := find_le hk (by decide)
  have hunit : unitLength after ≤ k := by
    unfold unitLength
    rw [hk]
    dsimp only
    split_ifs <;> omega
  obtain ⟨t, rfl⟩ := hend
  rw [List.length_append] at hfound
  rw [List.drop_append_of_le_length (by omega)]
  exact List.suffix_append _ _

/-- A file that ends in a start code is read past its end. -/
theorem run_none (hbig : bs.length < 2 ^ 31) {s : Nat} (hle : s ≤ bs.length)
    (hend : startCode <:+ bs.drop s) : ∃ n, h264Run bs n (posAt bs s) = none := by
  obtain ⟨k, hk⟩ := Option.isSome_iff_exists.1 (find_isSome hend.isInfix)
  obtain ⟨hstart, hnext⟩ := next_le hk
  have hiter := h264Iteration_eq hle hbig
  rw [hk] at hiter
  dsimp only at hiter
  by_cases hlt : s + k + 3 < bs.length
  · rw [if_pos hlt] at hiter
    have hafter := suffix_after hk hend (by rw [List.length_drop]; omega)
    have hrest := suffix_unit hafter
    rw [List.drop_drop, List.drop_drop] at hrest
    obtain ⟨n, hn⟩ := run_none hbig hnext (s := s + k + 3 + unitLength (bs.drop (s + k + 3))) (by
      simpa [Nat.add_assoc] using hrest)
    refine ⟨n + 1, ?_⟩
    rw [h264Run, hiter]
    simp only [Option.bind_eq_bind, Option.bind_some, hn]
    rfl
  · rw [if_neg hlt] at hiter
    refine ⟨1, ?_⟩
    rw [h264Run, hiter]
    rfl
termination_by bs.length - s

/-- **The loop reads within the buffer for ever exactly if the file does not end in a start
code.** -/
theorem reads_in_bounds (hbig : bs.length < 2 ^ 31) :
    (∀ n, (h264Run bs n (beginning bs)).isSome) ↔ ¬ [0, 0, 1] <:+ bs := by
  rw [beginning_eq hbig]
  constructor
  · intro hrun hend
    obtain ⟨n, hn⟩ := run_none hbig (Nat.zero_le _) hend
    have hsome := hrun n
    rw [hn] at hsome
    cases hsome
  · intro hend n
    suffices h : ∀ s ≤ bs.length, (h264Run bs n (posAt bs s)).isSome from h 0 (Nat.zero_le _)
    induction n with
    | zero => exact fun s hs => rfl
    | succ n ih =>
      intro s hs
      obtain ⟨nal, t, hiter, ht⟩ := iteration_isSome hs hbig hend
      obtain ⟨⟨nals, pos⟩, hrun⟩ := Option.isSome_iff_exists.1 (ih t ht)
      rw [h264Run, hiter]
      simp only [Option.bind_eq_bind, Option.bind_some, hrun]
      rfl

/-- The smallest file read past its end: a start code and nothing after it. -/
theorem start_code_at_end :
    ¬ ∀ n, (h264Run [0, 0, 1] n (beginning [0, 0, 1])).isSome :=
  fun h => absurd (h 1) (by decide)

/-- Two NAL units behind start codes of both lengths. -/
def twoNals : Bytes := [0, 0, 0, 1, 0x65, 7, 8, 0, 0, 1, 0x41, 9]

/-- The third iteration comes to the end of the file, and the others start at its beginning
again. -/
theorem reads_in_bounds_twoNals : ∃ sent pos,
    h264Run twoNals 6 (beginning twoNals) = some (sent, pos) ∧
      sent.filterMap id = [[0x65, 7, 8], [0x41, 9], [0x65, 7, 8], [0x41, 9]] := by
  have hsome := (reads_in_bounds (by decide : twoNals.length < 2 ^ 31)).2 (by decide) 6
  obtain ⟨⟨sent, pos⟩, hrun⟩ := Option.isSome_iff_exists.1 hsome
  have hsent : (h264Run twoNals 6 (beginning twoNals)).map (·.1.filterMap id) =
      some [[0x65, 7, 8], [0x41, 9], [0x65, 7, 8], [0x41, 9]] := by decide +kernel
  rw [hrun] at hsent
  exact ⟨sent, pos, hrun, Option.some.inj hsent⟩

/-! ## Passes -/

/-- Each NAL unit behind a start code of 4 bytes (`true`) or of 3. -/
def serialise : List (Bool × Bytes) → Bytes
  | [] => []
  | (long, nal) :: nals => (if long then [0] else []) ++ startCode ++ nal ++ serialise nals

/-- A NAL unit that can stand between start codes. -/
structure CleanNal (nal : Bytes) : Prop where
  ne_nil : nal ≠ []
  no_code : ¬ startCode <:+: nal
  no_zero : nal.getLast? ≠ some 0

/-- `n` scans from `pos`. -/
def scans (bs : Bytes) : Nat → Pos → Option Pos
  | 0, pos => some pos
  | n + 1, pos => do
    let (_, pos) ← h264Scan bs pos
    scans bs n pos

/-- No start code starts in a clean NAL unit, whatever follows it. -/
theorem CleanNal.find_append {nal : Bytes} (h : CleanNal nal) (tail : Bytes) :
    find startCode (nal ++ tail) = (find startCode tail).map (· + nal.length) := by
  apply Find.find_append
  intro r hne hr hpre
  obtain ⟨t, rfl⟩ := hr
  obtain _ | ⟨a, _ | ⟨b, _ | ⟨c, r⟩⟩⟩ := r
  · exact hne rfl
  · simp only [List.cons_append, startCode, List.cons_prefix_cons] at hpre
    exact h.no_zero (by rw [← hpre.1]; simp)
  · simp only [List.cons_append, startCode, List.cons_prefix_cons] at hpre
    exact h.no_zero (by rw [← hpre.2.1]; simp)
  · simp only [List.cons_append, startCode, List.cons_prefix_cons] at hpre
    obtain ⟨ha, hb, hc, -⟩ := hpre
    refine h.no_code ⟨t, r, ?_⟩
    rw [← ha, ← hb, ← hc, List.append_assoc]
    rfl

/-- The start code before the first NAL unit. -/
theorem find_serialise (long : Bool) (nal : Bytes) (nals : List (Bool × Bytes)) :
    find startCode (serialise ((long, nal) :: nals)) = some (if long then 1 else 0) ∧
      (serialise ((long, nal) :: nals)).drop ((if long then 1 else 0) + 3) =
        nal ++ serialise nals := by
  cases long with
  | false => exact ⟨find_of_at ⟨nal ++ serialise nals, rfl⟩, rfl⟩
  | true =>
    refine ⟨?_, rfl⟩
    have hp : ¬ startCode <+: (0 : UInt8) :: (startCode ++ nal ++ serialise nals) := by
      simp [startCode]
    exact (find_cons_of_not_at hp).trans
      (congrArg (Option.map (· + 1)) (find_of_at ⟨nal ++ serialise nals, rfl⟩))

theorem unitLength_serialise {nal : Bytes} (h : CleanNal nal) (nals : List (Bool × Bytes)) :
    unitLength (nal ++ serialise nals) = nal.length := by
  unfold unitLength
  rw [h.find_append]
  obtain _ | ⟨⟨long, next⟩, nals⟩ := nals
  · simp [serialise, find, startCode]
  · have hpos := List.length_pos_of_ne_nil h.ne_nil
    rw [(find_serialise long next nals).1]
    cases long with
    | false =>
      -- the byte in front of the start code is the last one of the NAL unit
      have hlast :
          Bytes.byteAt (nal ++ serialise ((false, next) :: nals)) (nal.length - 1) ≠ 0 := by
        intro hzero
        rw [Bytes.byteAt, List.getD_eq_getElem?_getD, List.getElem?_append_left (by omega),
          ← List.getLast?_eq_getElem?] at hzero
        cases hlast : nal.getLast? with
        | none => exact h.ne_nil (List.getLast?_eq_none_iff.1 hlast)
        | some a =>
          rw [hlast] at hzero
          exact h.no_zero (hlast.trans (congrArg some hzero))
      simp [hlast]
    | true =>
      have hzero : Bytes.byteAt (nal ++ serialise ((true, next) :: nals)) nal.length = 0 :=
        Bytes.byteAt_append_right nal _ 0
      simp [hzero, Nat.add_comm 1]

/-- The iterations over what is left of a serialised file. -/
theorem run_serialise (hbig : bs.length < 2 ^ 31) {nals : List (Bool × Bytes)}
    (hclean : ∀ n ∈ nals, CleanNal n.2) {s : Nat} (hle : s ≤ bs.length)
    (hrest : bs.drop s = serialise nals) :
    h264Run bs nals.length (posAt bs s) =
      some (nals.map fun n => some n.2, posAt bs bs.length) := by
  induction nals generalizing s with
  | nil =>
    have hend : s = bs.length := by
      have hlen := congrArg List.length hrest
      rw [List.length_drop] at hlen
      simp only [serialise, List.length_nil] at hlen
      omega
    rw [hend]
    rfl
  | cons n nals ih =>
    obtain ⟨long, nal⟩ := n
    have hnal : CleanNal nal := hclean _ List.mem_cons_self
    have hpos := List.length_pos_of_ne_nil hnal.ne_nil
    obtain ⟨hfind, hafter⟩ := find_serialise long nal nals
    rw [← hrest] at hfind hafter
    rw [List.drop_drop, ← Nat.add_assoc] at hafter
    obtain ⟨-, hnext⟩ := next_le hfind
    have hiter := h264Iteration_eq hle hbig
    have hlen := congrArg List.length hafter
    rw [List.length_drop, List.length_append] at hlen
    rw [hfind] at hiter
    dsimp only at hiter
    rw [if_pos (by omega), hafter, unitLength_serialise hnal, List.take_left] at hiter
    rw [hafter, unitLength_serialise hnal] at hnext
    have ih := ih (fun m hm => hclean m (List.mem_cons_of_mem _ hm)) hnext (by
      rw [← List.drop_drop, hafter, List.drop_left])
    rw [List.length_cons, h264Run, hiter]
    simp only [Option.bind_eq_bind, Option.bind_some, ih]
    rfl

/-- A scan finds a chunk and leaves less of the file, or it goes back to the beginning. -/
theorem h264Scan_shrinks (hbig : bs.length < 2 ^ 31) {s : Nat} (hle : s ≤ bs.length) :
    ∃ chunk t, h264Scan bs (posAt bs s) = some (chunk, posAt bs t) ∧ t ≤ bs.length ∧
      (chunk = none → t = 0) ∧ (chunk ≠ none → bs.length - t < bs.length - s) := by
  rw [h264Scan_eq hle hbig]
  cases hk : find startCode (bs.drop s) with
  | none => exact ⟨none, 0, rfl, Nat.zero_le _, fun _ => rfl, fun h => absurd rfl h⟩
  | some k =>
    obtain ⟨hstart, hnext⟩ := next_le hk
    exact ⟨_, _, rfl, hnext, fun h => (Option.some_ne_none _ h).elim, fun _ => by omega⟩

theorem scans_eq (hbig : bs.length < 2 ^ 31) (m : Nat) {s : Nat} (hle : s ≤ bs.length) :
    ∃ t ≤ bs.length, scans bs m (posAt bs s) = some (posAt bs t) := by
  induction m generalizing s with
  | zero => exact ⟨s, hle, rfl⟩
  | succ m ih =>
    obtain ⟨chunk, t, hscan, ht, -⟩ := h264Scan_shrinks hbig hle
    obtain ⟨u, hu, hrun⟩ := ih ht
    refine ⟨u, hu, ?_⟩
    rw [scans, hscan]
    exact hrun

/-- From any position a pass ends, by induction on what is left of the file. -/
theorem scans_end (hbig : bs.length < 2 ^ 31) {s : Nat} (hle : s ≤ bs.length) :
    ∃ n ≤ bs.length - s, ∃ pos, scans bs n (posAt bs s) = some pos ∧
      h264Scan bs pos = some (none, beginning bs) := by
  induction hleft : bs.length - s using Nat.strong_induction_on generalizing s with
  | h left ih =>
    obtain ⟨chunk, t, hscan, ht, hnone, hsome⟩ := h264Scan_shrinks hbig hle
    cases chunk with
    | none =>
      rw [hnone rfl, ← beginning_eq hbig] at hscan
      exact ⟨0, Nat.zero_le _, _, rfl, hscan⟩
    | some c =>
      have hlt := hsome (Option.some_ne_none c)
      obtain ⟨n, hn, pos, hrun, hend⟩ := ih (bs.length - t) (hleft ▸ hlt) ht rfl
      refine ⟨n + 1, by omega, pos, ?_, hend⟩
      rw [scans, hscan]
      exact hrun

/-- **A pass over a serialised list of clean NAL units yields exactly these and goes back to the
beginning. Over any file, wherever the loop stands, a chunk that is found leaves less of the file
and the pass ends.** -/
theorem pass_serialise :
    (∀ nals : List (Bool × Bytes), (∀ n ∈ nals, CleanNal n.2) →
      (serialise nals).length < 2 ^ 31 →
        ∃ pos, h264Run (serialise nals) nals.length (beginning (serialise nals)) =
            some (nals.map fun n => some n.2, pos) ∧
          h264Iteration (serialise nals) pos = some (none, beginning (serialise nals))) ∧
      ∀ bs : Bytes, bs.length < 2 ^ 31 → ∀ m, ∃ pos, scans bs m (beginning bs) = some pos ∧
        (∀ c pos', h264Scan bs pos = some (some c, pos') → 0 ≤ pos'.size ∧ pos'.size < pos.size) ∧
        ∃ n ≤ bs.length, ∃ pos', scans bs n pos = some pos' ∧
          h264Scan bs pos' = some (none, beginning bs) := by
  constructor
  · intro nals hclean hbig
    rw [beginning_eq hbig]
    refine ⟨_, run_serialise hbig hclean (Nat.zero_le _) rfl, ?_⟩
    rw [h264Iteration_eq le_rfl hbig, List.drop_length]
    rfl
  · intro bs hbig m
    rw [beginning_eq hbig]
    obtain ⟨s, hs, hrun⟩ := scans_eq hbig m (Nat.zero_le bs.length)
    refine ⟨_, hrun, ?_, ?_⟩
    · intro c pos' hscan
      obtain ⟨chunk, t, heq, -, -, hsome⟩ := h264Scan_shrinks hbig hs
      rw [heq, Option.some.injEq, Prod.mk.injEq] at hscan
      obtain ⟨rfl, rfl⟩ := hscan
      have hlt := hsome (Option.some_ne_none c)
      unfold posAt
      dsimp only
      omega
    · obtain ⟨n, hn, pos', hscans, hend⟩ := scans_end hbig hs
      exact ⟨n, by omega, pos', hscans, beginning_eq hbig ▸ hend⟩

theorem pass_serialise_two :
    ∃ pos, h264Run [0, 0, 0, 1, 0x67, 0, 0, 1, 0x65] 2
        (beginning [0, 0, 0, 1, 0x67, 0, 0, 1, 0x65]) = some ([some [0x67], some [0x65]], pos) ∧
      h264Iteration [0, 0, 0, 1, 0x67, 0, 0, 1, 0x65] pos =
        some (none, beginning [0, 0, 0, 1, 0x67, 0, 0, 1, 0x65]) := by
  have hclean : ∀ n ∈ [(true, [0x67]), (false, [(0x65 : UInt8)])], CleanNal n.2 := by
    intro n hn
    rcases List.mem_pair.1 hn with rfl | rfl <;> exact ⟨by decide, by decide, by decide⟩
  exact pass_serialise.1 [(true, [0x67]), (false, [0x65])] hclean (by decide)

end

end Server
