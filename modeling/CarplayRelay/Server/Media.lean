import CarplayRelay.Lib.Chunks
import CarplayRelay.Media

/-!
# Sending NAL units (`send_video_media`)

A NAL unit of at most `VIDEO_FRAGMENT_DATA_SIZE` bytes is one packet; a longer one is cut into
fragments that carry the connection's next frame id. `sendVideoMedia` lists the payloads handed
to `send_encrypted_media`, for every outcome of the allocations and of the calls.

* `sendVideoMedia_small`, `sendVideoMedia_large`: the packets when every call succeeds.
* `sendVideoMedia_prefix`: a failing call ends the list early, it never changes it.
* `noTruncation_iff`: a NAL unit is sent whole or refused exactly if 16 bits number its fragments.
-/

namespace Server

open Media Chunks

/-- What `send_video_media` did: the payloads of its calls of `send_encrypted_media`, its result
and the connection's next frame id. -/
structure VideoSend where
  calls : List Bytes
  rc : Int
  videoFrameId : UInt32
  deriving DecidableEq, Repr

/-- The loop of `send_video_media`, with `left` iterations to go. `send i` is the outcome of
iteration `i`: `none` when `malloc` fails, else what `send_encrypted_media` returns. -/
def sendFragments (flags : UInt8) (fragCount : UInt16) (frameId : UInt32) (payload : Bytes)
    (send : UInt16 → Option Int) : Nat → UInt16 → Nat → List Bytes × Int
  | 0, _, _ => ([], 0)
  | left + 1, fragIndex, offset =>
    let fragLen := min (payload.length - offset) videoFragmentDataSize
    match send fragIndex with
    | none => ([], -1)
    | some rc =>
      let packet :=
        fragmentPacket flags fragIndex fragCount frameId ((payload.drop offset).take fragLen)
      if rc < 0 then ([packet], rc)
      else
        let (packets, rc) :=
          sendFragments flags fragCount frameId payload send left (fragIndex + 1) (offset + fragLen)
        (packet :: packets, rc)

/-- `send_video_media`. -/
def sendVideoMedia (videoFrameId : UInt32) (payload : Bytes) (send : UInt16 → Option Int) :
    VideoSend :=
  if payload.length = 0 then ⟨[], -1, videoFrameId⟩
  else if payload.length ≤ videoFragmentDataSize then
    ⟨[payload], (send 0).getD (-1), videoFrameId⟩
  else
    let flags := videoPayloadFlags payload
    let fragCount := UInt16.ofNat
      ((payload.length + videoFragmentDataSize - 1) / videoFragmentDataSize)
    let (calls, rc) := sendFragments flags fragCount videoFrameId payload send fragCount.toNat 0 0
    ⟨calls, rc, videoFrameId + 1⟩

/-- Every call succeeds. -/
def allSent : UInt16 → Option Int := fun _ => some 0

/-- The packets of the NAL units `nals`, sent one after the other without a failure. -/
def sendAll (videoFrameId : UInt32) : List Bytes → List (List Bytes)
  | [] => []
  | nal :: nals =>
    let sent := sendVideoMedia videoFrameId nal allSent
    sent.calls :: sendAll sent.videoFrameId nals

/-! ## The packets of a NAL unit -/

/-- The number of fragments of a NAL unit. -/
def fragments (nal : Bytes) : Nat := chunkCount videoFragmentDataSize nal

/-- Fragment `i` of a NAL unit. -/
def fragmentOf (frameId : UInt32) (nal : Bytes) (i : Nat) : Bytes :=
  fragmentPacket (videoPayloadFlags nal) (UInt16.ofNat i) (UInt16.ofNat (fragments nal)) frameId
    (chunk videoFragmentDataSize nal i)

theorem fragments_lt_of_le {nal : Bytes} (h : nal.length ≤ 65535 * videoFragmentDataSize) :
    fragments nal < 65536 := by
  unfold fragments chunkCount
  rw [videoFragmentDataSize] at *
  omega

theorem fragments_lt {nal : Bytes} (h : ServerNal nal) : fragments nal < 65536 :=
  fragments_lt_of_le h.length_le

theorem fragments_ne_zero {nal : Bytes} (h : ServerNal nal) : fragments nal ≠ 0 := by
  have hpos := List.length_pos_of_ne_nil h.ne_nil
  unfold fragments chunkCount
  rw [videoFragmentDataSize]
  omega

section
variable {frameId : UInt32} {nal : Bytes}

theorem sendVideoMedia_small (h0 : nal ≠ []) (h : nal.length ≤ videoFragmentDataSize) :
    sendVideoMedia frameId nal allSent = ⟨[nal], 0, frameId⟩ := by
  have hpos := List.length_pos_of_ne_nil h0
  rw [sendVideoMedia, if_neg (by omega), if_pos h]
  rfl

/-- A loop that reports no error has sent the fragments from `i` on. -/
theorem sendFragments_calls {send : UInt16 → Option Int} {left i offset : Nat}
    (hi : i + left ≤ fragments nal) (hoff : offset = min nal.length (i * videoFragmentDataSize))
    (hrc : 0 ≤ (sendFragments (videoPayloadFlags nal) (UInt16.ofNat (fragments nal)) frameId nal
      send left (UInt16.ofNat i) offset).2) :
    (sendFragments (videoPayloadFlags nal) (UInt16.ofNat (fragments nal)) frameId nal send left
        (UInt16.ofNat i) offset).1 =
      (List.range' i left).map (fragmentOf frameId nal) := by
  induction left generalizing i offset with
  | zero => rfl
  | succ left ih =>
    have hlt := mul_lt_length (k := videoFragmentDataSize) (by decide) (l := nal) (i := i)
      (by unfold fragments at hi; omega)
    have hnext : offset + min (nal.length - offset) videoFragmentDataSize =
        min nal.length ((i + 1) * videoFragmentDataSize) := by
      rw [Nat.succ_mul]
      omega
    have hoff' : offset = i * videoFragmentDataSize := by omega
    have hdata : (nal.drop offset).take (min (nal.length - offset) videoFragmentDataSize) =
        chunk videoFragmentDataSize nal i := by
      rw [chunk, hoff', ← List.length_drop, Nat.min_comm, ← List.take_eq_take_min]
    have hsucc : UInt16.ofNat i + 1 = UInt16.ofNat (i + 1) := by
      rw [← UInt16.ofNat_one, ← UInt16.ofNat_add]
    rw [sendFragments] at hrc ⊢
    cases hcall : send (UInt16.ofNat i) with
    | none => simp [hcall] at hrc
    | some rc =>
      simp only [hcall] at hrc ⊢
      by_cases hneg : rc < 0
      · rw [if_pos hneg] at hrc
        omega
      · rw [if_neg hneg] at hrc ⊢
        rw [hsucc] at hrc ⊢
        rw [List.range'_succ, List.map_cons, ← ih (by omega) hnext hrc, hdata]
        rfl

/-- The loop reports an error only of a failed allocation if no call fails. -/
theorem sendFragments_rc {flags : UInt8} {n : UInt16} {send : UInt16 → Option Int} {left : Nat}
    {i : UInt16} {offset : Nat} (hsend : ∀ i rc, send i = some rc → 0 ≤ rc) :
    (sendFragments flags n frameId nal send left i offset).2 = 0 ∨
      (sendFragments flags n frameId nal send left i offset).2 = -1 ∧ ∃ i, send i = none := by
  induction left generalizing i offset with
  | zero => exact .inl rfl
  | succ left ih =>
    rw [sendFragments]
    cases hcall : send i with
    | none => exact .inr ⟨rfl, i, hcall⟩
    | some rc =>
      have hrc := hsend i rc hcall
      dsimp only
      rw [if_neg (by omega)]
      exact ih

theorem sendVideoMedia_sent {send : UInt16 → Option Int} {fragCount : UInt16}
    {sent : List Bytes × Int} (h : videoFragmentDataSize < nal.length)
    (hcount : UInt16.ofNat ((nal.length + videoFragmentDataSize - 1) / videoFragmentDataSize) =
      fragCount)
    (hsent : sendFragments (videoPayloadFlags nal) fragCount frameId nal send fragCount.toNat 0 0 =
      sent) : sendVideoMedia frameId nal send = ⟨sent.1, sent.2, frameId + 1⟩ := by
  rw [sendVideoMedia, if_neg (by omega), if_neg (by omega), hcount]
  simp only [hsent]

/-- The count is announced and the loop is run modulo 2^16. -/
theorem sendVideoMedia_loop {send : UInt16 → Option Int} {sent : List Bytes × Int}
    (h : videoFragmentDataSize < nal.length)
    (hsent : sendFragments (videoPayloadFlags nal) (UInt16.ofNat (fragments nal)) frameId nal send
      (fragments nal % 65536) (UInt16.ofNat 0) 0 = sent) :
    sendVideoMedia frameId nal send = ⟨sent.1, sent.2, frameId + 1⟩ := by
  have hcount : UInt16.ofNat ((nal.length + videoFragmentDataSize - 1) / videoFragmentDataSize) =
      UInt16.ofNat (fragments nal) := rfl
  have hleft : (UInt16.ofNat (fragments nal)).toNat = fragments nal % 65536 := by simp
  have hzero : UInt16.ofNat 0 = 0 := rfl
  rw [hzero] at hsent
  exact sendVideoMedia_sent h hcount (by rw [hleft]; exact hsent)

/-- The calls of a NAL unit that is cut into fragments. -/
theorem sendVideoMedia_calls {send : UInt16 → Option Int} (h : videoFragmentDataSize < nal.length)
    (hrc : 0 ≤ (sendVideoMedia frameId nal send).rc) :
    (sendVideoMedia frameId nal send).calls =
      (List.range' 0 (fragments nal % 65536)).map (fragmentOf frameId nal) := by
  obtain ⟨sent, hsent⟩ : ∃ sent, sendFragments (videoPayloadFlags nal)
      (UInt16.ofNat (fragments nal)) frameId nal send (fragments nal % 65536) (UInt16.ofNat 0) 0 =
        sent := ⟨_, rfl⟩
  rw [sendVideoMedia_loop h hsent] at hrc ⊢
  dsimp only at hrc ⊢
  rw [← hsent] at hrc ⊢
  have hle := Nat.mod_le (fragments nal) 65536
  exact sendFragments_calls (by omega) (by omega) hrc

/-- Nothing but an allocation fails. -/
theorem sendVideoMedia_rc {send : UInt16 → Option Int} (h0 : nal ≠ [])
    (hsend : ∀ i rc, send i = some rc → 0 ≤ rc) :
    0 ≤ (sendVideoMedia frameId nal send).rc ∨
      (sendVideoMedia frameId nal send).rc < 0 ∧ ∃ i, send i = none := by
  have hpos := List.length_pos_of_ne_nil h0
  by_cases hsmall : nal.length ≤ videoFragmentDataSize
  · rw [sendVideoMedia, if_neg (by omega), if_pos hsmall]
    cases hcall : send 0 with
    | none => exact .inr ⟨Int.negSucc_lt_zero 0, 0, hcall⟩
    | some rc => exact .inl (hsend 0 rc hcall)
  · obtain ⟨sent, hsent⟩ : ∃ sent, sendFragments (videoPayloadFlags nal)
        (UInt16.ofNat (fragments nal)) frameId nal send (fragments nal % 65536) (UInt16.ofNat 0) 0 =
          sent := ⟨_, rfl⟩
    have hrc := @sendFragments_rc frameId nal (videoPayloadFlags nal)
      (UInt16.ofNat (fragments nal)) send (fragments nal % 65536) (UInt16.ofNat 0) 0 hsend
    rw [hsent] at hrc
    rw [sendVideoMedia_loop (by omega) hsent]
    rcases hrc with hrc | ⟨hrc, hnone⟩
    · exact .inl (Int.le_of_eq hrc.symm)
    · exact .inr ⟨hrc ▸ Int.negSucc_lt_zero 0, hnone⟩

theorem sendVideoMedia_large (hn : ServerNal nal) (h : videoFragmentDataSize < nal.length) :
    sendVideoMedia frameId nal allSent =
      ⟨(List.range (fragments nal)).map (fragmentOf frameId nal), 0, frameId + 1⟩ := by
  obtain ⟨sent, hsent⟩ : ∃ sent, sendFragments (videoPayloadFlags nal)
      (UInt16.ofNat (fragments nal)) frameId nal allSent (fragments nal % 65536) (UInt16.ofNat 0)
        0 = sent := ⟨_, rfl⟩
  have hrc := @sendFragments_rc frameId nal (videoPayloadFlags nal) (UInt16.ofNat (fragments nal))
    allSent (fragments nal % 65536) (UInt16.ofNat 0) 0 (by simp [allSent])
  rw [hsent] at hrc
  have hzero : sent.2 = 0 := hrc.resolve_right fun hnone => by simp [allSent] at hnone
  have hle := Nat.mod_le (fragments nal) 65536
  have hcalls := @sendFragments_calls frameId nal allSent (fragments nal % 65536) 0 0 (by omega)
    (by omega) (Int.le_of_eq (by rw [hsent, hzero]))
  rw [hsent, Nat.mod_eq_of_lt (fragments_lt hn), ← List.range_eq_range'] at hcalls
  rw [sendVideoMedia_loop h hsent, hcalls, hzero]

end

/-! ## Failing calls -/

theorem sendFragments_prefix (flags : UInt8) (n : UInt16) (frameId : UInt32) (nal : Bytes)
    (send : UInt16 → Option Int) (left : Nat) (i : UInt16) (offset : Nat) :
    (sendFragments flags n frameId nal send left i offset).1 <+:
      (sendFragments flags n frameId nal allSent left i offset).1 := by
  induction left generalizing i offset with
  | zero => exact List.prefix_rfl
  | succ left ih =>
    simp only [sendFragments, allSent, Int.lt_irrefl, if_false]
    cases send i with
    | none => exact List.nil_prefix
    | some rc =>
      dsimp only
      split
      · exact List.cons_prefix_cons.2 ⟨rfl, List.nil_prefix⟩
      · exact List.cons_prefix_cons.2 ⟨rfl, ih _ _⟩

/-- A failing call or allocation cuts the packets of a NAL unit short and changes none of them. -/
theorem sendVideoMedia_prefix (frameId : UInt32) (nal : Bytes) (send : UInt16 → Option Int) :
    (sendVideoMedia frameId nal send).calls <+: (sendVideoMedia frameId nal allSent).calls := by
  by_cases hlarge : videoFragmentDataSize < nal.length
  · have hpre := sendFragments_prefix (videoPayloadFlags nal) (UInt16.ofNat (fragments nal)) frameId
      nal send (fragments nal % 65536) (UInt16.ofNat 0) 0
    obtain ⟨sent, hsent⟩ : ∃ sent, sendFragments (videoPayloadFlags nal)
        (UInt16.ofNat (fragments nal)) frameId nal send (fragments nal % 65536) (UInt16.ofNat 0) 0 =
          sent := ⟨_, rfl⟩
    obtain ⟨all, hall⟩ : ∃ all, sendFragments (videoPayloadFlags nal)
        (UInt16.ofNat (fragments nal)) frameId nal allSent (fragments nal % 65536) (UInt16.ofNat 0)
          0 = all := ⟨_, rfl⟩
    rw [hsent, hall] at hpre
    rw [sendVideoMedia_loop hlarge hsent, sendVideoMedia_loop hlarge hall]
    exact hpre
  · have hsmall : nal.length ≤ videoFragmentDataSize := Nat.le_of_not_lt hlarge
    unfold sendVideoMedia
    rw [if_pos hsmall, if_pos hsmall]
    split
    · exact List.prefix_rfl
    · exact List.prefix_rfl

/-! ## Whole payloads -/

/-- A payload cut into the data of fragments that 16-bit fields can number. -/
structure Fragmentation (payload : Bytes) (datas : List Bytes) : Prop where
  length_lt : datas.length < 65536
  size : ∀ data ∈ datas, 1 ≤ data.length ∧ data.length ≤ videoFragmentDataSize
  flatten : datas.flatten = payload

/-- The calls carry the whole payload: itself, or its fragments under one frame id. -/
def SentWhole (payload : Bytes) (calls : List Bytes) : Prop :=
  calls = [payload] ∨
    ∃ (flags : UInt8) (frameId : UInt32) (datas : List Bytes), Fragmentation payload datas ∧
      calls = datas.mapIdx fun i data =>
        fragmentPacket flags (UInt16.ofNat i) (UInt16.ofNat datas.length) frameId data

/-- The payload is sent whole, or it is reported that it has no fragmentation or that an
allocation failed. -/
def NoTruncation (payload : Bytes) (send : UInt16 → Option Int) (r : VideoSend) : Prop :=
  0 ≤ r.rc ∧ SentWhole payload r.calls ∨
    r.rc < 0 ∧ ((∀ datas, ¬ Fragmentation payload datas) ∨ ∃ i, send i = none)

section
variable {frameId : UInt32} {payload : Bytes} {send : UInt16 → Option Int}

theorem Fragmentation.length_le {datas : List Bytes} (h : Fragmentation payload datas) :
    payload.length ≤ 65535 * videoFragmentDataSize := by
  have hle := length_flatten_le fun data hdata => (h.size data hdata).2
  rw [h.flatten] at hle
  exact Nat.le_trans hle (Nat.mul_le_mul_right _ (Nat.le_of_lt_succ h.length_lt))

theorem fragmentation_chunks (h : payload.length ≤ 65535 * videoFragmentDataSize) :
    Fragmentation payload
      ((List.range (fragments payload)).map (chunk videoFragmentDataSize payload)) := by
  refine ⟨?_, ?_, flatten_chunkCount (by decide) payload⟩
  · rw [List.length_map, List.length_range]
    exact fragments_lt_of_le h
  · intro data hdata
    obtain ⟨i, hi, rfl⟩ := List.mem_map.1 hdata
    refine ⟨?_, ?_⟩
    · exact List.length_pos_of_ne_nil (chunk_ne_nil (by decide) (List.mem_range.1 hi))
    · rw [length_chunk]
      exact Nat.min_le_left _ _

theorem sentWhole_fragments (frameId : UInt32)
    (h : payload.length ≤ 65535 * videoFragmentDataSize) :
    SentWhole payload ((List.range' 0 (fragments payload)).map (fragmentOf frameId payload)) := by
  refine .inr ⟨videoPayloadFlags payload, frameId, _, fragmentation_chunks h, ?_⟩
  rw [← List.range_eq_range']
  apply List.ext_getElem
  · simp
  · intro i h1 h2
    simp [fragmentOf]

theorem fragments_ne_payload (h : 65535 * videoFragmentDataSize < payload.length) (left : Nat) :
    (List.range' 0 left).map (fragmentOf frameId payload) ≠ [payload] := by
  intro heq
  have hmem : payload ∈ (List.range' 0 left).map (fragmentOf frameId payload) := by simp [heq]
  obtain ⟨i, -, hi⟩ := List.mem_map.1 hmem
  have hlen := congrArg List.length hi
  rw [fragmentOf, length_fragmentPacket, length_chunk] at hlen
  rw [videoFragmentDataSize] at *
  omega

/-- **A payload is sent whole or refused exactly if its fragments can be numbered.** A longer one is
sent in part, or not at all, and reported as sent. -/
theorem noTruncation_iff (h0 : payload ≠ []) (frameId : UInt32) :
    (∀ send : UInt16 → Option Int, (∀ i rc, send i = some rc → 0 ≤ rc) →
      NoTruncation payload send (sendVideoMedia frameId payload send)) ↔
      payload.length ≤ 65535 * videoFragmentDataSize := by
  refine ⟨?_, ?_⟩
  · intro h
    by_contra hlong
    have hlong' : 65535 * videoFragmentDataSize < payload.length := Nat.lt_of_not_le hlong
    have hlarge : videoFragmentDataSize < payload.length := by
      rw [videoFragmentDataSize] at *
      omega
    rcases h allSent (by simp [allSent]) with ⟨hrc, hwhole⟩ | ⟨hrc, hnone⟩
    · rw [sendVideoMedia_calls hlarge hrc] at hwhole
      rcases hwhole with hsame | ⟨-, -, datas, hdatas, -⟩
      · exact fragments_ne_payload hlong' _ hsame
      · exact hlong hdatas.length_le
    · rcases @sendVideoMedia_rc frameId payload allSent h0 (by simp [allSent]) with hrc' | hfail
      · omega
      · simp [allSent] at hfail
  · intro hlen send hsend
    rcases @sendVideoMedia_rc frameId payload send h0 hsend with hrc | ⟨hrc, hnone⟩
    · refine .inl ⟨hrc, ?_⟩
      by_cases hsmall : payload.length ≤ videoFragmentDataSize
      · have hpos := List.length_pos_of_ne_nil h0
        rw [sendVideoMedia, if_neg (by omega), if_pos hsmall]
        exact .inl rfl
      · rw [sendVideoMedia_calls (by omega) hrc,
          Nat.mod_eq_of_lt (fragments_lt_of_le hlen)]
        exact sentWhole_fragments frameId hlen
    · exact .inr ⟨hrc, .inr hnone⟩

/-- A payload of two fragments. -/
theorem noTruncation_iff_twoFragments :
    NoTruncation (List.replicate 16385 0x65) allSent
      (sendVideoMedia 0 (List.replicate 16385 0x65) allSent) := by
  have hlen : (List.replicate 16385 (0x65 : UInt8)).length = 16385 := List.length_replicate
  have hpos : 0 < (List.replicate 16385 (0x65 : UInt8)).length := by rw [hlen]; decide
  have hle : (List.replicate 16385 (0x65 : UInt8)).length ≤ 65535 * videoFragmentDataSize := by
    rw [hlen, videoFragmentDataSize]
    decide
  exact (noTruncation_iff (List.ne_nil_of_length_pos hpos) 0).2 hle allSent (by simp [allSent])

/-- A payload one byte too long: its count of 65536 fragments is announced as 0, and nothing is
sent. -/
theorem noTruncation_oneByteMore :
    let payload : Bytes := List.replicate (65535 * videoFragmentDataSize + 1) 0x65
    payload ≠ [] ∧ sendVideoMedia 0 payload allSent = ⟨[], 0, 1⟩ ∧
      ¬ NoTruncation payload allSent (sendVideoMedia 0 payload allSent) := by
  intro payload
  have hlen : payload.length = 65535 * videoFragmentDataSize + 1 := List.length_replicate
  clear_value payload
  have hcount : fragments payload = 65536 := by
    rw [fragments, chunkCount, hlen, videoFragmentDataSize]
  have hsend : sendVideoMedia 0 payload allSent = ⟨[], 0, 1⟩ := by
    have hsent : sendFragments (videoPayloadFlags payload) (UInt16.ofNat (fragments payload)) 0
        payload allSent (fragments payload % 65536) (UInt16.ofNat 0) 0 = ([], 0) := by
      rw [hcount]
      rfl
    rw [sendVideoMedia_loop (by rw [hlen, videoFragmentDataSize]; decide) hsent]
    rfl
  have hne : payload ≠ [] := by
    rintro rfl
    rw [videoFragmentDataSize] at hlen
    exact absurd hlen (by decide)
  refine ⟨hne, hsend, ?_⟩
  rw [hsend]
  rintro (⟨-, hwhole | ⟨-, -, datas, hdatas, -⟩⟩ | ⟨hrc, -⟩)
  · cases hwhole
  · have := hdatas.length_le
    omega
  · exact absurd hrc (by decide)

end

end Server
