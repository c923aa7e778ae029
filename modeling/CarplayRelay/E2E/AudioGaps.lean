import CarplayRelay.Client.Reader
import CarplayRelay.Server.AudioChunks

/-!
# Audio chunks and the client's gap detector

The client predicts the number and the offset of each audio chunk from the one it received before
(`unwrap_audio_debug_payload`). Of the chunks of a run of the audio thread any may be lost.

* `before_lastKept`: the telemetry remembers the last chunk received.
* `audio_gaps`: a gap is counted exactly where the chunk before was lost.
-/

namespace E2E

open Bytes Media Client Server

/-- The telemetry before packet `i`, when the packets of `keep` arrive. -/
def telemetryBefore (t : AudioTelemetry) (packet : Nat → Bytes) (keep : Nat → Bool) :
    Nat → AudioTelemetry
  | 0 => t
  | i + 1 =>
    let before := telemetryBefore t packet keep i
    if keep i then (unwrapAudioDebug before (packet i)).1 else before

/-- Packet `j` is the last one that arrives before packet `i`. -/
structure LastKept (keep : Nat → Bool) (j i : Nat) : Prop where
  lt : j < i
  kept : keep j = true
  lost : ∀ l, j < l → l < i → keep l = false

/-- Between two packets that arrive fewer than 2^32 - 1 are lost. -/
def ShortLosses (keep : Nat → Bool) : Prop :=
  ∀ j i, LastKept keep j i → keep i = true → i - j - 1 < 2 ^ 32 - 1

section
variable {start : Bytes} {index : UInt32} {t : AudioTelemetry} {keep : Nat → Bool} {i j : Nat}

/-- The telemetry behind chunk `i`. -/
theorem unwrap_audioChunk (t : AudioTelemetry) (start : Bytes) (index : UInt32) (i : Nat) :
    (unwrapAudioDebug t (audioChunk start index i)).1 =
      { debugHeaderPackets := t.debugHeaderPackets + 1
        debugIndexGaps := t.debugIndexGaps +
          if t.haveDebugPrev ∧ index + UInt32.ofNat i ≠ t.lastDebugIndex + 1 then 1 else 0
        debugOffsetJumps := t.debugOffsetJumps +
          if t.haveDebugPrev ∧ UInt32.ofNat (audioOffset start index i) ≠
            t.lastDebugOffset + t.lastDebugPcmBytes ∧
            UInt32.ofNat (audioOffset start index i) ≠ 0 then 1 else 0
        haveDebugPrev := true
        lastDebugIndex := index + UInt32.ofNat i
        lastDebugOffset := UInt32.ofNat (audioOffset start index i)
        lastDebugPcmBytes := UInt32.ofNat (chunkSize start) } := by
  rw [audioChunk_eq, unwrapAudioDebug_audioPacket, length_audioPcm]

/-- **The telemetry remembers the last chunk received**, by induction on the chunks. -/
theorem before_lastKept (h : LastKept keep j i) :
    (telemetryBefore t (audioChunk start index) keep i).haveDebugPrev = true ∧
      (telemetryBefore t (audioChunk start index) keep i).lastDebugIndex =
        index + UInt32.ofNat j ∧
      (telemetryBefore t (audioChunk start index) keep i).lastDebugOffset =
        UInt32.ofNat (audioOffset start index j) ∧
      (telemetryBefore t (audioChunk start index) keep i).lastDebugPcmBytes =
        UInt32.ofNat (chunkSize start) := by
  induction i with
  | zero => exact absurd h.lt (Nat.not_lt_zero j)
  | succ i ih =>
    rw [telemetryBefore]
    rcases Nat.lt_succ_iff_lt_or_eq.1 h.lt with hlt | rfl
    · rw [if_neg (by rw [h.lost i hlt (Nat.lt_succ_self i)]; simp)]
      exact ih ⟨hlt, h.kept, fun l hl hli => h.lost l hl (Nat.lt_succ_of_lt hli)⟩
    · rw [if_pos h.kept, unwrap_audioChunk]
      exact ⟨rfl, rfl, rfl, rfl⟩

theorem before_nothing (h : ∀ j < i, keep j = false) :
    telemetryBefore t (audioChunk start index) keep i = t := by
  induction i with
  | zero => rfl
  | succ i ih =>
    rw [telemetryBefore]
    rw [if_neg (by rw [h i (Nat.lt_succ_self i)]; simp)]
    exact ih fun j hj => h j (Nat.lt_succ_of_lt hj)

theorem index_ne_iff (hlt : j < i) (hshort : i - j - 1 < 2 ^ 32 - 1) :
    index + UInt32.ofNat i ≠ index + UInt32.ofNat j + 1 ↔ i ≠ j + 1 := by
  rw [UInt32.add_assoc, ne_eq, ne_eq, UInt32.add_right_inj, not_iff_not]
  have hsucc : UInt32.ofNat j + 1 = UInt32.ofNat (j + 1) := by
    rw [UInt32.ofNat_add]
    rfl
  rw [hsucc, ← UInt32.toNat_inj, UInt32.toNat_ofNat', UInt32.toNat_ofNat']
  omega

/-- A gap is counted if the chunk before is not the last one received. -/
theorem gap_iff_lost (h : LastKept keep j i) (hshort : i - j - 1 < 2 ^ 32 - 1) :
    (unwrapAudioDebug (telemetryBefore t (audioChunk start index) keep i)
        (audioChunk start index i)).1.debugIndexGaps =
      (telemetryBefore t (audioChunk start index) keep i).debugIndexGaps +
        if keep (i - 1) then 0 else 1 := by
  obtain ⟨hprev, hindex, -, -⟩ := @before_lastKept start index t keep i j h
  have hlt := h.lt
  rw [unwrap_audioChunk, hprev, hindex]
  simp only [true_and, index_ne_iff hlt hshort]
  congr 1
  by_cases hnext : i = j + 1
  · rw [if_neg (not_not.2 hnext), hnext, Nat.add_sub_cancel, h.kept]
    rfl
  · rw [if_pos hnext, h.lost (i - 1) (by omega) (by omega)]
    rfl

/-- Without a loss no offset jumps. -/
theorem jumps_eq (h : ∀ j < i, keep j = true) :
    (telemetryBefore t (audioChunk start index) keep i).debugOffsetJumps = t.debugOffsetJumps := by
  induction i with
  | zero => rfl
  | succ i ih =>
    rw [telemetryBefore]
    rw [if_pos (h i (Nat.lt_succ_self i)), unwrap_audioChunk]
    dsimp only
    rw [ih fun j hj => h j (Nat.lt_succ_of_lt hj), if_neg, Nat.add_zero]
    rintro ⟨-, hjump, hzero⟩
    cases i with
    | zero => exact hzero (by rw [audioOffset_zero]; rfl)
    | succ i =>
      obtain ⟨-, -, hoffset, hpcm⟩ := @before_lastKept start index t keep (i + 1) i
        ⟨Nat.lt_succ_self i, h i (by omega), fun l hl hli => by omega⟩
      rw [hoffset, hpcm] at hjump
      rcases audioOffset_succ start index i with hoff | hoff
      · exact hzero (by rw [hoff]; rfl)
      · exact hjump (by rw [hoff, UInt32.ofNat_add])

/-- **Audio chunking and the gap detector agree.** Every chunk of a run is announced with its number
and its offset, lies inside the file, and starts the file or where the chunk before ended. The
client takes the header off each chunk that arrives; it counts a gap exactly where the chunk before
was lost, and no jump of the offset if none was lost. -/
theorem audio_gaps (h0 : 0 < start.length) (hn : start.length < 2 ^ 31 - 8192) (index : UInt32) :
    (∀ i, audioChunk start index i = audioPacket (index + UInt32.ofNat i)
        (UInt32.ofNat (audioOffset start index i))
        ((start.drop (audioOffset start index i)).take (chunkSize start)) ∧
      (chunkRun start index i).cursor + chunkSize start < 2 ^ 31 ∧
      0 < chunkSize start ∧ audioOffset start index i + chunkSize start ≤ start.length ∧
      (audioOffset start index i = 0 ∨
        ∃ j, i = j + 1 ∧ audioOffset start index i = audioOffset start index j + chunkSize start)) ∧
    ∀ (t : AudioTelemetry) (keep : Nat → Bool), ShortLosses keep → ∀ i, keep i = true →
      let before := telemetryBefore t (audioChunk start index) keep i
      let after := unwrapAudioDebug before (audioChunk start index i)
      after.2 = audioPcm start index i ∧
      (∀ j, LastKept keep j i → after.1.debugIndexGaps =
        before.debugIndexGaps + if keep (i - 1) then 0 else 1) ∧
      ((∀ j < i, keep j = false) → t.haveDebugPrev = false →
        after.1.debugIndexGaps = t.debugIndexGaps) ∧
      ((∀ j < i, keep j = true) → after.1.debugOffsetJumps = t.debugOffsetJumps) := by
  refine ⟨?_, ?_⟩
  · intro i
    have hcursor := chunkRun_cursor start index i
    have hchunk := chunkSize_lt start
    have hsize : audioChunkSize = 8192 := rfl
    refine ⟨audioChunk_eq start index i, by omega, chunkSize_pos h0, audioOffset_le start index i,
      ?_⟩
    cases i with
    | zero => exact .inl (audioOffset_zero start index)
    | succ i =>
      rcases audioOffset_succ start index i with hoff | hoff
      · exact .inl hoff
      · exact .inr ⟨i, rfl, hoff⟩
  · intro t keep hshort i hi before after
    refine ⟨?_, ?_, ?_, ?_⟩
    · show (unwrapAudioDebug before _).2 = _
      rw [unwrapAudioDebug_payload, audioChunk_eq, unwrapAudioDebugPayload_audioPacket]
    · intro j hlast
      exact gap_iff_lost hlast (hshort j i hlast hi)
    · intro hnone hfirst
      show (unwrapAudioDebug before _).1.debugIndexGaps = _
      rw [unwrap_audioChunk, show before = t from before_nothing hnone, hfirst]
      simp
    · intro hall
      have hall' : ∀ j < i + 1, keep j = true := fun j hj =>
        (Nat.lt_succ_iff_lt_or_eq.1 hj).elim (hall j) fun heq => heq ▸ hi
      have hjumps := @jumps_eq start index t keep (i + 1) hall'
      rw [telemetryBefore] at hjumps
      rwa [if_pos hi] at hjumps

/-- A file of 3 bytes, whose chunk 1 is lost while the numbers wrap. -/
theorem audio_gaps_lostChunk :
    let keep : Nat → Bool := fun i => decide (i ≠ 1)
    let before := telemetryBefore {} (audioChunk [1, 2, 3] 0xffffffff) keep 2
    let after := unwrapAudioDebug before (audioChunk [1, 2, 3] 0xffffffff 2)
    after.2 = [1, 2, 3] ∧ after.1.debugIndexGaps = before.debugIndexGaps + 1 ∧
      before.debugIndexGaps = 0 := by
  intro keep before after
  have hlast : LastKept keep 0 2 := ⟨by decide, rfl, fun l hl hl2 => by
    rw [show l = 1 by omega]
    rfl⟩
  have hshort : ShortLosses keep := by
    intro j i h hi
    by_cases hji : i ≤ j + 2
    · omega
    · have hlost := h.lost (i - 1) (by omega) (by have := h.lt; omega)
      have hone : i - 1 = 1 := by simpa [keep] using hlost
      have := h.lt
      omega
  obtain ⟨hpcm, hgap, -, -⟩ := (@audio_gaps [1, 2, 3] (by decide) (by decide)
    0xffffffff).2 {} keep hshort 2 rfl
  exact ⟨hpcm.trans (by decide), hgap 0 hlast, by decide⟩

end

end E2E
