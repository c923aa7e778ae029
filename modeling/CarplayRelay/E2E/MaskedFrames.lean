import CarplayRelay.Firmware.Connection
import CarplayRelay.Gateway.WsUpstreamClient

/-!
# Masked frames

The gateway and the firmware each send masked frames, with code of their own, and each have a
receiver. What either sends, either receives, whatever comes behind it and however it is cut. Only
the integers of the receivers differ: a length is read into a `size_t`, which has 32 bits in the
firmware.

* `masked_frame_round_trip`: the frame sent is received, with its opcode and its payload.
-/

namespace E2E

open Bytes Recv WsClient WebSocket

/-- The gateway receives a frame of these bytes and leaves what is behind it. -/
def GatewayReceives (opcode : UInt8) (payload bytes : Bytes) : Prop :=
  ∀ (s : Prebuffer × List Result) (rest : Bytes), Streams true s (bytes ++ rest) →
    ∃ s', Gateway.wsUpstreamRecvFrame true s = some ((opcode, payload), s') ∧ Streams true s' rest

/-- The firmware receives a frame of these bytes and leaves what is behind it. -/
def FirmwareReceives (opcode : UInt8) (payload bytes : Bytes) : Prop :=
  ∀ (s : Prebuffer × List Result) (rest : Bytes), Streams false s (bytes ++ rest) →
    ∃ s', Firmware.gatewayUpstreamRecvFrame true s = some ((opcode, payload), s') ∧
      Streams false s' rest

section
variable {opcode : UInt8} {mask : Mask} {payload bytes : Bytes}

theorem opcode_of_first (h : opcode < 16) : (0x80 ||| opcode) &&& 0x0f = opcode := by
  have key : ∀ n : Fin 16, (0x80 ||| UInt8.ofNat n) &&& 0x0f = UInt8.ofNat n := by decide
  have hn := key ⟨opcode.toNat, UInt8.lt_iff_toNat_lt.1 h⟩
  rwa [UInt8.ofNat_toNat] at hn

theorem gatewayReceives_masked (hop : opcode < 16) (hlen : payload.length < 2 ^ 64)
    (h : IsMaskedFrame opcode mask payload bytes) : GatewayReceives opcode payload bytes := by
  obtain ⟨width, hexpr, -, rfl⟩ := h
  intro s rest hs
  rw [← opcode_of_first hop]
  exact recvFrame_layout (reads_readSome true) (by decide) hexpr hlen hs

theorem firmwareReceives_masked (hop : opcode < 16) (hlen : payload.length < 2 ^ 32)
    (h : IsMaskedFrame opcode mask payload bytes) : FirmwareReceives opcode payload bytes := by
  obtain ⟨width, hexpr, -, rfl⟩ := h
  intro s rest hs
  rw [← opcode_of_first hop]
  exact recvFrame_layout (reads_readSome false) (by decide) hexpr hlen hs

/-- A payload whose length is a multiple of 2^32 is taken for an empty one. -/
theorem not_firmwareReceives (hne : payload.length ≠ 0) (hlen : payload.length % 2 ^ 32 = 0)
    (h : IsMaskedFrame opcode mask payload bytes) : ¬ FirmwareReceives opcode payload bytes := by
  obtain ⟨width, hexpr, -, rfl⟩ := h
  intro hrecv
  have hs : Streams false (prebufferOf (layout (0x80 ||| opcode) width (some mask) payload), [])
      (layout (0x80 ||| opcode) width (some mask) payload ++ []) :=
    ⟨[], by rw [pending_prebufferOf], rfl⟩
  obtain ⟨s', hframe, -⟩ := hrecv _ [] hs
  obtain ⟨s'', hempty⟩ := recvFrame_wraps (reads_readSome false) (by decide) hexpr hlen hs
  have hnil := congrArg (fun r => r.1.2.length) (Option.some.inj (hframe.symm.trans hempty))
  exact hne hnil

theorem sendMaskedFrame_ok (mask : Mask) (opcode : UInt8) (payload : Bytes) :
    (sendMaskedFrame mask opcode payload ⟨none, true, none⟩).1 = 0 := by
  unfold sendMaskedFrame writeAll
  dsimp only
  rw [if_neg (by simp)]
  split <;> rfl

/-- **Masked frames round-trip.** What a send of the gateway, or one of at most 65535 bytes of the
firmware, has written when it returns 0 is one final masked frame in the shortest encoding. The
gateway receives its opcode and its payload and leaves what is behind it, and so does the firmware
if the length fits its `size_t`. -/
theorem masked_frame_round_trip (hop : opcode < 16) (hlen : payload.length < 2 ^ 64) :
    (∀ {mask : Option Mask} {calls : SendCalls} {bytes : Bytes},
      Gateway.wsSendMaskedFrame mask opcode payload calls = (0, bytes) →
      (∃ m, mask = some m ∧ IsMaskedFrame opcode m payload bytes) ∧
        GatewayReceives opcode payload bytes ∧
        (payload.length < 2 ^ 32 → FirmwareReceives opcode payload bytes)) ∧
    (payload.length ≤ 65535 → ∀ {calls : SendCalls} {bytes : Bytes},
      Firmware.gatewayUpstreamSendMaskedFrame opcode payload calls = (0, bytes) →
      IsMaskedFrame opcode Firmware.upstreamMask payload bytes ∧
        GatewayReceives opcode payload bytes ∧ FirmwareReceives opcode payload bytes) := by
  refine ⟨?_, ?_⟩
  · intro mask calls bytes h
    cases mask with
    | none => cases h
    | some m =>
      have hframe := sendMaskedFrame_frame hlen h
      exact ⟨⟨m, rfl, hframe⟩, gatewayReceives_masked hop hlen hframe,
        fun hlt => firmwareReceives_masked hop hlt hframe⟩
  · intro hshort calls bytes h
    have hframe := sendMaskedFrame_frame hlen h
    exact ⟨hframe, gatewayReceives_masked hop hlen hframe,
      firmwareReceives_masked hop (by omega) hframe⟩

end

/-- A text frame of the gateway, which the firmware receives, and one of the firmware, which the
gateway receives. -/
theorem masked_frame_round_trip_text :
    (Gateway.wsSendMaskedFrame (some ⟨[1, 2, 3, 4], rfl⟩) 1 [104, 105] ⟨none, true, none⟩ =
        (0, [0x81, 0x82, 1, 2, 3, 4, 105, 107]) ∧
      FirmwareReceives 1 [104, 105] [0x81, 0x82, 1, 2, 3, 4, 105, 107]) ∧
    Firmware.gatewayUpstreamSendMaskedFrame 1 [104, 105] ⟨none, true, none⟩ =
        (0, [0x81, 0x82, 0x12, 0x34, 0x56, 0x78, 0x7a, 0x5d]) ∧
      GatewayReceives 1 [104, 105] [0x81, 0x82, 0x12, 0x34, 0x56, 0x78, 0x7a, 0x5d] := by
  have h := @masked_frame_round_trip 1 [104, 105] (by decide) (by decide)
  have hgateway : Gateway.wsSendMaskedFrame (some ⟨[1, 2, 3, 4], rfl⟩) 1 [104, 105]
      ⟨none, true, none⟩ = (0, [0x81, 0x82, 1, 2, 3, 4, 105, 107]) := by decide
  have hfirmware : Firmware.gatewayUpstreamSendMaskedFrame 1 [104, 105] ⟨none, true, none⟩ =
      (0, [0x81, 0x82, 0x12, 0x34, 0x56, 0x78, 0x7a, 0x5d]) := by decide
  exact ⟨⟨hgateway, (h.1 hgateway).2.2 (by decide)⟩, hfirmware, (h.2 (by decide) hfirmware).2.1⟩

/-- A binary frame of 2^32 bytes, which the firmware takes for an empty one. -/
theorem masked_frame_wraps :
    ¬ ∀ (opcode : UInt8) (mask : Mask) (payload bytes : Bytes), opcode < 16 →
      payload.length < 2 ^ 64 →
      Gateway.wsSendMaskedFrame (some mask) opcode payload ⟨none, true, none⟩ = (0, bytes) →
      FirmwareReceives opcode payload bytes := by
  intro hall
  have hlen : (List.replicate (2 ^ 32) (0 : UInt8)).length = 2 ^ 32 := List.length_replicate
  generalize List.replicate (2 ^ 32) (0 : UInt8) = payload at hlen
  have hsent : sendMaskedFrame ⟨[1, 2, 3, 4], rfl⟩ 2 payload ⟨none, true, none⟩ = (0, _) :=
    Prod.ext (sendMaskedFrame_ok _ 2 payload) rfl
  have hrecv := hall 2 ⟨[1, 2, 3, 4], rfl⟩ payload _ (by decide) (by omega) hsent
  exact not_firmwareReceives (by omega) (by omega) (sendMaskedFrame_frame (by omega) hsent) hrecv

end E2E
