import CarplayRelay.Client.Fragments
import CarplayRelay.Client.Framing
import CarplayRelay.Crypto

/-!
# The client's reader thread (`network_reader`)

`network_reader` reads the records of the stream, decrypts every media payload with the nonce of
the USB relay, reassembles NAL units and takes the debug header off PCM chunks. It does so for
both transports. `networkReader` lists what it hands on: NAL units to the video state, PCM to the
audio queue.

* `networkReader_packets`: of a stream of undamaged records it handles each packet in turn.
* `decryptUsbMediaPayload_packet`: a payload encrypted with the client's nonce is decrypted;
  `cryptoBody_none`: one that is not a crypto packet is not handed on.
-/

namespace Client

open Bytes Crypto Media Proto

/-! ## The code -/

/-- The bytes of `kUsbCryptoSessionNonce`: "USBRelayV1!!". -/
def usbCryptoSessionNonceBytes : Bytes :=
  [0x55, 0x53, 0x42, 0x52, 0x65, 0x6c, 0x61, 0x79, 0x56, 0x31, 0x21, 0x21]

/-- `kUsbCryptoSessionNonce`. -/
def usbCryptoSessionNonce : Nonce := ⟨usbCryptoSessionNonceBytes, rfl⟩

/-- `decrypt_usb_media_payload`: the payload afterwards, `none` if it returns false. -/
def decryptUsbMediaPayload (ks : KeyStream) (info : MediaInfo) (payload : Bytes) : Option Bytes :=
  if payload = [] then some []
  else
    match cryptoStreamDecryptPacket ks payload.length usbCryptoSessionNonce payload with
    | none => none
    | some d =>
      if d.rc < 0 then none
      else if d.streamId ≠ info.streamId ∨ d.seqNo ≠ info.seqNo then none
      else some (d.plaintext.take d.rc.toNat)

/-- `unwrap_audio_debug_payload`: the payload afterwards. -/
def unwrapAudioDebugPayload (payload : Bytes) : Bytes :=
  if payload.length < 12 ∨ payload.take 4 ≠ aud0 then payload else payload.drop 12

/-- What `network_reader` hands on. -/
inductive Obtained
  /-- A NAL unit and its flags, to the video state. -/
  | video (nal : Bytes) (flags : UInt8)
  /-- A PCM chunk, to the audio queue. -/
  | audio (pcm : Bytes)
  deriving DecidableEq, Repr

/-- `network_reader`, a decrypted payload; `audioOpen` is `audio_output_enabled() &&
state->audio_dev != 0`. -/
def handlePayload (audioOpen : Bool) (frag : FragState) (info : MediaInfo) (payload : Bytes) :
    FragState × List Obtained :=
  if info.streamId = streamVideo then
    let (frag, result) := reassembleVideoPayload frag payload info.flags info.seqNo
    (frag, result.toList.map fun r => .video r.1 r.2)
  else if info.streamId = streamAudio then
    (frag, if audioOpen then [.audio (unwrapAudioDebugPayload payload)] else [])
  else (frag, [])

/-- `network_reader`, one iteration. -/
def handleRecord (ks : KeyStream) (audioOpen : Bool) (frag : FragState) :
    Record → FragState × List Obtained
  | .init _ _ | .lost _ _ => (frag, [])
  | .media info payload _ =>
    match decryptUsbMediaPayload ks info payload with
    | none => (frag, [])
    | some payload => handlePayload audioOpen frag info payload

def handleRecords (ks : KeyStream) (audioOpen : Bool) : FragState → List Record → List Obtained
  | _, [] => []
  | frag, record :: records =>
    let (frag, obtained) := handleRecord ks audioOpen frag record
    obtained ++ handleRecords ks audioOpen frag records

/-- `network_reader`, until its loop breaks. -/
def networkReader (ks : KeyStream) (audioOpen : Bool) (s : Source) : List Obtained :=
  handleRecords ks audioOpen resetVideoFragments (readRecords s)

/-! ## Payloads -/

/-- The ciphertext of a payload that is a crypto packet with the stream id and the sequence number
of its header: which payloads are decrypted does not depend on the cipher. -/
def cryptoBody (info : MediaInfo) (payload : Bytes) : Option Bytes :=
  if payload = [] then some []
  else if payload.length < headerSize ∨ payload.byteAt 0 ≠ 0x43 ∨ payload.byteAt 1 ≠ 0x48 ∨
      payload.byteAt 2 ≠ 1 ∨ toInt32 (payload.length - headerSize) < 0 ∨
      payload.byteAt 3 ≠ info.streamId ∨ ofBe32 (payload.drop 4) ≠ info.seqNo then none
  else some ((payload.drop headerSize).take (toInt32 (payload.length - headerSize)).toNat)

section
variable {ks : KeyStream} {info : MediaInfo}

/-- A payload the firmware encrypted. -/
theorem decryptUsbMediaPayload_packet {payload : Bytes}
    (hsize : cryptoStreamPacketSize payload.length < 2 ^ 31) :
    decryptUsbMediaPayload ks info
      (packetBytes ks info.streamId info.seqNo usbCryptoSessionNonce payload) = some payload := by
  have hne : packetBytes ks info.streamId info.seqNo usbCryptoSessionNonce payload ≠ [] := by
    simp [packetBytes]
  have hle : payload.length ≤
      (packetBytes ks info.streamId info.seqNo usbCryptoSessionNonce payload).length := by
    rw [length_packetBytes]
    exact Nat.le_add_left _ _
  have hlt : payload.length < 2 ^ 31 := by
    unfold cryptoStreamPacketSize at hsize
    omega
  rw [decryptUsbMediaPayload, if_neg hne, decryptPacket_encryptPacket _ _ _ _ _ hle]
  simp [toInt32_of_lt hlt]

theorem decryptUsbMediaPayload_eq (payload : Bytes) :
    decryptUsbMediaPayload ks info payload = (cryptoBody info payload).map fun c =>
      chacha20Xor ks c defaultKey (cryptoStreamPacketNonce usbCryptoSessionNonce info.seqNo) 1 := by
  unfold decryptUsbMediaPayload cryptoBody
  by_cases hp : payload = []
  · rw [if_pos hp, if_pos hp]
    rfl
  rw [if_neg hp, if_neg hp, cryptoStreamDecryptPacket]
  by_cases hlen : payload.length < headerSize
  · simp [hlen]
  by_cases h0 : payload.byteAt 0 = 0x43
  case neg => simp [hlen, h0]
  by_cases h1 : payload.byteAt 1 = 0x48
  case neg => simp [hlen, h1]
  by_cases h2 : payload.byteAt 2 = 1
  case neg => simp [hlen, h2]
  have hsize : ¬ payload.length < payload.length - headerSize := by omega
  by_cases hrc : toInt32 (payload.length - headerSize) < 0
  · simp [hlen, h0, h1, h2, hsize, hrc]
  by_cases h3 : payload.byteAt 3 = info.streamId
  case neg => simp [hlen, h0, h1, h2, hsize, hrc, h3]
  by_cases h4 : ofBe32 (payload.drop 4) = info.seqNo
  case neg => simp [hlen, h0, h1, h2, hsize, hrc, h4]
  simp [hlen, h0, h1, h2, hsize, hrc, h3, h4, chacha20Xor_take]

/-- A payload that does not start like a crypto packet. -/
theorem cryptoBody_none {payload : Bytes} (hne : payload ≠ []) (h : payload.byteAt 0 ≠ 0x43) :
    cryptoBody info payload = none := by
  rw [cryptoBody, if_neg hne, if_pos (.inr (.inl h))]

theorem audioPacket_debug (chunkIndex offset : UInt32) (pcm : Bytes) :
    ¬ ((audioPacket chunkIndex offset pcm).length < 12 ∨
      (audioPacket chunkIndex offset pcm).take 4 ≠ aud0) := by
  rw [length_audioPacket]
  exact not_or.2 ⟨by omega, fun h => h rfl⟩

theorem unwrapAudioDebugPayload_audioPacket (chunkIndex offset : UInt32) (pcm : Bytes) :
    unwrapAudioDebugPayload (audioPacket chunkIndex offset pcm) = pcm := by
  rw [unwrapAudioDebugPayload, if_neg (audioPacket_debug chunkIndex offset pcm)]
  rfl

end

/-! ## The telemetry of the debug header -/

/-- The part of `AudioTelemetry` that `unwrap_audio_debug_payload` keeps. -/
structure AudioTelemetry where
  debugHeaderPackets : Nat := 0
  debugIndexGaps : Nat := 0
  debugOffsetJumps : Nat := 0
  haveDebugPrev : Bool := false
  lastDebugIndex : UInt32 := 0
  lastDebugOffset : UInt32 := 0
  lastDebugPcmBytes : UInt32 := 0
  deriving DecidableEq, Repr

/-- `unwrap_audio_debug_payload`, with the telemetry. -/
def unwrapAudioDebug (t : AudioTelemetry) (payload : Bytes) : AudioTelemetry × Bytes :=
  if payload.length < 12 ∨ payload.take 4 ≠ aud0 then (t, payload)
  else
    let chunkIndex := ofLe32 (payload.drop 4)
    let offset := ofLe32 (payload.drop 8)
    let expectedIndex := t.lastDebugIndex + 1
    let expectedOffset := t.lastDebugOffset + t.lastDebugPcmBytes
    ({ debugHeaderPackets := t.debugHeaderPackets + 1
       debugIndexGaps := t.debugIndexGaps +
         if t.haveDebugPrev ∧ chunkIndex ≠ expectedIndex then 1 else 0
       debugOffsetJumps := t.debugOffsetJumps +
         if t.haveDebugPrev ∧ offset ≠ expectedOffset ∧ offset ≠ 0 then 1 else 0
       haveDebugPrev := true
       lastDebugIndex := chunkIndex
       lastDebugOffset := offset
       lastDebugPcmBytes := UInt32.ofNat (payload.length - 12) }, payload.drop 12)

theorem unwrapAudioDebug_payload (t : AudioTelemetry) (payload : Bytes) :
    (unwrapAudioDebug t payload).2 = unwrapAudioDebugPayload payload := by
  unfold unwrapAudioDebug unwrapAudioDebugPayload
  split <;> rfl

/-- The telemetry behind an audio packet. -/
theorem unwrapAudioDebug_audioPacket (t : AudioTelemetry) (chunkIndex offset : UInt32)
    (pcm : Bytes) :
    (unwrapAudioDebug t (audioPacket chunkIndex offset pcm)).1 =
      { debugHeaderPackets := t.debugHeaderPackets + 1
        debugIndexGaps := t.debugIndexGaps +
          if t.haveDebugPrev ∧ chunkIndex ≠ t.lastDebugIndex + 1 then 1 else 0
        debugOffsetJumps := t.debugOffsetJumps +
          if t.haveDebugPrev ∧ offset ≠ t.lastDebugOffset + t.lastDebugPcmBytes ∧ offset ≠ 0 then 1
          else 0
        haveDebugPrev := true
        lastDebugIndex := chunkIndex
        lastDebugOffset := offset
        lastDebugPcmBytes := UInt32.ofNat pcm.length } := by
  rw [unwrapAudioDebug, if_neg (audioPacket_debug chunkIndex offset pcm)]
  simp only [audioPacket_index, audioPacket_offset, length_audioPacket, Nat.add_sub_cancel_left]

/-! ## Streams of undamaged records -/

/-- The stream of the media packets `packets`, each a header and a payload. -/
def packetStream (packets : List (MediaInfo × Bytes)) : Bytes :=
  (packets.map fun p => gatewayProtoWriteMediaHeader p.1 ++ p.2).flatten

/-- The packets as segments of a stream. -/
def packetSegments (packets : List (MediaInfo × Bytes)) : List Segment :=
  packets.map fun p => .media (gatewayProtoWriteMediaHeader p.1) p.2

theorem render_packetSegments (packets : List (MediaInfo × Bytes)) :
    render (packetSegments packets) = packetStream packets := by
  simp only [render, packetSegments, packetStream, List.map_map]
  rfl

/-- The payload of a packet is announced with its length, and does not start like a record. -/
def PacketOk (p : MediaInfo × Bytes) : Prop :=
  p.1.payloadLen.toNat = p.2.length ∧ startsGatewayMagic p.2 = false

section
variable {packets : List (MediaInfo × Bytes)}

theorem wellFormed_packetSegments (h : ∀ p ∈ packets, PacketOk p) :
    WellFormed (packetSegments packets) := by
  induction packets with
  | nil => trivial
  | cons p packets ih =>
    obtain ⟨hlen, hmagic⟩ := h p (by simp)
    refine ⟨⟨length_writeMediaHeader _, ?_, ?_, hmagic⟩, ih fun q hq => h q (by simp [hq])⟩
    · simpa using ofBe32_writeMediaHeader p.1 []
    · rw [mediaInfoOf_write]
      exact hlen

theorem expected_packetSegments (packets : List (MediaInfo × Bytes)) :
    expected 0 (packetSegments packets) = packets.map fun p => .media p.1 p.2 0 := by
  induction packets with
  | nil => rfl
  | cons p packets ih =>
    simp only [packetSegments, List.map_cons, expected, mediaInfoOf_write] at ih ⊢
    rw [ih]
    rfl

/-- **Of a stream of undamaged packets, possibly behind an INIT record, every packet is
handled.** -/
theorem networkReader_packets (ks : KeyStream) (audioOpen : Bool) (h : ∀ p ∈ packets, PacketOk p)
    {init : Bytes} (hinit : init = [] ∨ init = gatewayProtoWriteInit gatewayProtoDefaultInit)
    {s : Source} (hs : s.remaining = init ++ packetStream packets) :
    networkReader ks audioOpen s =
      handleRecords ks audioOpen resetVideoFragments (packets.map fun p => .media p.1 p.2 0) := by
  rw [← render_packetSegments] at hs
  have hwf := wellFormed_packetSegments h
  rw [networkReader, ← expected_packetSegments]
  rcases hinit with rfl | rfl
  · rw [readRecords_render hwf (by simpa using hs)]
  · have hsegs : WellFormed
        (.init (gatewayProtoWriteInit gatewayProtoDefaultInit) :: packetSegments packets) :=
      ⟨⟨rfl, by decide⟩, hwf⟩
    rw [readRecords_render hsegs hs]
    rfl

end

end Client
