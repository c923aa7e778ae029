import CarplayRelay.Proto

/-!
# Media payloads

The plaintext of a media packet is a NAL unit, a fragment of one behind a 16-byte `VFG1` header,
or a PCM chunk behind a 12-byte `AUD0` header. The server's `video_payload_flags` and the
relays' `gateway_video_flags` (one function in `gateway.c` and in the firmware) compute the
keyframe and config flags of a video payload; the relays read them off the header of a fragment.
The server only sends NAL units of the types 1..12 (`ServerNal`), none of which starts like a
fragment (`ServerNal.not_fragment`), so on these the two agree (`gatewayVideoFlags_nal`).
-/

namespace Media

open Bytes Proto

/-- `VIDEO_FRAGMENT_DATA_SIZE`. -/
def videoFragmentDataSize : Nat := 16 * 1024

/-- "VFG1". -/
def vfg1 : Bytes := [0x56, 0x46, 0x47, 0x31]

/-- "AUD0". -/
def aud0 : Bytes := [0x41, 0x55, 0x44, 0x30]

/-- The flags of a NAL unit of type `nalType`. -/
def nalTypeFlags (nalType : UInt8) : UInt8 :=
  let flags := if nalType = 5 then flagKeyframe else 0
  if nalType = 7 ∨ nalType = 8 then flags ||| flagConfig else flags

/-- `video_payload_flags`. -/
def videoPayloadFlags (payload : Bytes) : UInt8 :=
  if payload.length = 0 then 0 else nalTypeFlags (payload.byteAt 0 &&& 0x1f)

/-- The payload starts with a fragment header. -/
abbrev IsFragment (payload : Bytes) : Prop := 16 ≤ payload.length ∧ payload.take 4 = vfg1

/-- `gateway_video_flags`. -/
def gatewayVideoFlags (payload : Bytes) : UInt8 :=
  if payload.length = 0 then 0
  else if IsFragment payload then payload.byteAt 4
  else nalTypeFlags (payload.byteAt 0 &&& 0x1f)

/-- A NAL unit as the server sends it: one of the enumerated types 1..12 (`NALU_TYPE_SLICE` …
`NALU_TYPE_FILL`), and no more than a 16-bit fragment count can number. -/
structure ServerNal (nal : Bytes) : Prop where
  ne_nil : nal ≠ []
  length_le : nal.length ≤ 65535 * videoFragmentDataSize
  type_ge : 1 ≤ nal.byteAt 0 &&& 0x1f
  type_le : nal.byteAt 0 &&& 0x1f ≤ 12

theorem byteAt_of_take {p q : Bytes} {n i : Nat} (h : p.take n = q) (hi : i < n) :
    p.byteAt i = q.byteAt i := by
  rw [← h]
  simp only [byteAt, List.getD_eq_getElem?_getD, List.getElem?_take_of_lt hi]

theorem not_fragment_of_type {nal : Bytes} (h : nal.byteAt 0 &&& 0x1f ≤ 12) : ¬ IsFragment nal := by
  intro hf
  rw [byteAt_of_take hf.2 (by decide : 0 < 4)] at h
  exact absurd h (by decide)

theorem ServerNal.not_fragment {nal : Bytes} (h : ServerNal nal) : ¬ IsFragment nal :=
  not_fragment_of_type h.type_le

theorem gatewayVideoFlags_nal {nal : Bytes} (h : ServerNal nal) :
    gatewayVideoFlags nal = videoPayloadFlags nal := by
  unfold gatewayVideoFlags videoPayloadFlags
  rw [if_neg h.not_fragment]

/-! ## Headers in front of a payload -/

/-- `write_u16le`. -/
def writeU16le (v : UInt16) : Bytes := [(v &&& 0xff).toUInt8, ((v >>> 8) &&& 0xff).toUInt8]

/-- `write_u32le`. -/
def writeU32le (v : UInt32) : Bytes :=
  [(v &&& 0xff).toUInt8, ((v >>> 8) &&& 0xff).toUInt8, ((v >>> 16) &&& 0xff).toUInt8,
   ((v >>> 24) &&& 0xff).toUInt8]

theorem and_0xff (b : UInt8) : b &&& 0xff = b := UInt8.and_neg_one

theorem writeU16le_eq (v : UInt16) : writeU16le v = le16 v := by
  simp [writeU16le, le16, and_0xff]

theorem writeU32le_eq (v : UInt32) : writeU32le v = le32 v := by
  simp [writeU32le, le32, and_0xff]

/-- A fragment packet: header and data. -/
def fragmentPacket (flags : UInt8) (fragIndex fragCount : UInt16) (frameId : UInt32)
    (data : Bytes) : Bytes :=
  vfg1 ++ [flags, 0] ++ writeU16le fragIndex ++ writeU16le fragCount ++ writeU16le 0 ++
    writeU32le frameId ++ data

/-- An audio packet: header and PCM. -/
def audioPacket (chunkIndex offset : UInt32) (pcm : Bytes) : Bytes :=
  aud0 ++ writeU32le chunkIndex ++ writeU32le offset ++ pcm

section
variable (flags : UInt8) (i n : UInt16) (frameId : UInt32) (data : Bytes)

@[simp] theorem length_fragmentPacket :
    (fragmentPacket flags i n frameId data).length = 16 + data.length := by
  simp [fragmentPacket, vfg1, writeU16le_eq, writeU32le_eq]; omega

theorem isFragment_fragmentPacket : IsFragment (fragmentPacket flags i n frameId data) :=
  ⟨by simp, rfl⟩

theorem fragmentPacket_flags : (fragmentPacket flags i n frameId data).byteAt 4 = flags := rfl

theorem fragmentPacket_index :
    ofLe16 ((fragmentPacket flags i n frameId data).drop 6) = i := by
  show ofLe16 (writeU16le i ++ _) = i
  rw [writeU16le_eq, ofLe16_le16]

theorem fragmentPacket_count :
    ofLe16 ((fragmentPacket flags i n frameId data).drop 8) = n := by
  show ofLe16 (writeU16le n ++ _) = n
  rw [writeU16le_eq, ofLe16_le16]

theorem fragmentPacket_frameId :
    ofLe32 ((fragmentPacket flags i n frameId data).drop 12) = frameId := by
  show ofLe32 (writeU32le frameId ++ _) = frameId
  rw [writeU32le_eq, ofLe32_le32]

theorem fragmentPacket_data : (fragmentPacket flags i n frameId data).drop 16 = data := rfl

end

@[simp] theorem length_audioPacket (c o : UInt32) (pcm : Bytes) :
    (audioPacket c o pcm).length = 12 + pcm.length := by
  simp [audioPacket, aud0, writeU32le_eq]; omega

theorem audioPacket_index (c o : UInt32) (pcm : Bytes) :
    ofLe32 ((audioPacket c o pcm).drop 4) = c := by
  show ofLe32 (writeU32le c ++ _) = c
  rw [writeU32le_eq, ofLe32_le32]

theorem audioPacket_offset (c o : UInt32) (pcm : Bytes) :
    ofLe32 ((audioPacket c o pcm).drop 8) = o := by
  show ofLe32 (writeU32le o ++ _) = o
  rw [writeU32le_eq, ofLe32_le32]

end Media
