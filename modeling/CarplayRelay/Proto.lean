import CarplayRelay.Lib.Bytes

/-!
# The gateway protocol (`gateway_proto.c`)

The two records of a relay stream: the 16-byte INIT record and the 16-byte header of a media
packet, whose payload follows it. A reader accepts a record exactly on its magic, so the INIT
and PACKET records are told apart by their first four bytes (`initMagic_ne_packetMagic`);
reading inverts writing (`gatewayProtoReadInit_write`, `gatewayProtoReadMediaHeader_write`).
-/

namespace Proto

open Bytes

/-- `GATEWAY_PROTO_INIT_MAGIC`. -/
def initMagic : UInt32 := 0x47574931

/-- `GATEWAY_PROTO_PACKET_MAGIC`. -/
def packetMagic : UInt32 := 0x47575031

def version : UInt8 := 1
def videoCodecH264Annexb : UInt8 := 1
def audioCodecPcmS16le : UInt8 := 1
def streamVideo : UInt8 := 1
def streamAudio : UInt8 := 2
def flagKeyframe : UInt8 := 0x01
def flagConfig : UInt8 := 0x02
def initSize : Nat := 16
def packetHeaderSize : Nat := 16

/-- `gateway_proto_init_info_t`. -/
structure InitInfo where
  version : UInt8
  videoCodec : UInt8
  audioCodec : UInt8
  audioChannels : UInt8
  audioSampleRate : UInt32
  audioSampleBits : UInt16
  deriving DecidableEq, Repr

/-- `gateway_proto_media_info_t`. -/
structure MediaInfo where
  streamId : UInt8
  flags : UInt8
  seqNo : UInt32
  payloadLen : UInt32
  deriving DecidableEq, Repr

def gatewayProtoDefaultInit : InitInfo where
  version := version
  videoCodec := videoCodecH264Annexb
  audioCodec := audioCodecPcmS16le
  audioChannels := 1
  audioSampleRate := 16000
  audioSampleBits := 16

def gatewayProtoWriteInit (info : InitInfo) : Bytes :=
  be32 initMagic ++ [info.version, info.videoCodec, info.audioCodec, info.audioChannels] ++
    be32 info.audioSampleRate ++ be16 info.audioSampleBits ++ be16 0

/-- The fields of an INIT record. -/
def initInfoOf (p : Bytes) : InitInfo where
  version := p.byteAt 4
  videoCodec := p.byteAt 5
  audioCodec := p.byteAt 6
  audioChannels := p.byteAt 7
  audioSampleRate := ofBe32 (p.drop 8)
  audioSampleBits := ofBe16 (p.drop 12)

def gatewayProtoReadInit (p : Bytes) : Option InitInfo :=
  if ofBe32 p = initMagic then some (initInfoOf p) else none

def gatewayProtoWriteMediaHeader (info : MediaInfo) : Bytes :=
  be32 packetMagic ++ [info.streamId, info.flags] ++ be16 0 ++ be32 info.seqNo ++
    be32 info.payloadLen

/-- The fields of a media header. -/
def mediaInfoOf (p : Bytes) : MediaInfo where
  streamId := p.byteAt 4
  flags := p.byteAt 5
  seqNo := ofBe32 (p.drop 8)
  payloadLen := ofBe32 (p.drop 12)

def gatewayProtoReadMediaHeader (p : Bytes) : Option MediaInfo :=
  if ofBe32 p = packetMagic then some (mediaInfoOf p) else none

@[simp] theorem length_writeInit (info : InitInfo) : (gatewayProtoWriteInit info).length = 16 :=
  rfl

@[simp] theorem length_writeMediaHeader (info : MediaInfo) :
    (gatewayProtoWriteMediaHeader info).length = 16 := rfl

/-! ## The readers invert the writers -/

theorem ofBe32_writeInit (info : InitInfo) (r : Bytes) :
    ofBe32 (gatewayProtoWriteInit info ++ r) = initMagic := by
  simp [gatewayProtoWriteInit, List.append_assoc]

theorem ofBe32_writeMediaHeader (info : MediaInfo) (r : Bytes) :
    ofBe32 (gatewayProtoWriteMediaHeader info ++ r) = packetMagic := by
  simp [gatewayProtoWriteMediaHeader, List.append_assoc]

theorem initMagic_ne_packetMagic : initMagic ≠ packetMagic := by decide

theorem initInfoOf_write (info : InitInfo) : initInfoOf (gatewayProtoWriteInit info) = info := by
  have h8 : ofBe32 ((gatewayProtoWriteInit info).drop 8) = info.audioSampleRate :=
    ofBe32_be32 info.audioSampleRate (be16 info.audioSampleBits ++ be16 0)
  have h12 : ofBe16 ((gatewayProtoWriteInit info).drop 12) = info.audioSampleBits :=
    ofBe16_be16 info.audioSampleBits (be16 0)
  unfold initInfoOf
  rw [h8, h12]
  rfl

theorem mediaInfoOf_write (info : MediaInfo) :
    mediaInfoOf (gatewayProtoWriteMediaHeader info) = info := by
  have h8 : ofBe32 ((gatewayProtoWriteMediaHeader info).drop 8) = info.seqNo :=
    ofBe32_be32 info.seqNo (be32 info.payloadLen)
  have h12 : ofBe32 ((gatewayProtoWriteMediaHeader info).drop 12) = info.payloadLen :=
    ofBe32_be32 info.payloadLen []
  unfold mediaInfoOf
  rw [h8, h12]
  rfl

theorem gatewayProtoReadInit_write (info : InitInfo) :
    gatewayProtoReadInit (gatewayProtoWriteInit info) = some info := by
  have h := ofBe32_writeInit info []
  rw [List.append_nil] at h
  rw [gatewayProtoReadInit, if_pos h, initInfoOf_write]

theorem gatewayProtoReadMediaHeader_write (info : MediaInfo) :
    gatewayProtoReadMediaHeader (gatewayProtoWriteMediaHeader info) = some info := by
  have h := ofBe32_writeMediaHeader info []
  rw [List.append_nil] at h
  rw [gatewayProtoReadMediaHeader, if_pos h, mediaInfoOf_write]

end Proto
