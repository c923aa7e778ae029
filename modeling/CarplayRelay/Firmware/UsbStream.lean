import CarplayRelay.Crypto
import CarplayRelay.Firmware.TxRing
import CarplayRelay.Lib.Run
import CarplayRelay.Media
import CarplayRelay.Proto

/-!
# The firmware's USB stream (`gateway_usb_*`)

The IN side of the firmware: packets are queued in the TX ring, `gateway_usb_kick_tx` copies a
chunk to `in_buf` and queues it at the endpoint, `gateway_usb_in_complete` takes what was sent off
the ring. PONGs go through the same request. A session lasts from one reset of the stream to the
next.

The invariant (`UsbInv`) is that the delivered bytes and the ring's contents together are the INIT
record and the accepted packets, and that a queued chunk is the front of the ring.

* `run_delivers`: in every run, what the host got of any session is a prefix of its INIT record
  and accepted packets, and what it did not get of the current one is in the ring.
-/

namespace Firmware

open Bytes Crypto Media Proto TxRing

/-! ## The code -/

/-- `GATEWAY_AMEBA_USB_IN_CHUNK_SIZE`. -/
def usbInChunkSize : Nat := 512

/-- `g_gateway_usb_crypto_nonce`: "USBRelayV1!!". -/
def gatewayUsbCryptoNonce : Nonce :=
  ⟨[0x55, 0x53, 0x42, 0x52, 0x65, 0x6c, 0x61, 0x79, 0x56, 0x31, 0x21, 0x21], rfl⟩

/-- What is queued at the IN endpoint. -/
inductive InKind
  | chunk
  | pong
  deriving DecidableEq, Repr

/-- The globals and the context of the USB function (`gateway_usb_function_ctx_t`), of which
`bind` and `set_alt` have set the endpoints and requests. `endpoint` is the controller's side: the
request it has queued, unless a reset discarded it. -/
structure Usb where
  tx : TxRing
  protoInitSent : Bool
  streamResetting : Bool
  configured : Bool
  inBusy : Bool
  inFlightLen : Nat
  inBuf : Bytes
  reqLength : Nat
  lastQueueLen : Nat
  lastKickRc : Int
  streamKickCount : UInt32
  txPackets : UInt32
  inCompleteCount : UInt32
  inErrorCount : UInt32
  fifoFlushCount : UInt32
  endpoint : Option InKind

/-- `gateway_usb_tx_reset`. -/
def gatewayUsbTxReset (u : Usb) : Usb :=
  { u with tx := u.tx.gatewayUsbTxReset, protoInitSent := false, lastQueueLen := 0 }

/-- `gateway_usb_enqueue_init_packet` (`true` for 0). -/
def gatewayUsbEnqueueInitPacket (u : Usb) : Bool × Usb :=
  if u.protoInitSent then (true, u)
  else
    let (ok, tx) :=
      u.tx.gatewayUsbTxEnqueuePacket (gatewayProtoWriteInit gatewayProtoDefaultInit) []
    if ok then (true, { u with tx := tx, protoInitSent := true }) else (false, { u with tx := tx })

/-- The encrypted payload of a media packet, `none` when it cannot be made; `mallocOk` is the
outcome of `malloc`. -/
def encryptedPayload (ks : KeyStream) (streamId : UInt8) (seqNo : UInt32) (payload : Bytes)
    (mallocOk : Bool) : Option Bytes :=
  if payload.length > 0 then
    if ¬ mallocOk then none
    else
      match cryptoStreamEncryptPacket ks (cryptoStreamPacketSize payload.length) streamId seqNo
          gatewayUsbCryptoNonce payload with
      | none => none
      | some (len, bytes) => if len < 0 then none else some (bytes.take len.toNat)
  else some []

/-- `gateway_usb_enqueue_media_packet` (`true` for 0). -/
def gatewayUsbEnqueueMediaPacket (ks : KeyStream) (u : Usb) (streamId : UInt8) (seqNo : UInt32)
    (payload : Bytes) (mallocOk : Bool) : Bool × Usb :=
  match encryptedPayload ks streamId seqNo payload mallocOk with
  | none => (false, u)
  | some encrypted =>
    let header := gatewayProtoWriteMediaHeader
      { streamId := streamId
        flags := if streamId = streamVideo then gatewayVideoFlags payload else 0
        seqNo := seqNo
        payloadLen := UInt32.ofNat encrypted.length }
    let (ok, tx) := u.tx.gatewayUsbTxEnqueuePacket header encrypted
    (ok, { u with tx := tx })

/-- `gateway_usb_kick_tx`; `rc` is what `usb_ep_queue` returns if it is called. -/
def gatewayUsbKickTx (u : Usb) (rc : Int) : Int × Usb :=
  if ¬ u.configured ∨ u.inBusy then (0, u)
  else
    let chunk := u.tx.gatewayUsbTxPeekChunk usbInChunkSize
    if chunk.length = 0 then (0, u)
    else
      let u := { u with
        inBuf := chunk ++ u.inBuf.drop chunk.length
        reqLength := chunk.length
        inBusy := true
        inFlightLen := chunk.length
        lastQueueLen := chunk.length
        streamKickCount := u.streamKickCount + 1
        lastKickRc := rc }
      if rc ≠ 0 then (-1, { u with inBusy := false, inFlightLen := 0 })
      else (0, { u with endpoint := some .chunk })

/-- A `gateway_usb_ping_packet_t` with the magic "PONG" and the payload "gateway-usb-pong". -/
def pongPacket (seqNo : UInt32) : Bytes :=
  [0x50, 0x4f, 0x4e, 0x47] ++ le32 seqNo ++ le32 16 ++
    [0x67, 0x61, 0x74, 0x65, 0x77, 0x61, 0x79, 0x2d,
      0x75, 0x73, 0x62, 0x2d, 0x70, 0x6f, 0x6e, 0x67] ++
    List.replicate 36 0

/-- `gateway_usb_send_pong`; `rc` is what `usb_ep_queue` returns if it is called. -/
def gatewayUsbSendPong (u : Usb) (seqNo : UInt32) (rc : Int) : Int × Usb :=
  if u.inBusy then (-1, u)
  else
    let u := { u with
      inBuf := pongPacket seqNo ++ List.replicate (usbInChunkSize - (pongPacket seqNo).length) 0
      reqLength := (pongPacket seqNo).length
      inBusy := true
      inFlightLen := 0 }
    if rc ≠ 0 then (-1, { u with inBusy := false })
    else (0, { u with txPackets := u.txPackets + 1, endpoint := some .pong })

/-- What `usb_ep_dequeue` does: its result, and whether it retires the request with an error
completion before it returns. -/
structure Dequeue where
  rc : Int
  completes : Bool

/-- `gateway_usb_in_complete` with an error, while `stream_resetting` is set. -/
def inCompleteResetting (u : Usb) : Usb :=
  { u with
    inCompleteCount := u.inCompleteCount + 1, inBusy := false, inFlightLen := 0
    streamResetting := false }

/-- `gateway_usb_reset_stream_session`, the dequeue of a queued request. -/
def dequeueIn (u : Usb) (dequeue : Dequeue) : Int × Usb :=
  if u.inBusy then
    let u := { u with streamResetting := true, endpoint := none }
    let u := if dequeue.completes then inCompleteResetting u else u
    (dequeue.rc, if dequeue.rc ≠ 0 then { u with streamResetting := false } else u)
  else (0, { u with streamResetting := false })

/-- `gateway_usb_reset_stream_session`. -/
def gatewayUsbResetStreamSession (u : Usb) (dequeue : Dequeue) : Usb :=
  let (rc, u) := dequeueIn u dequeue
  { gatewayUsbTxReset { u with
      inBusy := false, inFlightLen := 0, fifoFlushCount := u.fifoFlushCount + 1 } with
    lastKickRc := rc }

/-- `gateway_usb_in_complete` with status 0; `rc` is for the kick at its end. -/
def gatewayUsbInComplete (u : Usb) (actual : Nat) (rc : Int) : Usb :=
  let u := { u with
    inCompleteCount := u.inCompleteCount + 1, inBusy := false, endpoint := none }
  let u := if u.inFlightLen > 0 then
      let consumeLen := if 0 < actual ∧ actual < u.inFlightLen then actual else u.inFlightLen
      { u with tx := u.tx.gatewayUsbTxConsumeChunk consumeLen, inFlightLen := 0 }
    else u
  (gatewayUsbKickTx u rc).2

/-- `gateway_usb_in_complete` with an error. -/
def gatewayUsbInError (u : Usb) : Usb :=
  if u.streamResetting then { inCompleteResetting u with endpoint := none }
  else
    gatewayUsbResetStreamSession
      { u with
        inCompleteCount := u.inCompleteCount + 1, inErrorCount := u.inErrorCount + 1
        inBusy := false, inFlightLen := 0, endpoint := none }
      ⟨0, true⟩

/-! ## Sessions -/

/-- The media packets accepted between two resets, and the bytes the host got in transfers that
are not PONGs. -/
structure Session where
  accepted : List Bytes := []
  delivered : Bytes := []
  deriving DecidableEq, Repr

/-- The firmware, with the sessions so far. -/
structure UsbState where
  usb : Usb
  session : Session := {}
  past : List Session := []

inductive UsbEvent
  | enqueueInit
  | enqueueMedia (streamId : UInt8) (seqNo : UInt32) (payload : Bytes) (mallocOk : Bool)
  | kickTx (rc : Int)
  | sendPong (seqNo : UInt32) (rc : Int)
  /-- A successful completion. -/
  | inComplete (actual : Nat) (rc : Int)
  /-- A failed completion, `moved` bytes of the request having reached the host. -/
  | inError (moved : Nat)
  /-- `moved` bytes of a queued request have reached the host. -/
  | reset (dequeue : Dequeue) (moved : Nat)

/-- A media packet of the stream: its header and its encrypted payload. -/
def mediaPacket (ks : KeyStream) (streamId : UInt8) (seqNo : UInt32) (payload : Bytes) : Bytes :=
  let encrypted := if payload = [] then [] else
    packetBytes ks streamId seqNo gatewayUsbCryptoNonce payload
  gatewayProtoWriteMediaHeader
    { streamId := streamId
      flags := if streamId = streamVideo then gatewayVideoFlags payload else 0
      seqNo := seqNo
      payloadLen := UInt32.ofNat encrypted.length } ++ encrypted

/-- The INIT record of a stream. -/
def initRecord : Bytes := gatewayProtoWriteInit gatewayProtoDefaultInit

/-- The session after `n` bytes of the queued request reached the host. -/
def UsbState.deliver (s : UsbState) (n : Nat) : Session :=
  if s.usb.endpoint = some .chunk then
    { s.session with
      delivered := s.session.delivered ++ (s.usb.inBuf.take s.usb.reqLength).take n }
  else s.session

/-- One operation. A media packet is only enqueued after `gateway_usb_enqueue_init_packet` has
succeeded, with the size an `int` of its caller; a transfer with `0 < actual < length` moved
`actual` bytes, any other successful one the whole request. -/
def usbStep (ks : KeyStream) (s : UsbState) : UsbEvent → Option UsbState
  | .enqueueInit => some { s with usb := (gatewayUsbEnqueueInitPacket s.usb).2 }
  | .enqueueMedia streamId seqNo payload mallocOk =>
    if s.usb.protoInitSent ∧ cryptoStreamPacketSize payload.length < 2 ^ 31 then
      let (ok, usb) := gatewayUsbEnqueueMediaPacket ks s.usb streamId seqNo payload mallocOk
      let accepted := if ok then [mediaPacket ks streamId seqNo payload] else []
      some { s with
        usb := usb, session := { s.session with accepted := s.session.accepted ++ accepted } }
    else none
  | .kickTx rc => some { s with usb := (gatewayUsbKickTx s.usb rc).2 }
  | .sendPong seqNo rc => some { s with usb := (gatewayUsbSendPong s.usb seqNo rc).2 }
  | .inComplete actual rc =>
    if s.usb.endpoint = none then none
    else
      let moved := if 0 < actual ∧ actual < s.usb.reqLength then actual else s.usb.reqLength
      some { s with session := s.deliver moved, usb := gatewayUsbInComplete s.usb actual rc }
  | .inError moved =>
    if s.usb.endpoint = none ∨ s.usb.streamResetting then none
    else some { usb := gatewayUsbInError s.usb, session := {}, past := s.past ++ [s.deliver moved] }
  | .reset dequeue moved =>
    some { usb := gatewayUsbResetStreamSession s.usb dequeue, session := {}
           past := s.past ++ [s.deliver moved] }

/-- The stream of a session: the INIT record, once it was enqueued, and the accepted packets. -/
def Session.stream (initSent : Bool) (session : Session) : Bytes :=
  (if initSent then initRecord else []) ++ session.accepted.flatten

@[simp] theorem length_initRecord : initRecord.length = 16 := rfl

/-! ## Enqueueing -/

section
variable {u : Usb}

/-- A packet is appended to the ring whole, or only counted as dropped. -/
theorem enqueuePacket_cases {tx : TxRing} (h : tx.Ok) (pre payload : Bytes) :
    ∃ tx', tx'.Ok ∧
      ((tx.gatewayUsbTxEnqueuePacket pre payload = (true, tx') ∧
          tx'.contents = tx.contents ++ (pre ++ payload)) ∨
        (tx.gatewayUsbTxEnqueuePacket pre payload = (false, tx') ∧
          tx'.contents = tx.contents)) := by
  by_cases hfit : pre.length + payload.length ≤ txRingSize - tx.count
  · obtain ⟨tx', henq, hok, hcont⟩ := enqueuePacket_ok h hfit
    exact ⟨tx', hok, .inl ⟨henq, hcont⟩⟩
  · have hfull : txRingSize - tx.count < pre.length + payload.length := by omega
    exact ⟨{ tx with dropCount := tx.dropCount + 1 },
      ⟨h.size, h.head_lt, h.tail_lt, h.count_le, h.head_eq⟩, .inr ⟨enqueuePacket_full hfull, rfl⟩⟩

/-- After a successful `gateway_usb_enqueue_init_packet` the INIT record of the session is in its
stream; a failed one changes nothing but the ring's counters. -/
theorem enqueueInit_cases (h : u.tx.Ok) :
    (u.protoInitSent = true ∧ gatewayUsbEnqueueInitPacket u = (true, u)) ∨
    (u.protoInitSent = false ∧ ∃ tx', tx'.Ok ∧
      ((gatewayUsbEnqueueInitPacket u = (true, { u with tx := tx', protoInitSent := true }) ∧
          tx'.contents = u.tx.contents ++ initRecord) ∨
        (gatewayUsbEnqueueInitPacket u = (false, { u with tx := tx' }) ∧
          tx'.contents = u.tx.contents))) := by
  unfold gatewayUsbEnqueueInitPacket
  cases hsent : u.protoInitSent with
  | true => exact .inl ⟨rfl, by simp⟩
  | false =>
    obtain ⟨tx', hok, ⟨henq, hcont⟩ | ⟨henq, hcont⟩⟩ :=
      enqueuePacket_cases h (gatewayProtoWriteInit gatewayProtoDefaultInit) []
    · rw [List.append_nil] at hcont
      exact .inr ⟨rfl, tx', hok, .inl ⟨by simp [henq], hcont⟩⟩
    · exact .inr ⟨rfl, tx', hok, .inr ⟨by simp [henq], hcont⟩⟩

theorem encryptedPayload_eq {ks : KeyStream} {streamId : UInt8} {seqNo : UInt32} {payload : Bytes}
    {mallocOk : Bool} {encrypted : Bytes} (hsize : cryptoStreamPacketSize payload.length < 2 ^ 31)
    (h : encryptedPayload ks streamId seqNo payload mallocOk = some encrypted) :
    encrypted = if payload = [] then [] else
      packetBytes ks streamId seqNo gatewayUsbCryptoNonce payload := by
  unfold encryptedPayload at h
  by_cases hp : payload = []
  · subst hp
    rw [if_neg (by simp), Option.some.injEq] at h
    rw [if_pos rfl, h]
  · rw [if_pos (List.length_pos_of_ne_nil hp)] at h
    split at h
    · cases h
    · rw [cryptoStreamEncryptPacket_eq, toInt32_of_lt hsize] at h
      dsimp only at h
      rw [if_neg (by omega), Option.some.injEq, Int.toNat_natCast,
        List.take_of_length_le (by rw [length_packetBytes])] at h
      rw [if_neg hp, h]

/-- A media packet is appended whole or refused. -/
theorem enqueueMedia_cases (ks : KeyStream) (h : u.tx.Ok) (streamId : UInt8) (seqNo : UInt32)
    {payload : Bytes} (hsize : cryptoStreamPacketSize payload.length < 2 ^ 31) (mallocOk : Bool) :
    ∃ tx', tx'.Ok ∧
      ((gatewayUsbEnqueueMediaPacket ks u streamId seqNo payload mallocOk =
          (true, { u with tx := tx' }) ∧
          tx'.contents = u.tx.contents ++ mediaPacket ks streamId seqNo payload) ∨
        (gatewayUsbEnqueueMediaPacket ks u streamId seqNo payload mallocOk =
          (false, { u with tx := tx' }) ∧ tx'.contents = u.tx.contents)) := by
  unfold gatewayUsbEnqueueMediaPacket
  cases henc : encryptedPayload ks streamId seqNo payload mallocOk with
  | none => exact ⟨u.tx, h, .inr ⟨rfl, rfl⟩⟩
  | some encrypted =>
    have heq := encryptedPayload_eq hsize henc
    dsimp only
    generalize hhdr : gatewayProtoWriteMediaHeader _ = header
    obtain ⟨tx', hok, ⟨henq, hcont⟩ | ⟨henq, hcont⟩⟩ := enqueuePacket_cases h header encrypted
    · refine ⟨tx', hok, .inl ⟨by rw [henq], ?_⟩⟩
      rw [hcont, mediaPacket, ← heq, hhdr]
    · exact ⟨tx', hok, .inr ⟨by rw [henq], hcont⟩⟩

end

/-! ## The endpoint -/

/-- The request queued at the endpoint: a chunk is the front of the ring. -/
structure UsbOk (u : Usb) : Prop where
  tx : u.tx.Ok
  busy : u.inBusy = u.endpoint.isSome
  chunk : u.endpoint = some .chunk → 0 < u.inFlightLen ∧ u.inFlightLen = u.reqLength ∧
    u.reqLength ≤ u.tx.contents.length ∧ u.inBuf.take u.reqLength = u.tx.contents.take u.reqLength
  pong : u.endpoint = some .pong → u.inFlightLen = 0

/-- What the stream depends on is the same in both states. -/
structure SameStream (u u' : Usb) : Prop where
  tx : u'.tx = u.tx
  protoInitSent : u'.protoInitSent = u.protoInitSent
  streamResetting : u'.streamResetting = u.streamResetting
  configured : u'.configured = u.configured

section
variable {u : Usb}

theorem UsbOk.idle (h : UsbOk u) (hb : u.inBusy = false) : u.endpoint = none := by
  have := h.busy
  rw [hb] at this
  simpa using this.symm

/-- Kicking queues the front of the ring, or nothing. -/
theorem kickTx_ok (h : UsbOk u) (rc : Int) :
    UsbOk (gatewayUsbKickTx u rc).2 ∧ SameStream u (gatewayUsbKickTx u rc).2 := by
  unfold gatewayUsbKickTx
  split
  · exact ⟨h, rfl, rfl, rfl, rfl⟩
  rename_i hready
  have hidle : u.endpoint = none := h.idle (by simpa using (not_or.1 hready).2)
  rw [peekChunk_eq h.tx]
  dsimp only
  split
  · exact ⟨h, rfl, rfl, rfl, rfl⟩
  rename_i hne
  split
  · refine ⟨⟨h.tx, ?_, ?_, ?_⟩, rfl, rfl, rfl, rfl⟩
    · rw [hidle]; rfl
    · intro hq; rw [hidle] at hq; cases hq
    · intro _; rfl
  · refine ⟨⟨h.tx, rfl, fun _ => ⟨?_, rfl, ?_, ?_⟩, (fun hq => by cases hq)⟩, rfl, rfl, rfl, rfl⟩
    · exact Nat.pos_of_ne_zero hne
    · show (u.tx.contents.take usbInChunkSize).length ≤ u.tx.contents.length
      rw [List.length_take]
      omega
    · show List.take _ _ = u.tx.contents.take (u.tx.contents.take usbInChunkSize).length
      rw [List.take_left, List.length_take, ← List.take_eq_take_min]

theorem sendPong_ok (h : UsbOk u) (seqNo : UInt32) (rc : Int) :
    UsbOk (gatewayUsbSendPong u seqNo rc).2 ∧ SameStream u (gatewayUsbSendPong u seqNo rc).2 := by
  unfold gatewayUsbSendPong
  split
  · exact ⟨h, rfl, rfl, rfl, rfl⟩
  rename_i hready
  have hidle : u.endpoint = none := h.idle (by simpa using hready)
  dsimp only
  split
  · refine ⟨⟨h.tx, ?_, ?_, ?_⟩, rfl, rfl, rfl, rfl⟩
    · rw [hidle]; rfl
    · intro hq; rw [hidle] at hq; cases hq
    · exact fun _ => rfl
  · exact ⟨⟨h.tx, rfl, fun hq => (by cases hq), fun _ => rfl⟩, rfl, rfl, rfl, rfl⟩

/-- After a reset nothing is queued and the ring is empty. -/
structure ResetDone (u u' : Usb) : Prop where
  contents : u'.tx.contents = []
  protoInitSent : u'.protoInitSent = false
  inBusy : u'.inBusy = false
  endpoint : u'.endpoint = none
  configured : u'.configured = u.configured

theorem dequeueIn_ok (h : UsbOk u) (dequeue : Dequeue) :
    (dequeueIn u dequeue).2.tx = u.tx ∧ (dequeueIn u dequeue).2.endpoint = none ∧
      (dequeueIn u dequeue).2.configured = u.configured := by
  unfold dequeueIn
  by_cases hb : u.inBusy
  · rw [if_pos hb]
    cases hc : dequeue.completes <;> by_cases hrc : dequeue.rc = 0 <;>
      simp [hrc, inCompleteResetting]
  · rw [if_neg hb]
    exact ⟨rfl, h.idle (by simpa using hb), rfl⟩

theorem resetStreamSession_ok (h : UsbOk u) (dequeue : Dequeue) :
    UsbOk (gatewayUsbResetStreamSession u dequeue) ∧
      ResetDone u (gatewayUsbResetStreamSession u dequeue) := by
  obtain ⟨htx, hend, hconf⟩ := dequeueIn_ok h dequeue
  unfold gatewayUsbResetStreamSession
  generalize dequeueIn u dequeue = d at htx hend hconf
  refine ⟨⟨reset_ok (htx ▸ h.tx), ?_, ?_, fun _ => rfl⟩, contents_reset _, rfl, rfl, hend, hconf⟩
  · show false = d.2.endpoint.isSome
    rw [hend]; rfl
  · intro hq
    rw [show d.2.endpoint = some .chunk from hq] at hend
    cases hend

/-- A successful completion takes the bytes the host got off the ring, a PONG's none. -/
theorem inComplete_ok (h : UsbOk u) {kind : InKind} (hend : u.endpoint = some kind) (actual : Nat)
    (rc : Int) :
    let moved := if 0 < actual ∧ actual < u.reqLength then actual else u.reqLength
    let u' := gatewayUsbInComplete u actual rc
    UsbOk u' ∧
      u'.tx.contents = (if kind = .chunk then u.tx.contents.drop moved else u.tx.contents) ∧
      u'.protoInitSent = u.protoInitSent ∧ u'.streamResetting = u.streamResetting ∧
      u'.configured = u.configured := by
  intro moved u'
  unfold u' gatewayUsbInComplete
  dsimp only
  cases kind with
  | pong =>
    rw [if_neg (by rw [h.pong hend]; omega)]
    have hidle : UsbOk { u with
        inCompleteCount := u.inCompleteCount + 1, inBusy := false, endpoint := none } :=
      ⟨h.tx, rfl, (fun hq => by cases hq), (fun hq => by cases hq)⟩
    obtain ⟨hok, hsame⟩ := kickTx_ok hidle rc
    exact ⟨hok, by rw [hsame.tx]; rfl, hsame.protoInitSent, hsame.streamResetting, hsame.configured⟩
  | chunk =>
    obtain ⟨hpos, hlen, -, -⟩ := h.chunk hend
    rw [if_pos hpos]
    have hidle : UsbOk { u with
        inCompleteCount := u.inCompleteCount + 1, inBusy := false, endpoint := none
        tx := u.tx.gatewayUsbTxConsumeChunk
          (if 0 < actual ∧ actual < u.inFlightLen then actual else u.inFlightLen)
        inFlightLen := 0 } :=
      ⟨consumeChunk_ok h.tx _, rfl, (fun hq => by cases hq), (fun hq => by cases hq)⟩
    obtain ⟨hok, hsame⟩ := kickTx_ok hidle rc
    refine ⟨hok, ?_, hsame.protoInitSent, hsame.streamResetting, hsame.configured⟩
    rw [hsame.tx, consumeChunk_contents h.tx, hlen]
    rfl

theorem inError_ok (h : UsbOk u) (hr : u.streamResetting = false) :
    UsbOk (gatewayUsbInError u) ∧ ResetDone u (gatewayUsbInError u) := by
  rw [gatewayUsbInError, if_neg (by simp [hr])]
  have hidle : UsbOk { u with
      inCompleteCount := u.inCompleteCount + 1, inErrorCount := u.inErrorCount + 1
      inBusy := false, inFlightLen := 0, endpoint := none } :=
    ⟨h.tx, rfl, (fun hq => by cases hq), (fun hq => by cases hq)⟩
  obtain ⟨hok, hdone⟩ := resetStreamSession_ok hidle ⟨0, true⟩
  exact ⟨hok, hdone.contents, hdone.protoInitSent, hdone.inBusy, hdone.endpoint, hdone.configured⟩

end

/-! ## The invariant -/

/-- The host got a prefix of the session's stream. -/
def Session.Prefix (session : Session) : Prop :=
  session.delivered <+: initRecord ++ session.accepted.flatten

structure UsbInv (s : UsbState) : Prop where
  ok : UsbOk s.usb
  data : s.session.delivered ++ s.usb.tx.contents = s.session.stream s.usb.protoInitSent
  init : s.usb.protoInitSent = false → s.session.accepted = []
  past : ∀ session ∈ s.past, session.Prefix

section
variable {ks : KeyStream} {s s' : UsbState}

/-- The state after boot: nothing is enqueued or queued. -/
structure Fresh (u : Usb) : Prop where
  tx : u.tx.Ok
  contents : u.tx.contents = []
  protoInitSent : u.protoInitSent = false
  inBusy : u.inBusy = false
  endpoint : u.endpoint = none

theorem usbInv_fresh {u : Usb} (h : Fresh u) : UsbInv { usb := u } where
  ok := ⟨h.tx, by rw [h.inBusy, h.endpoint]; rfl, (fun hq => by rw [h.endpoint] at hq; cases hq),
    (fun hq => by rw [h.endpoint] at hq; cases hq)⟩
  data := by simp [h.contents, h.protoInitSent, Session.stream]
  init _ := rfl
  past := by simp

theorem UsbInv.stream_prefix (h : UsbInv s) :
    s.session.stream s.usb.protoInitSent <+: initRecord ++ s.session.accepted.flatten := by
  cases hsent : s.usb.protoInitSent with
  | true => exact List.prefix_rfl
  | false => simp [Session.stream, h.init hsent]

theorem UsbInv.deliver_prefix (h : UsbInv s) (n : Nat) : (s.deliver n).Prefix := by
  have hall := h.data ▸ h.stream_prefix
  unfold UsbState.deliver Session.Prefix
  split
  · rename_i hend
    obtain ⟨-, -, -, hbuf⟩ := h.ok.chunk hend
    dsimp only
    rw [hbuf, List.take_take]
    exact ((List.prefix_append_right_inj _).2 (List.take_prefix _ _)).trans hall
  · exact (List.prefix_append _ _).trans hall

theorem UsbInv.past_snoc (h : UsbInv s) (n : Nat) :
    ∀ session ∈ s.past ++ [s.deliver n], session.Prefix := by
  intro session hmem
  rcases List.mem_append.1 hmem with hmem | hmem
  · exact h.past session hmem
  · rw [List.mem_singleton.1 hmem]
    exact h.deliver_prefix n

theorem UsbInv.same (h : UsbInv s) {u : Usb} (hok : UsbOk u) (hsame : SameStream s.usb u) :
    UsbInv { s with usb := u } where
  ok := hok
  data := by rw [hsame.tx, hsame.protoInitSent]; exact h.data
  init hsent := h.init (hsame.protoInitSent ▸ hsent)
  past := h.past

theorem UsbInv.reset (h : UsbInv s) {u : Usb} (hok : UsbOk u) (hdone : ResetDone s.usb u)
    (n : Nat) : UsbInv { usb := u, session := {}, past := s.past ++ [s.deliver n] } where
  ok := hok
  data := by simp [hdone.contents, hdone.protoInitSent, Session.stream]
  init _ := rfl
  past := h.past_snoc n

/-- The ring grew by `bytes`: the request at the endpoint is still its front. -/
theorem UsbOk.enqueue {u : Usb} (h : UsbOk u) {tx' : TxRing} (htx : tx'.Ok) {bytes : Bytes}
    (hcont : tx'.contents = u.tx.contents ++ bytes) (sent : Bool) :
    UsbOk { u with tx := tx', protoInitSent := sent } := by
  refine ⟨htx, h.busy, ?_, h.pong⟩
  intro hq
  obtain ⟨hpos, hlen, hle, hbuf⟩ := h.chunk hq
  refine ⟨hpos, hlen, ?_, ?_⟩
  · rw [hcont, List.length_append]
    exact Nat.le_add_right_of_le hle
  · rw [hcont, List.take_append_of_le_length hle]
    exact hbuf

theorem usbInv_enqueueInit (h : UsbInv s) (hs : usbStep ks s .enqueueInit = some s') :
    UsbInv s' := by
  cases hs
  rcases enqueueInit_cases h.ok.tx with ⟨-, heq⟩ |
    ⟨hsent, tx', htx, ⟨heq, hcont⟩ | ⟨heq, hcont⟩⟩ <;> rw [heq]
  · exact h
  · refine ⟨h.ok.enqueue htx hcont true, ?_, fun hq => (by cases hq), h.past⟩
    have hdata := h.data
    rw [hsent, Session.stream, h.init hsent] at hdata
    show _ ++ tx'.contents = _
    rw [hcont, ← List.append_assoc, hdata, Session.stream, h.init hsent]
    simp
  · have hcont' : tx'.contents = s.usb.tx.contents ++ [] := by rw [hcont, List.append_nil]
    exact ⟨h.ok.enqueue htx hcont' _, by rw [hcont]; exact h.data, h.init, h.past⟩

theorem usbInv_enqueueMedia (h : UsbInv s) {streamId : UInt8} {seqNo : UInt32} {payload : Bytes}
    {mallocOk : Bool}
    (hs : usbStep ks s (.enqueueMedia streamId seqNo payload mallocOk) = some s') : UsbInv s' := by
  simp only [usbStep] at hs
  split at hs
  case isFalse => cases hs
  case isTrue hguard =>
  obtain ⟨hsent, hsize⟩ := hguard
  obtain ⟨tx', htx, ⟨heq, hcont⟩ | ⟨heq, hcont⟩⟩ :=
    enqueueMedia_cases ks h.ok.tx streamId seqNo hsize mallocOk
  · rw [heq] at hs
    cases hs
    refine ⟨h.ok.enqueue htx hcont _, ?_, ?_, h.past⟩
    · have hdata := h.data
      simp only [Session.stream, hsent, if_true] at hdata ⊢
      show _ ++ tx'.contents = _
      rw [hcont, ← List.append_assoc, hdata, List.flatten_append]
      simp
    · intro hq
      rw [show s.usb.protoInitSent = false from hq] at hsent
      cases hsent
  · rw [heq] at hs
    cases hs
    have hcont' : tx'.contents = s.usb.tx.contents ++ [] := by rw [hcont, List.append_nil]
    simp only [Bool.false_eq_true, if_false, List.append_nil]
    exact ⟨h.ok.enqueue htx hcont' _, by rw [hcont]; exact h.data, h.init, h.past⟩

theorem usbInv_inComplete (h : UsbInv s) {actual : Nat} {rc : Int}
    (hs : usbStep ks s (.inComplete actual rc) = some s') : UsbInv s' := by
  simp only [usbStep] at hs
  split at hs
  · cases hs
  rename_i hend
  obtain ⟨kind, hkind⟩ := Option.ne_none_iff_exists'.1 hend
  obtain ⟨hok, hcont, hsent, -, -⟩ := inComplete_ok h.ok hkind actual rc
  cases hs
  refine ⟨hok, ?_, ?_, h.past⟩
  · have hdata := h.data
    rw [hsent, hcont]
    cases kind with
    | pong =>
      simp only [UsbState.deliver, hkind, reduceCtorEq, if_false]
      exact hdata
    | chunk =>
      obtain ⟨-, -, -, hbuf⟩ := h.ok.chunk hkind
      have hmoved : (if 0 < actual ∧ actual < s.usb.reqLength then actual else s.usb.reqLength) ≤
          s.usb.reqLength := by split <;> omega
      generalize (if 0 < actual ∧ actual < s.usb.reqLength then actual else s.usb.reqLength) =
        moved at hmoved
      simp only [UsbState.deliver, hkind, if_true, hbuf, List.take_take, Nat.min_eq_left hmoved]
      rw [List.append_assoc, List.take_append_drop]
      exact hdata
  · intro hq
    have hinit := h.init (hsent ▸ hq)
    show (s.deliver _).accepted = []
    unfold UsbState.deliver
    split <;> exact hinit

/-- **Every operation keeps the invariant.** -/
theorem usbInv_step {e : UsbEvent} (h : UsbInv s) (hs : usbStep ks s e = some s') : UsbInv s' := by
  cases e with
  | enqueueInit => exact usbInv_enqueueInit h hs
  | enqueueMedia streamId seqNo payload mallocOk => exact usbInv_enqueueMedia h hs
  | kickTx rc =>
    cases hs
    obtain ⟨hok, hsame⟩ := kickTx_ok h.ok rc
    exact h.same hok hsame
  | sendPong seqNo rc =>
    cases hs
    obtain ⟨hok, hsame⟩ := sendPong_ok h.ok seqNo rc
    exact h.same hok hsame
  | inComplete actual rc => exact usbInv_inComplete h hs
  | inError moved =>
    simp only [usbStep] at hs
    split at hs
    · cases hs
    rename_i hready
    cases hs
    obtain ⟨hok, hdone⟩ := inError_ok h.ok (by simpa using (not_or.1 hready).2)
    exact h.reset hok hdone moved
  | reset dequeue moved =>
    cases hs
    obtain ⟨hok, hdone⟩ := resetStreamSession_ok h.ok dequeue
    exact h.reset hok hdone moved

/-- **The USB stream is intact.** In every run from boot, the bytes the host got between two
resets are a prefix of one INIT record and the packets accepted in between, each whole and in
order; and the rest of the current session's stream is in the ring. -/
theorem run_delivers {u : Usb} (hu : Fresh u) {es : List UsbEvent}
    (h : Run.run (usbStep ks) { usb := u } es = some s) :
    (∀ session ∈ s.past ++ [s.session],
      session.delivered <+: initRecord ++ session.accepted.flatten) ∧
      s.session.delivered ++ s.usb.tx.contents =
        (if s.usb.protoInitSent then initRecord else []) ++ s.session.accepted.flatten := by
  have hs : UsbInv s := Run.inv usbInv_step h (usbInv_fresh hu)
  refine ⟨?_, hs.data⟩
  intro session hmem
  rcases List.mem_append.1 hmem with hmem | hmem
  · exact hs.past session hmem
  · rw [List.mem_singleton.1 hmem]
    exact (List.prefix_append _ _).trans (hs.data ▸ hs.stream_prefix)

end

/-- The firmware after boot. -/
def bootUsb : Usb where
  tx := ⟨List.replicate txRingSize 0, 0, 0, 0, 0, 0, 0, 0⟩
  protoInitSent := false
  streamResetting := false
  configured := true
  inBusy := false
  inFlightLen := 0
  inBuf := []
  reqLength := 0
  lastQueueLen := 0
  lastKickRc := 0
  streamKickCount := 0
  txPackets := 0
  inCompleteCount := 0
  inErrorCount := 0
  fifoFlushCount := 0
  endpoint := none

theorem fresh_bootUsb : Fresh bootUsb where
  tx := ⟨List.length_replicate, txRingSize_pos, txRingSize_pos, Nat.zero_le _, rfl⟩
  contents := rfl
  protoInitSent := rfl
  inBusy := rfl
  endpoint := rfl

/-- A chunk with the INIT record and a media packet that completes short, and a reset. -/
def shortRun : List UsbEvent :=
  [.enqueueInit, .enqueueMedia 1 0 [0x65] true, .kickTx 0, .inComplete 20 0, .reset ⟨0, true⟩ 3]

theorem run_delivers_shortRun :
    ∃ s, Run.run (usbStep fun _ _ _ _ => 0) { usb := bootUsb } shortRun = some s ∧
      ∀ session ∈ s.past ++ [s.session],
        session.delivered <+: initRecord ++ session.accepted.flatten := by
  have h : (Run.run (usbStep fun _ _ _ _ => 0) { usb := bootUsb } shortRun).isSome := by rfl
  obtain ⟨s, hs⟩ := Option.isSome_iff_exists.1 h
  exact ⟨s, hs, (run_delivers fresh_bootUsb hs).1⟩

end Firmware
