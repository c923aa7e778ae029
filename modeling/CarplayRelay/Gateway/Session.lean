import CarplayRelay.CryptoInit
import CarplayRelay.Gateway.WsUpstreamClient
import CarplayRelay.Lib.Run
import CarplayRelay.Media

/-!
# The gateway as a relay (`gateway_session_main`)

The gateway writes an INIT record to its client. Then it takes the frames of the upstream
connection one at a time: a text frame may carry the server's nonce, and the media packet of a
binary frame is decrypted and written as a media header and the plaintext.
-/

namespace Gateway

open Bytes Crypto Media Proto Recv WsClient

/-- The locals of `gateway_session_main`; `running` is cleared where its loop breaks. `written` is
what was written to the client's socket, and `received`, which is not in the code, are the frames
received. -/
structure Session where
  prebuffer : Prebuffer
  nonce : NonceState
  written : Bytes
  running : Bool
  received : List (UInt8 × Bytes) := []

/-- What the calls of an iteration return: `headerSent` and `plaintextSent` are `none` where
`tcp_transport_write_all` returns 0, and the number of bytes it has written where it fails. -/
structure FrameCalls where
  payloadOk : Bool
  textOk : Bool
  decodedOk : Bool
  plaintextOk : Bool
  headerSent : Option Nat
  plaintextSent : Option Nat

/-- `tcp_transport_write_all` (`true` for 0), with what it writes. -/
def tcpTransportWriteAll (sent : Option Nat) (buf : Bytes) : Bool × Bytes :=
  match sent with
  | none => (true, buf)
  | some n => (false, buf.take n)

/-- `gateway_session_main`, the writes of a decrypted packet. -/
def writePacket (streamId : UInt8) (seqNo : UInt32) (plaintext : Bytes) (calls : FrameCalls) :
    Bool × Bytes :=
  let header := gatewayProtoWriteMediaHeader
    { streamId := streamId
      flags := if streamId = streamVideo then gatewayVideoFlags plaintext else 0
      seqNo := seqNo
      payloadLen := UInt32.ofNat plaintext.length }
  let (ok, bytes) := tcpTransportWriteAll calls.headerSent header
  if ¬ ok then (false, bytes)
  else
    let (ok, rest) := tcpTransportWriteAll calls.plaintextSent plaintext
    (ok, bytes ++ rest)

/-- `gateway_session_main`, a frame was received: `frame` is its opcode and its payload. -/
def relayFrame (ks : KeyStream) (cJSONParse : Bytes → Option Json) (s : Session)
    (frame : UInt8 × Bytes) (calls : FrameCalls) : Session :=
  if frame.1 = 1 then
    let (rc, nonce) :=
      gatewayParseCryptoInit cJSONParse calls.textOk calls.decodedOk frame.2 s.nonce
    { s with nonce := nonce, running := rc = 0 }
  else if frame.1 = 2 then
    if ¬ s.nonce.haveNonce then s
    else if ¬ calls.plaintextOk then { s with running := false }
    else
      match cryptoStreamDecryptPacket ks frame.2.length s.nonce.sessionNonce frame.2 with
      | none => { s with running := false }
      | some d =>
        if d.rc < 0 then { s with running := false }
        else
          let (ok, bytes) := writePacket d.streamId d.seqNo (d.plaintext.take d.rc.toNat) calls
          { s with written := s.written ++ bytes, running := ok }
  else if frame.1 = 8 then { s with running := false }
  else s

theorem relayFrame_received (ks : KeyStream) (cJSONParse : Bytes → Option Json) (s : Session)
    (frame : UInt8 × Bytes) (calls : FrameCalls) :
    (relayFrame ks cJSONParse s frame calls).received = s.received := by
  unfold relayFrame
  repeat' split
  all_goals rfl

inductive SessionEvent
  /-- The client's socket is readable, with the result of `tcp_transport_peek_status`. -/
  | client (status : Int)
  /-- The upstream socket is readable. -/
  | upstream (recvs : List Result) (calls : FrameCalls)

/-- What `select` reports in an iteration of the loop of `gateway_session_main`, one socket at a
time. -/
def sessionStep (ks : KeyStream) (cJSONParse : Bytes → Option Json) (s : Session) :
    SessionEvent → Option Session
  | .client status => if ¬ s.running then none else some { s with running := 1 < status }
  | .upstream recvs calls =>
    if ¬ s.running then none
    else
      match wsUpstreamRecvFrame calls.payloadOk (s.prebuffer, recvs) with
      | none => some { s with running := false }
      | some (frame, pre, _) =>
        some (relayFrame ks cJSONParse
          { s with prebuffer := pre, received := s.received ++ [frame] } frame calls)

/-- `gateway_session_main` when its loop starts: it is connected and the INIT record is written.
`session_nonce` is not initialised. -/
def newSession (prebuffer : Prebuffer) (junk : Nonce) : Session where
  prebuffer := prebuffer
  nonce := ⟨junk, false⟩
  written := gatewayProtoWriteInit gatewayProtoDefaultInit
  running := true

/-- No allocation and no write fails. -/
def SessionEvent.Calm : SessionEvent → Prop
  | .client _ => True
  | .upstream _ calls =>
    calls.textOk = true ∧ calls.decodedOk = true ∧ calls.plaintextOk = true ∧
      calls.headerSent = none ∧ calls.plaintextSent = none

instance : DecidablePred SessionEvent.Calm := fun e => by
  cases e <;> unfold SessionEvent.Calm <;> infer_instance

end Gateway
