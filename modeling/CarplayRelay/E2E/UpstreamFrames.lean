import CarplayRelay.Firmware.Connection
import CarplayRelay.Gateway.WsUpstreamClient

/-!
# The frames of an upstream connection

The server's bytes are a response header and frames. However the network cuts them, the gateway
and the firmware read the same frames.

* `upstream_frames`: after a connect that returns 0, successive receives return exactly the frames.
-/

namespace E2E

open Bytes WsClient WebSocket

section
variable {header rest : Bytes} {frames : List Frame}

theorem gateway_frames {host path : Bytes} {port : UInt16} {calls : Gateway.ConnectCalls}
    {client : Gateway.WsUpstreamClient} {rs : List Recv.Result}
    (h : Gateway.wsUpstreamConnect host port path calls = (0, client, rs)) (hh : Header header)
    (hsize : header.length ≤ 4095)
    (hdel : Recv.Delivers true calls.recvs (header ++ (encodeAll frames ++ rest))) :
    ∃ s, Gateway.wsUpstreamRecvFrames (frames.map fun _ => true) (client.prebuffer, rs) =
      some (frames.map fun f => (f.opcode, f.payload), s) ∧ Streams true s rest :=
  recvFrames_encodeAll (reads_readSome true) (by decide) frames
    (Gateway.wsUpstreamConnect_streams h hh hsize hdel)

theorem firmware_frames {config : Firmware.UpstreamConfig} {calls : Firmware.ConnectCalls}
    {s s' : Firmware.UpstreamState} {rs : List Recv.Result} (hreset : Firmware.Reset s)
    (h : Firmware.gatewayUpstreamConnect config calls s = (0, s', rs)) (hh : Header header)
    (hsize : header.length ≤ 2047)
    (hdel : Recv.Delivers false calls.recvs (header ++ (encodeAll frames ++ rest))) :
    ∃ s, Firmware.gatewayUpstreamRecvFrames (frames.map fun _ => true) (s'.prebuffer, rs) =
      some (frames.map fun f => (f.opcode, f.payload), s) ∧ Streams false s rest :=
  recvFrames_encodeAll (reads_readSome false) (by decide) frames
    (Firmware.gatewayUpstreamConnect_streams hreset h hh hsize hdel)

/-- **Decoding does not depend on how the stream is cut.** After a connect that returns 0, the
receives of the gateway return exactly the frames of the server, and nothing of the rest of the
stream is lost; and so do those of the firmware if the header is short enough for its buffer. -/
theorem upstream_frames {host path : Bytes} {port : UInt16} {calls : Gateway.ConnectCalls}
    {client : Gateway.WsUpstreamClient} {rs : List Recv.Result} (hh : Header header)
    (hsize : header.length ≤ 4095)
    (hdel : Recv.Delivers true calls.recvs (header ++ (encodeAll frames ++ rest)))
    (h : Gateway.wsUpstreamConnect host port path calls = (0, client, rs)) :
    (∃ s, Gateway.wsUpstreamRecvFrames (frames.map fun _ => true) (client.prebuffer, rs) =
      some (frames.map fun f => (f.opcode, f.payload), s) ∧ Streams true s rest) ∧
    (header.length ≤ 2047 → ∀ {config : Firmware.UpstreamConfig} {calls : Firmware.ConnectCalls}
      {s s' : Firmware.UpstreamState} {rs : List Recv.Result}, Firmware.Reset s →
      Recv.Delivers false calls.recvs (header ++ (encodeAll frames ++ rest)) →
      Firmware.gatewayUpstreamConnect config calls s = (0, s', rs) →
      ∃ s, Firmware.gatewayUpstreamRecvFrames (frames.map fun _ => true) (s'.prebuffer, rs) =
        some (frames.map fun f => (f.opcode, f.payload), s) ∧ Streams false s rest) :=
  ⟨gateway_frames h hh hsize hdel, fun hsize' _ _ _ _ _ hreset hdel' h' =>
    firmware_frames hreset h' hh hsize' hdel'⟩

end

/-- A response header. -/
def responseHeader : Bytes := ascii "HTTP/1.1 101 Switching Protocols\r\n\r\n"

theorem header_responseHeader : Header responseHeader := by
  refine ⟨?_, ?_, ?_⟩ <;> decide +kernel

/-- A masked text frame, and a binary frame with a long length. -/
def twoFrames : List Frame :=
  [⟨0x81, .short, some ⟨[1, 2, 3, 4], rfl⟩, [104, 105], by decide⟩,
   ⟨0x82, .long, none, [0, 1, 2], by decide⟩]

/-- The header and the frames, cut inside the header and inside the mask. -/
def chunks : List Bytes :=
  let stream := responseHeader ++ (encodeAll twoFrames ++ [])
  [stream.take 5, (stream.drop 5).take 36, stream.drop 41]

theorem delivers_chunks (retry : Bool) :
    Recv.Delivers retry (chunks.map .data) (responseHeader ++ (encodeAll twoFrames ++ [])) := by
  have hcut : chunks.flatten = responseHeader ++ (encodeAll twoFrames ++ []) := by decide +kernel
  have hne : ∀ c ∈ chunks, c ≠ [] := by decide +kernel
  exact hcut ▸ Recv.delivers_chunks retry hne

/-- Connects to a server that sends them. -/
def gatewayCalls : Gateway.ConnectCalls := ⟨some 3, true, chunks.map .data, true⟩

def firmwareCalls : Firmware.ConnectCalls :=
  ⟨3, true, true, true, chunks.map .data, true, true, true⟩

def config : Firmware.UpstreamConfig := ⟨ascii "10.0.0.1", ascii "/gateway", 8081, true, 1⟩

/-- The firmware's state before its first connect. -/
def idleUpstream : Firmware.UpstreamState := ⟨-1, .null, false, Firmware.noNonce⟩

theorem upstream_frames_twoFrames :
    (∃ client rs s, Gateway.wsUpstreamConnect config.host config.port config.path gatewayCalls =
      (0, client, rs) ∧ Gateway.wsUpstreamRecvFrames [true, true] (client.prebuffer, rs) =
        some ([(1, [104, 105]), (2, [0, 1, 2])], s)) ∧
    ∃ u rs s, Firmware.gatewayUpstreamConnect config firmwareCalls idleUpstream = (0, u, rs) ∧
      Firmware.gatewayUpstreamRecvFrames [true, true] (u.prebuffer, rs) =
        some ([(1, [104, 105]), (2, [0, 1, 2])], s) := by
  have hrc :
      (Gateway.wsUpstreamConnect config.host config.port config.path gatewayCalls).1 = 0 := by
    decide +kernel
  have hrc' : (Firmware.gatewayUpstreamConnect config firmwareCalls idleUpstream).1 = 0 := by
    decide +kernel
  generalize hconn : Gateway.wsUpstreamConnect config.host config.port config.path gatewayCalls = c
    at hrc
  generalize hconn' : Firmware.gatewayUpstreamConnect config firmwareCalls idleUpstream = c' at hrc'
  obtain ⟨rc, client, rs⟩ := c
  obtain ⟨rc', u, rs'⟩ := c'
  subst hrc hrc'
  have h := upstream_frames header_responseHeader (by decide +kernel) (delivers_chunks true) hconn
  obtain ⟨s, hs, -⟩ := h.1
  obtain ⟨s', hs', -⟩ := h.2 (by decide +kernel) ⟨rfl, rfl, rfl, rfl⟩ (delivers_chunks false) hconn'
  exact ⟨⟨client, rs, s, rfl, hs⟩, u, rs', s', rfl, hs'⟩

end E2E
