import CarplayRelay.WsClient

/-!
# The gateway's WebSocket client (`ws_upstream_client.c`)

* `wsUpstreamConnect_streams`: behind a connect that returns 0 the stream goes on right after the
  response header.
-/

namespace Gateway

open Bytes Recv WsClient

/-- `ws_upstream_client_t`; `fd` is `none` for `TCP_TRANSPORT_INVALID_SOCKET`. -/
structure WsUpstreamClient where
  fd : Option Nat
  prebuffer : Prebuffer

/-- `ws_upstream_close`. -/
def wsUpstreamClose (c : WsUpstreamClient) : WsUpstreamClient :=
  { c with prebuffer := .null, fd := none }

/-- What the calls of a `ws_upstream_connect` return: `socket` is the result of
`tcp_transport_connect`, `recvs` is what the socket gives from then on. -/
structure ConnectCalls where
  socket : Option Nat
  writeOk : Bool
  recvs : List Result
  mallocOk : Bool

/-- `ws_upstream_connect`, on a path that is not `NULL`: its result, the client and what is left on
the socket. -/
def wsUpstreamConnect (host : Bytes) (port : UInt16) (path : Bytes) (calls : ConnectCalls) :
    Int × WsUpstreamClient × List Result :=
  let client : WsUpstreamClient := ⟨calls.socket, .null⟩
  match calls.socket with
  | none => (-1, client, calls.recvs)
  | some _ =>
    if requestSize ≤ (upgradeRequest path host port).length then
      (-1, wsUpstreamClose client, calls.recvs)
    else if ¬ calls.writeOk then (-1, wsUpstreamClose client, calls.recvs)
    else
      match handshake true 4096 [] calls.recvs with
      | none => (-1, wsUpstreamClose client, [])
      | some (extra, rs) =>
        if extra ≠ [] ∧ ¬ calls.mallocOk then (-1, wsUpstreamClose client, rs)
        else (0, { client with prebuffer := prebufferOf extra }, rs)

/-- `ws_read_some`: it reads again after `EINTR`. -/
def wsReadSome : Prebuffer × List Result → Nat → Option (Bytes × Prebuffer × List Result) :=
  readSome true

/-- `ws_upstream_recv_frame`, with a 64-bit `size_t`. -/
def wsUpstreamRecvFrame (mallocOk : Bool) (s : Prebuffer × List Result) :
    Option ((UInt8 × Bytes) × Prebuffer × List Result) :=
  WebSocket.recvFrame 64 wsReadSome mallocOk s

/-- Successive calls of `ws_upstream_recv_frame`. -/
def wsUpstreamRecvFrames : List Bool → Prebuffer × List Result →
    Option (List (UInt8 × Bytes) × Prebuffer × List Result) :=
  WebSocket.recvFrames 64 wsReadSome

/-- `ws_send_masked_frame`, with a 64-bit `size_t`; `mask` is what `crypto_stream_fill_random` fills
in, `none` if it fails. -/
def wsSendMaskedFrame (mask : Option WebSocket.Mask) (opcode : UInt8) (payload : Bytes)
    (calls : SendCalls) : Int × Bytes :=
  match mask with
  | none => (-1, [])
  | some mask => sendMaskedFrame mask opcode payload calls

section
variable {host path : Bytes} {port : UInt16} {calls : ConnectCalls} {client : WsUpstreamClient}
  {rs : List Result}

/-- A connect that returns 0: the handshake was accepted, and what came with it is the prebuffer. -/
theorem wsUpstreamConnect_ok (h : wsUpstreamConnect host port path calls = (0, client, rs)) :
    ∃ extra, handshake true 4096 [] calls.recvs = some (extra, rs) ∧
      client.prebuffer = prebufferOf extra := by
  unfold wsUpstreamConnect at h
  dsimp only at h
  split at h
  · cases h
  split at h
  · cases h
  split at h
  · cases h
  split at h
  · cases h
  rename_i extra rs' hshake
  split at h
  · cases h
  cases h
  exact ⟨extra, hshake, rfl⟩

/-- The stream behind a header goes on after a connect that returns 0. -/
theorem wsUpstreamConnect_streams {header stream : Bytes}
    (h : wsUpstreamConnect host port path calls = (0, client, rs)) (hh : Header header)
    (hsize : header.length ≤ 4095) (hdel : Delivers true calls.recvs (header ++ stream)) :
    Streams true (client.prebuffer, rs) stream := by
  have hfits : header.length < 4096 := by omega
  obtain ⟨extra, rs', tail, hshake, rfl, htail⟩ := handshake_header hh hfits hdel
  obtain ⟨extra', hshake', hpre⟩ := wsUpstreamConnect_ok h
  rw [hshake] at hshake'
  cases hshake'
  exact ⟨tail, by rw [hpre, pending_prebufferOf], htail⟩

end

end Gateway
