import CarplayRelay.WsClient

/-!
# The firmware's upstream connection (`gateway_upstream_*`)

`gateway_upstream_state_t` with the functions that open, read and close the connection.
`gateway_upstream_connect` is in two parts, since a new configuration may be installed while it
blocks: `openUpstream` from the snapshot of the configuration to the end of the handshake, and
`startStreams`, which sends the two start commands.

* `Reset`, `Consistent`: a state without a connection is fully reset (`consistent_connect`).
* `gatewayUpstreamConnect_streams`: behind a connect that returns 0 the stream goes on right after
  the response header.
-/

namespace Firmware

open Bytes Crypto Recv WsClient

/-! ## The code -/

/-- `gateway_upstream_state_t`; -1 is the `fd` of no connection. -/
structure UpstreamState where
  fd : Int
  prebuffer : Prebuffer
  connected : Bool
  nonce : NonceState

/-- `gateway_upstream_config_t`. -/
structure UpstreamConfig where
  host : Bytes
  path : Bytes
  port : UInt16
  valid : Bool
  seqNo : UInt32
  deriving DecidableEq, Repr

/-- No nonce. -/
def noNonce : NonceState := ⟨⟨List.replicate nonceSize 0, rfl⟩, false⟩

/-- `gateway_upstream_close`. -/
def gatewayUpstreamClose (s : UpstreamState) : UpstreamState :=
  { s with fd := -1, prebuffer := .null, connected := false, nonce := noNonce }

/-- What the calls of a `gateway_upstream_connect` return: `recvs` is what the socket gives, and
`videoOk` and `audioOk` are the outcomes of the two calls of `gateway_upstream_send_text`. -/
structure ConnectCalls where
  socket : Int
  addrOk : Bool
  connectOk : Bool
  writeOk : Bool
  recvs : List Result
  mallocOk : Bool
  videoOk : Bool
  audioOk : Bool

/-- `gateway_upstream_connect`, from the snapshot to the end of the handshake: its result so far,
the state and what is left on the socket. -/
def openUpstream (config : UpstreamConfig) (calls : ConnectCalls) (s : UpstreamState) :
    Int × UpstreamState × List Result :=
  if ¬ config.valid then (-1, s, calls.recvs)
  else if calls.socket < 0 ∨ ¬ calls.addrOk ∨ ¬ calls.connectOk then (-1, s, calls.recvs)
  else if requestSize ≤ (upgradeRequest config.path config.host config.port).length then
    (-1, s, calls.recvs)
  else if ¬ calls.writeOk then (-1, s, calls.recvs)
  else
    match handshake false 2048 [] calls.recvs with
    | none => (-1, s, [])
    | some (extra, rs) =>
      if extra ≠ [] ∧ ¬ calls.mallocOk then (-1, s, rs)
      else
        (0, { s with
          prebuffer := if extra = [] then s.prebuffer else prebufferOf extra
          fd := calls.socket
          connected := true }, rs)

/-- `gateway_upstream_connect`, the start commands. -/
def startStreams (calls : ConnectCalls) (s : UpstreamState) : Int × UpstreamState :=
  if ¬ calls.videoOk ∨ ¬ calls.audioOk then (-1, gatewayUpstreamClose s) else (0, s)

/-- `gateway_upstream_connect`, `config` being the snapshot. -/
def gatewayUpstreamConnect (config : UpstreamConfig) (calls : ConnectCalls) (s : UpstreamState) :
    Int × UpstreamState × List Result :=
  let (rc, s, rs) := openUpstream config calls { s with nonce := noNonce }
  if rc ≠ 0 then (rc, s, rs)
  else
    let (rc, s) := startStreams calls s
    (rc, s, rs)

/-- `gateway_upstream_read_some`: it fails on every error. -/
def gatewayUpstreamReadSome :
    Prebuffer × List Result → Nat → Option (Bytes × Prebuffer × List Result) :=
  readSome false

/-- `gateway_upstream_recv_frame`, with a 32-bit `size_t`. -/
def gatewayUpstreamRecvFrame (mallocOk : Bool) (s : Prebuffer × List Result) :
    Option ((UInt8 × Bytes) × Prebuffer × List Result) :=
  WebSocket.recvFrame 32 gatewayUpstreamReadSome mallocOk s

/-- Successive calls of `gateway_upstream_recv_frame`. -/
def gatewayUpstreamRecvFrames : List Bool → Prebuffer × List Result →
    Option (List (UInt8 × Bytes) × Prebuffer × List Result) :=
  WebSocket.recvFrames 32 gatewayUpstreamReadSome

/-- The mask of `gateway_upstream_send_masked_frame`. -/
def upstreamMask : WebSocket.Mask := ⟨[0x12, 0x34, 0x56, 0x78], rfl⟩

/-- `gateway_upstream_send_masked_frame`, of at most 65535 bytes: the length of a longer payload is
a 32-bit `size_t` that is shifted by 32 bits and more, which C leaves undefined. -/
def gatewayUpstreamSendMaskedFrame (opcode : UInt8) (payload : Bytes) (calls : SendCalls) :
    Int × Bytes :=
  sendMaskedFrame upstreamMask opcode payload calls

/-! ## The state without a connection -/

/-- There is no connection and nothing is left of the last one. -/
structure Reset (s : UpstreamState) : Prop where
  fd : s.fd = -1
  prebuffer : s.prebuffer = .null
  connected : s.connected = false
  nonce : s.nonce.haveNonce = false

/-- Either a connection with its socket, or none and a reset state. -/
def Consistent (s : UpstreamState) : Prop := (s.connected = true ∧ 0 ≤ s.fd) ∨ Reset s

section
variable {s : UpstreamState} {config : UpstreamConfig} {calls : ConnectCalls}

theorem reset_close (s : UpstreamState) : Reset (gatewayUpstreamClose s) := ⟨rfl, rfl, rfl, rfl⟩

theorem Consistent.reset (h : Consistent s) (hc : s.connected = false) : Reset s := by
  rcases h with ⟨hconn, -⟩ | h
  · rw [hc] at hconn
    cases hconn
  · exact h

theorem Consistent.connected_iff (h : Consistent s) : s.connected = true ↔ 0 ≤ s.fd := by
  rcases h with ⟨hconn, hfd⟩ | h
  · simp [hconn, hfd]
  · simp [h.connected, h.fd]

/-- The first part of a connect makes a connection without a nonce, or changes nothing. -/
theorem openUpstream_cases (config : UpstreamConfig) (calls : ConnectCalls) (s : UpstreamState) :
    ((openUpstream config calls s).1 ≠ 0 ∧ (openUpstream config calls s).2.1 = s) ∨
    ((openUpstream config calls s).1 = 0 ∧ (openUpstream config calls s).2.1.connected = true ∧
      0 ≤ (openUpstream config calls s).2.1.fd ∧
      (openUpstream config calls s).2.1.nonce = s.nonce) := by
  unfold openUpstream
  split
  · exact .inl ⟨by simp, rfl⟩
  split
  · exact .inl ⟨by simp, rfl⟩
  rename_i hsock
  split
  · exact .inl ⟨by simp, rfl⟩
  split
  · exact .inl ⟨by simp, rfl⟩
  split
  · exact .inl ⟨by simp, rfl⟩
  split
  · exact .inl ⟨by simp, rfl⟩
  · exact .inr ⟨rfl, rfl, not_lt.1 (not_or.1 hsock).1, rfl⟩

theorem startStreams_cases (calls : ConnectCalls) (s : UpstreamState) :
    ((startStreams calls s).1 ≠ 0 ∧ (startStreams calls s).2 = gatewayUpstreamClose s) ∨
      ((startStreams calls s).1 = 0 ∧ (startStreams calls s).2 = s) := by
  unfold startStreams
  split
  · exact .inl ⟨by simp, rfl⟩
  · exact .inr ⟨rfl, rfl⟩

/-- A connect in a reset state makes a connection without a nonce, or leaves a reset state. -/
theorem gatewayUpstreamConnect_cases (h : Reset s) :
    ((gatewayUpstreamConnect config calls s).1 ≠ 0 ∧
        Reset (gatewayUpstreamConnect config calls s).2.1) ∨
      ((gatewayUpstreamConnect config calls s).1 = 0 ∧
        (gatewayUpstreamConnect config calls s).2.1.connected = true ∧
        0 ≤ (gatewayUpstreamConnect config calls s).2.1.fd ∧
        (gatewayUpstreamConnect config calls s).2.1.nonce = noNonce) := by
  have hreset : Reset { s with nonce := noNonce } := ⟨h.fd, h.prebuffer, h.connected, rfl⟩
  have hopen := openUpstream_cases config calls { s with nonce := noNonce }
  unfold gatewayUpstreamConnect
  generalize openUpstream config calls { s with nonce := noNonce } = o at hopen
  obtain ⟨rc, s', rs⟩ := o
  dsimp only at hopen ⊢
  rcases hopen with ⟨hrc, rfl⟩ | ⟨rfl, hconn, hfd, hnonce⟩
  · rw [if_pos hrc]
    exact .inl ⟨hrc, hreset⟩
  · rw [if_neg (by simp)]
    rcases startStreams_cases calls s' with ⟨hrc, heq⟩ | ⟨hrc, heq⟩
    · exact .inl ⟨hrc, heq ▸ reset_close s'⟩
    · dsimp only
      rw [heq]
      exact .inr ⟨hrc, hconn, hfd, hnonce⟩

/-- A connect keeps the state consistent. -/
theorem consistent_connect (h : Reset s) :
    Consistent (gatewayUpstreamConnect config calls s).2.1 := by
  have hcases := @gatewayUpstreamConnect_cases s config calls h
  rcases hcases with ⟨-, hr⟩ | ⟨-, hconn, hfd, -⟩
  · exact .inr hr
  · exact .inl ⟨hconn, hfd⟩

/-- A handshake that is accepted: what came with it is the prebuffer. -/
theorem openUpstream_ok {s' : UpstreamState} {rs : List Result} (hnull : s.prebuffer = .null)
    (h : openUpstream config calls s = (0, s', rs)) :
    ∃ extra, handshake false 2048 [] calls.recvs = some (extra, rs) ∧
      s'.prebuffer.pending = extra := by
  unfold openUpstream at h
  split at h
  · cases h
  split at h
  · cases h
  split at h
  · cases h
  split at h
  · cases h
  split at h
  · cases h
  rename_i extra rs' hshake
  split at h
  · cases h
  cases h
  refine ⟨extra, hshake, ?_⟩
  dsimp only
  split
  · rename_i hnil
    rw [hnull, hnil]
    rfl
  · exact pending_prebufferOf extra

/-- A connect that returns 0 is a handshake that was accepted. -/
theorem gatewayUpstreamConnect_ok {s' : UpstreamState} {rs : List Result}
    (h : gatewayUpstreamConnect config calls s = (0, s', rs)) :
    openUpstream config calls { s with nonce := noNonce } = (0, s', rs) := by
  unfold gatewayUpstreamConnect at h
  generalize openUpstream config calls { s with nonce := noNonce } = o at h
  obtain ⟨rc, so, ro⟩ := o
  dsimp only at h
  split at h
  · rename_i hrc
    exact absurd (congrArg Prod.fst h) hrc
  · rename_i hrc
    rcases startStreams_cases calls so with ⟨hne, -⟩ | ⟨-, heq⟩
    · exact absurd (congrArg Prod.fst h) hne
    · rw [heq, Prod.mk.injEq, Prod.mk.injEq] at h
      obtain ⟨-, rfl, rfl⟩ := h
      rw [not_not.1 hrc]

/-- The stream behind a header goes on after a connect that returns 0. -/
theorem gatewayUpstreamConnect_streams {s' : UpstreamState} {rs : List Result}
    {header stream : Bytes} (hreset : Reset s)
    (h : gatewayUpstreamConnect config calls s = (0, s', rs)) (hh : Header header)
    (hsize : header.length ≤ 2047) (hdel : Delivers false calls.recvs (header ++ stream)) :
    Streams false (s'.prebuffer, rs) stream := by
  have hfits : header.length < 2048 := by omega
  obtain ⟨extra, rs', tail, hshake, rfl, htail⟩ := handshake_header hh hfits hdel
  obtain ⟨extra', hshake', hpending⟩ :=
    openUpstream_ok (s := { s with nonce := noNonce }) hreset.prebuffer
      (gatewayUpstreamConnect_ok h)
  rw [hshake] at hshake'
  cases hshake'
  exact ⟨tail, by rw [hpending], htail⟩

end

end Firmware
