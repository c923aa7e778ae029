import CarplayRelay.Firmware.Connection
import CarplayRelay.Firmware.UsbStream

/-!
# The firmware as a relay (`gateway_upstream_poll`)

The firmware takes the frames of its upstream connection one at a time: a text frame may carry the
server's nonce, a binary frame is a media packet that is decrypted with it and enqueued for USB
under the USB nonce. Polls, connects and the operations of the USB stream interleave in any order
(`fwStep`).

* `run_relays`: a firmware that received the frames of a server (`Feed`), reset nothing and
  refused nothing has accepted exactly the packets of the binary frames, in order.
* `run_session_nonce`: a nonce is only used on the connection it was received on.
-/

namespace Firmware

open Bytes Crypto Media Proto TxRing

/-! ## The code -/

/-- The globals of the firmware that `gateway_upstream_poll` uses: `usbStarted`, `usbConfigured`
and `usbHostReady` are `gateway_usb_started`, `gateway_usb_configured` and
`gateway_usb_host_ready`. -/
structure Gateway where
  usb : Usb
  upstream : UpstreamState
  usbStarted : Bool
  usbConfigured : Bool
  usbHostReady : Bool

/-- What the allocations of a `gateway_upstream_poll` and its `usb_ep_queue` return. -/
structure PollCalls where
  payloadOk : Bool
  textOk : Bool
  decodedOk : Bool
  plaintextOk : Bool
  encryptedOk : Bool
  kickRc : Int

/-- The nonce that `gateway_upstream_poll` decrypts a binary frame with, `none` if it does not. -/
def decryptNonce (g : Gateway) : Option Nonce :=
  if g.upstream.nonce.haveNonce then some g.upstream.nonce.sessionNonce else none

/-- `gateway_upstream_poll`, a binary frame: the packet handed to the USB stream. -/
def decryptFrame (ks : KeyStream) (g : Gateway) (payload : Bytes) (plaintextOk : Bool) :
    Option Plain :=
  match decryptNonce g with
  | none => none
  | some n =>
    if ¬ plaintextOk then none
    else
      match cryptoStreamDecryptPacket ks payload.length n payload with
      | none => none
      | some d =>
        if 0 < d.rc ∧ g.usbStarted ∧ g.usbConfigured ∧ g.usbHostReady then
          some (d.streamId, d.seqNo, d.plaintext.take d.rc.toNat)
        else none

/-- `gateway_upstream_poll`, the packet is enqueued behind the INIT record; `true` if both calls
return 0. -/
def relayPacket (ks : KeyStream) (u : Usb) (p : Plain) (encryptedOk : Bool) (kickRc : Int) :
    Bool × Usb :=
  let (ok, u) := gatewayUsbEnqueueInitPacket u
  if ¬ ok then (false, u)
  else
    let (ok, u) := gatewayUsbEnqueueMediaPacket ks u p.1 p.2.1 p.2.2 encryptedOk
    if ¬ ok then (false, u) else (true, (gatewayUsbKickTx u kickRc).2)

/-- `gateway_upstream_poll`, a frame was received: `frame` is its opcode and its payload. -/
def relayFrame (ks : KeyStream) (cJSONParse : Bytes → Option Json) (g : Gateway)
    (frame : UInt8 × Bytes) (calls : PollCalls) : Gateway :=
  if frame.1 = 1 then
    { g with upstream := { g.upstream with nonce :=
      (gatewayParseCryptoInit cJSONParse calls.textOk calls.decodedOk frame.2
        g.upstream.nonce).2 } }
  else if frame.1 = 2 then
    match decryptFrame ks g frame.2 calls.plaintextOk with
    | none => g
    | some p => { g with usb := (relayPacket ks g.usb p calls.encryptedOk calls.kickRc).2 }
  else if frame.1 = 8 then { g with upstream := gatewayUpstreamClose g.upstream }
  else g

/-- `gateway_upstream_poll`, the frame that is received and the state behind it; `recvs` is what the
socket gives. -/
def receiveFrame (g : Gateway) (recvs : List Recv.Result) (calls : PollCalls) :
    Option (UInt8 × Bytes) × Gateway :=
  match gatewayUpstreamRecvFrame calls.payloadOk (g.upstream.prebuffer, recvs) with
  | none => (none, { g with upstream := gatewayUpstreamClose g.upstream })
  | some (frame, pre, _) =>
    (some frame, { g with upstream := { g.upstream with prebuffer := pre } })

/-- `gateway_upstream_poll` on a socket with data. -/
def gatewayUpstreamPoll (ks : KeyStream) (cJSONParse : Bytes → Option Json) (g : Gateway)
    (recvs : List Recv.Result) (calls : PollCalls) : Gateway :=
  if ¬ g.upstream.connected ∨ g.upstream.fd < 0 then g
  else
    match receiveFrame g recvs calls with
    | (none, g) => g
    | (some frame, g) => relayFrame ks cJSONParse g frame calls

/-! ## Runs of the firmware -/

/-- The firmware, with the sessions of its USB stream. The rest is not in the code: the frames
received on the current connection, the number of packets that were refused, and the packets that
were encrypted for USB. -/
structure FwState where
  gateway : Gateway
  session : Session := {}
  past : List Session := []
  received : List (UInt8 × Bytes) := []
  refused : Nat := 0
  encrypted : List Plain := []

/-- The USB stream of the firmware. -/
def FwState.usbState (s : FwState) : UsbState := ⟨s.gateway.usb, s.session, s.past⟩

inductive FwEvent
  /-- `gateway_upstream_poll`, its socket having data. -/
  | poll (recvs : List Recv.Result) (calls : PollCalls)
  /-- `gateway_upstream_connect`, which the task only calls without a connection. -/
  | connect (config : UpstreamConfig) (calls : ConnectCalls)
  /-- `gateway_upstream_close`, when a reconnect was requested. -/
  | close
  /-- Another operation of the USB stream. -/
  | usb (e : UsbEvent)

/-- No allocation fails, and no new connection is made. -/
def FwEvent.Calm : FwEvent → Prop
  | .poll _ calls =>
    calls.textOk = true ∧ calls.decodedOk = true ∧ calls.plaintextOk = true ∧
      calls.encryptedOk = true
  | .connect _ _ => False
  | .close | .usb _ => True

instance : DecidablePred FwEvent.Calm := fun e => by
  cases e <;> unfold FwEvent.Calm <;> infer_instance

/-- The media packet of a frame and whether it was accepted, `none` if it has none. -/
def relayed (ks : KeyStream) (g : Gateway) (calls : PollCalls) (frame : UInt8 × Bytes) :
    Option (Bool × Plain) :=
  if frame.1 = 2 then
    (decryptFrame ks g frame.2 calls.plaintextOk).map fun p =>
      ((relayPacket ks g.usb p calls.encryptedOk calls.kickRc).1, p)
  else none

/-- The packet accepted by a call of `gateway_upstream_poll`. -/
def acceptedPacket (ks : KeyStream) : Option (Bool × Plain) → List Bytes
  | some (true, p) => [mediaPacket ks p.1 p.2.1 p.2.2]
  | some (false, _) | none => []

/-- The number of packets refused by it. -/
def refusedPacket : Option (Bool × Plain) → Nat
  | some (false, _) => 1
  | some (true, _) | none => 0

/-- The packet that `gateway_usb_enqueue_media_packet` encrypts in it, also when the ring then
refuses it. -/
def encryptedPacket (u : Usb) (calls : PollCalls) : Option (Bool × Plain) → List Plain
  | some (_, p) =>
    if (gatewayUsbEnqueueInitPacket u).1 ∧ p.2.2 ≠ [] ∧ calls.encryptedOk then [p] else []
  | none => []

/-- `gateway_usb_enqueue_media_packet`, which only `gateway_upstream_poll` calls. -/
def isMedia : UsbEvent → Bool
  | .enqueueMedia _ _ _ _ => true
  | _ => false

/-- One operation. -/
def fwStep (ks : KeyStream) (cJSONParse : Bytes → Option Json) (s : FwState) :
    FwEvent → Option FwState
  | .poll recvs calls =>
    if ¬ s.gateway.upstream.connected ∨ s.gateway.upstream.fd < 0 then none
    else
      let (frame, g) := receiveFrame s.gateway recvs calls
      let outcome := frame.bind (relayed ks g calls)
      some { s with
        gateway := gatewayUpstreamPoll ks cJSONParse s.gateway recvs calls
        received := s.received ++ frame.toList
        session := { s.session with
          accepted := s.session.accepted ++ acceptedPacket ks outcome }
        refused := s.refused + refusedPacket outcome
        encrypted := s.encrypted ++ encryptedPacket g.usb calls outcome }
  | .connect config calls =>
    if s.gateway.upstream.connected then none
    else some { s with
      gateway := { s.gateway with
        upstream := (gatewayUpstreamConnect config calls s.gateway.upstream).2.1 }
      received := [] }
  | .close =>
    some { s with gateway := { s.gateway with
      upstream := gatewayUpstreamClose s.gateway.upstream } }
  | .usb e =>
    if isMedia e then none
    else (usbStep ks s.usbState e).map fun u =>
      { s with gateway := { s.gateway with usb := u.usb }, session := u.session, past := u.past }

/-! ## One packet -/

section
variable {ks : KeyStream} {s s' : UsbState}

/-- A packet is enqueued behind the INIT record, or refused. -/
theorem relayPacket_inv (h : UsbInv s) {p : Plain}
    (hsize : cryptoStreamPacketSize p.2.2.length < 2 ^ 31) (encryptedOk : Bool) (kickRc : Int) :
    let r := relayPacket ks s.usb p encryptedOk kickRc
    UsbInv ⟨r.2, { s.session with accepted := s.session.accepted ++
      if r.1 then [mediaPacket ks p.1 p.2.1 p.2.2] else [] }, s.past⟩ := by
  have hinit : UsbInv { s with usb := (gatewayUsbEnqueueInitPacket s.usb).2 } := by
    have hstep : usbStep ks s .enqueueInit =
      some { s with usb := (gatewayUsbEnqueueInitPacket s.usb).2 } := rfl
    exact usbInv_step h hstep
  have hsent : (gatewayUsbEnqueueInitPacket s.usb).1 = true →
      (gatewayUsbEnqueueInitPacket s.usb).2.protoInitSent = true := by
    rcases enqueueInit_cases h.ok.tx with ⟨hsent, heq⟩ |
      ⟨-, tx', -, ⟨heq, -⟩ | ⟨heq, -⟩⟩ <;> rw [heq]
    · exact fun _ => hsent
    · exact fun _ => rfl
    · rintro ⟨⟩
  unfold relayPacket
  generalize gatewayUsbEnqueueInitPacket s.usb = i at hinit hsent
  obtain ⟨ok, u⟩ := i
  cases ok with
  | false => simpa using hinit
  | true =>
    have hmedia : UsbInv ⟨(gatewayUsbEnqueueMediaPacket ks u p.1 p.2.1 p.2.2 encryptedOk).2,
        { s.session with accepted := s.session.accepted ++
          if (gatewayUsbEnqueueMediaPacket ks u p.1 p.2.1 p.2.2 encryptedOk).1 then
            [mediaPacket ks p.1 p.2.1 p.2.2] else [] }, s.past⟩ :=
      usbInv_step (e := .enqueueMedia p.1 p.2.1 p.2.2 encryptedOk) hinit
        (if_pos ⟨hsent rfl, hsize⟩)
    dsimp only
    generalize gatewayUsbEnqueueMediaPacket ks u p.1 p.2.1 p.2.2 encryptedOk = m at hmedia
    obtain ⟨ok, u⟩ := m
    cases ok with
    | false => simpa using hmedia
    | true => exact @usbInv_step ks _ _ (.kickTx kickRc) hmedia rfl

/-- An operation that enqueues no packet keeps the accepted ones, or resets the stream. -/
theorem usbStep_accepted {e : UsbEvent} (hs : usbStep ks s e = some s')
    (he : isMedia e = false) :
    (s'.past = s.past ∧ s'.session.accepted = s.session.accepted) ∨ s'.past ≠ [] := by
  cases e with
  | enqueueMedia => cases he
  | enqueueInit | kickTx | sendPong =>
    cases hs
    exact .inl ⟨rfl, rfl⟩
  | inComplete actual rc =>
    simp only [usbStep, Option.ite_none_left_eq_some, Option.some.injEq] at hs
    obtain ⟨-, rfl⟩ := hs
    refine .inl ⟨rfl, ?_⟩
    show (s.deliver _).accepted = s.session.accepted
    unfold UsbState.deliver
    split <;> rfl
  | inError moved =>
    simp only [usbStep, Option.ite_none_left_eq_some, Option.some.injEq] at hs
    obtain ⟨-, rfl⟩ := hs
    exact .inr (by simp)
  | reset dequeue moved =>
    cases hs
    exact .inr (by simp)

end

/-! ## The frames of a server -/

/-- The frames of a server with the session nonce `n`: its `crypto_init` text, and behind it binary
frames, each a packet of a size that is an `int`. -/
structure Feed (ks : KeyStream) (n : Nonce) (frames : List (UInt8 × Bytes)) : Prop where
  text : ∀ t, (1, t) ∈ frames → t = cryptoInitText n
  binary : ∀ b, (2, b) ∈ frames → ∃ p : Plain, b = packetBytes ks p.1 p.2.1 n p.2.2 ∧
    p.2.2 ≠ [] ∧ cryptoStreamPacketSize p.2.2.length < 2 ^ 31
  first : ∀ pre post b, frames = pre ++ (2, b) :: post → ∃ t, (1, t) ∈ pre

/-- The media packet of a frame. -/
def framePlain (ks : KeyStream) (n : Nonce) (frame : UInt8 × Bytes) : Option Plain :=
  if frame.1 = 2 then
    (cryptoStreamDecryptPacket ks frame.2.length n frame.2).map fun d =>
      (d.streamId, d.seqNo, d.plaintext.take d.rc.toNat)
  else none

/-- The stream of the packets `plains`. -/
def usbPackets (ks : KeyStream) (plains : List Plain) : List Bytes :=
  plains.map fun p => mediaPacket ks p.1 p.2.1 p.2.2

section
variable {ks : KeyStream} {n : Nonce} {p : Plain}

theorem decryptPacket_plain (hsize : cryptoStreamPacketSize p.2.2.length < 2 ^ 31) :
    cryptoStreamDecryptPacket ks (packetBytes ks p.1 p.2.1 n p.2.2).length n
      (packetBytes ks p.1 p.2.1 n p.2.2) = some ⟨p.2.2.length, p.1, p.2.1, p.2.2⟩ := by
  have hlt : p.2.2.length < 2 ^ 31 := by
    unfold cryptoStreamPacketSize at hsize
    omega
  rw [decryptPacket_encryptPacket, toInt32_of_lt hlt]
  rw [length_packetBytes]
  exact Nat.le_add_left _ _

theorem framePlain_packet (hsize : cryptoStreamPacketSize p.2.2.length < 2 ^ 31) :
    framePlain ks n (2, packetBytes ks p.1 p.2.1 n p.2.2) = some p := by
  rw [framePlain, if_pos rfl, decryptPacket_plain hsize]
  simp

theorem decryptFrame_packet {g : Gateway} (hn : g.upstream.nonce = ⟨n, true⟩)
    (hready : g.usbStarted ∧ g.usbConfigured ∧ g.usbHostReady) (hne : p.2.2 ≠ [])
    (hsize : cryptoStreamPacketSize p.2.2.length < 2 ^ 31) :
    decryptFrame ks g (packetBytes ks p.1 p.2.1 n p.2.2) true = some p := by
  have hnonce : decryptNonce g = some n := by simp [decryptNonce, hn]
  rw [decryptFrame, hnonce]
  dsimp only
  rw [if_neg (by simp), decryptPacket_plain hsize]
  simp [hready, hne]

end

/-! ## Steps -/

section
variable {ks : KeyStream} {cJSONParse : Bytes → Option Json} {s s' : FwState}

/-- The state after a frame was received; `g` is the gateway when it is handled. -/
structure Receives (ks : KeyStream) (cJSONParse : Bytes → Option Json) (s : FwState) (g : Gateway)
    (frame : UInt8 × Bytes) (calls : PollCalls) (s' : FwState) : Prop where
  gateway : s'.gateway = relayFrame ks cJSONParse g frame calls
  received : s'.received = s.received ++ [frame]
  session : s'.session = { s.session with
    accepted := s.session.accepted ++ acceptedPacket ks (relayed ks g calls frame) }
  past : s'.past = s.past
  refused : s'.refused = s.refused + refusedPacket (relayed ks g calls frame)
  encrypted : s'.encrypted =
    s.encrypted ++ encryptedPacket g.usb calls (relayed ks g calls frame)

/-- A poll receives a frame, or closes the connection. -/
theorem fwStep_poll {recvs : List Recv.Result} {calls : PollCalls}
    (h : fwStep ks cJSONParse s (.poll recvs calls) = some s') :
    s.gateway.upstream.connected = true ∧
      (s' = { s with gateway := { s.gateway with
          upstream := gatewayUpstreamClose s.gateway.upstream } } ∨
        ∃ frame pre, Receives ks cJSONParse s
          { s.gateway with upstream := { s.gateway.upstream with prebuffer := pre } } frame calls
          s') := by
  simp only [fwStep, Option.ite_none_left_eq_some, Option.some.injEq] at h
  obtain ⟨hready, rfl⟩ := h
  refine ⟨not_not.1 (not_or.1 hready).1, ?_⟩
  have hpoll : gatewayUpstreamPoll ks cJSONParse s.gateway recvs calls =
      match receiveFrame s.gateway recvs calls with
      | (none, g) => g
      | (some frame, g) => relayFrame ks cJSONParse g frame calls := if_neg hready
  rw [hpoll]
  cases hrecv : gatewayUpstreamRecvFrame calls.payloadOk (s.gateway.upstream.prebuffer, recvs) with
  | none =>
    have hnone : receiveFrame s.gateway recvs calls = (none, { s.gateway with
        upstream := gatewayUpstreamClose s.gateway.upstream }) := by rw [receiveFrame, hrecv]
    rw [hnone]
    exact .inl (by simp [acceptedPacket, refusedPacket, encryptedPacket])
  | some r =>
    obtain ⟨frame, pre, rs⟩ := r
    have hsome : receiveFrame s.gateway recvs calls = (some frame, { s.gateway with
        upstream := { s.gateway.upstream with prebuffer := pre } }) := by rw [receiveFrame, hrecv]
    rw [hsome]
    exact .inr ⟨frame, pre, rfl, rfl, rfl, rfl, rfl, rfl⟩

theorem fwStep_usb {e : UsbEvent} (h : fwStep ks cJSONParse s (.usb e) = some s') :
    isMedia e = false ∧ ∃ u, usbStep ks s.usbState e = some u ∧
      s' = { s with
        gateway := { s.gateway with usb := u.usb }, session := u.session, past := u.past } := by
  simp only [fwStep, Option.ite_none_left_eq_some] at h
  obtain ⟨he, h⟩ := h
  obtain ⟨u, hu, rfl⟩ := Option.map_eq_some_iff.1 h
  exact ⟨by simpa using he, u, hu, rfl⟩

theorem relayFrame_packet {g : Gateway} {b : Bytes} {p : Plain} {calls : PollCalls}
    (h : decryptFrame ks g b calls.plaintextOk = some p) :
    relayFrame ks cJSONParse g (2, b) calls =
      { g with usb := (relayPacket ks g.usb p calls.encryptedOk calls.kickRc).2 } := by
  simp only [relayFrame]
  rw [if_neg (by decide), if_pos trivial, h]

theorem relayFrame_other {g : Gateway} {frame : UInt8 × Bytes} (h1 : frame.1 ≠ 1)
    (h2 : frame.1 ≠ 2) (calls : PollCalls) :
    relayFrame ks cJSONParse g frame calls = g ∨ relayFrame ks cJSONParse g frame calls =
      { g with upstream := gatewayUpstreamClose g.upstream } := by
  unfold relayFrame
  rw [if_neg h1, if_neg h2]
  split
  · exact .inr rfl
  · exact .inl rfl

end

/-! ## Clean runs -/

/-- So far the firmware received a part of `frames`, refused nothing and reset nothing. -/
structure Clean (frames : List (UInt8 × Bytes)) (s : FwState) : Prop where
  received : s.received <+: frames
  refused : s.refused = 0
  past : s.past = []

structure FwInv (ks : KeyStream) (n : Nonce) (s : FwState) : Prop where
  usb : UsbInv s.usbState
  ready : s.gateway.usbStarted ∧ s.gateway.usbConfigured ∧ s.gateway.usbHostReady
  nonce : s.gateway.upstream.connected = true → ∀ t, (1, t) ∈ s.received →
    s.gateway.upstream.nonce = ⟨n, true⟩
  accepted : s.session.accepted = usbPackets ks (s.received.filterMap (framePlain ks n))

section
variable {ks : KeyStream} {cJSONParse : Bytes → Option Json} {n : Nonce}
  {frames : List (UInt8 × Bytes)} {s s' : FwState} {g : Gateway} {calls : PollCalls}

/-- A clean run was clean before its last step. -/
theorem Clean.before {e : FwEvent} (he : e.Calm) (hs : fwStep ks cJSONParse s e = some s')
    (h : Clean frames s') : Clean frames s := by
  obtain ⟨hrec, href, hpast⟩ := h
  cases e with
  | poll recvs calls =>
    obtain ⟨-, rfl | ⟨frame, pre, hr⟩⟩ := fwStep_poll hs
    · exact ⟨hrec, href, hpast⟩
    · rw [hr.received] at hrec
      rw [hr.refused] at href
      exact ⟨(List.prefix_append _ _).trans hrec, Nat.eq_zero_of_add_eq_zero_right href,
        hr.past ▸ hpast⟩
  | connect config calls => exact he.elim
  | close =>
    cases hs
    exact ⟨hrec, href, hpast⟩
  | usb e =>
    obtain ⟨he, u, hu, rfl⟩ := fwStep_usb hs
    rcases usbStep_accepted hu he with ⟨hp, -⟩ | hp
    · exact ⟨hrec, href, hp.symm.trans hpast⟩
    · exact absurd hpast hp

/-- A frame is handled without a USB packet. -/
theorem FwInv.unrelayed {frame : UInt8 × Bytes} (h : FwInv ks n s)
    (hr : Receives ks cJSONParse s g frame calls s') (hf : frame.1 ≠ 2)
    (hg : s'.gateway.usb = s.gateway.usb ∧ s'.gateway.usbStarted = s.gateway.usbStarted ∧
      s'.gateway.usbConfigured = s.gateway.usbConfigured ∧
      s'.gateway.usbHostReady = s.gateway.usbHostReady)
    (hnonce : s'.gateway.upstream.connected = true → ∀ t, (1, t) ∈ s'.received →
      s'.gateway.upstream.nonce = ⟨n, true⟩) : FwInv ks n s' := by
  have hrel : relayed ks g calls frame = none := if_neg hf
  have hsession : s'.session = s.session := by simp [hr.session, hrel, acceptedPacket]
  obtain ⟨husb, hst, hcf, hrd⟩ := hg
  exact {
    usb := by
      have heq : s'.usbState = s.usbState := by
        simp only [FwState.usbState, husb, hsession, hr.past]
      rw [heq]
      exact h.usb
    ready := by rw [hst, hcf, hrd]; exact h.ready
    nonce := hnonce
    accepted := by
      rw [hsession, hr.received, h.accepted]
      simp [framePlain, hf] }

theorem fwInv_text (hparse : ParsesCryptoInit cJSONParse) {pre : WsClient.Prebuffer}
    (h : FwInv ks n s) (hc : calls.textOk = true ∧ calls.decodedOk = true)
    (hr : Receives ks cJSONParse s
      { s.gateway with upstream := { s.gateway.upstream with prebuffer := pre } }
      (1, cryptoInitText n) calls s') : FwInv ks n s' := by
  have hg := hr.gateway
  simp only [relayFrame, if_true, hc, gatewayParseCryptoInit_text hparse] at hg
  have hkind : (1 : UInt8) ≠ 2 := by decide
  refine h.unrelayed hr hkind (by rw [hg]; exact ⟨rfl, rfl, rfl, rfl⟩) fun _ _ _ => ?_
  rw [hg]

/-- A binary frame is enqueued: it is not the first one and was not refused. -/
theorem fwInv_binary {p : Plain} {pre : WsClient.Prebuffer} (h : FwInv ks n s) (hne : p.2.2 ≠ [])
    (hsize : cryptoStreamPacketSize p.2.2.length < 2 ^ 31) (htext : ∃ t, (1, t) ∈ s.received)
    (hconn : s.gateway.upstream.connected = true) (hc : calls.plaintextOk = true)
    (hr : Receives ks cJSONParse s
      { s.gateway with upstream := { s.gateway.upstream with prebuffer := pre } }
      (2, packetBytes ks p.1 p.2.1 n p.2.2) calls s') (href : s'.refused = 0) :
    FwInv ks n s' := by
  obtain ⟨t, ht⟩ := htext
  obtain ⟨hgateway, hreceived, hsession, hpast, hrefused, -⟩ := hr
  have hnonce := h.nonce hconn t ht
  generalize hgd : ({ s.gateway with upstream :=
    { s.gateway.upstream with prebuffer := pre } } : Gateway) = g at hgateway hsession hrefused
  have hg : g.upstream.nonce = ⟨n, true⟩ := by rw [← hgd]; exact hnonce
  have husb : g.usb = s.gateway.usb := by rw [← hgd]
  have hready : g.usbStarted ∧ g.usbConfigured ∧ g.usbHostReady := by rw [← hgd]; exact h.ready
  have hdec : decryptFrame ks g (packetBytes ks p.1 p.2.1 n p.2.2) calls.plaintextOk = some p := by
    rw [hc]
    exact decryptFrame_packet hg hready hne hsize
  have hplain : framePlain ks n (2, packetBytes ks p.1 p.2.1 n p.2.2) = some p :=
    framePlain_packet hsize
  have hinv : UsbInv ⟨(relayPacket ks g.usb p calls.encryptedOk calls.kickRc).2,
      { s.session with accepted := s.session.accepted ++
        if (relayPacket ks g.usb p calls.encryptedOk calls.kickRc).1 then
          [mediaPacket ks p.1 p.2.1 p.2.2] else [] }, s.past⟩ := by
    rw [husb]
    exact relayPacket_inv h.usb hsize calls.encryptedOk calls.kickRc
  have hrel : relayed ks g calls (2, packetBytes ks p.1 p.2.1 n p.2.2) =
      some ((relayPacket ks g.usb p calls.encryptedOk calls.kickRc).1, p) := by
    simp [relayed, hdec]
  rw [relayFrame_packet hdec] at hgateway
  rw [hrel] at hsession hrefused
  generalize relayPacket ks g.usb p calls.encryptedOk calls.kickRc = r at *
  obtain ⟨ok, u⟩ := r
  cases ok with
  | false =>
    rw [href] at hrefused
    simp [refusedPacket] at hrefused
  | true =>
    exact {
      usb := by
        rw [FwState.usbState, hgateway, hsession, hpast]
        exact hinv
      ready := by rw [hgateway]; exact hready
      nonce _ _ _ := by rw [hgateway]; exact hg
      accepted := by
        rw [hsession, hreceived]
        simp [h.accepted, usbPackets, acceptedPacket, hplain] }

/-- A frame of no kind the firmware relays. -/
theorem fwInv_other {frame : UInt8 × Bytes} {pre : WsClient.Prebuffer} (h : FwInv ks n s)
    (h1 : frame.1 ≠ 1) (h2 : frame.1 ≠ 2)
    (hr : Receives ks cJSONParse s
      { s.gateway with upstream := { s.gateway.upstream with prebuffer := pre } } frame calls s') :
    FwInv ks n s' := by
  have hmem : ∀ t, (1, t) ∈ s'.received → (1, t) ∈ s.received := by
    intro t ht
    rw [hr.received, List.mem_append, List.mem_singleton] at ht
    exact ht.resolve_right fun he => h1 (by rw [← he])
  have hg := hr.gateway
  have hother := @relayFrame_other ks cJSONParse { s.gateway with upstream :=
    { s.gateway.upstream with prebuffer := pre } } frame h1 h2 calls
  rcases hother with heq | heq <;> rw [heq] at hg
  · apply h.unrelayed hr h2 (by rw [hg]; exact ⟨rfl, rfl, rfl, rfl⟩)
    intro hconn t ht
    rw [hg] at hconn ⊢
    exact h.nonce hconn t (hmem t ht)
  · apply h.unrelayed hr h2 (by rw [hg]; exact ⟨rfl, rfl, rfl, rfl⟩)
    intro hconn
    rw [hg] at hconn
    cases hconn

theorem fwInv_usb (h : FwInv ks n s) {e : UsbEvent}
    (hs : fwStep ks cJSONParse s (.usb e) = some s') (hpast : s'.past = []) : FwInv ks n s' := by
  obtain ⟨he, u, hu, rfl⟩ := fwStep_usb hs
  have husb := usbInv_step h.usb hu
  rcases usbStep_accepted hu he with ⟨-, hacc⟩ | hp
  · exact ⟨husb, h.ready, h.nonce, hacc.trans h.accepted⟩
  · exact absurd hpast hp

/-- Every step of a clean run keeps the invariant. -/
theorem fwInv_step (hparse : ParsesCryptoInit cJSONParse) (hfeed : Feed ks n frames) {e : FwEvent}
    (h : Clean frames s → FwInv ks n s) (he : e.Calm)
    (hs : fwStep ks cJSONParse s e = some s') (hclean : Clean frames s') : FwInv ks n s' := by
  have hinv := h (hclean.before he hs)
  cases e with
  | connect config calls => exact he.elim
  | close =>
    cases hs
    exact ⟨hinv.usb, hinv.ready, nofun, hinv.accepted⟩
  | usb e => exact fwInv_usb hinv hs hclean.past
  | poll recvs calls =>
    obtain ⟨htext, hdec, hplain, -⟩ := he
    obtain ⟨hconn, rfl | ⟨⟨op, b⟩, pre, hr⟩⟩ := fwStep_poll hs
    · exact ⟨hinv.usb, hinv.ready, nofun, hinv.accepted⟩
    have hpre := hr.received ▸ hclean.received
    have hmem : (op, b) ∈ frames := hpre.subset (by simp)
    by_cases h1 : op = 1
    · subst h1
      rw [hfeed.text b hmem] at hr
      exact fwInv_text hparse hinv ⟨htext, hdec⟩ hr
    by_cases h2 : op = 2
    · subst h2
      obtain ⟨p, rfl, hne, hsize⟩ := hfeed.binary b hmem
      obtain ⟨post, hpost⟩ := hpre
      have hfirst := hfeed.first s.received post (packetBytes ks p.1 p.2.1 n p.2.2)
        (by rw [← hpost, List.append_assoc]; rfl)
      exact fwInv_binary hinv hne hsize hfirst hconn hplain hr hclean.refused
    · exact fwInv_other hinv h1 h2 hr

/-- **The firmware relays every packet**: if it received the frames of a server and in the run no
allocation failed, no packet was refused and the stream was not reset, the accepted packets of the
session are those of the frames. -/
theorem run_relays (hparse : ParsesCryptoInit cJSONParse) (hfeed : Feed ks n s.received)
    {g : Gateway} (hfresh : Fresh g.usb) (hready : g.usbStarted ∧ g.usbConfigured ∧ g.usbHostReady)
    {es : List FwEvent} (h : Run.run (fwStep ks cJSONParse) { gateway := g } es = some s)
    (hcalm : Run.Meets (fwStep ks cJSONParse) (fun _ e => e.Calm) { gateway := g } es)
    (href : s.refused = 0) (hpast : s.past = []) :
    UsbInv s.usbState ∧
      s.session.accepted = usbPackets ks (s.received.filterMap (framePlain ks n)) := by
  have hstart : Clean s.received { gateway := g } → FwInv ks n { gateway := g } := fun _ =>
    ⟨usbInv_fresh hfresh, hready, by simp, rfl⟩
  have hinv := Run.inv_where (I := fun s' => Clean s.received s' → FwInv ks n s')
    (fun hi hc hs => fwInv_step hparse hfeed hi hc hs) h hcalm hstart
    ⟨List.prefix_rfl, href, hpast⟩
  exact ⟨hinv.usb, hinv.accepted⟩

end

/-! ## Connections -/

/-- A nonce is one that a text frame of the current connection carried. -/
structure SessionInv (cJSONParse : Bytes → Option Json) (s : FwState) : Prop where
  consistent : Consistent s.gateway.upstream
  nonce : s.gateway.upstream.nonce.haveNonce = true → ∃ t, (1, t) ∈ s.received ∧
    CarriesNonce cJSONParse t s.gateway.upstream.nonce.sessionNonce

section
variable {ks : KeyStream} {cJSONParse : Bytes → Option Json} {s s' : FwState}

theorem sessionInv_noNonce (hu : Consistent s.gateway.upstream)
    (hn : s.gateway.upstream.nonce.haveNonce = false) : SessionInv cJSONParse s :=
  ⟨hu, fun h => by rw [hn] at h; cases h⟩

theorem sessionInv_reset (h : Reset s.gateway.upstream) : SessionInv cJSONParse s :=
  sessionInv_noNonce (.inr h) h.nonce

theorem sessionInv_receive (h : SessionInv cJSONParse s)
    (hconn : s.gateway.upstream.connected = true) {frame : UInt8 × Bytes} {calls : PollCalls}
    {pre : WsClient.Prebuffer} (hr : Receives ks cJSONParse s
      { s.gateway with upstream := { s.gateway.upstream with prebuffer := pre } } frame calls s') :
    SessionInv cJSONParse s' := by
  have hcons : ∀ {nonce : NonceState}, Consistent { s.gateway.upstream with
      prebuffer := pre, nonce := nonce } := fun {_} =>
    .inl ⟨hconn, h.consistent.connected_iff.1 hconn⟩
  have hkept : s'.gateway.upstream = { s.gateway.upstream with prebuffer := pre } →
      SessionInv cJSONParse s' := by
    intro heq
    refine ⟨heq ▸ hcons, ?_⟩
    intro hn
    rw [heq] at hn ⊢
    obtain ⟨t, ht, hcarry⟩ := h.nonce hn
    exact ⟨t, hr.received ▸ List.mem_append_left _ ht, hcarry⟩
  have hg := hr.gateway
  by_cases h1 : frame.1 = 1
  · rw [relayFrame, if_pos h1] at hg
    rcases gatewayParseCryptoInit_cases cJSONParse calls.textOk calls.decodedOk frame.2
      s.gateway.upstream.nonce with heq | ⟨n, hcarry, heq⟩
    · rw [heq] at hg
      exact hkept (by rw [hg])
    · rw [heq] at hg
      refine ⟨by rw [hg]; exact hcons, fun _ => ⟨frame.2, ?_, by rw [hg]; exact hcarry⟩⟩
      rw [hr.received, ← h1]
      exact List.mem_append_right _ (List.mem_singleton_self _)
  by_cases h2 : frame.1 = 2
  · apply hkept
    rw [hg, relayFrame, if_neg h1, if_pos h2]
    split <;> rfl
  · have hother := @relayFrame_other ks cJSONParse { s.gateway with upstream :=
      { s.gateway.upstream with prebuffer := pre } } frame h1 h2 calls
    rcases hother with heq | heq <;> rw [heq] at hg
    · exact hkept (by rw [hg])
    · exact sessionInv_reset (by
        rw [hg]
        exact reset_close { s.gateway.upstream with prebuffer := pre })

theorem sessionInv_step {e : FwEvent} (h : SessionInv cJSONParse s)
    (hs : fwStep ks cJSONParse s e = some s') : SessionInv cJSONParse s' := by
  cases e with
  | poll recvs calls =>
    obtain ⟨hconn, rfl | ⟨frame, pre, hr⟩⟩ := fwStep_poll hs
    · exact sessionInv_reset (reset_close s.gateway.upstream)
    · exact sessionInv_receive h hconn hr
  | connect config calls =>
    simp only [fwStep, Option.ite_none_left_eq_some, Option.some.injEq] at hs
    obtain ⟨hidle, rfl⟩ := hs
    have hreset := h.consistent.reset (by simpa using hidle)
    apply sessionInv_noNonce (consistent_connect hreset)
    show (gatewayUpstreamConnect config calls s.gateway.upstream).2.1.nonce.haveNonce = false
    have hcases := @gatewayUpstreamConnect_cases _ config calls hreset
    rcases hcases with ⟨-, hr⟩ | ⟨-, -, -, hn⟩
    · exact hr.nonce
    · rw [hn]
      rfl
  | close =>
    cases hs
    exact sessionInv_reset (reset_close s.gateway.upstream)
  | usb e =>
    obtain ⟨-, u, -, rfl⟩ := fwStep_usb hs
    exact ⟨h.consistent, h.nonce⟩

/-- **A session nonce does not outlive its connection**: in every run the nonce that a binary frame
is decrypted with was carried by a text frame of the same connection, and between the calls the
state is fully reset whenever there is no connection. -/
theorem run_session_nonce {g : Gateway} (hreset : Reset g.upstream) {es : List FwEvent}
    (h : Run.run (fwStep ks cJSONParse) { gateway := g } es = some s) :
    (∀ n, decryptNonce s.gateway = some n →
      ∃ t, (1, t) ∈ s.received ∧ CarriesNonce cJSONParse t n) ∧
      (s.gateway.upstream.connected = false → Reset s.gateway.upstream) ∧
      (s.gateway.upstream.connected = true ↔ 0 ≤ s.gateway.upstream.fd) := by
  have hstart : SessionInv cJSONParse { gateway := g } := sessionInv_reset hreset
  have hinv := Run.inv sessionInv_step h hstart
  refine ⟨?_, hinv.consistent.reset, hinv.consistent.connected_iff⟩
  intro n hn
  unfold decryptNonce at hn
  split at hn
  · cases hn
    exact hinv.nonce ‹_›
  · cases hn

end

/-- The firmware with a host on USB, before its first connect. -/
def bootGateway : Gateway := ⟨bootUsb, ⟨-1, .null, false, noNonce⟩, true, true, true⟩

def connectEvent : FwEvent :=
  .connect ⟨ascii "10.0.0.1", ascii "/gateway", 8081, true, 1⟩
    ⟨3, true, true, true, [.data (ascii "HTTP/1.1 101\r\n\r\n")], true, true, true⟩

def fives : Nonce := ⟨List.replicate 12 5, rfl⟩

/-- A connect, the server's `crypto_init` and a packet of it. -/
def servedRun : List FwEvent :=
  let calls : PollCalls := ⟨true, true, true, true, true, 0⟩
  [connectEvent, .poll [.data ([0x81, 126, 0, 156] ++ cryptoInitText fives)] calls,
    .poll [.data ([0x82, 11] ++ packetBytes (fun _ _ _ _ => 0x5a) 1 0 fives [1, 2, 3])] calls]

/-- The end of the connection and a second connect. -/
def reconnectRun : List FwEvent := [.poll [] ⟨true, true, true, true, true, 0⟩, connectEvent]

/-- The firmware with a server whose text it can read. -/
def servedStep : FwState → FwEvent → Option FwState :=
  fwStep (fun _ _ _ _ => 0x5a) parseServerText

/-- The packet is decrypted with the nonce that was announced, and behind the reconnect there is no
nonce. -/
theorem run_session_nonce_reconnectRun :
    ∃ s s', Run.run servedStep { gateway := bootGateway } servedRun = some s ∧
      s.session.accepted = [mediaPacket (fun _ _ _ _ => 0x5a) 1 0 [1, 2, 3]] ∧
      (∃ t, (1, t) ∈ s.received ∧ CarriesNonce parseServerText t fives) ∧
      Run.run servedStep s reconnectRun = some s' ∧ decryptNonce s'.gateway = none ∧
      (s'.gateway.upstream.connected = true ↔ 0 ≤ s'.gateway.upstream.fd) := by
  have h : (Run.run servedStep { gateway := bootGateway } servedRun).any (fun s =>
      decide (decryptNonce s.gateway = some fives ∧
        s.session.accepted = [mediaPacket (fun _ _ _ _ => 0x5a) 1 0 [1, 2, 3]]) &&
      (Run.run servedStep s reconnectRun).any fun s' =>
        decide (decryptNonce s'.gateway = none)) = true := by
    decide +kernel
  obtain ⟨s, hs, hfacts⟩ := (Option.any_eq_true _ _).1 h
  obtain ⟨hfirst, hsecond⟩ := Bool.and_eq_true_iff.1 hfacts
  obtain ⟨hnonce, haccepted⟩ := of_decide_eq_true hfirst
  obtain ⟨s', hs', hnone⟩ := (Option.any_eq_true _ _).1 hsecond
  have hreset : Reset bootGateway.upstream := ⟨rfl, rfl, rfl, rfl⟩
  have hrun : Run.run servedStep { gateway := bootGateway } (servedRun ++ reconnectRun) =
      some s' :=
    (Run.run_append servedStep).2 ⟨s, hs, hs'⟩
  exact ⟨s, s', hs, haccepted, (run_session_nonce hreset hs).1 fives hnonce, hs',
    of_decide_eq_true hnone, (run_session_nonce hreset hrun).2.2⟩

end Firmware
