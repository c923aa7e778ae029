import CarplayRelay.E2E.UpstreamFrames
import CarplayRelay.Firmware.Upstream
import CarplayRelay.Gateway.Session

/-!
# Frames held in the prebuffer

The relays ask the socket whether there is something to receive, but what was read behind the
response header is in the prebuffer. While the socket has bytes the relays take one frame at a time
and empty the prebuffer first, so a held frame is never left behind once something has arrived:
what can go wrong is the start, with frames in the prebuffer and nothing on the socket.

* `gateway_waits`, `firmware_waits`: after any run a relay with nothing on its socket holds no
  frame, if it did not start like that.
* `waits_iff`: which responses start the relays like that.
-/

namespace E2E

open Bytes Crypto Recv WsClient WebSocket

/-! ## The gateway -/

/-- The loop of `gateway_session_main`, with what has arrived on the upstream socket. -/
structure SelectLoop where
  session : Gateway.Session
  arrived : List Result

inductive SelectEvent
  /-- Bytes, the end of the stream or an error arrive. -/
  | arrive (r : Result)
  /-- `select` reports the client's socket. -/
  | client (status : Int)
  /-- `select` reports the upstream socket; `more` arrives while the frame is received. -/
  | upstream (more : List Result) (calls : Gateway.FrameCalls)

/-- What is left on the socket when a frame was received. -/
def socketAfter (received : Option ((UInt8 × Bytes) × Prebuffer × List Result)) : List Result :=
  (received.map fun r => r.2.2).getD []

/-- A step of the loop: `select` reports the upstream socket only when something has arrived. -/
def selectStep (ks : KeyStream) (cJSONParse : Bytes → Option Json) (s : SelectLoop) :
    SelectEvent → Option SelectLoop
  | .arrive r => some { s with arrived := s.arrived ++ [r] }
  | .client status =>
    (Gateway.sessionStep ks cJSONParse s.session (.client status)).map fun t =>
      { s with session := t }
  | .upstream more calls =>
    if s.arrived = [] then none
    else
      (Gateway.sessionStep ks cJSONParse s.session (.upstream (s.arrived ++ more) calls)).map
        fun t =>
          { session := t
            arrived := socketAfter (Gateway.wsUpstreamRecvFrame calls.payloadOk
              (s.session.prebuffer, s.arrived ++ more)) }

/-- `select` has nothing to report, and waits. -/
def SelectLoop.Waits (s : SelectLoop) : Prop := s.session.running = true ∧ s.arrived = []

/-- The loop starts with `unread` on the socket. -/
def startSelect (prebuffer : Prebuffer) (unread : Bytes) (junk : Nonce) : SelectLoop :=
  ⟨Gateway.newSession prebuffer junk, withUnread unread []⟩

/-! ## The firmware -/

/-- The firmware between its polls, with what has arrived on the upstream socket. -/
structure PollLoop where
  firmware : Firmware.FwState
  arrived : List Result

inductive PollEvent
  | arrive (r : Result)
  /-- `gateway_upstream_poll`; `more` arrives while the frame is received. -/
  | poll (more : List Result) (calls : Firmware.PollCalls)
  /-- `gateway_upstream_close`. -/
  | close
  /-- An operation of the USB stream. -/
  | usb (e : Firmware.UsbEvent)

/-- A step: `gateway_upstream_poll` returns at once when nothing has arrived. -/
def pollStep (ks : KeyStream) (cJSONParse : Bytes → Option Json) (s : PollLoop) :
    PollEvent → Option PollLoop
  | .arrive r => some { s with arrived := s.arrived ++ [r] }
  | .poll more calls =>
    if s.arrived = [] then some s
    else
      (Firmware.fwStep ks cJSONParse s.firmware (.poll (s.arrived ++ more) calls)).map fun t =>
        { firmware := t
          arrived := socketAfter (Firmware.gatewayUpstreamRecvFrame calls.payloadOk
            (s.firmware.gateway.upstream.prebuffer, s.arrived ++ more)) }
  | .close =>
    (Firmware.fwStep ks cJSONParse s.firmware .close).map fun t => { s with firmware := t }
  | .usb e =>
    (Firmware.fwStep ks cJSONParse s.firmware (.usb e)).map fun t => { s with firmware := t }

/-- `gateway_upstream_poll` would return because nothing is readable. -/
def PollLoop.Waits (s : PollLoop) : Prop :=
  s.firmware.gateway.upstream.connected = true ∧ 0 ≤ s.firmware.gateway.upstream.fd ∧
    s.arrived = []

/-- The polls start with `unread` on the socket. -/
def startPolls (g : Firmware.Gateway) (unread : Bytes) : PollLoop :=
  ⟨{ gateway := g }, withUnread unread []⟩

/-! ## What is held is read before the socket -/

/-- Nothing is held while the socket is empty. -/
def NotHeld (prebuffer : Prebuffer) (arrived : List Result) : Prop :=
  StartsFrame prebuffer.pending → arrived ≠ []

theorem notHeld_of_nil {prebuffer : Prebuffer} {arrived : List Result}
    (h : prebuffer.pending = []) : NotHeld prebuffer arrived := by
  intro hframe
  rw [h] at hframe
  exact absurd hframe not_startsFrame_nil

/-- A frame that was received with something on the socket. -/
theorem notHeld_received {retry mallocOk : Bool} {bits : Nat} {prebuffer : Prebuffer}
    {arrived more : List Result} {r : (UInt8 × Bytes) × Prebuffer × List Result}
    (harrived : arrived ≠ [])
    (h : recvFrame bits (readSome retry) mallocOk (prebuffer, arrived ++ more) = some r) :
    NotHeld r.2.1 r.2.2 := by
  obtain ⟨frame, prebuffer', socket⟩ := r
  rcases recvFrame_socket h with hnil | hsame
  · exact notHeld_of_nil hnil
  · intro _
    dsimp only at hsame ⊢
    rw [hsame]
    exact List.append_ne_nil_of_left_ne_nil harrived more

section
variable {ks : KeyStream} {cJSONParse : Bytes → Option Json}

theorem relayFrame_prebuffer (s : Gateway.Session) (frame : UInt8 × Bytes)
    (calls : Gateway.FrameCalls) :
    (Gateway.relayFrame ks cJSONParse s frame calls).prebuffer = s.prebuffer := by
  unfold Gateway.relayFrame
  repeat' split
  all_goals rfl

/-- The gateway's invariant. -/
def SelectInv (s : SelectLoop) : Prop :=
  s.session.running = true → NotHeld s.session.prebuffer s.arrived

theorem selectInv_step {s s' : SelectLoop} {e : SelectEvent} (h : SelectInv s)
    (hs : selectStep ks cJSONParse s e = some s') : SelectInv s' := by
  cases e with
  | arrive r =>
    cases hs
    intro _ _
    exact List.append_ne_nil_of_right_ne_nil _ (List.cons_ne_nil r [])
  | client status =>
    obtain ⟨t, ht, rfl⟩ := Option.map_eq_some_iff.1 hs
    simp only [Gateway.sessionStep, Option.ite_none_left_eq_some, Option.some.injEq,
      not_not] at ht
    obtain ⟨hrun, rfl⟩ := ht
    exact fun _ => h hrun
  | upstream more calls =>
    simp only [selectStep, Option.ite_none_left_eq_some] at hs
    obtain ⟨harrived, hs⟩ := hs
    obtain ⟨t, ht, rfl⟩ := Option.map_eq_some_iff.1 hs
    simp only [Gateway.sessionStep, Option.ite_none_left_eq_some] at ht
    obtain ⟨-, ht⟩ := ht
    intro hrun
    cases hrecv : Gateway.wsUpstreamRecvFrame calls.payloadOk
        (s.session.prebuffer, s.arrived ++ more) with
    | none =>
      rw [hrecv] at ht
      cases ht
      cases hrun
    | some r =>
      rw [hrecv] at ht
      cases ht
      rw [relayFrame_prebuffer]
      exact notHeld_received harrived hrecv

/-- **The gateway waits without a frame**, if it did not start with one and an empty socket. -/
theorem gateway_waits {s s' : SelectLoop} {events : List SelectEvent} (h : SelectInv s)
    (hrun : Run.run (selectStep ks cJSONParse) s events = some s') (hwaits : s'.Waits) :
    ¬ StartsFrame s'.session.prebuffer.pending := fun hframe =>
  Run.inv (fun hi hs => selectInv_step hi hs) hrun h hwaits.1 hframe hwaits.2

theorem relayFrame_upstream (g : Firmware.Gateway) (frame : UInt8 × Bytes)
    (calls : Firmware.PollCalls) :
    (Firmware.relayFrame ks cJSONParse g frame calls).upstream.prebuffer = g.upstream.prebuffer ∨
      (Firmware.relayFrame ks cJSONParse g frame calls).upstream.prebuffer = .null := by
  unfold Firmware.relayFrame
  split
  · exact .inl rfl
  split
  · split <;> exact .inl rfl
  split
  · exact .inr rfl
  · exact .inl rfl

/-- The firmware's invariant. -/
def PollInv (s : PollLoop) : Prop := NotHeld s.firmware.gateway.upstream.prebuffer s.arrived

theorem pollInv_step {s s' : PollLoop} {e : PollEvent} (h : PollInv s)
    (hs : pollStep ks cJSONParse s e = some s') : PollInv s' := by
  cases e with
  | arrive r =>
    cases hs
    intro _
    exact List.append_ne_nil_of_right_ne_nil _ (List.cons_ne_nil r [])
  | close =>
    cases hs
    exact notHeld_of_nil rfl
  | usb e =>
    obtain ⟨t, ht, rfl⟩ := Option.map_eq_some_iff.1 hs
    simp only [Firmware.fwStep, Option.ite_none_left_eq_some] at ht
    obtain ⟨u, -, rfl⟩ := Option.map_eq_some_iff.1 ht.2
    exact h
  | poll more calls =>
    unfold pollStep at hs
    dsimp only at hs
    split at hs
    · cases hs
      exact h
    rename_i harrived
    obtain ⟨t, ht, rfl⟩ := Option.map_eq_some_iff.1 hs
    simp only [Firmware.fwStep, Option.ite_none_left_eq_some, Option.some.injEq] at ht
    obtain ⟨hconn, rfl⟩ := ht
    unfold PollInv Firmware.gatewayUpstreamPoll
    dsimp only
    rw [if_neg hconn]
    unfold Firmware.receiveFrame
    cases hrecv : Firmware.gatewayUpstreamRecvFrame calls.payloadOk
        (s.firmware.gateway.upstream.prebuffer, s.arrived ++ more) with
    | none => exact notHeld_of_nil rfl
    | some r =>
      have hheld := notHeld_received harrived hrecv
      obtain ⟨frame, prebuffer, socket⟩ := r
      dsimp only at hheld ⊢
      rcases @relayFrame_upstream ks cJSONParse
        { s.firmware.gateway with
          upstream := { s.firmware.gateway.upstream with prebuffer := prebuffer } } frame calls with
        hsame | hnull
      · rw [hsame]
        exact hheld
      · rw [hnull]
        exact notHeld_of_nil rfl

/-- **The firmware's polls find nothing only without a frame**, if they did not start with one and
an empty socket. -/
theorem firmware_waits {s s' : PollLoop} {events : List PollEvent} (h : PollInv s)
    (hrun : Run.run (pollStep ks cJSONParse) s events = some s') (hwaits : s'.Waits) :
    ¬ StartsFrame s'.firmware.gateway.upstream.prebuffer.pending := fun hframe =>
  Run.inv (fun hi hs => pollInv_step hi hs) hrun h hframe hwaits.2.2

end

/-! ## The start -/

section
variable {header stream : Bytes}

/-- The gateway's prebuffer is what was read behind the header. -/
theorem pending_wsUpstreamConnect {host path : Bytes} {port : UInt16}
    {calls : Gateway.ConnectCalls} {client : Gateway.WsUpstreamClient} {rs : List Result}
    (hh : ResponseHeader header) (hsize : header.length ≤ 4095)
    (hdel : Delivers true calls.recvs (header ++ stream))
    (h : Gateway.wsUpstreamConnect host port path calls = (0, client, rs)) :
    client.prebuffer.pending =
      (lastRead 4096 header.length [] calls.recvs).1.drop header.length := by
  obtain ⟨got, unread, rs', tail, -, -, hlast, hshake⟩ :=
    handshake_response hh (by omega : header.length < 4096) hdel
  obtain ⟨extra, hshake', hpre⟩ := Gateway.wsUpstreamConnect_ok h
  rw [hshake, Option.ite_none_left_eq_some] at hshake'
  cases hshake'.2
  rw [hlast, hpre, pending_prebufferOf, List.drop_left]

/-- So is the firmware's. -/
theorem pending_gatewayUpstreamConnect {config : Firmware.UpstreamConfig}
    {calls : Firmware.ConnectCalls} {s s' : Firmware.UpstreamState} {rs : List Result}
    (hh : ResponseHeader header) (hsize : header.length ≤ 2047)
    (hdel : Delivers false calls.recvs (header ++ stream)) (hreset : Firmware.Reset s)
    (h : Firmware.gatewayUpstreamConnect config calls s = (0, s', rs)) :
    s'.prebuffer.pending =
      (lastRead 2048 header.length [] calls.recvs).1.drop header.length := by
  obtain ⟨got, unread, rs', tail, -, -, hlast, hshake⟩ :=
    handshake_response hh (by omega : header.length < 2048) hdel
  obtain ⟨extra, hshake', hpre⟩ :=
    Firmware.openUpstream_ok (s := { s with nonce := Firmware.noNonce }) hreset.prebuffer
      (Firmware.gatewayUpstreamConnect_ok h)
  rw [hshake, Option.ite_none_left_eq_some] at hshake'
  cases hshake'.2
  rw [hlast, hpre, List.drop_left]

theorem withUnread_nil_iff (unread : Bytes) : withUnread unread [] = [] ↔ unread = [] := by
  unfold withUnread
  split
  · simp [*]
  · simp [*]

theorem notHeld_start {prebuffer : Prebuffer} {unread : Bytes} :
    NotHeld prebuffer (withUnread unread []) ↔ (unread ≠ [] ∨ ¬ StartsFrame prebuffer.pending) := by
  unfold NotHeld
  rw [ne_eq, withUnread_nil_iff]
  tauto

/-- **When a relay never waits while it holds a frame**, for all that can happen after its connect:
the read that completed the response header left something on the socket, or what it read behind
the header does not start with a frame. -/
theorem waits_iff {ks : KeyStream} {cJSONParse : Bytes → Option Json} (hh : ResponseHeader header) :
    (∀ {host path : Bytes} {port : UInt16} {calls : Gateway.ConnectCalls}
      {client : Gateway.WsUpstreamClient} {rs : List Result} (junk : Nonce),
      header.length ≤ 4095 → Delivers true calls.recvs (header ++ stream) →
      Gateway.wsUpstreamConnect host port path calls = (0, client, rs) →
      let last := lastRead 4096 header.length [] calls.recvs
      ((∀ events s, Run.run (selectStep ks cJSONParse)
          (startSelect client.prebuffer last.2 junk) events = some s →
          s.Waits → ¬ StartsFrame s.session.prebuffer.pending) ↔
        (last.2 ≠ [] ∨ ¬ StartsFrame (last.1.drop header.length)))) ∧
    ∀ {config : Firmware.UpstreamConfig} {calls : Firmware.ConnectCalls} {g : Firmware.Gateway}
      {upstream : Firmware.UpstreamState} {rs : List Result},
      header.length ≤ 2047 → Delivers false calls.recvs (header ++ stream) →
      Firmware.Reset g.upstream →
      Firmware.gatewayUpstreamConnect config calls g.upstream = (0, upstream, rs) →
      let last := lastRead 2048 header.length [] calls.recvs
      ((∀ events s, Run.run (pollStep ks cJSONParse)
          (startPolls { g with upstream := upstream } last.2) events = some s →
          s.Waits → ¬ StartsFrame s.firmware.gateway.upstream.prebuffer.pending) ↔
        (last.2 ≠ [] ∨ ¬ StartsFrame (last.1.drop header.length))) := by
  refine ⟨?_, ?_⟩
  · intro host path port calls client rs junk hsize hdel hconn last
    rw [← pending_wsUpstreamConnect hh hsize hdel hconn, ← notHeld_start]
    constructor
    · intro hall hframe harrived
      exact hall [] _ rfl ⟨rfl, harrived⟩ hframe
    · intro hheld events s hrun hwaits
      exact gateway_waits (fun _ => hheld) hrun hwaits
  · intro config calls g upstream rs hsize hdel hreset hconn last
    rw [← pending_gatewayUpstreamConnect hh hsize hdel hreset hconn, ← notHeld_start]
    constructor
    · intro hall hframe harrived
      have hcases := @Firmware.gatewayUpstreamConnect_cases g.upstream config calls hreset
      rw [hconn] at hcases
      rcases hcases with ⟨hne, -⟩ | ⟨-, hconnected, hfd, -⟩
      · exact absurd rfl hne
      · exact hall [] _ rfl ⟨hconnected, hfd, harrived⟩ hframe
    · intro hheld events s hrun hwaits
      have hinv : PollInv (startPolls { g with upstream := upstream } last.2) := hheld
      exact firmware_waits hinv hrun hwaits

end

/-- The response header, cut in two, and the first byte of a text of two behind it. -/
def headerAndPart : List Result :=
  [.data (responseHeader.take 20), .data (responseHeader.drop 20 ++ [0x81, 2, 104])]

/-- The response header with a text frame behind it, in one read. -/
def headerAndFrame : List Result :=
  [.data (responseHeader ++ layout 0x81 .short none [104, 105])]

def connectGateway (recvs : List Result) : Int × Gateway.WsUpstreamClient × List Result :=
  Gateway.wsUpstreamConnect config.host config.port config.path ⟨some 3, true, recvs, true⟩

def connectFirmware (recvs : List Result) : Int × Firmware.UpstreamState × List Result :=
  Firmware.gatewayUpstreamConnect config ⟨3, true, true, true, recvs, true, true, true⟩ idleUpstream

/-- The runs of the gateway behind its connect. -/
def GatewayNeverHolds (recvs : List Result) : Prop :=
  ∀ events s, Run.run (selectStep (fun _ _ _ _ => 0) fun _ => none)
    (startSelect (connectGateway recvs).2.1.prebuffer
      (lastRead 4096 responseHeader.length [] recvs).2 Firmware.noNonce.sessionNonce)
      events = some s →
    s.Waits → ¬ StartsFrame s.session.prebuffer.pending

/-- The runs of the firmware behind its connect. -/
def FirmwareNeverHolds (recvs : List Result) : Prop :=
  ∀ events s, Run.run (pollStep (fun _ _ _ _ => 0) fun _ => none)
    (startPolls ⟨Firmware.bootUsb, (connectFirmware recvs).2.1, true, true, true⟩
      (lastRead 2048 responseHeader.length [] recvs).2) events = some s →
    s.Waits → ¬ StartsFrame s.firmware.gateway.upstream.prebuffer.pending

theorem eq_of_rc {α β : Type} {r : Int × α × β} (h : r.1 = 0) : r = (0, r.2.1, r.2.2) := by
  rw [← h]

/-- The prebuffer holds a part of a frame, with which both relays may wait. -/
theorem waits_iff_headerAndPart :
    GatewayNeverHolds headerAndPart ∧ FirmwareNeverHolds headerAndPart := by
  have hdel (retry : Bool) :
      Delivers retry headerAndPart (responseHeader ++ [0x81, 2, 104]) := by
    have hne : ∀ c ∈ [responseHeader.take 20, responseHeader.drop 20 ++ [0x81, 2, 104]],
        c ≠ [] := by decide +kernel
    exact Recv.delivers_chunks retry hne
  have hpart {extra : Bytes} (h : extra = [0x81, 2, 104]) : ¬ StartsFrame extra := by
    rw [h]
    exact not_startsFrame_part (by decide) (by decide)
  have hgateway := eq_of_rc (by decide +kernel : (connectGateway headerAndPart).1 = 0)
  have hfirmware := eq_of_rc (by decide +kernel : (connectFirmware headerAndPart).1 = 0)
  have h := @waits_iff responseHeader [0x81, 2, 104] (fun _ _ _ _ => 0) (fun _ => none)
    header_responseHeader.response
  constructor
  · apply (h.1 _ (by decide +kernel) (hdel true) hgateway).2
    exact .inr (hpart (by decide +kernel))
  · apply (@h.2 _ _ ⟨Firmware.bootUsb, idleUpstream, true, true, true⟩ _ _ (by decide +kernel)
      (hdel false) ⟨rfl, rfl, rfl, rfl⟩ hfirmware).2
    exact .inr (hpart (by decide +kernel))

/-- Both relays wait with the frame. -/
theorem waits_headerAndFrame :
    ¬ GatewayNeverHolds headerAndFrame ∧ ¬ FirmwareNeverHolds headerAndFrame := by
  have hframe {p : Prebuffer} (h : p.pending = layout 0x81 .short none [104, 105]) :
      StartsFrame p.pending :=
    ⟨0x81, .short, none, [104, 105], [], (by decide : 2 < 126), by rw [h, List.append_nil]⟩
  constructor
  · intro hall
    exact hall [] _ rfl ⟨rfl, by decide +kernel⟩ (hframe (by decide +kernel))
  · intro hall
    obtain ⟨s, hs⟩ : ∃ s, s = startPolls
        ⟨Firmware.bootUsb, (connectFirmware headerAndFrame).2.1, true, true, true⟩
        (lastRead 2048 responseHeader.length [] headerAndFrame).2 := ⟨_, rfl⟩
    have hstart : s.firmware.gateway.upstream.connected = true ∧
        0 ≤ s.firmware.gateway.upstream.fd ∧ s.arrived = [] ∧
        s.firmware.gateway.upstream.prebuffer.pending = layout 0x81 .short none [104, 105] := by
      rw [hs]
      decide +kernel
    obtain ⟨hconnected, hfd, harrived, hpending⟩ := hstart
    exact hall [] s (congrArg some hs.symm) ⟨hconnected, hfd, harrived⟩ (hframe hpending)

end E2E
