import CarplayRelay.Proto

/-!
# The start of a USB stream (`prepare_usb_stream_startup`)

An attempt of the client to start the stream: it flushes stale data, sends its upstream
configuration and a PING, and reads until it has an INIT record behind the PONG with its own
sequence number. A step of an attempt is a call of `libusb_bulk_transfer` on the IN endpoint, a
write, or the deadline.

* `startupStep_cases`: what a step can do.
-/

namespace Client

open Bytes Proto

/-! ## The packets -/

/-- `UsbUpstreamOptions`. -/
structure UsbUpstreamOptions where
  enabled : Bool := true
  host : Bytes := []
  port : UInt16 := 8081
  path : Bytes := ascii "/gateway"

/-- A `UsbPingPacket` with the magic "PING" and the payload "gateway-usb-open". -/
def pingPacket (seqNo : UInt32) : Bytes :=
  ascii "PING" ++ le32 seqNo ++ le32 16 ++ ascii "gateway-usb-open" ++ List.replicate 36 0

/-- A `UsbUpstreamConfigPacket` with the magic "CFG1". -/
def configPacket (seqNo : UInt32) (port : UInt16) (host path : Bytes) : Bytes :=
  ascii "CFG1" ++ le32 seqNo ++ le16 port ++ le16 0 ++
    (host ++ List.replicate (16 - host.length) 0) ++ (path ++ List.replicate (36 - path.length) 0)

/-- What `send_usb_upstream_config` does up to its write. -/
inductive ConfigCall
  /-- It returns 0 and sends nothing. -/
  | skip
  /-- It returns -1. -/
  | fail
  | send (packet : Bytes)
  deriving DecidableEq, Repr

/-- `send_usb_upstream_config`, the packet; `detected` is the result of `detect_local_ipv4` if it
is called. -/
def sendUsbUpstreamConfig (usb : Bool) (seqNo : UInt32) (options : UsbUpstreamOptions)
    (detected : Option Bytes) : ConfigCall :=
  if ¬ usb ∨ ¬ options.enabled then .skip
  else
    match if options.host = [] then detected else some options.host with
    | none => .fail
    | some host =>
      if 16 ≤ host.length ∨ 36 ≤ options.path.length then .fail
      else .send (configPacket seqNo options.port host options.path)

/-- A packet of the size of a `UsbPingPacket` that is a PONG with the sequence number `seqNo`. -/
def isPong (seqNo : UInt32) (packet : Bytes) : Bool :=
  64 ≤ packet.length ∧ packet.take 4 = ascii "PONG" ∧ ofLe32 (packet.drop 4) = seqNo

/-! ## The attempt -/

/-- `UsbStartupState`. -/
structure UsbStartupState where
  haveInit : Bool := false
  initBuf : Bytes := List.replicate initSize 0
  leftover : Bytes := []
  deriving DecidableEq, Repr

/-- Where `prepare_usb_stream_startup` stands, with its local variables. -/
inductive StartupPc
  /-- In the first loop. -/
  | flush (flushCount : Nat)
  | sendConfig
  | sendPing
  /-- In the second loop. -/
  | read (gotPong : Bool)
  | returned (rc : Int)
  deriving DecidableEq, Repr

/-- A call of `prepare_usb_stream_startup`. -/
structure Startup where
  usb : Bool
  seqNo : UInt32
  options : UsbUpstreamOptions
  startup : UsbStartupState
  pc : StartupPc

/-- `prepare_usb_stream_startup` is called. -/
def prepareUsbStreamStartup (usb : Bool) (seqNo : UInt32) (options : UsbUpstreamOptions)
    (startup : UsbStartupState) : Startup where
  usb := usb
  seqNo := seqNo
  options := options
  startup := { startup with haveInit := false, leftover := [] }
  pc := if usb then .flush 0 else .returned 0

/-- What a call of `libusb_bulk_transfer` on the IN endpoint returns. -/
inductive BulkRead
  | timeout
  | error
  | success (bytes : Bytes)
  deriving DecidableEq, Repr

/-- The first loop of `prepare_usb_stream_startup`. -/
def flushRead (flushCount : Nat) : BulkRead → StartupPc
  | .timeout | .error | .success [] => .sendConfig
  | .success (_ :: _) => if 16 ≤ flushCount + 1 then .sendConfig else .flush (flushCount + 1)

/-- The second loop of `prepare_usb_stream_startup`. -/
def Startup.loopRead (s : Startup) (gotPong : Bool) : BulkRead → Startup
  | .timeout | .success [] => s
  | .error => { s with pc := .returned (-1) }
  | .success buf =>
    if gotPong ∧ initSize ≤ buf.length ∧ (gatewayProtoReadInit buf).isSome then
      { s with
        startup := { haveInit := true, initBuf := buf.take initSize, leftover := buf.drop initSize }
        pc := .returned 0 }
    else if isPong s.seqNo buf then { s with pc := .read true }
    else s

inductive StartupEvent
  | read (result : BulkRead)
  /-- `gateway_client_transport_write_all` hands its packet to the endpoint, again after a call
  that times out, and returns 0 if `ok`. -/
  | write (detected : Option Bytes) (copies : Nat) (ok : Bool)
  | deadline

/-- A transfer with data is read. -/
def StartupEvent.isData : StartupEvent → Bool
  | .read (.success _) => true
  | .read .timeout | .read .error | .write _ _ _ | .deadline => false

/-- A packet is written; it returns 0 only if the endpoint took it. -/
def Startup.write (s : Startup) (packet : Bytes) (copies : Nat) (ok : Bool) (next : StartupPc) :
    Option (Startup × List Bytes) :=
  if ok ∧ copies = 0 then none
  else some ({ s with pc := if ok then next else .returned (-1) }, List.replicate copies packet)

/-- A step of `prepare_usb_stream_startup`, with the packets that it writes. -/
def startupStep (s : Startup) : StartupEvent → Option (Startup × List Bytes)
  | .read result =>
    match s.pc with
    | .flush flushCount => some ({ s with pc := flushRead flushCount result }, [])
    | .read gotPong => some (s.loopRead gotPong result, [])
    | .sendConfig | .sendPing | .returned _ => none
  | .write detected copies ok =>
    match s.pc with
    | .sendConfig =>
      match sendUsbUpstreamConfig s.usb s.seqNo s.options detected with
      | .skip => some ({ s with pc := .sendPing }, [])
      | .fail => some ({ s with pc := .returned (-1) }, [])
      | .send packet => s.write packet copies ok .sendPing
    | .sendPing => s.write (pingPacket s.seqNo) copies ok (.read false)
    | .flush _ | .read _ | .returned _ => none
  | .deadline =>
    match s.pc with
    | .read _ => some ({ s with pc := .returned (-1) }, [])
    | .flush _ | .sendConfig | .sendPing | .returned _ => none

/-! ## What a step does -/

/-- The next step is before the PING was sent. -/
def StartupPc.early : StartupPc → Bool
  | .flush _ | .sendConfig | .sendPing => true
  | .read _ | .returned _ => false

section
variable {s s' : Startup} {e : StartupEvent} {sent : List Bytes}

theorem flushRead_early (flushCount : Nat) (r : BulkRead) :
    (flushRead flushCount r).early = true := by
  unfold flushRead
  split
  · rfl
  · rfl
  · rfl
  · split <;> rfl

/-- A read of the second loop goes on, gives up, sees the PONG or accepts an INIT record. -/
theorem loopRead_cases (s : Startup) (gotPong : Bool) (r : BulkRead) :
    s.loopRead gotPong r = s ∨ s.loopRead gotPong r = { s with pc := .returned (-1) } ∨
    (∃ buf, r = .success buf ∧ isPong s.seqNo buf = true ∧
      s.loopRead gotPong r = { s with pc := .read true }) ∨
    ∃ buf, r = .success buf ∧ gotPong = true ∧ initSize ≤ buf.length ∧
      (gatewayProtoReadInit buf).isSome ∧
      s.loopRead gotPong r =
        { s with
          startup := ⟨true, buf.take initSize, buf.drop initSize⟩
          pc := .returned 0 } := by
  cases r with
  | timeout => exact .inl rfl
  | error => exact .inr (.inl rfl)
  | success buf =>
    cases buf with
    | nil => exact .inl rfl
    | cons b buf =>
      unfold Startup.loopRead
      dsimp only
      split
      · rename_i hinit
        exact .inr (.inr (.inr ⟨_, rfl, hinit.1, hinit.2.1, hinit.2.2, rfl⟩))
      split
      · rename_i hpong
        exact .inr (.inr (.inl ⟨_, rfl, hpong, rfl⟩))
      · exact .inl rfl

/-- **What a step does**: it gives up, it goes on before the PING, it sends the PING, or it reads
in the second loop. -/
theorem startupStep_cases (hs : startupStep s e = some (s', sent)) :
    s' = { s with pc := .returned (-1) } ∨
    (s.pc.early = true ∧ ∃ pc, pc.early = true ∧ s' = { s with pc := pc }) ∨
    (s.pc = .sendPing ∧ ∃ detected copies ok, e = .write detected copies ok ∧
      sent = List.replicate copies (pingPacket s.seqNo) ∧ s' = { s with pc := .read false }) ∨
    (sent = [] ∧ ∃ gotPong r, e = .read r ∧ s.pc = .read gotPong ∧ s' = s.loopRead gotPong r) := by
  have hwrite {packet : Bytes} {copies : Nat} {ok : Bool} {next : StartupPc}
      (hs : s.write packet copies ok next = some (s', sent)) :
      s' = { s with pc := .returned (-1) } ∨
      (sent = List.replicate copies packet ∧ s' = { s with pc := next }) := by
    simp only [Startup.write, Option.ite_none_left_eq_some, Option.some.injEq,
      Prod.mk.injEq] at hs
    obtain ⟨-, rfl, rfl⟩ := hs
    cases ok with
    | true => exact .inr ⟨rfl, rfl⟩
    | false => exact .inl rfl
  cases e with
  | read r =>
    cases hpc : s.pc with
    | flush flushCount =>
      simp only [startupStep, hpc] at hs
      cases hs
      exact .inr (.inl ⟨rfl, _, flushRead_early flushCount r, rfl⟩)
    | read gotPong =>
      simp only [startupStep, hpc] at hs
      cases hs
      exact .inr (.inr (.inr ⟨rfl, gotPong, r, rfl, rfl, rfl⟩))
    | sendConfig | sendPing | returned _ => simp [startupStep, hpc] at hs
  | write detected copies ok =>
    cases hpc : s.pc with
    | sendConfig =>
      simp only [startupStep, hpc] at hs
      split at hs
      · cases hs
        exact .inr (.inl ⟨rfl, _, rfl, rfl⟩)
      · cases hs
        exact .inl rfl
      · rcases hwrite hs with hfail | ⟨-, hnext⟩
        · exact .inl hfail
        · exact .inr (.inl ⟨rfl, _, rfl, hnext⟩)
    | sendPing =>
      simp only [startupStep, hpc] at hs
      rcases hwrite hs with hfail | ⟨hsent, hnext⟩
      · exact .inl hfail
      · exact .inr (.inr (.inl ⟨rfl, detected, copies, ok, rfl, hsent, hnext⟩))
    | flush _ | read _ | returned _ => simp [startupStep, hpc] at hs
  | deadline =>
    cases hpc : s.pc with
    | read gotPong =>
      simp only [startupStep, hpc] at hs
      cases hs
      exact .inl rfl
    | flush _ | sendConfig | sendPing | returned _ => simp [startupStep, hpc] at hs

end

end Client
