import CarplayRelay.Firmware.UsbFunction

/-!
# The log of the USB function

The USB function of the firmware with a log of what it does, in order: the packets that reach the
TX ring, the IN transfers that reach the host, and the OUT packets it answers. A session lasts
from one reset of the ring to the next; an entry bears the number of its session.

The handlers are those of `Device` (`logStep_device`), each with its entries. The invariant
(`LogInv`) is that the chunks of a session that reached the host and the ring's contents together
are the INIT record and the packets of the session.

* `logStep_log`: a step adds to the log, and answers the packet of an OUT completion at most;
* `logInv_step`: every step that retires the request (`DeviceEvent.Retires`) keeps the invariant.
-/

namespace Firmware

open Bytes Crypto TxRing

/-! ## The log -/

/-- What an IN transfer carries: a chunk of the ring, or the PONG for OUT packet number
`index`. -/
inductive InData
  | chunk
  | pong (index : Nat) (seqNo : UInt32)
  deriving DecidableEq, Repr

def InData.kind : InData → InKind
  | .chunk => .chunk
  | .pong _ _ => .pong

/-- An IN transfer: the session it was queued in, and the bytes that reached the host. -/
structure Transfer where
  session : Nat
  data : InData
  bytes : Bytes
  deriving DecidableEq, Repr

inductive LogEntry
  /-- The INIT record was enqueued. -/
  | init (session : Nat)
  /-- A media packet was enqueued. -/
  | packet (session : Nat) (bytes : Bytes)
  | transfer (t : Transfer)
  /-- OUT packet number `index` is being answered, behind its reset if it is a PING. -/
  | out (session : Nat) (index : Nat) (packet : OutPacket)
  deriving DecidableEq, Repr

namespace LogEntry

def session : LogEntry → Nat
  | .init k | .packet k _ | .out k _ _ => k
  | .transfer t => t.session

def isOut : LogEntry → Bool
  | .out _ _ _ => true
  | .init _ | .packet _ _ | .transfer _ => false

def transfer? : LogEntry → Option Transfer
  | .transfer t => some t
  | .init _ | .packet _ _ | .out _ _ _ => none

/-- A media packet of session `k`. -/
def packet? (k : Nat) : LogEntry → Option Bytes
  | .packet j b => if j = k then some b else none
  | .init _ | .transfer _ | .out _ _ _ => none

end LogEntry

/-- The IN transfers, in the order in which they reached the host. -/
def transfers (log : List LogEntry) : List Transfer := log.filterMap LogEntry.transfer?

/-- The bytes of the chunks of session `k`. -/
def chunkData (k : Nat) (ts : List Transfer) : Bytes :=
  ts.flatMap fun t => if t.session = k ∧ t.data = .chunk then t.bytes else []

/-- The media packets accepted in session `k`. -/
def acceptedPackets (k : Nat) (log : List LogEntry) : List Bytes :=
  log.filterMap (LogEntry.packet? k)

/-- The stream of session `k`: the INIT record, once it was enqueued, and the accepted packets. -/
def sessionStream (k : Nat) (log : List LogEntry) : Bytes :=
  (if .init k ∈ log then initRecord else []) ++ (acceptedPackets k log).flatten

def OutPacket.seqNo : OutPacket → Option UInt32
  | .ping seqNo | .other seqNo => some seqNo
  | .short | .config => none

/-- OUT packet number `i` with sequence number `q` was answered in session `k`; if it is a PING,
every INIT record of session `k` was enqueued after it. -/
def Answered (log : List LogEntry) (k i : Nat) (q : UInt32) : Prop :=
  ∃ pre p post, log = pre ++ .out k i p :: post ∧ p.seqNo = some q ∧
    (p.isPing = true → ∀ j, .init j ∈ pre → j < k)

/-! ## The code, with its log -/

/-- The USB function; `flight` is the session and the content of the request the controller
has. -/
structure LoggedDevice where
  device : Device
  session : Nat := 0
  flight : Option (Nat × InData) := none
  log : List LogEntry := []

namespace LoggedDevice

/-- The controller gives the request back; `moved` of its bytes have reached the host. -/
def complete (w : LoggedDevice) (moved : Nat) : LoggedDevice :=
  match w.flight with
  | none => w
  | some (session, data) =>
    { w with
      flight := none
      log := w.log ++ [.transfer
        ⟨session, data, (w.device.usb.inBuf.take w.device.usb.reqLength).take moved⟩] }

/-- `usb_ep_queue` was called and returned `rc`. -/
def queue (w : LoggedDevice) (device : Device) (data : InData) (rc : Int) : LoggedDevice :=
  { w with device := device, flight := if rc = 0 then some (w.session, data) else w.flight }

/-- The ring was reset. -/
def reset (w : LoggedDevice) (device : Device) : LoggedDevice :=
  { w with device := device, session := w.session + 1 }

/-- `gateway_usb_kick_tx`. -/
def gatewayUsbKickTx (w : LoggedDevice) (rc : Int) : LoggedDevice :=
  if w.device.inReq && kicks w.device.usb then w.queue (w.device.gatewayUsbKickTx rc) .chunk rc
  else w

/-- `gateway_usb_send_pong`, for OUT packet number `index`. -/
def gatewayUsbSendPong (w : LoggedDevice) (index : Nat) (seqNo : UInt32) (rc : Int) :
    LoggedDevice :=
  if ¬ w.device.inReq ∨ w.device.usb.inBusy then w
  else w.queue (w.device.gatewayUsbSendPong seqNo rc) (.pong index seqNo) rc

/-- `gateway_usb_reset_stream_session`; `moved` bytes of a request that it dequeues have reached
the host. -/
def gatewayUsbResetStreamSession (w : LoggedDevice) (rc : Int) (moved : Nat) : LoggedDevice :=
  if ¬ w.device.inReq then w
  else
    (if w.device.usb.inBusy ∧ rc = 0 then w.complete moved else w).reset
      (w.device.gatewayUsbResetStreamSession rc)

/-- `gateway_usb_in_complete` with an error. -/
def gatewayUsbInError (w : LoggedDevice) (moved : Nat) : LoggedDevice :=
  if w.device.usb.streamResetting then
    { w.complete moved with device := w.device.gatewayUsbInError }
  else (w.complete moved).reset w.device.gatewayUsbInError

/-- `usb_ep_disable`. -/
def usbEpDisable (w : LoggedDevice) (moved : Nat) : LoggedDevice :=
  if w.device.outstanding then w.gatewayUsbInError moved else w

/-- `gateway_usb_function_disable`. -/
def gatewayUsbFunctionDisable (w : LoggedDevice) (moved : Nat) : LoggedDevice :=
  usbEpDisable (w.reset { w.device with
    usbConfigured := false
    usb := gatewayUsbTxReset { w.device.usb with configured := false, inBusy := false } }) moved

/-- `gateway_usb_function_set_alt`, behind the test of `configured`. -/
def setAltEnable (w : LoggedDevice) (calls : Device.SetAltCalls) (moved : Nat) : LoggedDevice :=
  if calls.inRc ≠ 0 then w
  else if calls.outRc ≠ 0 then w.usbEpDisable moved
  else
    let d := { w.device with
      inReq := w.device.inReq || calls.inAlloc, outReq := w.device.outReq || calls.outAlloc }
    if ¬ d.inReq ∨ ¬ d.outReq then gatewayUsbFunctionDisable { w with device := d } moved
    else
      w.reset { d with
        usbHostReady := false
        usbConfigured := true
        usb := gatewayUsbTxReset { d.usb with configured := true, inBusy := false } }

/-- `gateway_usb_function_set_alt`. -/
def gatewayUsbFunctionSetAlt (w : LoggedDevice) (calls : Device.SetAltCalls) (moved : Nat) :
    LoggedDevice :=
  setAltEnable (if w.device.usb.configured then w.gatewayUsbFunctionDisable moved else w) calls
    moved

/-- `gateway_usb_try_force_configure`. -/
def gatewayUsbTryForceConfigure (w : LoggedDevice) (speedOk : Bool) (calls : Device.SetAltCalls)
    (moved : Nat) : LoggedDevice :=
  if ¬ w.device.usbStarted ∨ w.device.usb.configured then w
  else if ¬ speedOk then w
  else w.gatewayUsbFunctionSetAlt calls moved

/-- `gateway_usb_enqueue_init_packet`. -/
def gatewayUsbEnqueueInitPacket (w : LoggedDevice) : Bool × LoggedDevice :=
  let (ok, usb) := Firmware.gatewayUsbEnqueueInitPacket w.device.usb
  (ok, { w with
    device := { w.device with usb := usb }
    log := w.log ++ if ok && !w.device.usb.protoInitSent then [.init w.session] else [] })

/-- `gateway_usb_enqueue_media_packet`. -/
def gatewayUsbEnqueueMediaPacket (ks : KeyStream) (w : LoggedDevice) (p : Plain)
    (encryptedOk : Bool) : Bool × LoggedDevice :=
  let (ok, usb) := Firmware.gatewayUsbEnqueueMediaPacket ks w.device.usb p.1 p.2.1 p.2.2 encryptedOk
  (ok, { w with
    device := { w.device with usb := usb }
    log := w.log ++ if ok then [.packet w.session (mediaPacket ks p.1 p.2.1 p.2.2)] else [] })

/-- `gateway_usb_enqueue_init_packet` and, if it returns 0, `gateway_usb_kick_tx`. -/
def enqueueInitAndKick (w : LoggedDevice) (rc : Int) : LoggedDevice :=
  let (ok, w) := w.gatewayUsbEnqueueInitPacket
  if ok then w.gatewayUsbKickTx rc else w

/-- `gateway_usb_retry_init_if_needed`. -/
def gatewayUsbRetryInitIfNeeded (w : LoggedDevice) (rc : Int) : LoggedDevice :=
  if ¬ w.device.usbStarted ∨ ¬ w.device.usbConfigured then w
  else if ¬ w.device.usbHostReady then w
  else w.enqueueInitAndKick rc

/-- `gateway_usb_in_complete` with status 0. -/
def gatewayUsbInComplete (w : LoggedDevice) (actual : Nat) (rc : Int) : LoggedDevice :=
  let moved := if 0 < actual ∧ actual < w.device.usb.reqLength then actual
    else w.device.usb.reqLength
  gatewayUsbKickTx { w.complete moved with device :=
    { w.device with usb := Device.consumeChunk w.device.usb actual, outstanding := false } } rc

/-- `gateway_upstream_poll`, a decrypted packet is enqueued behind the INIT record if the host is
ready. -/
def relayPacket (ks : KeyStream) (w : LoggedDevice) (p : Plain) (encryptedOk : Bool) (rc : Int) :
    LoggedDevice :=
  if ¬ (w.device.usbStarted ∧ w.device.usbConfigured ∧ w.device.usbHostReady) then w
  else
    let (ok, w) := w.gatewayUsbEnqueueInitPacket
    if ¬ ok then w
    else
      let (ok, w) := w.gatewayUsbEnqueueMediaPacket ks p encryptedOk
      if ¬ ok then w else w.gatewayUsbKickTx rc

/-- `gateway_usb_out_complete`, the PONG and the INIT record. -/
def answer (w : LoggedDevice) (index : Nat) (packet : OutPacket) (seqNo : UInt32)
    (calls : OutCalls) : LoggedDevice :=
  let w := { w with log := w.log ++ [LogEntry.out w.session index packet] }
  (w.gatewayUsbSendPong index seqNo calls.pongRc).enqueueInitAndKick calls.kickRc

/-- `gateway_usb_out_complete`, of OUT packet number `index`. -/
def gatewayUsbOutComplete (w : LoggedDevice) (index : Nat) (status : Int) (actual : Nat)
    (raw : Bytes) (calls : OutCalls) (moved : Nat) : LoggedDevice :=
  if status ≠ 0 then w
  else
    let w := { w with device := { w.device with usbHostReady := true } }
    match outPacket actual raw with
    | .short | .config => w
    | .ping seqNo =>
      (w.gatewayUsbResetStreamSession calls.dequeueRc moved).answer index (.ping seqNo) seqNo calls
    | .other seqNo => w.answer index (.other seqNo) seqNo calls

end LoggedDevice

/-- A callback of the USB stack or a step of the task; `moved` bytes of a request that it retires
with an error have reached the host. -/
def logStep (ks : KeyStream) (w : LoggedDevice) (index : Nat) (e : DeviceEvent) (moved : Nat) :
    Option LoggedDevice :=
  match e with
  | .outComplete status actual raw calls =>
    some (w.gatewayUsbOutComplete index status actual raw calls moved)
  | .inComplete actual rc =>
    if w.device.outstanding then some (w.gatewayUsbInComplete actual rc) else none
  | .inError => if w.device.outstanding then some (w.gatewayUsbInError moved) else none
  | .setAlt calls => some (w.gatewayUsbFunctionSetAlt calls moved)
  | .disable => some (w.gatewayUsbFunctionDisable moved)
  | .disconnect | .suspend => some (w.reset w.device.gatewayUsbSuspend)
  | .resume => some w
  | .forceConfigure speedOk calls => some (w.gatewayUsbTryForceConfigure speedOk calls moved)
  | .retryInit rc => some (w.gatewayUsbRetryInitIfNeeded rc)
  | .watchdog rc => some (w.gatewayUsbResetStreamSession rc moved)
  | .media p encryptedOk rc => some (w.relayPacket ks p encryptedOk rc)

/-! ## The log changes nothing -/

namespace LoggedDevice

variable {ks : KeyStream} (w : LoggedDevice)

@[simp] theorem complete_device (moved : Nat) : (w.complete moved).device = w.device := by
  unfold complete
  split <;> rfl

@[simp] theorem kickTx_device (rc : Int) :
    (w.gatewayUsbKickTx rc).device = w.device.gatewayUsbKickTx rc := by
  unfold gatewayUsbKickTx Device.gatewayUsbKickTx queue
  split <;> rfl

@[simp] theorem sendPong_device (index : Nat) (seqNo : UInt32) (rc : Int) :
    (w.gatewayUsbSendPong index seqNo rc).device = w.device.gatewayUsbSendPong seqNo rc := by
  unfold gatewayUsbSendPong Device.gatewayUsbSendPong queue
  split <;> rfl

@[simp] theorem resetStreamSession_device (rc : Int) (moved : Nat) :
    (w.gatewayUsbResetStreamSession rc moved).device =
      w.device.gatewayUsbResetStreamSession rc := by
  unfold gatewayUsbResetStreamSession Device.gatewayUsbResetStreamSession reset
  split <;> rfl

@[simp] theorem inError_device (moved : Nat) :
    (w.gatewayUsbInError moved).device = w.device.gatewayUsbInError := by
  unfold gatewayUsbInError reset
  split <;> rfl

@[simp] theorem usbEpDisable_device (moved : Nat) :
    (w.usbEpDisable moved).device = w.device.usbEpDisable := by
  unfold usbEpDisable Device.usbEpDisable
  split
  · rw [inError_device]
  · rfl

@[simp] theorem disable_device (moved : Nat) :
    (w.gatewayUsbFunctionDisable moved).device = w.device.gatewayUsbFunctionDisable := by
  unfold gatewayUsbFunctionDisable Device.gatewayUsbFunctionDisable
  rw [usbEpDisable_device]
  rfl

@[simp] theorem setAltEnable_device (calls : Device.SetAltCalls) (moved : Nat) :
    (w.setAltEnable calls moved).device = w.device.setAltEnable calls := by
  unfold setAltEnable Device.setAltEnable
  split
  · rfl
  split
  · exact usbEpDisable_device w moved
  dsimp only
  split
  · rw [disable_device]
  · rfl

@[simp] theorem setAlt_device (calls : Device.SetAltCalls) (moved : Nat) :
    (w.gatewayUsbFunctionSetAlt calls moved).device = w.device.gatewayUsbFunctionSetAlt calls := by
  unfold gatewayUsbFunctionSetAlt Device.gatewayUsbFunctionSetAlt
  rw [setAltEnable_device]
  split
  · rw [disable_device]
  · rfl

@[simp] theorem forceConfigure_device (speedOk : Bool) (calls : Device.SetAltCalls) (moved : Nat) :
    (w.gatewayUsbTryForceConfigure speedOk calls moved).device =
      w.device.gatewayUsbTryForceConfigure speedOk calls := by
  unfold gatewayUsbTryForceConfigure Device.gatewayUsbTryForceConfigure
  split
  · rfl
  split
  · rfl
  · exact setAlt_device w calls moved

@[simp] theorem enqueueInitAndKick_device (rc : Int) :
    (w.enqueueInitAndKick rc).device = w.device.enqueueInitAndKick rc := by
  unfold enqueueInitAndKick Device.enqueueInitAndKick gatewayUsbEnqueueInitPacket
  dsimp only
  split
  · rw [kickTx_device]
  · rfl

@[simp] theorem retryInit_device (rc : Int) :
    (w.gatewayUsbRetryInitIfNeeded rc).device = w.device.gatewayUsbRetryInitIfNeeded rc := by
  unfold gatewayUsbRetryInitIfNeeded Device.gatewayUsbRetryInitIfNeeded
  split
  · rfl
  split
  · rfl
  · exact enqueueInitAndKick_device w rc

@[simp] theorem inComplete_device (actual : Nat) (rc : Int) :
    (w.gatewayUsbInComplete actual rc).device = w.device.gatewayUsbInComplete actual rc := by
  unfold gatewayUsbInComplete Device.gatewayUsbInComplete
  rw [kickTx_device]

@[simp] theorem relayPacket_device (p : Plain) (encryptedOk : Bool) (rc : Int) :
    (w.relayPacket ks p encryptedOk rc).device = w.device.relayPacket ks p encryptedOk rc := by
  unfold relayPacket Device.relayPacket gatewayUsbEnqueueInitPacket gatewayUsbEnqueueMediaPacket
  split
  · rfl
  dsimp only
  split
  · rfl
  split
  · rfl
  · rw [kickTx_device]

@[simp] theorem answer_device (index : Nat) (packet : OutPacket) (seqNo : UInt32)
    (calls : OutCalls) :
    (w.answer index packet seqNo calls).device = w.device.answer seqNo calls := by
  unfold answer Device.answer
  rw [enqueueInitAndKick_device, sendPong_device]

@[simp] theorem outComplete_device (index : Nat) (status : Int) (actual : Nat) (raw : Bytes)
    (calls : OutCalls) (moved : Nat) :
    (w.gatewayUsbOutComplete index status actual raw calls moved).device =
      w.device.gatewayUsbOutComplete status actual raw calls := by
  unfold gatewayUsbOutComplete Device.gatewayUsbOutComplete
  split
  · rfl
  dsimp only
  cases outPacket actual raw with
  | short | config => rfl
  | ping seqNo => rw [answer_device, resetStreamSession_device]
  | other seqNo => rw [answer_device]

/-- **The log changes nothing**: the USB function takes the steps of `deviceStep`. -/
theorem logStep_device (index : Nat) (e : DeviceEvent) (moved : Nat) :
    (logStep ks w index e moved).map (·.device) = deviceStep ks w.device e := by
  cases e with
  | inComplete actual rc =>
    simp only [logStep, deviceStep]
    split <;> simp
  | inError =>
    simp only [logStep, deviceStep]
    split <;> simp
  | disconnect | suspend | resume => rfl
  | _ => simp [logStep, deviceStep]

end LoggedDevice

/-! ## The log grows -/

/-- The log goes on, and no OUT packet is answered. -/
def LogsOn (w w' : LoggedDevice) : Prop :=
  ∃ es, w'.log = w.log ++ es ∧ ∀ e ∈ es, e.isOut = false

/-- The packet of an OUT completion. -/
def DeviceEvent.packet : DeviceEvent → Option OutPacket
  | .outComplete _ actual raw _ => some (outPacket actual raw)
  | _ => none

theorem LogsOn.of_eq {w w' : LoggedDevice} (h : w'.log = w.log) : LogsOn w w' :=
  ⟨[], by rw [h, List.append_nil], fun _ he => by cases he⟩

theorem LogsOn.refl (w : LoggedDevice) : LogsOn w w := .of_eq rfl

theorem LogsOn.trans {a b c : LoggedDevice} (h : LogsOn a b) (h' : LogsOn b c) : LogsOn a c := by
  obtain ⟨es, hes, hout⟩ := h
  obtain ⟨es', hes', hout'⟩ := h'
  refine ⟨es ++ es', by rw [hes', hes, List.append_assoc], ?_⟩
  intro e he
  exact (List.mem_append.1 he).elim (hout e) (hout' e)

namespace LoggedDevice

variable {ks : KeyStream} {w w' : LoggedDevice}

theorem logsOn_complete (w : LoggedDevice) (moved : Nat) : LogsOn w (w.complete moved) := by
  unfold complete
  split
  · exact .refl w
  · exact ⟨_, rfl, by simp [LogEntry.isOut]⟩

theorem logsOn_kickTx (w : LoggedDevice) (rc : Int) : LogsOn w (w.gatewayUsbKickTx rc) := by
  unfold gatewayUsbKickTx
  split <;> exact .of_eq rfl

theorem logsOn_sendPong (w : LoggedDevice) (i : Nat) (q : UInt32) (rc : Int) :
    LogsOn w (w.gatewayUsbSendPong i q rc) := by
  unfold gatewayUsbSendPong
  split <;> exact .of_eq rfl

theorem logsOn_resetStreamSession (w : LoggedDevice) (rc : Int) (moved : Nat) :
    LogsOn w (w.gatewayUsbResetStreamSession rc moved) := by
  unfold gatewayUsbResetStreamSession
  split
  · exact .refl w
  split
  · exact (logsOn_complete w moved).trans (.of_eq rfl)
  · exact .of_eq rfl

theorem logsOn_inError (w : LoggedDevice) (moved : Nat) : LogsOn w (w.gatewayUsbInError moved) := by
  unfold gatewayUsbInError
  split <;> exact (logsOn_complete w moved).trans (.of_eq rfl)

theorem logsOn_usbEpDisable (w : LoggedDevice) (moved : Nat) :
    LogsOn w (w.usbEpDisable moved) := by
  unfold usbEpDisable
  split
  · exact logsOn_inError w moved
  · exact .refl w

theorem logsOn_disable (w : LoggedDevice) (moved : Nat) :
    LogsOn w (w.gatewayUsbFunctionDisable moved) :=
  .trans (.of_eq rfl) (logsOn_usbEpDisable _ moved)

theorem logsOn_setAltEnable (w : LoggedDevice) (calls : Device.SetAltCalls) (moved : Nat) :
    LogsOn w (w.setAltEnable calls moved) := by
  unfold setAltEnable
  split
  · exact .refl w
  split
  · exact logsOn_usbEpDisable w moved
  dsimp only
  split
  · exact .trans (.of_eq rfl) (logsOn_disable _ moved)
  · exact .of_eq rfl

theorem logsOn_setAlt (w : LoggedDevice) (calls : Device.SetAltCalls) (moved : Nat) :
    LogsOn w (w.gatewayUsbFunctionSetAlt calls moved) := by
  unfold gatewayUsbFunctionSetAlt
  split
  · exact (logsOn_disable w moved).trans (logsOn_setAltEnable _ calls moved)
  · exact logsOn_setAltEnable w calls moved

theorem isOut_ite {c : Prop} [Decidable c] {x : LogEntry} (hx : x.isOut = false) :
    ∀ e ∈ if c then [x] else [], e.isOut = false := by
  intro e he
  split at he
  · exact List.mem_singleton.1 he ▸ hx
  · cases he

theorem logsOn_enqueueInit (w : LoggedDevice) : LogsOn w w.gatewayUsbEnqueueInitPacket.2 :=
  ⟨_, rfl, isOut_ite rfl⟩

theorem logsOn_enqueueMedia (ks : KeyStream) (w : LoggedDevice) (p : Plain) (encryptedOk : Bool) :
    LogsOn w (w.gatewayUsbEnqueueMediaPacket ks p encryptedOk).2 :=
  ⟨_, rfl, isOut_ite rfl⟩

theorem logsOn_enqueueInitAndKick (w : LoggedDevice) (rc : Int) :
    LogsOn w (w.enqueueInitAndKick rc) := by
  have hinit := logsOn_enqueueInit w
  unfold enqueueInitAndKick
  dsimp only
  split
  · exact hinit.trans (logsOn_kickTx _ rc)
  · exact hinit

theorem logsOn_relayPacket (ks : KeyStream) (w : LoggedDevice) (p : Plain) (encryptedOk : Bool)
    (rc : Int) : LogsOn w (w.relayPacket ks p encryptedOk rc) := by
  have hinit := logsOn_enqueueInit w
  have hmedia := hinit.trans (logsOn_enqueueMedia ks _ p encryptedOk)
  unfold relayPacket
  split
  · exact .refl w
  dsimp only
  split
  · exact hinit
  split
  · exact hmedia
  · exact hmedia.trans (logsOn_kickTx _ rc)

theorem log_answer (w : LoggedDevice) (i : Nat) (p : OutPacket) (q : UInt32) (calls : OutCalls) :
    ∃ es, (w.answer i p q calls).log = w.log ++ .out w.session i p :: es ∧
      ∀ e ∈ es, e.isOut = false := by
  obtain ⟨es, hlog, hout⟩ := (logsOn_sendPong { w with log := w.log ++ [.out w.session i p] } i q
    calls.pongRc).trans (logsOn_enqueueInitAndKick _ calls.kickRc)
  exact ⟨es, hlog.trans (List.append_assoc _ _ _), hout⟩

/-- An OUT completion answers at most its own packet. -/
theorem log_outComplete (w : LoggedDevice) (i : Nat) (status : Int) (actual : Nat) (raw : Bytes)
    (calls : OutCalls) (moved : Nat) :
    ∃ es, (w.gatewayUsbOutComplete i status actual raw calls moved).log = w.log ++ es ∧
      ∀ k j p, .out k j p ∈ es → j = i ∧ p = outPacket actual raw := by
  unfold gatewayUsbOutComplete
  split
  · exact ⟨[], (List.append_nil _).symm, fun _ _ _ he => by cases he⟩
  dsimp only
  have hown (k : Nat) (es : List LogEntry) (hes : ∀ e ∈ es, e.isOut = false) (k' j : Nat)
      (p : OutPacket) (he : .out k' j p ∈ .out k i (outPacket actual raw) :: es) :
      j = i ∧ p = outPacket actual raw := by
    rcases List.mem_cons.1 he with heq | he
    · cases heq
      exact ⟨rfl, rfl⟩
    · cases hes _ he
  cases hp : outPacket actual raw with
  | short | config => exact ⟨[], (List.append_nil _).symm, fun _ _ _ he => by cases he⟩
  | other q =>
    obtain ⟨es, hlog, hout⟩ := log_answer
      { w with device := { w.device with usbHostReady := true } } i (.other q) q calls
    exact ⟨_, hlog, hp ▸ hown _ es hout⟩
  | ping q =>
    obtain ⟨es, hlog, hout⟩ := logsOn_resetStreamSession
      { w with device := { w.device with usbHostReady := true } } calls.dequeueRc moved
    obtain ⟨es', hlog', hout'⟩ := log_answer (gatewayUsbResetStreamSession
      { w with device := { w.device with usbHostReady := true } } calls.dequeueRc moved) i
      (.ping q) q calls
    rw [hlog, List.append_assoc] at hlog'
    refine ⟨_, hlog', ?_⟩
    intro k j p he
    rcases List.mem_append.1 he with he | he
    · cases hout _ he
    · exact hp ▸ hown _ es' hout' k j p (hp.symm ▸ he)

/-- **A step adds to the log**, and answers the packet of an OUT completion at most. -/
theorem logStep_log {i : Nat} {e : DeviceEvent} {moved : Nat}
    (hs : logStep ks w i e moved = some w') :
    ∃ es, w'.log = w.log ++ es ∧ ∀ k j p, .out k j p ∈ es → j = i ∧ e.packet = some p := by
  have hquiet (h : LogsOn w w') :
      ∃ es, w'.log = w.log ++ es ∧ ∀ k j p, .out k j p ∈ es → j = i ∧ e.packet = some p := by
    obtain ⟨es, hlog, hout⟩ := h
    exact ⟨es, hlog, fun k j p he => by cases hout _ he⟩
  cases e with
  | outComplete status actual raw calls =>
    cases hs
    obtain ⟨es, hlog, hout⟩ := log_outComplete w i status actual raw calls moved
    refine ⟨es, hlog, ?_⟩
    intro k j p he
    obtain ⟨hj, rfl⟩ := hout k j p he
    exact ⟨hj, rfl⟩
  | inComplete actual rc =>
    simp only [logStep, Option.ite_none_right_eq_some, Option.some.injEq] at hs
    obtain ⟨-, rfl⟩ := hs
    exact hquiet (((logsOn_complete w _).trans (.of_eq rfl)).trans (logsOn_kickTx _ rc))
  | inError =>
    simp only [logStep, Option.ite_none_right_eq_some, Option.some.injEq] at hs
    obtain ⟨-, rfl⟩ := hs
    exact hquiet (logsOn_inError w moved)
  | setAlt calls =>
    cases hs
    exact hquiet (logsOn_setAlt w calls moved)
  | disable =>
    cases hs
    exact hquiet (logsOn_disable w moved)
  | disconnect | suspend | resume =>
    cases hs
    exact hquiet (.of_eq rfl)
  | forceConfigure speedOk calls =>
    cases hs
    apply hquiet
    unfold gatewayUsbTryForceConfigure
    split
    · exact .refl w
    split
    · exact .refl w
    · exact logsOn_setAlt w calls moved
  | retryInit rc =>
    cases hs
    apply hquiet
    unfold gatewayUsbRetryInitIfNeeded
    split
    · exact .refl w
    split
    · exact .refl w
    · exact logsOn_enqueueInitAndKick w rc
  | watchdog rc =>
    cases hs
    exact hquiet (logsOn_resetStreamSession w rc moved)
  | media p encryptedOk rc =>
    cases hs
    exact hquiet (logsOn_relayPacket ks w p encryptedOk rc)

end LoggedDevice

/-! ## A consistent log -/

@[simp] theorem transfers_append (a b : List LogEntry) :
    transfers (a ++ b) = transfers a ++ transfers b := List.filterMap_append

@[simp] theorem chunkData_append (k : Nat) (a b : List Transfer) :
    chunkData k (a ++ b) = chunkData k a ++ chunkData k b := List.flatMap_append

@[simp] theorem acceptedPackets_append (k : Nat) (a b : List LogEntry) :
    acceptedPackets k (a ++ b) = acceptedPackets k a ++ acceptedPackets k b :=
  List.filterMap_append

theorem mem_transfers {log : List LogEntry} {t : Transfer} :
    t ∈ transfers log ↔ .transfer t ∈ log := by
  refine List.mem_filterMap.trans ⟨?_, fun h => ⟨_, h, rfl⟩⟩
  rintro ⟨e, he, heq⟩
  cases e <;> cases heq
  exact he

theorem transfers_transfer (log : List LogEntry) (t : Transfer) :
    transfers (log ++ [.transfer t]) = transfers log ++ [t] := by
  rw [transfers_append]
  rfl

theorem sessionStream_transfer (k : Nat) (log : List LogEntry) (t : Transfer) :
    sessionStream k (log ++ [.transfer t]) = sessionStream k log := by
  have hnil : acceptedPackets k [.transfer t] = [] := rfl
  simp [sessionStream, hnil]

theorem chunkData_eq_nil {k : Nat} {ts : List Transfer} (h : ∀ t ∈ ts, t.session ≠ k) :
    chunkData k ts = [] :=
  List.flatMap_eq_nil_iff.2 fun t ht => if_neg fun hk => h t ht hk.1

theorem Answered.append {log : List LogEntry} {k i : Nat} {q : UInt32} (h : Answered log k i q)
    (l : List LogEntry) : Answered (log ++ l) k i q := by
  obtain ⟨pre, p, post, rfl, hseq, hping⟩ := h
  exact ⟨pre, p, post ++ l, by simp, hseq, hping⟩

/-- The sessions of the log are those up to `session`, one after the other; the chunks of each
are the start of its stream, which starts with the INIT record; and a PONG answers a packet. -/
structure LogOk (log : List LogEntry) (session : Nat) : Prop where
  bounded : ∀ e ∈ log, e.session ≤ session
  sorted : (transfers log).Pairwise fun t t' => t.session ≤ t'.session
  starts : ∀ k, chunkData k (transfers log) <+: sessionStream k log
  init : ∀ k, .init k ∉ log → acceptedPackets k log = []
  pongs : ∀ t ∈ transfers log, ∀ i q, t.data = .pong i q →
    t.bytes <+: pongPacket q ∧ Answered log t.session i q

section
variable {log : List LogEntry} {n : Nat}

theorem LogOk.mono (h : LogOk log n) {m : Nat} (hn : n ≤ m) : LogOk log m :=
  ⟨fun e he => (h.bounded e he).trans hn, h.sorted, h.starts, h.init, h.pongs⟩

theorem LogOk.above (h : LogOk log n) {k : Nat} (hk : n < k) :
    .init k ∉ log ∧ chunkData k (transfers log) = [] ∧ sessionStream k log = [] := by
  have hinit : .init k ∉ log := fun hmem => absurd (h.bounded _ hmem) (not_le.2 hk)
  refine ⟨hinit, chunkData_eq_nil ?_, ?_⟩
  · intro t ht
    have hle : t.session ≤ n := h.bounded _ (mem_transfers.1 ht)
    exact (hle.trans_lt hk).ne
  · rw [sessionStream, if_neg hinit, h.init k hinit]
    rfl

theorem LogOk.snoc_transfer (h : LogOk log n) {t : Transfer} (hn : t.session ≤ n)
    (hlast : ∀ t' ∈ transfers log, t'.session ≤ t.session)
    (hchunk : t.data = .chunk →
      chunkData t.session (transfers log) ++ t.bytes <+: sessionStream t.session log)
    (hpong : ∀ i q, t.data = .pong i q → t.bytes <+: pongPacket q ∧ Answered log t.session i q) :
    LogOk (log ++ [.transfer t]) n := by
  have htransfers := transfers_transfer log t
  refine ⟨?_, ?_, ?_, ?_, ?_⟩
  · intro e he
    rcases List.mem_append.1 he with he | he
    · exact h.bounded e he
    · rw [List.mem_singleton.1 he]
      exact hn
  · rw [htransfers]
    exact List.pairwise_append.2 ⟨h.sorted, List.pairwise_singleton _ _, fun t' ht' t'' ht'' => by
      rw [List.mem_singleton.1 ht'']
      exact hlast t' ht'⟩
  · intro k
    rw [htransfers, chunkData_append, sessionStream_transfer]
    by_cases hk : t.session = k ∧ t.data = .chunk
    · have hbytes : chunkData k [t] = t.bytes := by simp [chunkData, hk]
      rw [hbytes, ← hk.1]
      exact hchunk hk.2
    · have hnil : chunkData k [t] = [] := by simp [chunkData, hk]
      rw [hnil, List.append_nil]
      exact h.starts k
  · intro k hk
    rw [acceptedPackets_append, h.init k fun hmem => hk (List.mem_append_left _ hmem)]
    rfl
  · intro t' ht' i q hd
    rw [htransfers] at ht'
    have hpong' : t'.bytes <+: pongPacket q ∧ Answered log t'.session i q := by
      rcases List.mem_append.1 ht' with ht' | ht'
      · exact h.pongs t' ht' i q hd
      · rw [List.mem_singleton.1 ht'] at hd ⊢
        exact hpong i q hd
    exact ⟨hpong'.1, hpong'.2.append _⟩

/-- An entry that is no transfer keeps the log consistent if the streams go on. -/
theorem LogOk.snoc (h : LogOk log n) {e : LogEntry} (he : e.transfer? = none)
    (hn : e.session ≤ n) (hstream : ∀ k, sessionStream k log <+: sessionStream k (log ++ [e]))
    (hinit : ∀ k, .init k ∉ log ++ [e] → acceptedPackets k [e] = []) : LogOk (log ++ [e]) n := by
  have htransfers : transfers (log ++ [e]) = transfers log := by
    rw [transfers_append, transfers, transfers, List.filterMap_cons_none he, List.filterMap_nil,
      List.append_nil]
  refine ⟨?_, htransfers ▸ h.sorted, ?_, ?_,
    ?_⟩
  · intro e' he'
    rcases List.mem_append.1 he' with he' | he'
    · exact h.bounded e' he'
    · rw [List.mem_singleton.1 he']
      exact hn
  · intro k
    rw [htransfers]
    exact (h.starts k).trans (hstream k)
  · intro k hk
    rw [acceptedPackets_append, hinit k hk, h.init k fun hmem => hk (List.mem_append_left _ hmem)]
    rfl
  · intro t ht i q hd
    obtain ⟨hpre, hans⟩ := h.pongs t (htransfers ▸ ht) i q hd
    exact ⟨hpre, hans.append _⟩

theorem sessionStream_init (hno : .init n ∉ log) (hnone : acceptedPackets n log = []) :
    sessionStream n log = [] ∧ sessionStream n (log ++ [.init n]) = initRecord := by
  have hnil : acceptedPackets n [.init n] = [] := rfl
  constructor
  · rw [sessionStream, if_neg hno, hnone]
    rfl
  · rw [sessionStream, if_pos (by simp), acceptedPackets_append, hnone, hnil]
    simp

theorem LogOk.snoc_init (h : LogOk log n) (hno : .init n ∉ log) : LogOk (log ++ [.init n]) n := by
  refine h.snoc rfl le_rfl ?_ fun k _ => rfl
  intro k
  by_cases hk : k = n
  · subst hk
    rw [(sessionStream_init hno (h.init k hno)).1]
    exact List.nil_prefix
  · have hnil : acceptedPackets k [.init n] = [] := rfl
    simp [sessionStream, hk, hnil]

theorem sessionStream_packet (hin : .init n ∈ log) (b : Bytes) :
    sessionStream n (log ++ [.packet n b]) = sessionStream n log ++ b := by
  have hone : acceptedPackets n [.packet n b] = [b] := by simp [acceptedPackets, LogEntry.packet?]
  simp [sessionStream, hin, hone]

theorem LogOk.snoc_packet (h : LogOk log n) (hin : .init n ∈ log) (b : Bytes) :
    LogOk (log ++ [.packet n b]) n := by
  refine h.snoc rfl le_rfl ?_ ?_
  · intro k
    by_cases hk : k = n
    · subst hk
      rw [sessionStream_packet hin]
      exact List.prefix_append _ _
    · have hnil : acceptedPackets k [.packet n b] = [] := by
        simp [acceptedPackets, LogEntry.packet?, Ne.symm hk]
      simp [sessionStream, hnil]
  · intro k hk
    have hne : n ≠ k := fun heq => hk (List.mem_append_left _ (heq ▸ hin))
    simp [acceptedPackets, LogEntry.packet?, hne]

theorem LogOk.snoc_out (h : LogOk log n) (i : Nat) (p : OutPacket) :
    LogOk (log ++ [.out n i p]) n := by
  refine h.snoc rfl le_rfl ?_ fun k _ => rfl
  intro k
  have hnil : acceptedPackets k [.out n i p] = [] := rfl
  simp [sessionStream, hnil]

end

/-! ## The invariant -/

/-- No request is queued, and the ring is empty. -/
structure Idle (d : Device) : Prop where
  usb : Fresh d.usb
  outstanding : d.outstanding = false
  quiet : d.usb.streamResetting = false

structure LogInv (w : LoggedDevice) : Prop where
  ok : UsbOk w.device.usb
  outstanding : w.device.outstanding = w.device.usb.inBusy
  quiet : w.device.usb.streamResetting = false
  flight : w.flight.map (fun f => f.2.kind) = w.device.usb.endpoint
  current : ∀ f, w.flight = some f → f.1 = w.session
  pong : ∀ k i q, w.flight = some (k, .pong i q) →
    w.device.usb.inBuf.take w.device.usb.reqLength = pongPacket q ∧ Answered w.log k i q
  data : chunkData w.session (transfers w.log) ++ w.device.usb.tx.contents =
    sessionStream w.session w.log
  init : w.device.usb.protoInitSent = true ↔ .init w.session ∈ w.log
  log : LogOk w.log w.session

section
variable {w : LoggedDevice}

theorem LogInv.flight_none (h : LogInv w) (hb : w.device.usb.inBusy = false) : w.flight = none := by
  have hend := h.flight
  rwa [h.ok.idle hb, Option.map_eq_none_iff] at hend

/-- A request that is given back leaves a consistent log. -/
theorem LogInv.complete_log (h : LogInv w) (moved : Nat) :
    LogOk (w.complete moved).log w.session := by
  unfold LoggedDevice.complete
  split
  · exact h.log
  rename_i k data hflight
  have hk : k = w.session := h.current _ hflight
  subst hk
  refine h.log.snoc_transfer le_rfl (fun t ht => h.log.bounded _ (mem_transfers.1 ht)) ?_ ?_
  · rintro rfl
    have hend : w.device.usb.endpoint = some .chunk := by
      rw [← h.flight, hflight]
      rfl
    obtain ⟨-, -, -, hbuf⟩ := h.ok.chunk hend
    dsimp only
    rw [hbuf, List.take_take, ← h.data]
    exact (List.prefix_append_right_inj _).2 (List.take_prefix _ _)
  · rintro i q rfl
    obtain ⟨hbuf, hans⟩ := h.pong _ i q hflight
    dsimp only
    rw [hbuf]
    exact ⟨List.take_prefix _ _, hans⟩

/-- A reset, which begins a session. -/
theorem LogInv.cut (h : LogInv w) {d : Device} (hd : Idle d) {n : Nat} (hn : w.session < n)
    (moved : Nat) : LogInv ⟨d, n, none, (w.complete moved).log⟩ := by
  have hlog := h.complete_log moved
  obtain ⟨hinit, hchunk, hstream⟩ := hlog.above hn
  have hend : d.usb.endpoint = none := hd.usb.endpoint
  refine ⟨⟨hd.usb.tx, ?_, ?_, ?_⟩, ?_, hd.quiet, hend.symm, ?_, ?_, ?_, ?_, hlog.mono hn.le⟩
  · rw [hd.usb.inBusy, hend]
    rfl
  · rw [hend]
    rintro ⟨⟩
  · rw [hend]
    rintro ⟨⟩
  · rw [hd.outstanding, hd.usb.inBusy]
  · rintro f ⟨⟩
  · rintro k i q ⟨⟩
  · rw [hchunk, hstream, hd.usb.contents]
    rfl
  · exact ⟨fun hsent => absurd hsent (by simp [hd.usb.protoInitSent]),
      fun hmem => absurd hmem hinit⟩

theorem logInv_idle {d : Device} (hd : Idle d) : LogInv { device := d } where
  ok := ⟨hd.usb.tx, by rw [hd.usb.inBusy, hd.usb.endpoint]; rfl,
    by rw [hd.usb.endpoint]; rintro ⟨⟩, by rw [hd.usb.endpoint]; rintro ⟨⟩⟩
  outstanding := hd.outstanding.trans hd.usb.inBusy.symm
  quiet := hd.quiet
  flight := hd.usb.endpoint.symm
  current := by rintro f ⟨⟩
  pong := by rintro k i q ⟨⟩
  data := by rw [hd.usb.contents]; rfl
  init := by simp [hd.usb.protoInitSent]
  log := ⟨by simp, List.Pairwise.nil, fun k => List.nil_prefix, fun k _ => rfl,
    by simp [transfers]⟩

theorem complete_none (hf : w.flight = none) (moved : Nat) : w.complete moved = w := by
  unfold LoggedDevice.complete
  rw [hf]

theorem complete_flight (w : LoggedDevice) (moved : Nat) : (w.complete moved).flight = none := by
  unfold LoggedDevice.complete
  split
  · assumption
  · rfl

theorem complete_session (w : LoggedDevice) (moved : Nat) :
    (w.complete moved).session = w.session := by
  unfold LoggedDevice.complete
  split <;> rfl

theorem complete_reset (w : LoggedDevice) (d : Device) (moved : Nat) :
    (w.complete moved).reset d = ⟨d, w.session + 1, none, (w.complete moved).log⟩ := by
  unfold LoggedDevice.reset
  rw [complete_flight, complete_session]

/-! ### The handlers -/

/-- A request is queued while the controller has none. -/
theorem logInv_queue (h : LogInv w) (hidle : w.device.usb.inBusy = false) {u : Usb} {data : InData}
    {rc : Int} (hok : UsbOk u) (hsame : SameStream w.device.usb u)
    (hend : u.endpoint = if rc = 0 then some data.kind else none)
    (hpong : ∀ i q, data = .pong i q →
      u.inBuf.take u.reqLength = pongPacket q ∧ Answered w.log w.session i q) :
    LogInv (w.queue (w.device.queue u rc) data rc) := by
  unfold LoggedDevice.queue
  rw [h.flight_none hidle]
  refine ⟨hok, ?_, hsame.streamResetting.trans h.quiet, ?_, ?_, ?_, ?_, ?_, h.log⟩
  · show (w.device.outstanding || rc == 0) = u.inBusy
    rw [hok.busy, hend, h.outstanding, hidle]
    by_cases hrc : rc = 0 <;> simp [hrc]
  · show Option.map _ _ = u.endpoint
    rw [hend]
    by_cases hrc : rc = 0 <;> simp [hrc]
  · intro f hf
    by_cases hrc : rc = 0 <;> simp [hrc] at hf
    rw [← hf]
  · intro k i q hf
    by_cases hrc : rc = 0 <;> simp [hrc] at hf
    obtain ⟨rfl, rfl⟩ := hf
    exact hpong i q rfl
  · show _ ++ u.tx.contents = _
    rw [hsame.tx]
    exact h.data
  · show u.protoInitSent = true ↔ _
    rw [hsame.protoInitSent]
    exact h.init

theorem logInv_kickTx (h : LogInv w) (rc : Int) : LogInv (w.gatewayUsbKickTx rc) := by
  unfold LoggedDevice.gatewayUsbKickTx
  split
  case isFalse => exact h
  case isTrue hkick =>
  have hk := (Bool.and_eq_true_iff.1 hkick).2
  have hidle := kicks_idle hk
  obtain ⟨hok, hsame⟩ := kickTx_ok h.ok rc
  have hdev : w.device.gatewayUsbKickTx rc =
      w.device.queue (gatewayUsbKickTx w.device.usb rc).2 rc := by
    simp [Device.gatewayUsbKickTx, hkick]
  have hend : (gatewayUsbKickTx w.device.usb rc).2.endpoint =
      if rc = 0 then some .chunk else none := by
    have hnil := h.ok.idle hidle
    unfold kicks at hk
    unfold gatewayUsbKickTx
    by_cases hrc : rc = 0 <;> simp_all
  rw [hdev]
  exact logInv_queue h hidle hok hsame hend nofun

theorem logInv_sendPong (h : LogInv w) {i : Nat} {q : UInt32} (rc : Int)
    (hans : w.device.inReq = true → Answered w.log w.session i q) :
    LogInv (w.gatewayUsbSendPong i q rc) := by
  unfold LoggedDevice.gatewayUsbSendPong
  split
  case isTrue => exact h
  case isFalse hready =>
  obtain ⟨hreq, hidle⟩ := not_or.1 hready
  have hreq : w.device.inReq = true := not_not.1 hreq
  have hidle : w.device.usb.inBusy = false := by simpa using hidle
  obtain ⟨hok, hsame⟩ := sendPong_ok h.ok q rc
  have hdev : w.device.gatewayUsbSendPong q rc =
      w.device.queue (gatewayUsbSendPong w.device.usb q rc).2 rc := by
    simp [Device.gatewayUsbSendPong, hreq, hidle]
  have hsent : (gatewayUsbSendPong w.device.usb q rc).2.endpoint =
      (if rc = 0 then some .pong else none) ∧
      (gatewayUsbSendPong w.device.usb q rc).2.inBuf.take
        (gatewayUsbSendPong w.device.usb q rc).2.reqLength = pongPacket q := by
    have hnil := h.ok.idle hidle
    have htake : (pongPacket q ++
        List.replicate (usbInChunkSize - (pongPacket q).length) 0).take (pongPacket q).length =
          pongPacket q := List.take_left
    unfold gatewayUsbSendPong
    by_cases hrc : rc = 0 <;> simp [hidle, hrc, hnil, htake]
  rw [hdev]
  apply logInv_queue h hidle hok hsame hsent.1
  intro j q' hpong
  cases hpong
  exact ⟨hsent.2, hans hreq⟩

/-- The INIT record is enqueued at most once in a session. -/
theorem logInv_enqueueInit (h : LogInv w) :
    LogInv w.gatewayUsbEnqueueInitPacket.2 ∧
      (w.gatewayUsbEnqueueInitPacket.1 = true →
        w.gatewayUsbEnqueueInitPacket.2.device.usb.protoInitSent = true) := by
  unfold LoggedDevice.gatewayUsbEnqueueInitPacket
  rcases enqueueInit_cases h.ok.tx with ⟨hsent, heq⟩ |
    ⟨hsent, tx', htx, ⟨heq, hcont⟩ | ⟨heq, hcont⟩⟩ <;> rw [heq]
  · simp only [hsent, Bool.not_true, Bool.and_false, Bool.false_eq_true, if_false, List.append_nil]
    exact ⟨h, fun _ => trivial⟩
  · have hno : .init w.session ∉ w.log := fun hmem => by
      have hyes := h.init.2 hmem
      rw [hsent] at hyes
      cases hyes
    obtain ⟨hnil, hinit⟩ := sessionStream_init hno (h.log.init _ hno)
    have hdata := h.data
    rw [hnil] at hdata
    obtain ⟨hchunk, hempty⟩ := List.append_eq_nil_iff.1 hdata
    have htransfers : transfers (w.log ++ [.init w.session]) = transfers w.log := by
      rw [transfers_append]
      exact List.append_nil _
    simp only [hsent, Bool.not_false, Bool.and_true, if_true]
    refine ⟨⟨h.ok.enqueue htx hcont true, h.outstanding, h.quiet, h.flight, h.current,
      ?_, ?_, ?_, h.log.snoc_init hno⟩, fun _ => trivial⟩
    · intro k i q hf
      obtain ⟨hbuf, hans⟩ := h.pong k i q hf
      exact ⟨hbuf, hans.append _⟩
    · show chunkData w.session _ ++ tx'.contents = _
      rw [htransfers, hchunk, hcont, hempty, hinit]
      rfl
    · simp
  · have hcont' : tx'.contents = w.device.usb.tx.contents ++ [] := by
      rw [hcont, List.append_nil]
    simp only [Bool.false_and, Bool.false_eq_true, if_false, List.append_nil]
    refine ⟨⟨h.ok.enqueue htx hcont' _, h.outstanding, h.quiet, h.flight, h.current, h.pong, ?_,
      h.init, h.log⟩, (fun hok => by cases hok)⟩
    show _ ++ tx'.contents = _
    rw [hcont]
    exact h.data

/-- A media packet is enqueued behind the INIT record, or refused. -/
theorem logInv_enqueueMedia (h : LogInv w) (ks : KeyStream) {p : Plain}
    (hsent : w.device.usb.protoInitSent = true)
    (hsize : cryptoStreamPacketSize p.2.2.length < 2 ^ 31) (encryptedOk : Bool) :
    LogInv (w.gatewayUsbEnqueueMediaPacket ks p encryptedOk).2 := by
  unfold LoggedDevice.gatewayUsbEnqueueMediaPacket
  have hin := h.init.1 hsent
  obtain ⟨tx', htx, ⟨heq, hcont⟩ | ⟨heq, hcont⟩⟩ :=
    enqueueMedia_cases ks h.ok.tx p.1 p.2.1 hsize encryptedOk <;> rw [heq]
  · have htransfers (b : Bytes) : transfers (w.log ++ [.packet w.session b]) = transfers w.log := by
      rw [transfers_append]
      exact List.append_nil _
    simp only [if_true]
    refine ⟨h.ok.enqueue htx hcont _, h.outstanding, h.quiet, h.flight, h.current,
      ?_, ?_, ?_, h.log.snoc_packet hin _⟩
    · intro k i q hf
      obtain ⟨hbuf, hans⟩ := h.pong k i q hf
      exact ⟨hbuf, hans.append _⟩
    · show chunkData w.session _ ++ tx'.contents = _
      rw [htransfers, hcont, ← List.append_assoc, h.data, sessionStream_packet hin]
    · simp [hsent, hin]
  · have hcont' : tx'.contents = w.device.usb.tx.contents ++ [] := by
      rw [hcont, List.append_nil]
    simp only [Bool.false_eq_true, if_false, List.append_nil]
    refine ⟨h.ok.enqueue htx hcont' _, h.outstanding, h.quiet, h.flight, h.current, h.pong, ?_,
      h.init, h.log⟩
    show _ ++ tx'.contents = _
    rw [hcont]
    exact h.data

theorem logInv_enqueueInitAndKick (h : LogInv w) (rc : Int) : LogInv (w.enqueueInitAndKick rc) := by
  obtain ⟨hinit, -⟩ := logInv_enqueueInit h
  unfold LoggedDevice.enqueueInitAndKick
  dsimp only
  split
  · exact logInv_kickTx hinit rc
  · exact hinit

theorem logInv_relayPacket (h : LogInv w) (ks : KeyStream) {p : Plain}
    (hsize : cryptoStreamPacketSize p.2.2.length < 2 ^ 31) (encryptedOk : Bool) (rc : Int) :
    LogInv (w.relayPacket ks p encryptedOk rc) := by
  obtain ⟨hinit, hsent⟩ := logInv_enqueueInit h
  unfold LoggedDevice.relayPacket
  split
  · exact h
  dsimp only
  split
  · exact hinit
  rename_i hok
  have hmedia := logInv_enqueueMedia hinit ks (hsent (not_not.1 hok)) hsize encryptedOk
  split
  · exact hmedia
  · exact logInv_kickTx hmedia rc

/-- A completion takes the bytes that reached the host off the ring, a PONG's none. -/
theorem consumed_ok {u : Usb} (h : UsbOk u) {kind : InKind} (hend : u.endpoint = some kind)
    (actual : Nat) :
    let moved := if 0 < actual ∧ actual < u.reqLength then actual else u.reqLength
    let u' := Device.consumeChunk u actual
    UsbOk u' ∧
      u'.tx.contents = (if kind = .chunk then u.tx.contents.drop moved else u.tx.contents) ∧
      u'.protoInitSent = u.protoInitSent ∧ u'.streamResetting = u.streamResetting ∧
      u'.inBusy = false ∧ u'.endpoint = none := by
  intro moved u'
  unfold u' Device.consumeChunk
  dsimp only
  cases kind with
  | pong =>
    rw [if_neg (by rw [h.pong hend]; omega)]
    exact ⟨⟨h.tx, rfl, (fun hq => by cases hq), (fun hq => by cases hq)⟩, rfl, rfl, rfl, rfl, rfl⟩
  | chunk =>
    obtain ⟨hpos, hlen, -, -⟩ := h.chunk hend
    rw [if_pos hpos]
    refine ⟨⟨consumeChunk_ok h.tx _, rfl, (fun hq => by cases hq), (fun hq => by cases hq)⟩, ?_,
      rfl, rfl, rfl, rfl⟩
    show TxRing.contents _ = _
    rw [consumeChunk_contents h.tx, hlen]
    rfl

theorem logInv_inComplete (h : LogInv w) (hout : w.device.outstanding = true) (actual : Nat)
    (rc : Int) : LogInv (w.gatewayUsbInComplete actual rc) := by
  unfold LoggedDevice.gatewayUsbInComplete
  dsimp only
  refine logInv_kickTx ?_ rc
  have hbusy : w.device.usb.inBusy = true := h.outstanding ▸ hout
  obtain ⟨kind, hend⟩ := Option.isSome_iff_exists.1 (h.ok.busy ▸ hbusy)
  obtain ⟨hok, hcont, hsent, hquiet, hidle, hnone⟩ := consumed_ok h.ok hend actual
  obtain ⟨⟨k, data⟩, hflight, hkind⟩ := Option.map_eq_some_iff.1 (h.flight.trans hend)
  have hk : k = w.session := h.current _ hflight
  subst hk
  have hmoved : (if 0 < actual ∧ actual < w.device.usb.reqLength then actual
      else w.device.usb.reqLength) ≤ w.device.usb.reqLength := by split <;> omega
  have hlog := h.complete_log (if 0 < actual ∧ actual < w.device.usb.reqLength then actual
      else w.device.usb.reqLength)
  generalize (if 0 < actual ∧ actual < w.device.usb.reqLength then actual
    else w.device.usb.reqLength) = moved at *
  unfold LoggedDevice.complete at hlog ⊢
  rw [hflight] at hlog ⊢
  dsimp only at hlog ⊢
  generalize hbytes : (w.device.usb.inBuf.take w.device.usb.reqLength).take moved = bytes at hlog ⊢
  refine ⟨hok, hidle.symm, hquiet.trans h.quiet, hnone.symm, (fun f hf => by cases hf),
    (fun k i q hf => by cases hf), ?_, ?_, hlog⟩
  · show chunkData w.session _ ++ (Device.consumeChunk w.device.usb actual).tx.contents = _
    rw [transfers_transfer, chunkData_append, sessionStream_transfer, ← h.data, hcont]
    cases data with
    | pong i q =>
      cases hkind
      simp [chunkData, InData.kind]
    | chunk =>
      cases hkind
      obtain ⟨-, -, -, hbuf⟩ := h.ok.chunk hend
      have hfront : bytes = w.device.usb.tx.contents.take moved := by
        rw [← hbytes, hbuf, List.take_take, Nat.min_eq_left hmoved]
      have hchunk : chunkData w.session [⟨w.session, .chunk, bytes⟩] = bytes := by simp [chunkData]
      rw [hchunk, if_pos (by rfl), hfront, List.append_assoc, List.take_append_drop]
  · show (Device.consumeChunk w.device.usb actual).protoInitSent = true ↔ _
    rw [hsent, h.init]
    simp

/-- A reset of the stream, whose dequeue does not fail. -/
theorem logInv_resetStreamSession (h : LogInv w) {rc : Int}
    (hrc : w.device.usb.inBusy = true → rc = 0) (moved : Nat) :
    LogInv (w.gatewayUsbResetStreamSession rc moved) ∧
      (w.device.inReq = true →
        (w.gatewayUsbResetStreamSession rc moved).session = w.session + 1 ∧
        LogOk (w.gatewayUsbResetStreamSession rc moved).log w.session) := by
  unfold LoggedDevice.gatewayUsbResetStreamSession
  split
  case isTrue hreq => exact ⟨h, fun hyes => absurd hyes hreq⟩
  case isFalse hreq =>
  have hreq : w.device.inReq = true := not_not.1 hreq
  obtain ⟨hok, hdone⟩ := resetStreamSession_ok h.ok ⟨rc, w.device.outstanding && rc == 0⟩
  have hreset : Idle (w.device.gatewayUsbResetStreamSession rc) := by
    rw [Device.gatewayUsbResetStreamSession, if_neg (not_not.2 hreq)]
    refine ⟨⟨hok.tx, hdone.contents, hdone.protoInitSent, hdone.inBusy, hdone.endpoint⟩, ?_, ?_⟩
    · show (w.device.outstanding && !(w.device.usb.inBusy && rc == 0)) = false
      rw [h.outstanding]
      cases hb : w.device.usb.inBusy with
      | true => simp [hrc hb]
      | false => rfl
    · rw [h.outstanding]
      unfold gatewayUsbResetStreamSession gatewayUsbTxReset dequeueIn
      cases hb : w.device.usb.inBusy with
      | true => simp [hrc hb, inCompleteResetting]
      | false => simp
  have heq : (if w.device.usb.inBusy ∧ rc = 0 then w.complete moved else w) = w.complete moved := by
    split
    · rfl
    · rename_i hnot
      have hidle : w.device.usb.inBusy = false :=
        Bool.eq_false_iff.2 fun hb => hnot ⟨hb, hrc hb⟩
      exact (complete_none (h.flight_none hidle) moved).symm
  rw [heq, complete_reset]
  exact ⟨h.cut hreset (Nat.lt_succ_self _) moved, fun _ => ⟨rfl, h.complete_log moved⟩⟩

theorem idle_inError {d : Device} (htx : d.usb.tx.Ok) (hquiet : d.usb.streamResetting = false) :
    Idle d.gatewayUsbInError := by
  have hidle : UsbOk { d.usb with
      inCompleteCount := d.usb.inCompleteCount + 1, inErrorCount := d.usb.inErrorCount + 1
      inBusy := false, inFlightLen := 0, endpoint := none } :=
    ⟨htx, rfl, (fun hq => by cases hq), (fun hq => by cases hq)⟩
  obtain ⟨hok, hdone⟩ := resetStreamSession_ok hidle ⟨0, true⟩
  have hreset : Fresh (gatewayUsbInError d.usb) ∧
      (gatewayUsbInError d.usb).streamResetting = false := by
    rw [gatewayUsbInError, if_neg (by simp [hquiet])]
    exact ⟨⟨hok.tx, hdone.contents, hdone.protoInitSent, hdone.inBusy, hdone.endpoint⟩, rfl⟩
  exact ⟨hreset.1, rfl, hreset.2⟩

theorem logInv_inError (h : LogInv w) (moved : Nat) : LogInv (w.gatewayUsbInError moved) := by
  rw [LoggedDevice.gatewayUsbInError, if_neg (by simp [h.quiet]), complete_reset]
  exact h.cut (idle_inError h.ok.tx h.quiet) (Nat.lt_succ_self _) moved

theorem logInv_usbEpDisable (h : LogInv w) (moved : Nat) :
    LogInv (w.usbEpDisable moved) := by
  unfold LoggedDevice.usbEpDisable
  split
  · exact logInv_inError h moved
  · exact h

theorem logInv_reset (h : LogInv w) {d : Device} (hd : Idle d) (hidle : w.flight = none) :
    LogInv (w.reset d) := by
  have hcut := h.cut hd (Nat.lt_succ_self _) 0
  rw [complete_none hidle] at hcut
  unfold LoggedDevice.reset
  rwa [hidle]

theorem logInv_disable (h : LogInv w) (moved : Nat) :
    LogInv (w.gatewayUsbFunctionDisable moved) ∧
      (w.gatewayUsbFunctionDisable moved).device.outstanding = false := by
  refine ⟨?_, (LoggedDevice.disable_device w moved).symm ▸ usbEpDisable_idle⟩
  unfold LoggedDevice.gatewayUsbFunctionDisable
  generalize hd : ({ w.device with
    usbConfigured := false
    usb := gatewayUsbTxReset { w.device.usb with configured := false, inBusy := false }
    } : Device) = d
  have htx : d.usb.tx.Ok := by
    rw [← hd]
    exact reset_ok h.ok.tx
  have hquiet : d.usb.streamResetting = false := by
    rw [← hd]
    exact h.quiet
  have hout : d.outstanding = w.device.outstanding := by rw [← hd]
  unfold LoggedDevice.usbEpDisable
  split
  · -- the request completes with an error after the reset
    have hlog : ((w.reset d).complete moved).log = (w.complete moved).log := by
      have hbuf : d.usb.inBuf = w.device.usb.inBuf ∧ d.usb.reqLength = w.device.usb.reqLength := by
        rw [← hd]
        exact ⟨rfl, rfl⟩
      unfold LoggedDevice.complete LoggedDevice.reset
      dsimp only
      rw [hbuf.1, hbuf.2]
      cases w.flight <;> rfl
    have hresetting : (w.reset d).device.usb.streamResetting = false := hquiet
    rw [LoggedDevice.gatewayUsbInError, if_neg (by simp [hresetting]), complete_reset, hlog]
    exact h.cut (idle_inError htx hquiet) (Nat.lt_succ_of_lt (Nat.lt_succ_self _)) moved
  · rename_i hno
    have hno : d.outstanding = false := Bool.eq_false_iff.2 hno
    have hidle : w.device.usb.inBusy = false := h.outstanding ▸ hout ▸ hno
    refine logInv_reset h ⟨⟨htx, ?_, ?_, ?_, ?_⟩, hno, hquiet⟩ (h.flight_none hidle) <;> rw [← hd]
    · exact contents_reset _
    · rfl
    · rfl
    · exact h.ok.idle hidle

/-- `configured` is set while the controller does not have the request. -/
theorem logInv_setAltEnable (h : LogInv w) {calls : Device.SetAltCalls}
    (hc : w.device.Configures calls → w.device.outstanding = false) (moved : Nat) :
    LogInv (w.setAltEnable calls moved) := by
  unfold LoggedDevice.setAltEnable
  split
  · exact h
  rename_i hin
  split
  · exact logInv_usbEpDisable h moved
  rename_i hout
  have hreqs : LogInv { w with device := { w.device with
      inReq := w.device.inReq || calls.inAlloc, outReq := w.device.outReq || calls.outAlloc } } :=
    ⟨h.ok, h.outstanding, h.quiet, h.flight, h.current, h.pong, h.data, h.init, h.log⟩
  dsimp only
  split
  · exact (logInv_disable hreqs moved).1
  · rename_i halloc
    obtain ⟨hinReq, houtReq⟩ := not_or.1 halloc
    have hnone := hc ⟨not_not.1 hin, not_not.1 hout, not_not.1 hinReq, not_not.1 houtReq⟩
    have hidle : w.device.usb.inBusy = false := h.outstanding ▸ hnone
    exact logInv_reset h ⟨⟨reset_ok h.ok.tx, contents_reset _, rfl, rfl, h.ok.idle hidle⟩, hnone,
      h.quiet⟩ (h.flight_none hidle)

theorem logInv_setAlt (h : LogInv w) {calls : Device.SetAltCalls}
    (hc : w.device.usb.configured = false → w.device.Configures calls →
      w.device.outstanding = false) (moved : Nat) :
    LogInv (w.gatewayUsbFunctionSetAlt calls moved) := by
  unfold LoggedDevice.gatewayUsbFunctionSetAlt
  split
  · obtain ⟨hdisabled, hnone⟩ := logInv_disable h moved
    exact logInv_setAltEnable hdisabled (fun _ => hnone) moved
  · rename_i hconf
    exact logInv_setAltEnable h (hc (by simpa using hconf)) moved

theorem logInv_suspend (h : LogInv w) (hnone : w.device.outstanding = false) :
    LogInv (w.reset w.device.gatewayUsbSuspend) := by
  have hidle : w.device.usb.inBusy = false := h.outstanding ▸ hnone
  exact logInv_reset h ⟨⟨reset_ok h.ok.tx, contents_reset _, rfl, rfl, h.ok.idle hidle⟩, hnone,
    h.quiet⟩ (h.flight_none hidle)

/-- A packet is answered; a PING behind the reset that begins its session. -/
theorem logInv_answer (h : LogInv w) {i : Nat} {p : OutPacket} {q : UInt32} (hq : p.seqNo = some q)
    (hping : w.device.inReq = true → p.isPing = true → ∀ j, .init j ∈ w.log → j < w.session)
    (calls : OutCalls) : LogInv (w.answer i p q calls) := by
  have htransfers : transfers (w.log ++ [.out w.session i p]) = transfers w.log := by
    rw [transfers_append]
    exact List.append_nil _
  have hnil : acceptedPackets w.session [.out w.session i p] = [] := rfl
  have hstream : sessionStream w.session (w.log ++ [.out w.session i p]) =
      sessionStream w.session w.log := by
    simp [sessionStream, hnil]
  have hlogged : LogInv { w with log := w.log ++ [.out w.session i p] } := by
    refine ⟨h.ok, h.outstanding, h.quiet, h.flight, h.current, ?_, ?_, ?_,
      h.log.snoc_out i p⟩
    · intro k j q hf
      obtain ⟨hbuf, hans⟩ := h.pong k j q hf
      exact ⟨hbuf, hans.append _⟩
    · rw [htransfers, hstream]
      exact h.data
    · simpa using h.init
  unfold LoggedDevice.answer
  refine logInv_enqueueInitAndKick (logInv_sendPong hlogged calls.pongRc ?_) _
  intro hreq
  exact ⟨w.log, p, [], rfl, hq, hping hreq⟩

theorem logInv_outComplete (h : LogInv w) {i : Nat} {status : Int} {actual : Nat} {raw : Bytes}
    {calls : OutCalls}
    (hc : DeviceEvent.Retires w.device (.outComplete status actual raw calls)) (moved : Nat) :
    LogInv (w.gatewayUsbOutComplete i status actual raw calls moved) := by
  have hready : LogInv { w with device := { w.device with usbHostReady := true } } :=
    ⟨h.ok, h.outstanding, h.quiet, h.flight, h.current, h.pong, h.data, h.init, h.log⟩
  unfold LoggedDevice.gatewayUsbOutComplete
  split
  · exact h
  rename_i hstatus
  have hretires := hc (not_not.1 hstatus)
  dsimp only
  cases hp : outPacket actual raw with
  | short | config => exact hready
  | other q => exact logInv_answer hready rfl (fun _ hping => by cases hping) calls
  | ping q =>
    rw [hp] at hretires
    obtain ⟨hreset, hsession⟩ := logInv_resetStreamSession hready (hretires rfl) moved
    refine logInv_answer hreset rfl ?_ calls
    intro hreq _ j hj
    have hinReq : w.device.inReq = true := by
      rw [LoggedDevice.resetStreamSession_device] at hreq
      unfold Device.gatewayUsbResetStreamSession at hreq
      split at hreq <;> exact hreq
    obtain ⟨heq, hlog⟩ := hsession hinReq
    rw [heq]
    exact Nat.lt_succ_of_le (hlog.bounded _ hj)

variable {ks : KeyStream} {w' : LoggedDevice}

/-- A media packet is of a size that its caller can have. -/
def DeviceEvent.Sized : DeviceEvent → Prop
  | .media p _ _ => cryptoStreamPacketSize p.2.2.length < 2 ^ 31
  | _ => True

instance (e : DeviceEvent) : Decidable e.Sized :=
  match e with
  | .media p _ _ => inferInstanceAs (Decidable (cryptoStreamPacketSize p.2.2.length < 2 ^ 31))
  | .outComplete _ _ _ _ | .inComplete _ _ | .inError | .setAlt _ | .disable | .disconnect
  | .suspend | .resume | .forceConfigure _ _ | .retryInit _ | .watchdog _ => isTrue trivial

/-- `usb_ep_dequeue`, if it is called, succeeds. -/
def DeviceEvent.Dequeues (d : Device) : DeviceEvent → Prop
  | .watchdog rc => d.usb.inBusy = true → rc = 0
  | .outComplete status actual raw calls =>
    status = 0 → (outPacket actual raw).isPing = true → d.usb.inBusy = true → calls.dequeueRc = 0
  | _ => True

/-- A suspend, a disconnect and a configuration of the unconfigured device do not meet a request
that the controller has. -/
def DeviceEvent.Released (d : Device) : DeviceEvent → Prop
  | .suspend | .disconnect => d.outstanding = false
  | .setAlt calls => d.usb.configured = false → d.Configures calls → d.outstanding = false
  | .forceConfigure speedOk calls =>
    d.usb.configured = false → d.usbStarted = true → speedOk = true → d.Configures calls →
      d.outstanding = false
  | _ => True

instance (d : Device) (e : DeviceEvent) : Decidable (e.Dequeues d) :=
  match e with
  | .watchdog rc => inferInstanceAs (Decidable (d.usb.inBusy = true → rc = 0))
  | .outComplete status actual raw calls =>
    inferInstanceAs (Decidable (status = 0 → (outPacket actual raw).isPing = true →
      d.usb.inBusy = true → calls.dequeueRc = 0))
  | .inComplete _ _ | .inError | .setAlt _ | .disable | .disconnect | .suspend | .resume
  | .forceConfigure _ _ | .retryInit _ | .media _ _ _ => isTrue trivial

instance (d : Device) (e : DeviceEvent) : Decidable (e.Released d) :=
  match e with
  | .suspend | .disconnect => inferInstanceAs (Decidable (d.outstanding = false))
  | .setAlt calls =>
    inferInstanceAs (Decidable (d.usb.configured = false → d.Configures calls →
      d.outstanding = false))
  | .forceConfigure speedOk calls =>
    inferInstanceAs (Decidable (d.usb.configured = false → d.usbStarted = true →
      speedOk = true → d.Configures calls → d.outstanding = false))
  | .outComplete _ _ _ _ | .inComplete _ _ | .inError | .disable | .resume | .retryInit _
  | .watchdog _ | .media _ _ _ => isTrue trivial

theorem retires_iff {d : Device} {e : DeviceEvent} :
    e.Retires d ↔ e.Dequeues d ∧ e.Released d := by
  cases e <;> simp [DeviceEvent.Retires, DeviceEvent.Dequeues, DeviceEvent.Released]

/-- **Every step that retires the request keeps the invariant.** -/
theorem logInv_step {i : Nat} {e : DeviceEvent} {moved : Nat} (h : LogInv w)
    (hc : e.Retires w.device) (hsize : e.Sized) (hs : logStep ks w i e moved = some w') :
    LogInv w' := by
  cases e with
  | outComplete status actual raw calls =>
    cases hs
    exact logInv_outComplete h hc moved
  | inComplete actual rc =>
    simp only [logStep, Option.ite_none_right_eq_some, Option.some.injEq] at hs
    obtain ⟨hout, rfl⟩ := hs
    exact logInv_inComplete h hout actual rc
  | inError =>
    simp only [logStep, Option.ite_none_right_eq_some, Option.some.injEq] at hs
    obtain ⟨-, rfl⟩ := hs
    exact logInv_inError h moved
  | setAlt calls =>
    cases hs
    exact logInv_setAlt h hc moved
  | disable =>
    cases hs
    exact (logInv_disable h moved).1
  | disconnect | suspend =>
    cases hs
    exact logInv_suspend h hc
  | resume =>
    cases hs
    exact h
  | forceConfigure speedOk calls =>
    cases hs
    unfold LoggedDevice.gatewayUsbTryForceConfigure
    split
    · exact h
    rename_i hready
    obtain ⟨hstarted, -⟩ := not_or.1 hready
    split
    · exact h
    · rename_i hspeed
      exact logInv_setAlt h
        (fun hconf => hc hconf (by simpa using hstarted) (by simpa using hspeed)) moved
  | retryInit rc =>
    cases hs
    unfold LoggedDevice.gatewayUsbRetryInitIfNeeded
    split
    · exact h
    split
    · exact h
    · exact logInv_enqueueInitAndKick h rc
  | watchdog rc =>
    cases hs
    exact (logInv_resetStreamSession h hc moved).1
  | media p encryptedOk rc =>
    cases hs
    exact logInv_relayPacket h ks hsize encryptedOk rc

end

end Firmware
