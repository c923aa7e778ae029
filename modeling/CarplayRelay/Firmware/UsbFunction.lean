import CarplayRelay.Firmware.Upstream

/-!
# The firmware's USB function (`gateway_usb_function_*`)

The callbacks of the USB stack and the steps of the task that use the IN endpoint. There is one
IN request, `in_busy` guards it, and the controller has it from `usb_ep_queue` until it completes
it (`Device.outstanding`). A suspend, a disconnect, a dequeue that fails and a `set_alt` without a
configuration clear `in_busy` and leave the request with the controller; the next chunk or PONG
then queues it again (`Device.overrun`).

* `run_single_request`: in every run in which none of them meets an outstanding request it is
  never queued twice.
* `request_queued_twice`: in a run with a suspend it is.
-/

namespace Firmware

open Bytes Crypto

/-! ## The code -/

/-- The USB function: `in_req` and `out_req` are whether the requests are allocated. The rest is
not in the code: `queued` counts the calls of `usb_ep_queue` for `in_req` that return 0,
`outstanding` is whether the controller has it, and `overrun` whether it was queued, and `in_buf`
written, while the controller had it. -/
structure Device where
  usb : Usb
  usbStarted : Bool
  usbConfigured : Bool
  usbHostReady : Bool
  inReq : Bool
  outReq : Bool
  queued : Nat := 0
  outstanding : Bool := false
  overrun : Bool := false

/-- `gateway_usb_kick_tx` calls `usb_ep_queue`. -/
def kicks (u : Usb) : Bool :=
  u.configured && !u.inBusy && (u.tx.gatewayUsbTxPeekChunk usbInChunkSize).length != 0

namespace Device

/-- `usb_ep_queue` was called for `in_req` and returned `rc`. -/
def queue (d : Device) (usb : Usb) (rc : Int) : Device :=
  { d with
    usb := usb
    queued := if rc = 0 then d.queued + 1 else d.queued
    outstanding := d.outstanding || rc == 0
    overrun := d.overrun || d.outstanding }

/-- `gateway_usb_kick_tx`. -/
def gatewayUsbKickTx (d : Device) (rc : Int) : Device :=
  if d.inReq && kicks d.usb then d.queue (Firmware.gatewayUsbKickTx d.usb rc).2 rc else d

/-- `gateway_usb_send_pong`. -/
def gatewayUsbSendPong (d : Device) (seqNo : UInt32) (rc : Int) : Device :=
  if ¬ d.inReq ∨ d.usb.inBusy then d
  else d.queue (Firmware.gatewayUsbSendPong d.usb seqNo rc).2 rc

/-- `gateway_usb_reset_stream_session`; `rc` is what `usb_ep_dequeue` returns if it is called. It
retires the request before it returns 0, and leaves it with the controller otherwise. -/
def gatewayUsbResetStreamSession (d : Device) (rc : Int) : Device :=
  if ¬ d.inReq then d
  else
    { d with
      usb := Firmware.gatewayUsbResetStreamSession d.usb ⟨rc, d.outstanding && rc == 0⟩
      outstanding := d.outstanding && !(d.usb.inBusy && rc == 0) }

/-- `gateway_usb_in_complete` with an error. -/
def gatewayUsbInError (d : Device) : Device :=
  { d with usb := Firmware.gatewayUsbInError d.usb, outstanding := false }

/-- `usb_ep_disable`, which completes an outstanding request with an error. -/
def usbEpDisable (d : Device) : Device := if d.outstanding then d.gatewayUsbInError else d

/-- `gateway_usb_function_disable`. -/
def gatewayUsbFunctionDisable (d : Device) : Device :=
  usbEpDisable { d with
    usbConfigured := false
    usb := gatewayUsbTxReset { d.usb with configured := false, inBusy := false } }

/-- What `usb_ep_enable` returns for the two endpoints, and the outcomes of
`usb_ep_alloc_request`. -/
structure SetAltCalls where
  inRc : Int
  outRc : Int
  inAlloc : Bool
  outAlloc : Bool

/-- `gateway_usb_function_set_alt`, behind the test of `configured`. -/
def setAltEnable (d : Device) (calls : SetAltCalls) : Device :=
  if calls.inRc ≠ 0 then d
  else if calls.outRc ≠ 0 then d.usbEpDisable
  else
    let d := { d with inReq := d.inReq || calls.inAlloc, outReq := d.outReq || calls.outAlloc }
    if ¬ d.inReq ∨ ¬ d.outReq then d.gatewayUsbFunctionDisable
    else
      { d with
        usbHostReady := false
        usbConfigured := true
        usb := gatewayUsbTxReset { d.usb with configured := true, inBusy := false } }

/-- `gateway_usb_function_set_alt`. -/
def gatewayUsbFunctionSetAlt (d : Device) (calls : SetAltCalls) : Device :=
  setAltEnable (if d.usb.configured then d.gatewayUsbFunctionDisable else d) calls

/-- `gateway_usb_try_force_configure`; `speedOk` is whether there is a gadget with full or high
speed. -/
def gatewayUsbTryForceConfigure (d : Device) (speedOk : Bool) (calls : SetAltCalls) : Device :=
  if ¬ d.usbStarted ∨ d.usb.configured then d
  else if ¬ speedOk then d
  else d.gatewayUsbFunctionSetAlt calls

/-- `gateway_usb_disconnect` and `gateway_usb_suspend`. -/
def gatewayUsbSuspend (d : Device) : Device :=
  { d with
    usbConfigured := false
    usb := gatewayUsbTxReset { d.usb with configured := false, inBusy := false } }

/-- `gateway_usb_enqueue_init_packet` and, if it returns 0, `gateway_usb_kick_tx`. -/
def enqueueInitAndKick (d : Device) (rc : Int) : Device :=
  let (ok, usb) := gatewayUsbEnqueueInitPacket d.usb
  let d := { d with usb := usb }
  if ok then d.gatewayUsbKickTx rc else d

/-- `gateway_usb_retry_init_if_needed`. -/
def gatewayUsbRetryInitIfNeeded (d : Device) (rc : Int) : Device :=
  if ¬ d.usbStarted ∨ ¬ d.usbConfigured then d
  else if ¬ d.usbHostReady then d
  else d.enqueueInitAndKick rc

/-- `gateway_usb_in_complete` with status 0, up to the kick. -/
def consumeChunk (u : Usb) (actual : Nat) : Usb :=
  let u := { u with
    inCompleteCount := u.inCompleteCount + 1, inBusy := false, endpoint := none }
  if u.inFlightLen > 0 then
    let consumeLen := if 0 < actual ∧ actual < u.inFlightLen then actual else u.inFlightLen
    { u with tx := u.tx.gatewayUsbTxConsumeChunk consumeLen, inFlightLen := 0 }
  else u

/-- `gateway_usb_in_complete` with status 0. -/
def gatewayUsbInComplete (d : Device) (actual : Nat) (rc : Int) : Device :=
  gatewayUsbKickTx { d with usb := consumeChunk d.usb actual, outstanding := false } rc

/-- `gateway_upstream_poll`, a decrypted packet is enqueued behind the INIT record if the host is
ready. -/
def relayPacket (ks : KeyStream) (d : Device) (p : Plain) (encryptedOk : Bool) (rc : Int) :
    Device :=
  if ¬ (d.usbStarted ∧ d.usbConfigured ∧ d.usbHostReady) then d
  else
    let (ok, usb) := gatewayUsbEnqueueInitPacket d.usb
    let d := { d with usb := usb }
    if ¬ ok then d
    else
      let (ok, usb) := gatewayUsbEnqueueMediaPacket ks d.usb p.1 p.2.1 p.2.2 encryptedOk
      let d := { d with usb := usb }
      if ¬ ok then d else d.gatewayUsbKickTx rc

end Device

/-- What `gateway_usb_out_complete` takes a packet for. -/
inductive OutPacket
  | short
  | config
  | ping (seqNo : UInt32)
  | other (seqNo : UInt32)
  deriving DecidableEq, Repr

def OutPacket.isPing : OutPacket → Bool
  | .ping _ => true
  | .short | .config | .other _ => false

/-- `gateway_usb_out_complete`, the tests on the buffer `raw` and the length `actual`. -/
def outPacket (actual : Nat) (raw : Bytes) : OutPacket :=
  if actual < 12 then .short
  else if raw.take 4 = ascii "CFG1" then .config
  else if raw.take 4 = ascii "PING" then .ping (ofLe32 (raw.drop 4))
  else .other (ofLe32 (raw.drop 4))

/-- What the calls of `usb_ep_dequeue` and `usb_ep_queue` in a `gateway_usb_out_complete`
return. -/
structure OutCalls where
  dequeueRc : Int
  pongRc : Int
  kickRc : Int

namespace Device

/-- `gateway_usb_out_complete`, the PONG and the INIT record. -/
def answer (d : Device) (seqNo : UInt32) (calls : OutCalls) : Device :=
  (d.gatewayUsbSendPong seqNo calls.pongRc).enqueueInitAndKick calls.kickRc

/-- `gateway_usb_out_complete`; a CFG1 packet is not for the USB function. -/
def gatewayUsbOutComplete (d : Device) (status : Int) (actual : Nat) (raw : Bytes)
    (calls : OutCalls) : Device :=
  if status ≠ 0 then d
  else
    let d := { d with usbHostReady := true }
    match outPacket actual raw with
    | .short | .config => d
    | .ping seqNo => (d.gatewayUsbResetStreamSession calls.dequeueRc).answer seqNo calls
    | .other seqNo => d.answer seqNo calls

end Device

/-! ## Runs of the USB function -/

inductive DeviceEvent
  | outComplete (status : Int) (actual : Nat) (raw : Bytes) (calls : OutCalls)
  | inComplete (actual : Nat) (rc : Int)
  /-- `gateway_usb_in_complete` with an error. -/
  | inError
  | setAlt (calls : Device.SetAltCalls)
  | disable
  | disconnect
  | suspend
  | resume
  | forceConfigure (speedOk : Bool) (calls : Device.SetAltCalls)
  | retryInit (rc : Int)
  /-- The stall watchdog of the task fires. -/
  | watchdog (rc : Int)
  /-- `gateway_upstream_poll` has decrypted a packet. -/
  | media (p : Plain) (encryptedOk : Bool) (rc : Int)

/-- A callback of the USB stack or a step of the task. -/
def deviceStep (ks : KeyStream) (d : Device) : DeviceEvent → Option Device
  | .outComplete status actual raw calls => some (d.gatewayUsbOutComplete status actual raw calls)
  | .inComplete actual rc => if d.outstanding then some (d.gatewayUsbInComplete actual rc) else none
  | .inError => if d.outstanding then some d.gatewayUsbInError else none
  | .setAlt calls => some (d.gatewayUsbFunctionSetAlt calls)
  | .disable => some d.gatewayUsbFunctionDisable
  | .disconnect | .suspend => some d.gatewayUsbSuspend
  | .resume => some d
  | .forceConfigure speedOk calls => some (d.gatewayUsbTryForceConfigure speedOk calls)
  | .retryInit rc => some (d.gatewayUsbRetryInitIfNeeded rc)
  | .watchdog rc => some (d.gatewayUsbResetStreamSession rc)
  | .media p encryptedOk rc => some (d.relayPacket ks p encryptedOk rc)

/-- `gateway_usb_function_set_alt` enables both endpoints and has both requests. -/
def Device.Configures (d : Device) (calls : Device.SetAltCalls) : Prop :=
  calls.inRc = 0 ∧ calls.outRc = 0 ∧ (d.inReq || calls.inAlloc) = true ∧
    (d.outReq || calls.outAlloc) = true

instance (d : Device) (calls : Device.SetAltCalls) : Decidable (d.Configures calls) :=
  inferInstanceAs (Decidable (_ ∧ _))

/-- The controller does not have the request when `in_busy` is cleared without retiring it. -/
def DeviceEvent.Retires (d : Device) : DeviceEvent → Prop
  | .suspend | .disconnect => d.outstanding = false
  | .setAlt calls => d.usb.configured = false → d.Configures calls → d.outstanding = false
  | .forceConfigure speedOk calls =>
    d.usb.configured = false → d.usbStarted = true → speedOk = true → d.Configures calls →
      d.outstanding = false
  | .watchdog rc => d.usb.inBusy = true → rc = 0
  | .outComplete status actual raw calls =>
    status = 0 → (outPacket actual raw).isPing = true → d.usb.inBusy = true → calls.dequeueRc = 0
  | .inComplete _ _ | .inError | .disable | .resume | .retryInit _ | .media _ _ _ => True

instance (d : Device) (e : DeviceEvent) : Decidable (e.Retires d) := by
  cases e <;> unfold DeviceEvent.Retires <;> infer_instance

/-! ## The request -/

section
variable {u : Usb}

theorem kickTx_busy (h : kicks u = true) : (gatewayUsbKickTx u 0).2.inBusy = true := by
  unfold kicks at h
  unfold gatewayUsbKickTx
  simp_all

theorem kicks_idle (h : kicks u = true) : u.inBusy = false := by
  unfold kicks at h
  simp_all

theorem sendPong_busy (h : u.inBusy = false) (seqNo : UInt32) :
    (gatewayUsbSendPong u seqNo 0).2.inBusy = true := by
  simp [gatewayUsbSendPong, h]

end

/-- The controller has the request only while `in_busy` is set, and it was never queued twice. -/
structure RequestInv (d : Device) : Prop where
  busy : d.outstanding = true → d.usb.inBusy = true ∧ d.inReq = true
  single : d.overrun = false

section
variable {d : Device}

theorem requestInv_idle (ho : d.outstanding = false) (hs : d.overrun = false) : RequestInv d :=
  ⟨fun h => absurd (ho.symm.trans h) Bool.false_ne_true, hs⟩

theorem RequestInv.idle (h : RequestInv d) (hb : d.usb.inBusy = false) : d.outstanding = false := by
  apply Bool.eq_false_iff.2
  intro ho
  rw [(h.busy ho).1] at hb
  cases hb

theorem requestInv_queue (h : RequestInv d) (ho : d.outstanding = false) (hreq : d.inReq = true)
    {usb : Usb} {rc : Int} (hbusy : rc = 0 → usb.inBusy = true) : RequestInv (d.queue usb rc) := by
  refine ⟨?_, ?_⟩
  · intro hout
    have hrc : rc = 0 := by simpa [Device.queue, ho] using hout
    exact ⟨hbusy hrc, hreq⟩
  · simp [Device.queue, ho, h.single]

theorem requestInv_kickTx (h : RequestInv d) (rc : Int) : RequestInv (d.gatewayUsbKickTx rc) := by
  unfold Device.gatewayUsbKickTx
  split
  · rename_i hk
    obtain ⟨hreq, hk⟩ := Bool.and_eq_true_iff.1 hk
    apply requestInv_queue h (h.idle (kicks_idle hk)) hreq
    intro hrc
    rw [hrc]
    exact kickTx_busy hk
  · exact h

theorem requestInv_sendPong (h : RequestInv d) (seqNo : UInt32) (rc : Int) :
    RequestInv (d.gatewayUsbSendPong seqNo rc) := by
  unfold Device.gatewayUsbSendPong
  split
  · exact h
  · rename_i hidle
    obtain ⟨hreq, hb⟩ := not_or.1 hidle
    have hb : d.usb.inBusy = false := by simpa using hb
    apply requestInv_queue h (h.idle hb) (by simpa using hreq)
    intro hrc
    rw [hrc]
    exact sendPong_busy hb seqNo

theorem requestInv_reset (h : RequestInv d) {rc : Int} (hrc : d.usb.inBusy = true → rc = 0) :
    RequestInv (d.gatewayUsbResetStreamSession rc) := by
  unfold Device.gatewayUsbResetStreamSession
  split
  · exact h
  · refine requestInv_idle ?_ h.single
    cases hb : d.usb.inBusy with
    | true => simp [hrc hb]
    | false => simp [h.idle hb]

theorem usbEpDisable_idle : (d.usbEpDisable).outstanding = false := by
  unfold Device.usbEpDisable
  split
  · rfl
  · rename_i ho
    simpa using ho

theorem usbEpDisable_overrun : (d.usbEpDisable).overrun = d.overrun := by
  unfold Device.usbEpDisable
  split <;> rfl

theorem requestInv_disable (h : RequestInv d) : RequestInv d.gatewayUsbFunctionDisable :=
  requestInv_idle usbEpDisable_idle (usbEpDisable_overrun.trans h.single)

/-- `configured` is set while the controller does not have the request. -/
theorem requestInv_setAltEnable (h : RequestInv d) {calls : Device.SetAltCalls}
    (hc : d.Configures calls → d.outstanding = false) : RequestInv (d.setAltEnable calls) := by
  unfold Device.setAltEnable
  split
  · exact h
  rename_i hin
  split
  · exact requestInv_idle usbEpDisable_idle (usbEpDisable_overrun.trans h.single)
  rename_i hout
  dsimp only
  split
  · exact requestInv_idle usbEpDisable_idle (usbEpDisable_overrun.trans h.single)
  · rename_i halloc
    obtain ⟨hinReq, houtReq⟩ := not_or.1 halloc
    exact requestInv_idle
      (hc ⟨not_not.1 hin, not_not.1 hout, not_not.1 hinReq, not_not.1 houtReq⟩) h.single

theorem requestInv_setAlt (h : RequestInv d) {calls : Device.SetAltCalls}
    (hc : d.usb.configured = false → d.Configures calls → d.outstanding = false) :
    RequestInv (d.gatewayUsbFunctionSetAlt calls) := by
  unfold Device.gatewayUsbFunctionSetAlt
  split
  · exact requestInv_setAltEnable (requestInv_disable h) fun _ => usbEpDisable_idle
  · rename_i hconf
    exact requestInv_setAltEnable h (hc (by simpa using hconf))

theorem RequestInv.congr (h : RequestInv d) {usb : Usb} (hb : usb.inBusy = d.usb.inBusy) :
    RequestInv { d with usb := usb } :=
  ⟨fun ho => by rw [hb]; exact h.busy ho, h.single⟩

theorem enqueueInit_inBusy (u : Usb) : (gatewayUsbEnqueueInitPacket u).2.inBusy = u.inBusy := by
  unfold gatewayUsbEnqueueInitPacket
  split
  · rfl
  · dsimp only
    split <;> rfl

theorem enqueueMedia_inBusy (ks : KeyStream) (u : Usb) (p : Plain) (encryptedOk : Bool) :
    (gatewayUsbEnqueueMediaPacket ks u p.1 p.2.1 p.2.2 encryptedOk).2.inBusy = u.inBusy := by
  unfold gatewayUsbEnqueueMediaPacket
  split <;> rfl

theorem requestInv_enqueueInitAndKick (h : RequestInv d) (rc : Int) :
    RequestInv (d.enqueueInitAndKick rc) := by
  have hinit := h.congr (enqueueInit_inBusy d.usb)
  unfold Device.enqueueInitAndKick
  dsimp only
  split
  · exact requestInv_kickTx hinit rc
  · exact hinit

theorem requestInv_relayPacket (h : RequestInv d) (ks : KeyStream) (p : Plain) (encryptedOk : Bool)
    (rc : Int) : RequestInv (d.relayPacket ks p encryptedOk rc) := by
  have hinit := h.congr (enqueueInit_inBusy d.usb)
  have hmedia := hinit.congr (enqueueMedia_inBusy ks (gatewayUsbEnqueueInitPacket d.usb).2 p
    encryptedOk)
  unfold Device.relayPacket
  split
  · exact h
  dsimp only
  split
  · exact hinit
  split
  · exact hmedia
  · exact requestInv_kickTx hmedia rc

theorem requestInv_answer (h : RequestInv d) (seqNo : UInt32) (calls : OutCalls) :
    RequestInv (d.answer seqNo calls) :=
  requestInv_enqueueInitAndKick (requestInv_sendPong h seqNo calls.pongRc) calls.kickRc

theorem requestInv_outComplete (h : RequestInv d) {status : Int} {actual : Nat} {raw : Bytes}
    {calls : OutCalls}
    (hc : DeviceEvent.Retires d (.outComplete status actual raw calls)) :
    RequestInv (d.gatewayUsbOutComplete status actual raw calls) := by
  have hready : RequestInv { d with usbHostReady := true } := ⟨h.busy, h.single⟩
  unfold Device.gatewayUsbOutComplete
  split
  · exact h
  rename_i hstatus
  dsimp only
  split
  · exact hready
  · exact hready
  · rename_i seqNo hping
    exact requestInv_answer
      (requestInv_reset hready (hc (not_not.1 hstatus) (by rw [hping]; rfl))) _ _
  · exact requestInv_answer hready _ _

variable {ks : KeyStream} {d' : Device}

/-- Every event that retires the request keeps the invariant. -/
theorem requestInv_step {e : DeviceEvent} (h : RequestInv d) (hc : e.Retires d)
    (hs : deviceStep ks d e = some d') : RequestInv d' := by
  cases e with
  | outComplete status actual raw calls =>
    cases hs
    exact requestInv_outComplete h hc
  | inComplete actual rc =>
    simp only [deviceStep, Option.ite_none_right_eq_some, Option.some.injEq] at hs
    obtain ⟨-, rfl⟩ := hs
    have hdone : RequestInv { d with
        usb := Device.consumeChunk d.usb actual, outstanding := false } :=
      requestInv_idle rfl h.single
    exact requestInv_kickTx hdone rc
  | inError =>
    simp only [deviceStep, Option.ite_none_right_eq_some, Option.some.injEq] at hs
    obtain ⟨-, rfl⟩ := hs
    exact requestInv_idle rfl h.single
  | setAlt calls =>
    cases hs
    exact requestInv_setAlt h hc
  | disable =>
    cases hs
    exact requestInv_disable h
  | disconnect | suspend =>
    cases hs
    exact requestInv_idle hc h.single
  | resume =>
    cases hs
    exact h
  | forceConfigure speedOk calls =>
    cases hs
    unfold Device.gatewayUsbTryForceConfigure
    split
    · exact h
    rename_i hready
    obtain ⟨hstarted, hconf⟩ := not_or.1 hready
    split
    · exact h
    · rename_i hspeed
      exact requestInv_setAlt h fun hc' =>
        hc hc' (by simpa using hstarted) (by simpa using hspeed)
  | retryInit rc =>
    cases hs
    unfold Device.gatewayUsbRetryInitIfNeeded
    split
    · exact h
    split
    · exact h
    · exact requestInv_enqueueInitAndKick h rc
  | watchdog rc =>
    cases hs
    exact requestInv_reset h hc
  | media p encryptedOk rc =>
    cases hs
    exact requestInv_relayPacket h ks p encryptedOk rc

/-- **The IN request is never queued twice**, in a run in which no suspend, disconnect, failed
dequeue or `set_alt` without a configuration meets an outstanding one. -/
theorem run_single_request (hidle : d.outstanding = false) (hsingle : d.overrun = false)
    {es : List DeviceEvent} (h : Run.run (deviceStep ks) d es = some d')
    (hc : Run.Meets (deviceStep ks) (fun d e => e.Retires d) d es) : d'.overrun = false :=
  (Run.inv_where requestInv_step h hc (requestInv_idle hidle hsingle)).single

end

/-- The USB function before its first `set_alt`. -/
def bootDevice : Device := ⟨{ bootUsb with configured := false }, true, false, false, false, false,
  0, false, false⟩

/-- The buffer of a PING. -/
def pingBuffer (seqNo : UInt32) : Bytes := ascii "PING" ++ le32 seqNo ++ List.replicate 56 0

/-- A configuration, a PING whose PONG is sent, a chunk with the INIT record, and a watchdog
reset. -/
def singleRun : List DeviceEvent :=
  [.setAlt ⟨0, 0, true, true⟩, .outComplete 0 64 (pingBuffer 7) ⟨0, 0, 0⟩, .inComplete 64 0,
    .watchdog 0, .suspend, .resume, .forceConfigure true ⟨0, 0, true, true⟩,
    .outComplete 0 64 (pingBuffer 8) ⟨0, 0, 0⟩]

theorem run_single_request_singleRun :
    ∃ d, Run.run (deviceStep fun _ _ _ _ => 0) bootDevice singleRun = some d ∧
      d.overrun = false := by
  have h : (Run.run (deviceStep fun _ _ _ _ => 0) bootDevice singleRun).isSome := by
    decide +kernel
  obtain ⟨d, hd⟩ := Option.isSome_iff_exists.1 h
  exact ⟨d, hd, run_single_request rfl rfl hd (by decide +kernel)⟩

/-- A suspend between the PONG and its completion: the next PING queues the request again. -/
def suspendRun : List DeviceEvent :=
  [.setAlt ⟨0, 0, true, true⟩, .outComplete 0 64 (pingBuffer 7) ⟨0, 0, 0⟩, .suspend, .resume,
    .forceConfigure true ⟨0, 0, true, true⟩, .outComplete 0 64 (pingBuffer 8) ⟨0, 0, 0⟩]

/-- **The request is queued twice**: between the two calls of `usb_ep_queue` the controller does
not give it back. -/
theorem request_queued_twice :
    ∃ d, Run.run (deviceStep fun _ _ _ _ => 0) bootDevice suspendRun = some d ∧
      d.queued = 2 ∧ d.overrun = true := by
  decide +kernel

end Firmware
