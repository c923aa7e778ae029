import CarplayRelay.Firmware.UsbFunction

/-!
# The firmware's task (`gateway_ameba_task`)

The loop of the task, statement by statement, with the callbacks of the USB stack, the Wi-Fi and
the ticks in between, also while the task connects. A CFG1 packet installs a new configuration and
requests a reconnect; the task closes the connection, clears the request and connects from a
snapshot of the configuration.

The invariant (`ConfigInv`) is that a connection, and a snapshot that is being connected from, is
that of the last configuration, or a reconnect is requested; a request is only cleared when there
is no connection.

* `run_last_config`: in every run a connection without a pending request is one to the host, port
  and path that were configured last.
-/

namespace Firmware

open Bytes Crypto

/-! ## The configuration -/

/-- `GATEWAY_AMEBA_UPSTREAM_HOST_MAX`. -/
def upstreamHostMax : Nat := 16

/-- `GATEWAY_AMEBA_UPSTREAM_PATH_MAX`. -/
def upstreamPathMax : Nat := 36

/-- `gateway_upstream_copy_field`: the string copied, `none` for -1. -/
def gatewayUpstreamCopyField (dstSize : Nat) (src : Bytes) : Option Bytes :=
  let field := cString src
  if field.length = 0 ∨ src.length ≤ field.length ∨ dstSize ≤ field.length then none
  else some field

/-- `gateway_upstream_apply_usb_config`: the configuration installed, `none` for -1. The packet in
`raw` has its fields at the offsets of `gateway_usb_upstream_config_packet_t`. -/
def gatewayUpstreamApplyUsbConfig (inetAton : Bytes → Bool) (raw : Bytes) :
    Option UpstreamConfig :=
  if ofLe16 (raw.drop 8) = 0 then none
  else
    match gatewayUpstreamCopyField upstreamHostMax ((raw.drop 12).take upstreamHostMax) with
    | none => none
    | some host =>
      match gatewayUpstreamCopyField upstreamPathMax ((raw.drop 28).take upstreamPathMax) with
      | none => none
      | some path =>
        if ¬ inetAton host then none
        else some ⟨host, path, ofLe16 (raw.drop 8), true, ofLe32 (raw.drop 4)⟩

/-! ## The task -/

/-- Where the task is in its loop; `now` is the tick it has read. -/
inductive TaskPc
  | forceConfigure
  | retryInit
  /-- The stall watchdog: the tests, the sample of a transfer that goes on, and the sample of an
  idle endpoint or behind a reset. -/
  | testBusy
  | testCounters
  | sampleSent
  | sampleDone
  | sampleTick
  | testTick
  | resetStream
  | resampleTick
  | resampleSent
  | resampleDone
  | testRequest
  | closeUpstream
  | clearRequest
  | retryNow
  | testWifi
  | readNow
  | testConnect (now : UInt32)
  /-- `gateway_upstream_connect`. -/
  | clearNonce (now : UInt32)
  | snapshot (now : UInt32)
  | openUpstream (now : UInt32) (config : UpstreamConfig)
  | startStreams (now : UInt32)
  | setRetry (now : UInt32)
  /-- `gateway_upstream_poll`. -/
  | poll
  | relay (frame : UInt8 × Bytes)
  | delay
  deriving DecidableEq, Repr

/-- The counters that the stall watchdog samples. -/
def Device.progress (d : Device) : UInt32 × UInt32 := (d.usb.tx.bytesSent, d.usb.inCompleteCount)

/-- The globals and variables of the task. The rest is not in the code: the ticks since boot, of
which `xTaskGetTickCount` returns the low 32 bits, those at the last sample and at the last
queueing of the IN request, the counters at that queueing, which queueing the last check found in
progress, the configurations applied so far, and the one that the connection was opened with. -/
structure Task where
  pc : TaskPc
  device : Device
  upstream : UpstreamState
  config : UpstreamConfig
  configValid : Bool
  reconnectRequested : Bool
  wifiReady : Bool
  nextRetryTick : UInt32
  usbProgressTick : UInt32
  lastSentObserved : UInt32
  lastInDoneObserved : UInt32
  now : Nat
  progressAt : Nat
  queuedAt : Nat
  queuedProgress : UInt32 × UInt32
  found : Nat
  applied : List UpstreamConfig
  connectedTo : UpstreamConfig

/-- What the calls of the task return. -/
structure TaskCalls where
  speedOk : Bool
  setAlt : Device.SetAltCalls
  dequeueRc : Int
  kickRc : Int
  connect : ConnectCalls
  readable : Bool
  recvs : List Recv.Result
  poll : PollCalls

namespace Task

/-- `xTaskGetTickCount`. -/
def tick (s : Task) : UInt32 := UInt32.ofNat s.now

/-- `gateway_usb_stream_bytes_sent`. -/
def bytesSent (s : Task) : UInt32 := s.device.usb.tx.bytesSent

/-- `gateway_usb_in_complete_count`. -/
def inCompleteCount (s : Task) : UInt32 := s.device.usb.inCompleteCount

/-- The globals of `gateway_upstream_poll`. -/
def gateway (s : Task) : Gateway :=
  ⟨s.device.usb, s.upstream, s.device.usbStarted, s.device.usbConfigured, s.device.usbHostReady⟩

/-- The USB function goes on to `d`. -/
def withDevice (s : Task) (d : Device) : Task :=
  { s with
    device := d
    queuedAt := if d.queued = s.device.queued then s.queuedAt else s.now
    queuedProgress := if d.queued = s.device.queued then s.queuedProgress else d.progress }

/-- The task goes on at `pc`. -/
def goto (s : Task) (pc : TaskPc) : Task := { s with pc := pc }

end Task

/-- `GATEWAY_AMEBA_USB_STALL_TIMEOUT_MS`. -/
def usbStallTimeoutMs : Nat := 2000

/-- `GATEWAY_AMEBA_UPSTREAM_RETRY_MS`. -/
def upstreamRetryMs : Nat := 5000

/-- The packet that `gateway_upstream_poll` hands to the USB function for a frame. -/
def framePacket (ks : KeyStream) (g : Gateway) (frame : UInt8 × Bytes) (calls : PollCalls) :
    Option Plain :=
  if frame.1 = 2 then decryptFrame ks g frame.2 calls.plaintextOk else none

/-- `cJSON_Parse`, `inet_aton` and `pdMS_TO_TICKS` of the firmware's SDK, and the cipher. -/
structure Sdk where
  ks : KeyStream
  cJSONParse : Bytes → Option Json
  inetAton : Bytes → Bool
  pdMsToTicks : Nat → UInt32

/-- A statement of `gateway_ameba_task`. -/
def gatewayAmebaTask (sdk : Sdk) (s : Task) (calls : TaskCalls) : Task :=
  match s.pc with
  | .forceConfigure =>
    (s.withDevice (s.device.gatewayUsbTryForceConfigure calls.speedOk calls.setAlt)).goto .retryInit
  | .retryInit =>
    (s.withDevice (s.device.gatewayUsbRetryInitIfNeeded calls.kickRc)).goto .testBusy
  | .testBusy =>
    { s with found := s.device.queued }.goto
      (if s.device.usb.inBusy then .testCounters else .resampleTick)
  | .testCounters =>
    s.goto (if s.bytesSent ≠ s.lastSentObserved ∨ s.inCompleteCount ≠ s.lastInDoneObserved then
      .sampleSent else .testTick)
  | .sampleSent => { s with lastSentObserved := s.bytesSent, pc := .sampleDone }
  | .sampleDone => { s with lastInDoneObserved := s.inCompleteCount, pc := .sampleTick }
  | .sampleTick => { s with usbProgressTick := s.tick, progressAt := s.now, pc := .testRequest }
  | .testTick =>
    s.goto (if sdk.pdMsToTicks usbStallTimeoutMs ≤ s.tick - s.usbProgressTick then .resetStream
      else .testRequest)
  | .resetStream =>
    (s.withDevice (s.device.gatewayUsbResetStreamSession calls.dequeueRc)).goto .resampleTick
  | .resampleTick =>
    { s with usbProgressTick := s.tick, progressAt := s.now, pc := .resampleSent }
  | .resampleSent => { s with lastSentObserved := s.bytesSent, pc := .resampleDone }
  | .resampleDone => { s with lastInDoneObserved := s.inCompleteCount, pc := .testRequest }
  | .testRequest => s.goto (if s.reconnectRequested then .closeUpstream else .testWifi)
  | .closeUpstream => { s with upstream := gatewayUpstreamClose s.upstream, pc := .clearRequest }
  | .clearRequest => { s with reconnectRequested := false, pc := .retryNow }
  | .retryNow => { s with nextRetryTick := s.tick, pc := .testWifi }
  | .testWifi => s.goto (if s.wifiReady then .readNow else .delay)
  | .readNow => s.goto (.testConnect s.tick)
  | .testConnect now =>
    -- `(int32_t)(now - next_upstream_retry_tick) >= 0`
    s.goto (if s.configValid ∧ ¬ s.upstream.connected ∧ now - s.nextRetryTick < 0x80000000 then
      .clearNonce now else .poll)
  | .clearNonce now =>
    { s with upstream := { s.upstream with nonce := noNonce }, pc := .snapshot now }
  | .snapshot now => s.goto (.openUpstream now s.config)
  | .openUpstream now config =>
    let (rc, upstream, _) := openUpstream config calls.connect s.upstream
    if rc ≠ 0 then { s with upstream := upstream, pc := .setRetry now }
    else { s with upstream := upstream, connectedTo := config, pc := .startStreams now }
  | .startStreams now =>
    { s with upstream := (startStreams calls.connect s.upstream).2, pc := .setRetry now }
  | .setRetry now =>
    { s with nextRetryTick := now + sdk.pdMsToTicks upstreamRetryMs, pc := .poll }
  | .poll =>
    if ¬ s.upstream.connected ∨ s.upstream.fd < 0 ∨ ¬ calls.readable then s.goto .delay
    else
      let (frame, g) := receiveFrame s.gateway calls.recvs calls.poll
      { s with
        upstream := g.upstream
        pc := match frame with
          | none => .delay
          | some frame => .relay frame }
  | .relay frame =>
    let upstream := (relayFrame sdk.ks sdk.cJSONParse s.gateway frame calls.poll).upstream
    let device := match framePacket sdk.ks s.gateway frame calls.poll with
      | none => s.device
      | some p => s.device.relayPacket sdk.ks p calls.poll.encryptedOk calls.poll.kickRc
    { s.withDevice device with upstream := upstream, pc := .delay }
  | .delay => s.goto .forceConfigure

/-! ## Runs of the firmware -/

inductive TaskEvent
  | go (calls : TaskCalls)
  /-- A callback of the USB stack. -/
  | callback (e : DeviceEvent)
  /-- `n` ticks pass. -/
  | ticks (n : Nat)
  /-- The Wi-Fi connects or disconnects. -/
  | wifi (ready : Bool)

/-- The events of the USB function that are callbacks of the USB stack. -/
def DeviceEvent.isCallback : DeviceEvent → Bool
  | .outComplete _ _ _ _ | .inComplete _ _ | .inError | .setAlt _ | .disable | .disconnect
  | .suspend | .resume => true
  | .forceConfigure _ _ | .retryInit _ | .watchdog _ | .media _ _ _ => false

/-- The configuration that an OUT packet installs. -/
def DeviceEvent.installs (inetAton : Bytes → Bool) : DeviceEvent → Option UpstreamConfig
  | .outComplete status actual raw _ =>
    if status = 0 ∧ outPacket actual raw = .config then gatewayUpstreamApplyUsbConfig inetAton raw
    else none
  | _ => none

/-- The configuration of a good CFG1 packet that comes. -/
def TaskEvent.configures (inetAton : Bytes → Bool) : TaskEvent → Option UpstreamConfig
  | .callback e => e.installs inetAton
  | .go _ | .ticks _ | .wifi _ => none

/-- `gateway_upstream_apply_usb_config`, the critical section. -/
def Task.install (s : Task) (next : UpstreamConfig) : Task :=
  { s with
    config := next
    configValid := true
    reconnectRequested := true
    applied := s.applied ++ [next] }

/-- A statement of the task, or what happens in between. -/
def taskStep (sdk : Sdk) (s : Task) : TaskEvent → Option Task
  | .go calls => some (gatewayAmebaTask sdk s calls)
  | .callback e =>
    if ¬ e.isCallback then none
    else
      (deviceStep sdk.ks s.device e).map fun d =>
        match e.installs sdk.inetAton with
        | none => s.withDevice d
        | some next => (s.withDevice d).install next
  | .ticks n => some { s with now := s.now + n }
  | .wifi ready => some { s with wifiReady := ready }

/-! ## The invariant -/

/-- A connection is one to the last configuration, or a reconnect is requested. -/
structure ConfigInv (s : Task) : Prop where
  applied : s.applied.getLast? = if s.configValid then some s.config else none
  valid : s.config.valid = true → s.configValid = true
  connected : s.upstream.connected = true → s.reconnectRequested = false →
    s.configValid = true ∧ s.connectedTo = s.config
  snapshot : ∀ now config, s.pc = .openUpstream now config → s.reconnectRequested = false →
    config = s.config
  closed : s.pc = .clearRequest → s.upstream.connected = false

/-- The variables of the configuration. -/
def Task.configVars (s : Task) :=
  (s.config, s.configValid, s.reconnectRequested, s.applied, s.connectedTo)

section
variable {sdk : Sdk} {s s' : Task}

/-- The task goes on elsewhere, and makes no connection. -/
theorem ConfigInv.keeps (h : ConfigInv s) (hvars : s'.configVars = s.configVars)
    (hconn : s'.upstream.connected = true → s.upstream.connected = true)
    (hopen : ∀ now config, s'.pc = .openUpstream now config → config = s.config)
    (hclear : s'.pc = .clearRequest → s'.upstream.connected = false) : ConfigInv s' := by
  simp only [Task.configVars, Prod.mk.injEq] at hvars
  obtain ⟨hconfig, hvalid, hreq, happlied, hto⟩ := hvars
  refine ⟨?_, ?_, ?_, ?_, hclear⟩
  · rw [happlied, hvalid, hconfig]
    exact h.applied
  · rw [hconfig, hvalid]
    exact h.valid
  · rw [hreq, hvalid, hto, hconfig]
    exact fun hc hr => h.connected (hconn hc) hr
  · rw [hconfig]
    exact fun now config hpc _ => hopen now config hpc

theorem ConfigInv.goes (h : ConfigInv s) (hvars : s'.configVars = s.configVars)
    (hconn : s'.upstream.connected = true → s.upstream.connected = true)
    (hopen : ∀ now config, s'.pc ≠ .openUpstream now config) (hclear : s'.pc ≠ .clearRequest) :
    ConfigInv s' :=
  h.keeps hvars hconn (fun now config hpc => absurd hpc (hopen now config))
    fun hpc => absurd hpc hclear

theorem receiveFrame_connected {g : Gateway} {recvs : List Recv.Result} {calls : PollCalls}
    (h : (receiveFrame g recvs calls).2.upstream.connected = true) :
    g.upstream.connected = true := by
  unfold receiveFrame at h
  split at h
  · cases h
  · exact h

theorem relayFrame_connected {ks : KeyStream} {cJSONParse : Bytes → Option Json} {g : Gateway}
    {frame : UInt8 × Bytes} {calls : PollCalls}
    (h : (relayFrame ks cJSONParse g frame calls).upstream.connected = true) :
    g.upstream.connected = true := by
  unfold relayFrame at h
  split at h
  · exact h
  split at h
  · split at h <;> exact h
  split at h
  · cases h
  · exact h

/-- The connect makes a connection to its snapshot. -/
theorem configInv_openUpstream (h : ConfigInv s) {now : UInt32} {config : UpstreamConfig}
    (hpc : s.pc = .openUpstream now config) (calls : TaskCalls) :
    ConfigInv (gatewayAmebaTask sdk s calls) := by
  have hopen := openUpstream_cases config calls.connect s.upstream
  have hvalid : (openUpstream config calls.connect s.upstream).1 = 0 → config.valid = true := by
    intro hrc
    by_contra hv
    simp [openUpstream, hv] at hrc
  simp only [gatewayAmebaTask, hpc]
  generalize openUpstream config calls.connect s.upstream = o at hopen hvalid
  obtain ⟨rc, upstream, rs⟩ := o
  rcases hopen with ⟨hrc, hu⟩ | ⟨hrc, hconn, -⟩
  · dsimp only at hrc hu ⊢
    rw [if_pos hrc]
    exact h.goes rfl (by rw [hu]; exact id) (by simp) (by simp)
  · dsimp only at hrc hconn hvalid ⊢
    rw [if_neg (not_not.2 hrc)]
    refine ⟨h.applied, h.valid, ?_, by simp, by simp⟩
    intro _ hreq
    have heq := h.snapshot now config hpc hreq
    exact ⟨h.valid (heq ▸ hvalid hrc), heq⟩

theorem configInv_go (h : ConfigInv s) (calls : TaskCalls) :
    ConfigInv (gatewayAmebaTask sdk s calls) := by
  cases hpc : s.pc with
  | openUpstream now config => exact configInv_openUpstream h hpc calls
  | clearRequest =>
    have hclosed := h.closed hpc
    simp only [gatewayAmebaTask, hpc]
    exact ⟨h.applied, h.valid, fun hc => absurd (hclosed.symm.trans hc) Bool.false_ne_true,
      by simp, by simp⟩
  | closeUpstream =>
    simp only [gatewayAmebaTask, hpc]
    exact h.keeps rfl (fun hc => by cases hc) (by simp) fun _ => rfl
  | snapshot now =>
    simp only [gatewayAmebaTask, hpc]
    refine h.keeps rfl id (fun now' config heq => ?_) (by simp [Task.goto])
    cases heq
    rfl
  | startStreams now =>
    simp only [gatewayAmebaTask, hpc]
    refine h.goes rfl ?_ (by simp) (by simp)
    intro hc
    rcases startStreams_cases calls.connect s.upstream with ⟨-, heq⟩ | ⟨-, heq⟩ <;> rw [heq] at hc
    · cases hc
    · exact hc
  | poll =>
    simp only [gatewayAmebaTask, hpc]
    split
    · exact h.goes rfl id (by simp [Task.goto]) (by simp [Task.goto])
    · refine h.goes rfl receiveFrame_connected ?_ ?_
      · intro now config
        dsimp only
        split <;> simp
      · dsimp only
        split <;> simp
  | relay frame =>
    simp only [gatewayAmebaTask, hpc]
    exact h.goes rfl relayFrame_connected (by simp) (by simp)
  | testBusy | testCounters | testTick | testRequest | testWifi | testConnect =>
    simp only [gatewayAmebaTask, hpc]
    refine h.goes rfl id ?_ ?_
    · intro now config
      simp only [Task.goto]
      split <;> simp
    · simp only [Task.goto]
      split <;> simp
  | _ =>
    simp only [gatewayAmebaTask, hpc]
    exact h.goes rfl id (by simp [Task.goto]) (by simp [Task.goto])

theorem configInv_install (h : ConfigInv s) (next : UpstreamConfig) :
    ConfigInv (s.install next) where
  applied := by simp [Task.install]
  valid _ := rfl
  connected _ hreq := by cases hreq
  snapshot _ _ _ hreq := by cases hreq
  closed := h.closed

theorem configInv_step {e : TaskEvent} (h : ConfigInv s) (hs : taskStep sdk s e = some s') :
    ConfigInv s' := by
  cases e with
  | go calls =>
    cases hs
    exact configInv_go h calls
  | callback e =>
    simp only [taskStep, Option.ite_none_left_eq_some] at hs
    obtain ⟨d, -, heq⟩ := Option.map_eq_some_iff.1 hs.2
    have hdevice : ConfigInv (s.withDevice d) :=
      ⟨h.applied, h.valid, h.connected, h.snapshot, h.closed⟩
    cases hinst : e.installs sdk.inetAton with
    | none =>
      rw [hinst] at heq
      exact heq ▸ hdevice
    | some next =>
      rw [hinst] at heq
      exact heq ▸ configInv_install hdevice next
  | ticks n =>
    cases hs
    exact ⟨h.applied, h.valid, h.connected, h.snapshot, h.closed⟩
  | wifi ready =>
    cases hs
    exact ⟨h.applied, h.valid, h.connected, h.snapshot, h.closed⟩

/-- Only one statement clears a request. -/
theorem clears_request {e : TaskEvent} (hs : taskStep sdk s e = some s')
    (hreq : s.reconnectRequested = true) (hreq' : s'.reconnectRequested = false) :
    s.pc = .clearRequest ∧ s'.upstream = s.upstream := by
  have hkept : s'.reconnectRequested ≠ s.reconnectRequested := by
    rw [hreq, hreq']
    exact Bool.false_ne_true
  cases e with
  | go calls =>
    cases hs
    cases hpc : s.pc with
    | clearRequest =>
      simp only [gatewayAmebaTask, hpc]
      exact ⟨trivial, trivial⟩
    | openUpstream | poll =>
      simp only [gatewayAmebaTask, hpc] at hkept
      split at hkept <;> exact absurd rfl hkept
    | _ =>
      simp only [gatewayAmebaTask, hpc] at hkept
      exact absurd rfl hkept
  | callback e =>
    simp only [taskStep, Option.ite_none_left_eq_some] at hs
    obtain ⟨d, -, rfl⟩ := Option.map_eq_some_iff.1 hs.2
    split at hreq'
    · exact absurd (hreq.symm.trans hreq') Bool.false_ne_true.symm
    · cases hreq'
  | ticks n | wifi ready =>
    cases hs
    exact absurd rfl hkept

/-- The firmware before the loop: there is no connection and no configuration. -/
structure Task.Started (s : Task) : Prop where
  pc : s.pc = .forceConfigure
  connected : s.upstream.connected = false
  configValid : s.configValid = false
  config : s.config.valid = false
  reconnectRequested : s.reconnectRequested = false
  applied : s.applied = []

theorem configInv_started (h : s.Started) : ConfigInv s where
  applied := by simp [h.applied, h.configValid]
  valid hvalid := absurd (h.config.symm.trans hvalid) Bool.false_ne_true
  connected hc := absurd (h.connected.symm.trans hc) Bool.false_ne_true
  snapshot now config hpc := by
    rw [h.pc] at hpc
    cases hpc
  closed _ := h.connected

theorem gatewayAmebaTask_applied (calls : TaskCalls) :
    (gatewayAmebaTask sdk s calls).applied = s.applied := by
  cases hpc : s.pc with
  | openUpstream | poll =>
    simp only [gatewayAmebaTask, hpc]
    split <;> rfl
  | _ => simp only [gatewayAmebaTask, hpc, Task.goto, Task.withDevice]

theorem taskStep_applied {e : TaskEvent} (hs : taskStep sdk s e = some s') :
    s'.applied = s.applied ++ (e.configures sdk.inetAton).toList := by
  cases e with
  | go calls =>
    cases hs
    rw [gatewayAmebaTask_applied, TaskEvent.configures, Option.toList_none, List.append_nil]
  | callback e =>
    simp only [taskStep, Option.ite_none_left_eq_some] at hs
    obtain ⟨d, -, rfl⟩ := Option.map_eq_some_iff.1 hs.2
    rw [TaskEvent.configures]
    cases e.installs sdk.inetAton with
    | none => exact (List.append_nil _).symm
    | some next => rfl
  | ticks n | wifi ready =>
    cases hs
    exact (List.append_nil _).symm

theorem run_applied {es : List TaskEvent} (h : Run.run (taskStep sdk) s es = some s') :
    s'.applied = s.applied ++ es.filterMap (TaskEvent.configures sdk.inetAton) :=
  Run.trace (I := fun _ => True) (fun _ hs => ⟨trivial, taskStep_applied hs⟩) h trivial

/-- **Configurations are not lost.** In every run, wherever the packets that configure it fall, the
configurations applied are those of the good ones in their order, and a connection is one to the
last of them unless a reconnect is requested; and a request is cleared only when there is no
connection. -/
theorem run_last_config {s₀ : Task} (hstart : s₀.Started) {es : List TaskEvent}
    (h : Run.run (taskStep sdk) s₀ es = some s) :
    s.applied = es.filterMap (TaskEvent.configures sdk.inetAton) ∧
    (s.upstream.connected = true → s.reconnectRequested = false →
      s.applied.getLast? = some s.connectedTo) ∧
    ∀ e s', taskStep sdk s e = some s' → s.reconnectRequested = true →
      s'.reconnectRequested = false → s'.upstream.connected = false := by
  have hinv := Run.inv configInv_step h (configInv_started hstart)
  refine ⟨?_, ?_, ?_⟩
  · rw [run_applied h, hstart.applied, List.nil_append]
  · intro hc hr
    obtain ⟨hvalid, hto⟩ := hinv.connected hc hr
    rw [hinv.applied, if_pos hvalid, hto]
  · intro e s' hs hr hr'
    obtain ⟨hpc, hupstream⟩ := clears_request hs hr hr'
    rw [hupstream]
    exact hinv.closed hpc

end

/-- The firmware before its loop. -/
def bootTask : Task where
  pc := .forceConfigure
  device := bootDevice
  upstream := ⟨-1, .null, false, noNonce⟩
  config := ⟨[], [], 0, false, 0⟩
  configValid := false
  reconnectRequested := false
  wifiReady := false
  nextRetryTick := 0
  usbProgressTick := 0
  lastSentObserved := 0
  lastInDoneObserved := 0
  now := 0
  progressAt := 0
  queuedAt := 0
  queuedProgress := (0, 0)
  found := 0
  applied := []
  connectedTo := ⟨[], [], 0, false, 0⟩

/-- A kernel with a tick a millisecond. -/
def milliSdk : Sdk := ⟨fun _ _ _ _ => 0, fun _ => none, fun _ => true, fun ms => UInt32.ofNat ms⟩

/-- Every call succeeds, and the server answers the handshake. -/
def answeredCalls : TaskCalls where
  speedOk := true
  setAlt := ⟨0, 0, true, true⟩
  dequeueRc := 0
  kickRc := 0
  connect := ⟨3, true, true, true, [.data (ascii "HTTP/1.1 101\r\n\r\n")], true, true, true⟩
  readable := false
  recvs := []
  poll := ⟨true, true, true, true, true, 0⟩

/-- A CFG1 packet for the path "/gateway". -/
def configPacket (host : String) (port : UInt16) (seqNo : UInt32) : DeviceEvent :=
  let field (size : Nat) (s : String) := (ascii s ++ List.replicate size 0).take size
  .outComplete 0 64 (ascii "CFG1" ++ le32 seqNo ++ le16 port ++ [0, 0] ++ field 16 host ++
    field 36 "/gateway") ⟨0, 0, 0⟩

/-- A second configuration arrives while the task connects to the host of the first. -/
def reconfigureRun : List TaskEvent :=
  [.wifi true, .callback (configPacket "10.0.0.1" 8081 1)] ++
    List.replicate 15 (.go answeredCalls) ++
    [.ticks 300, .callback (configPacket "10.0.0.2" 8082 2)] ++
    List.replicate 26 (.go answeredCalls)

theorem run_last_config_reconfigureRun :
    ∃ s, Run.run (taskStep milliSdk) bootTask reconfigureRun = some s ∧
      s.connectedTo.host = ascii "10.0.0.2" ∧ s.applied.getLast? = some s.connectedTo := by
  have h : ∃ s, Run.run (taskStep milliSdk) bootTask reconfigureRun = some s ∧
      s.connectedTo.host = ascii "10.0.0.2" ∧ s.upstream.connected = true ∧
        s.reconnectRequested = false := by
    decide +kernel
  obtain ⟨s, hs, hhost, hconn, hreq⟩ := h
  exact ⟨s, hs, hhost, (run_last_config ⟨rfl, rfl, rfl, rfl, rfl, rfl⟩ hs).2.1 hconn hreq⟩

end Firmware
