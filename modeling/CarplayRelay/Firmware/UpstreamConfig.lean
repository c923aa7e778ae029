import CarplayRelay.Firmware.Task

/-!
# Installing an upstream configuration (`gateway_upstream_apply_usb_config`)

A CFG1 packet has the host and the path of the upstream server in fields of 16 and 36 bytes. The
firmware reads them up to their first NUL, and installs the configuration only if all of it is good.
A short transfer is completed by the zeros that its buffer was cleared to.

* `applyUsbConfig_iff`: which packets are good, and what they say.
* `taskStep_config`: the task's variables are set like that.
-/

namespace Firmware

open Bytes Crypto

/-! ## The variables of the configuration -/

/-- `gateway_upstream_config`, `gateway_upstream_config_valid`, `gateway_upstream_config_seq` and
`gateway_upstream_reconnect_requested`. -/
structure ConfigVars where
  config : UpstreamConfig
  configValid : Bool
  configSeq : UInt32
  reconnectRequested : Bool
  deriving DecidableEq, Repr

/-- The critical section of `gateway_upstream_apply_usb_config`. -/
def ConfigVars.install (next : UpstreamConfig) : ConfigVars := ⟨next, true, next.seqNo, true⟩

/-- The buffer that `gateway_usb_queue_out_request` clears, with a transfer in it. -/
def outBuffer (transfer : Bytes) : Bytes := transfer ++ List.replicate (64 - transfer.length) 0

/-- `gateway_usb_out_complete` on the variables of the configuration. -/
def ConfigVars.outComplete (inetAton : Bytes → Bool) (v : ConfigVars) (status : Int)
    (transfer : Bytes) : ConfigVars :=
  if status ≠ 0 then v
  else
    match outPacket transfer.length (outBuffer transfer) with
    | .config =>
      match gatewayUpstreamApplyUsbConfig inetAton (outBuffer transfer) with
      | none => v
      | some next => .install next
    | .short | .ping _ | .other _ => v

/-! ## The fields -/

/-- A field holds a string that is not empty and has its NUL within the field. -/
structure HoldsString (field value : Bytes) : Prop where
  ne_nil : value ≠ []
  no_nul : ∀ b ∈ value, b ≠ 0
  ends : ∃ rest, field = value ++ 0 :: rest

/-- `gateway_usb_upstream_config_packet_t`. -/
def packetSeqNo (raw : Bytes) : UInt32 := ofLe32 (raw.drop 4)
def packetPort (raw : Bytes) : UInt16 := ofLe16 (raw.drop 8)
def packetHost (raw : Bytes) : Bytes := (raw.drop 12).take upstreamHostMax
def packetPath (raw : Bytes) : Bytes := (raw.drop 28).take upstreamPathMax

section
variable {field value raw transfer : Bytes} {inetAton : Bytes → Bool} {v : ConfigVars}

/-- A field is copied exactly if it holds a string. -/
theorem copyField_iff {size : Nat} (hsize : field.length ≤ size) :
    gatewayUpstreamCopyField size field = some value ↔ HoldsString field value := by
  unfold gatewayUpstreamCopyField
  constructor
  · intro h
    simp only [Option.ite_none_left_eq_some, Option.some.injEq, not_or, not_le] at h
    obtain ⟨⟨hne, hlt, -⟩, rfl⟩ := h
    exact ⟨fun hnil => hne (by rw [hnil]; rfl), fun _ hb => ne_zero_of_mem_cString hb,
      cString_ends hlt⟩
  · intro h
    obtain ⟨rest, rfl⟩ := h.ends
    have hpos := List.length_pos_of_ne_nil h.ne_nil
    simp only [List.length_append, List.length_cons] at hsize ⊢
    rw [cString_append_zero h.no_nul, if_neg (by omega)]

/-- A packet that says `config`. -/
structure GoodPacket (inetAton : Bytes → Bool) (raw : Bytes) (config : UpstreamConfig) : Prop where
  host : HoldsString (packetHost raw) config.host
  path : HoldsString (packetPath raw) config.path
  accepted : inetAton config.host = true
  port_ne : config.port ≠ 0
  port : config.port = packetPort raw
  valid : config.valid = true
  seqNo : config.seqNo = packetSeqNo raw

/-- **Which packets are applied**, and what is installed then. -/
theorem applyUsbConfig_iff {config : UpstreamConfig} :
    gatewayUpstreamApplyUsbConfig inetAton raw = some config ↔ GoodPacket inetAton raw config := by
  have hhost {value : Bytes} : gatewayUpstreamCopyField upstreamHostMax (packetHost raw) =
      some value ↔ HoldsString (packetHost raw) value :=
    copyField_iff (by rw [packetHost, List.length_take]; exact Nat.min_le_left _ _)
  have hpath {value : Bytes} : gatewayUpstreamCopyField upstreamPathMax (packetPath raw) =
      some value ↔ HoldsString (packetPath raw) value :=
    copyField_iff (by rw [packetPath, List.length_take]; exact Nat.min_le_left _ _)
  unfold gatewayUpstreamApplyUsbConfig
  constructor
  · intro h
    split at h
    · cases h
    rename_i hport
    split at h
    · cases h
    rename_i host hh
    split at h
    · cases h
    rename_i path hp
    split at h
    · cases h
    rename_i haton
    cases h
    exact ⟨hhost.1 hh, hpath.1 hp, not_not.1 haton, hport, rfl, rfl, rfl⟩
  · intro h
    obtain ⟨host, path, port, valid, seqNo⟩ := config
    obtain ⟨hh, hp, haton, hport, rfl, rfl, rfl⟩ := h
    rw [show ofLe16 (raw.drop 8) = packetPort raw from rfl, if_neg hport]
    simp only [show (raw.drop 12).take upstreamHostMax = packetHost raw from rfl, hhost.2 hh,
      show (raw.drop 28).take upstreamPathMax = packetPath raw from rfl, hpath.2 hp]
    exact if_neg (by simpa using haton)

/-- A CFG1 transfer is judged by its buffer. -/
theorem outComplete_config (hmin : 12 ≤ transfer.length) (hmagic : transfer.take 4 = ascii "CFG1") :
    v.outComplete inetAton 0 transfer =
      match gatewayUpstreamApplyUsbConfig inetAton (outBuffer transfer) with
      | none => v
      | some next => .install next := by
  have htake : (outBuffer transfer).take 4 = ascii "CFG1" := by
    rw [outBuffer, List.take_append_of_le_length (by omega), hmagic]
  have hpacket : outPacket transfer.length (outBuffer transfer) = .config := by
    rw [outPacket, if_neg (by omega), if_pos htake]
  unfold ConfigVars.outComplete
  rw [if_neg (by simp), hpacket]

/-- The transfers that install a configuration are those of the task. -/
theorem outComplete_installs (status : Int) (calls : OutCalls) :
    v.outComplete inetAton status transfer =
      match DeviceEvent.installs inetAton
        (.outComplete status transfer.length (outBuffer transfer) calls) with
      | none => v
      | some next => .install next := by
  unfold ConfigVars.outComplete DeviceEvent.installs
  dsimp only
  by_cases hstatus : status = 0
  · rw [if_neg (not_not.2 hstatus)]
    cases outPacket transfer.length (outBuffer transfer) with
    | config => rw [if_pos ⟨hstatus, rfl⟩]
    | short | ping _ | other _ => rw [if_neg (by simp)]
  · rw [if_pos hstatus, if_neg fun h => hstatus h.1]

/-- **The task's variables are set like that.** -/
theorem taskStep_config {sdk : Sdk} {s s' : Task} {status : Int} {calls : OutCalls}
    (hs : taskStep sdk s (.callback (.outComplete status transfer.length (outBuffer transfer)
      calls)) = some s') (seqNo : UInt32) :
    ∃ seqNo', ConfigVars.outComplete sdk.inetAton
      ⟨s.config, s.configValid, seqNo, s.reconnectRequested⟩ status transfer =
        ⟨s'.config, s'.configValid, seqNo', s'.reconnectRequested⟩ := by
  rw [outComplete_installs status calls]
  simp only [taskStep, DeviceEvent.isCallback, deviceStep, not_true, Option.map_some,
    Option.some.injEq, if_false] at hs
  subst hs
  cases DeviceEvent.installs sdk.inetAton
      (.outComplete status transfer.length (outBuffer transfer) calls) with
  | none => exact ⟨seqNo, rfl⟩
  | some next => exact ⟨next.seqNo, rfl⟩

end

end Firmware
