import CarplayRelay.Client.Startup
import CarplayRelay.Firmware.UpstreamConfig

/-!
# The upstream configuration over USB

The client sends the address of the upstream server in a CFG1 packet, `send_usb_upstream_config`
refusing what does not fit its fields.

* `config_all_or_nothing`: a packet sets all variables of the configuration or none, and the
  firmware decodes what the client has encoded.
-/

namespace E2E

open Bytes Client Firmware

section
variable {seqNo : UInt32} {port : UInt16} {host path : Bytes}

theorem configPacket_eq : Client.configPacket seqNo port host path =
    [67, 70, 71, 49] ++ (le32 seqNo ++ (le16 port ++ (le16 0 ++
      ((host ++ List.replicate (16 - host.length) 0) ++
        (path ++ List.replicate (36 - path.length) 0))))) := by
  have hmagic : ascii "CFG1" = [67, 70, 71, 49] := by decide
  simp only [Client.configPacket, hmagic, List.append_assoc]

theorem length_padded {value : Bytes} {size : Nat} (h : value.length < size) :
    (value ++ List.replicate (size - value.length) (0 : UInt8)).length = size := by
  rw [List.length_append, List.length_replicate]
  omega

theorem length_configPacket (hhost : host.length < 16) (hpath : path.length < 36) :
    (Client.configPacket seqNo port host path).length = 64 := by
  simp [configPacket_eq]
  omega

theorem holdsString_padded {value : Bytes} {size : Nat} (hne : value ≠ [])
    (hnul : ∀ b ∈ value, b ≠ 0) (hlt : value.length < size) :
    HoldsString (value ++ List.replicate (size - value.length) 0) value := by
  refine ⟨hne, hnul, List.replicate (size - value.length - 1) 0, ?_⟩
  rw [← List.replicate_succ, Nat.sub_add_cancel (by omega)]

/-- The packet of the client says what the client was given. -/
theorem goodPacket_configPacket {inetAton : Bytes → Bool} (hhost : host ≠ [])
    (hhostNul : ∀ b ∈ host, b ≠ 0) (haton : inetAton host = true) (hpath : path ≠ [])
    (hpathNul : ∀ b ∈ path, b ≠ 0) (hport : port ≠ 0) (hhlt : host.length < 16)
    (hplt : path.length < 36) :
    GoodPacket inetAton (outBuffer (Client.configPacket seqNo port host path))
      ⟨host, path, port, true, seqNo⟩ := by
  have hbuffer : outBuffer (Client.configPacket seqNo port host path) =
      Client.configPacket seqNo port host path := by
    rw [outBuffer, length_configPacket hhlt hplt]
    exact List.append_nil _
  have hhostField : packetHost (Client.configPacket seqNo port host path) =
      host ++ List.replicate (16 - host.length) 0 := by
    rw [configPacket_eq]
    exact List.take_left' (length_padded hhlt)
  have hpathField : packetPath (Client.configPacket seqNo port host path) =
      path ++ List.replicate (36 - path.length) 0 := by
    rw [configPacket_eq, packetPath, show (28 : Nat) = 12 + 16 from rfl, ← List.drop_drop]
    show ((_ ++ _ : Bytes).drop 16).take _ = _
    rw [List.nil_append, List.drop_left' (length_padded hhlt)]
    exact List.take_of_length_le (length_padded hplt).le
  rw [hbuffer]
  refine ⟨?_, ?_, haton, hport, ?_, rfl, ?_⟩
  · rw [hhostField]
    exact holdsString_padded hhost hhostNul hhlt
  · rw [hpathField]
    exact holdsString_padded hpath hpathNul hplt
  · rw [configPacket_eq]
    exact (ofLe16_le16 port _).symm
  · rw [configPacket_eq]
    exact (ofLe32_le32 seqNo _).symm

/-- A packet is only sent if host and path fit their fields. -/
theorem sendUsbUpstreamConfig_send {usb : Bool} {options : UsbUpstreamOptions}
    {detected : Option Bytes} {packet : Bytes} (hhost : options.host ≠ [])
    (h : sendUsbUpstreamConfig usb seqNo options detected = .send packet) :
    options.host.length < 16 ∧ options.path.length < 36 ∧
      packet = Client.configPacket seqNo options.port options.host options.path := by
  unfold sendUsbUpstreamConfig at h
  split at h
  · cases h
  dsimp only at h
  split at h
  · cases h
  rename_i hsize
  rw [not_or, not_le, not_le] at hsize
  cases h
  exact ⟨hsize.1, hsize.2, rfl⟩

/-- **Upstream configurations are applied all or nothing, and round-trip.** A CFG1 transfer of 12
to 64 bytes whose fields are good sets the variables to what it says, any other leaves them; and a
packet that the client sends says what the client was given. -/
theorem config_all_or_nothing (inetAton : Bytes → Bool) (v : ConfigVars) :
    (∀ {transfer : Bytes}, 12 ≤ transfer.length → transfer.length ≤ 64 →
      transfer.take 4 = ascii "CFG1" →
      (∀ {host path : Bytes}, HoldsString (packetHost (outBuffer transfer)) host →
        HoldsString (packetPath (outBuffer transfer)) path →
        packetPort (outBuffer transfer) ≠ 0 → inetAton host = true →
        v.outComplete inetAton 0 transfer =
          ⟨⟨host, path, packetPort (outBuffer transfer), true, packetSeqNo (outBuffer transfer)⟩,
            true, packetSeqNo (outBuffer transfer), true⟩) ∧
      ((¬ ∃ host path, HoldsString (packetHost (outBuffer transfer)) host ∧
        HoldsString (packetPath (outBuffer transfer)) path ∧
        packetPort (outBuffer transfer) ≠ 0 ∧ inetAton host = true) →
        v.outComplete inetAton 0 transfer = v)) ∧
    ∀ {usb : Bool} {seqNo : UInt32} {options : UsbUpstreamOptions} {detected : Option Bytes}
      {packet : Bytes}, options.host ≠ [] → (∀ b ∈ options.host, b ≠ 0) →
      inetAton options.host = true → options.path ≠ [] → (∀ b ∈ options.path, b ≠ 0) →
      options.port ≠ 0 → sendUsbUpstreamConfig usb seqNo options detected = .send packet →
      v.outComplete inetAton 0 packet =
        ⟨⟨options.host, options.path, options.port, true, seqNo⟩, true, seqNo, true⟩ := by
  refine ⟨?_, ?_⟩
  · intro transfer hmin _ hmagic
    rw [outComplete_config hmin hmagic]
    refine ⟨?_, ?_⟩
    · intro host path hhost hpath hport haton
      have hgood : GoodPacket inetAton (outBuffer transfer) ⟨host, path,
          packetPort (outBuffer transfer), true, packetSeqNo (outBuffer transfer)⟩ :=
        ⟨hhost, hpath, haton, hport, rfl, rfl, rfl⟩
      rw [applyUsbConfig_iff.2 hgood]
      rfl
    · intro hbad
      cases happly : gatewayUpstreamApplyUsbConfig inetAton (outBuffer transfer) with
      | none => rfl
      | some config =>
        have hgood := applyUsbConfig_iff.1 happly
        exact absurd ⟨_, _, hgood.host, hgood.path, hgood.port ▸ hgood.port_ne, hgood.accepted⟩ hbad
  · intro usb seqNo options detected packet hhost hhostNul haton hpath hpathNul hport hsend
    obtain ⟨hhlt, hplt, rfl⟩ := sendUsbUpstreamConfig_send hhost hsend
    have hmin := @length_configPacket seqNo options.port options.host options.path hhlt hplt
    have hmagic : (Client.configPacket seqNo options.port options.host options.path).take 4 =
        ascii "CFG1" := by
      rw [configPacket_eq]
      exact (by decide : ([67, 70, 71, 49] : Bytes) = ascii "CFG1")
    rw [outComplete_config (by omega) hmagic, applyUsbConfig_iff.2
      (goodPacket_configPacket hhost hhostNul haton hpath hpathNul hport hhlt hplt)]
    rfl

end

/-- The variables before the first configuration. -/
def noConfig : ConfigVars := ⟨⟨[], [], 0, false, 0⟩, false, 0, false⟩

/-- An `inet_aton` that accepts every host. -/
def acceptAll : Bytes → Bool := fun _ => true

/-- The options of a client that uses the firmware's default path. -/
def someOptions : UsbUpstreamOptions := { host := ascii "10.0.0.1" }

/-- A packet that ends with the host. -/
def withoutPath : Bytes :=
  ascii "CFG1" ++ le32 7 ++ le16 8081 ++ le16 0 ++ ascii "10.0.0.1"

/-- A packet without a path is refused, and the client's packet is taken over. -/
theorem config_all_or_nothing_someOptions :
    noConfig.outComplete acceptAll 0 withoutPath = noConfig ∧
      ∃ packet, sendUsbUpstreamConfig true 7 someOptions none = .send packet ∧
        noConfig.outComplete acceptAll 0 packet =
          ⟨⟨ascii "10.0.0.1", ascii "/gateway", 8081, true, 7⟩, true, 7, true⟩ := by
  have h := config_all_or_nothing acceptAll noConfig
  refine ⟨?_, ?_⟩
  · apply (h.1 (by decide) (by decide) (by decide)).2
    rintro ⟨host, path, -, hpath, -⟩
    have hnone : gatewayUpstreamCopyField upstreamPathMax (packetPath (outBuffer withoutPath)) =
        none := by decide +kernel
    have hlen : (packetPath (outBuffer withoutPath)).length ≤ upstreamPathMax := by decide +kernel
    rw [(copyField_iff hlen).2 hpath] at hnone
    cases hnone
  · exact ⟨_, rfl, @h.2 true 7 someOptions none _ (by decide +kernel) (by decide +kernel) rfl
      (by decide +kernel) (by decide +kernel) (by decide) rfl⟩

end E2E
