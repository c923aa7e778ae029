import CarplayRelay.E2E.UpstreamFrames

/-!
# Which handshakes are accepted

A server accepts the upgrade with the status code 101. Both clients look for "101" anywhere in
what they have read when the header is complete, so they also accept a refusal that says "101" in
another place: in the status line, in another header or in bytes behind the header.

* `gateway_accepts`, `firmware_accepts`: what is accepted.
* `accepts_iff_status`: when that agrees with the status code.
-/

namespace E2E

open Bytes Recv WsClient

/-- The status code of a response: what stands between the first two blanks of its first line. -/
def statusCode (header : Bytes) : Bytes :=
  (((header.takeWhile (· ≠ 13)).dropWhile (· ≠ 32)).drop 1).takeWhile (· ≠ 32)

/-- A response says "101", up to its first NUL. -/
def Says101 (response : Bytes) : Prop := switching <:+: Crypto.cString response

/-- The gateway sends its request, and has memory for the prebuffer. -/
structure GatewayAsks (host path : Bytes) (port : UInt16) (calls : Gateway.ConnectCalls) :
    Prop where
  socket : calls.socket.isSome
  fits : (upgradeRequest path host port).length < requestSize
  writeOk : calls.writeOk = true
  mallocOk : calls.mallocOk = true

/-- The firmware sends its request, and has memory for the prebuffer. -/
structure FirmwareAsks (config : Firmware.UpstreamConfig) (calls : Firmware.ConnectCalls) :
    Prop where
  valid : config.valid = true
  socket : 0 ≤ calls.socket
  addrOk : calls.addrOk = true
  connectOk : calls.connectOk = true
  fits : (upgradeRequest config.path config.host config.port).length < requestSize
  writeOk : calls.writeOk = true
  mallocOk : calls.mallocOk = true

section
variable {header stream : Bytes}

theorem says101_of_status {retry : Bool} {size : Nat} {rs : List Result}
    (hh : ResponseHeader header) (hsize : header.length < size)
    (hdel : Delivers retry rs (header ++ stream)) (h : statusCode header = switching) :
    Says101 (lastRead size header.length [] rs).1 := by
  obtain ⟨got, _, _, _, -, -, hlast, -⟩ := handshake_response hh hsize hdel
  have hcode : statusCode header <:+: header :=
    (List.takeWhile_prefix _).isInfix.trans ((List.drop_suffix _ _).isInfix.trans
      ((List.dropWhile_suffix _).isInfix.trans (List.takeWhile_prefix _).isInfix))
  rw [hlast, Says101, cString_append hh.no_nul, ← h]
  exact hcode.trans (List.prefix_append _ _).isInfix

/-- The gateway accepts what says "101" when the header is complete. -/
theorem gateway_accepts {host path : Bytes} {port : UInt16} {calls : Gateway.ConnectCalls}
    (hask : GatewayAsks host path port calls) (hh : ResponseHeader header)
    (hsize : header.length ≤ 4095) (hdel : Delivers true calls.recvs (header ++ stream)) :
    (Gateway.wsUpstreamConnect host port path calls).1 = 0 ↔
      Says101 (lastRead 4096 header.length [] calls.recvs).1 := by
  obtain ⟨got, unread, rs, tail, -, -, hlast, hshake⟩ :=
    handshake_response hh (by omega : header.length < 4096) hdel
  obtain ⟨fd, hfd⟩ := Option.isSome_iff_exists.1 hask.socket
  have hfits := hask.fits
  rw [hlast, Says101, cString_append hh.no_nul, ← strstr_isSome]
  unfold Gateway.wsUpstreamConnect
  simp only [hfd, hshake]
  rw [if_neg (by omega), if_neg (by simp [hask.writeOk])]
  cases hsays : strstr switching (header ++ Crypto.cString got) with
  | none => simp
  | some i => simp [hask.mallocOk]

/-- So does the firmware. -/
theorem firmware_accepts {config : Firmware.UpstreamConfig} {calls : Firmware.ConnectCalls}
    {s : Firmware.UpstreamState} (hask : FirmwareAsks config calls) (hh : ResponseHeader header)
    (hsize : header.length ≤ 2047) (hdel : Delivers false calls.recvs (header ++ stream)) :
    (Firmware.openUpstream config calls s).1 = 0 ↔
      Says101 (lastRead 2048 header.length [] calls.recvs).1 := by
  obtain ⟨got, unread, rs, tail, -, -, hlast, hshake⟩ :=
    handshake_response hh (by omega : header.length < 2048) hdel
  have hfits := hask.fits
  have hsocket := hask.socket
  rw [hlast, Says101, cString_append hh.no_nul, ← strstr_isSome]
  unfold Firmware.openUpstream
  rw [if_neg (by simp [hask.valid]), if_neg (by simp [hsocket, hask.addrOk, hask.connectOk]),
    if_neg (by omega), if_neg (by simp [hask.writeOk])]
  simp only [hshake]
  cases hsays : strstr switching (header ++ Crypto.cString got) with
  | none => simp
  | some i => simp [hask.mallocOk]

theorem iff_status_iff {response : Bytes} {accepted : Prop} (haccept : accepted ↔ Says101 response)
    (hstatus : statusCode header = switching → Says101 response) :
    (accepted ↔ statusCode header = switching) ↔
      (statusCode header = switching ∨ ¬ Says101 response) := by
  tauto

/-- **When a handshake is accepted exactly for the status code 101**: it has that code, or "101"
occurs nowhere in what has been read when the header is complete. -/
theorem accepts_iff_status (hh : ResponseHeader header) :
    (∀ {host path : Bytes} {port : UInt16} {calls : Gateway.ConnectCalls},
      GatewayAsks host path port calls → header.length ≤ 4095 →
      Delivers true calls.recvs (header ++ stream) →
      (((Gateway.wsUpstreamConnect host port path calls).1 = 0 ↔ statusCode header = switching) ↔
        (statusCode header = switching ∨
          ¬ Says101 (lastRead 4096 header.length [] calls.recvs).1))) ∧
    ∀ {config : Firmware.UpstreamConfig} {calls : Firmware.ConnectCalls}
      {s : Firmware.UpstreamState}, FirmwareAsks config calls → header.length ≤ 2047 →
      Delivers false calls.recvs (header ++ stream) →
      (((Firmware.openUpstream config calls s).1 = 0 ↔ statusCode header = switching) ↔
        (statusCode header = switching ∨
          ¬ Says101 (lastRead 2048 header.length [] calls.recvs).1)) := by
  refine ⟨?_, ?_⟩
  · intro host path port calls hask hsize hdel
    exact iff_status_iff (gateway_accepts hask hh hsize hdel)
      (says101_of_status hh (by omega) hdel)
  · intro config calls s hask hsize hdel
    exact iff_status_iff (firmware_accepts hask hh hsize hdel)
      (says101_of_status hh (by omega) hdel)

end

/-- A refusal. -/
def notFound : Bytes := ascii "HTTP/1.1 404 Not Found\r\nContent-Length: 0\r\n\r\n"

/-- A refusal that says "101" in another header. -/
def notFound101 : Bytes := ascii "HTTP/1.1 404 Not Found\r\nContent-Length: 101\r\n\r\n"

def gatewayAsk (response : Bytes) : Gateway.ConnectCalls := ⟨some 3, true, [.data response], true⟩

def firmwareAsk (response : Bytes) : Firmware.ConnectCalls :=
  ⟨3, true, true, true, [.data response], true, true, true⟩

theorem gatewayAsks_ask (response : Bytes) :
    GatewayAsks config.host config.path config.port (gatewayAsk response) :=
  ⟨rfl, by decide +kernel, rfl, rfl⟩

theorem firmwareAsks_ask (response : Bytes) : FirmwareAsks config (firmwareAsk response) :=
  ⟨rfl, Int.natCast_nonneg 3, rfl, rfl, by decide +kernel, rfl, rfl⟩

/-- The refusal is judged by its status code. -/
theorem accepts_iff_status_notFound :
    ((Gateway.wsUpstreamConnect config.host config.port config.path
        (gatewayAsk notFound)).1 = 0 ↔ statusCode notFound = switching) ∧
      ((Firmware.openUpstream config (firmwareAsk notFound) idleUpstream).1 = 0 ↔
        statusCode notFound = switching) := by
  have hh : ResponseHeader notFound := ⟨by decide +kernel, by decide +kernel⟩
  have h := @accepts_iff_status notFound [] hh
  have hdel (retry : Bool) : Delivers retry [.data notFound] (notFound ++ []) :=
    ⟨by decide +kernel, [], rfl, rfl⟩
  constructor
  · apply (h.1 (gatewayAsks_ask notFound) (by decide +kernel) (hdel true)).2
    exact .inr (by unfold Says101; decide +kernel)
  · apply (h.2 (firmwareAsks_ask notFound) (by decide +kernel) (hdel false)).2
    exact .inr (by unfold Says101; decide +kernel)

/-- Both clients accept the other refusal. -/
theorem accepts_notFound101 :
    ¬ ((Gateway.wsUpstreamConnect config.host config.port config.path
        (gatewayAsk notFound101)).1 = 0 ↔ statusCode notFound101 = switching) ∧
      ¬ ((Firmware.openUpstream config (firmwareAsk notFound101) idleUpstream).1 = 0 ↔
        statusCode notFound101 = switching) := by
  have hgateway : (Gateway.wsUpstreamConnect config.host config.port config.path
      (gatewayAsk notFound101)).1 = 0 := by decide +kernel
  have hfirmware :
      (Firmware.openUpstream config (firmwareAsk notFound101) idleUpstream).1 = 0 := by
    decide +kernel
  have hstatus : statusCode notFound101 ≠ switching := by decide +kernel
  exact ⟨fun h => hstatus (h.1 hgateway), fun h => hstatus (h.1 hfirmware)⟩

end E2E
