import CarplayRelay.E2E.MediaSends
import CarplayRelay.Firmware.Upstream

/-!
# The USB relay, end to end

The server's threads send media on one connection, the firmware decrypts the packets and encrypts
them again for USB, and the client reads the USB stream.

* `usbRelay_faithful`: the client obtains exactly the sends, in the order in which they were
  complete.
-/

namespace E2E

open Bytes Crypto Media Proto Client Server Firmware

/-! ## From the server to the firmware -/

/-- The opcode and the payload of a frame. -/
def message : Frame → UInt8 × Bytes
  | .text payload => (1, payload)
  | .binary payload => (2, payload)

/-- A packet of the server as the firmware relays it. -/
def plain (p : Packet × Int) : Plain := (p.1.streamId, p.1.seqNo, p.1.payload)

/-- The packets of a server's sends. -/
structure Sendable (packets : List Plain) : Prop where
  ne_nil : ∀ p ∈ packets, p.2.2 ≠ []
  size : ∀ p ∈ packets, cryptoStreamPacketSize p.2.2.length < 2 ^ 31

section
variable {τ : Type} {ks : KeyStream} {n : Nonce} {a : SendApp τ}

theorem bytes_plain {p : Packet × Int}
    (hsize : cryptoStreamPacketSize (plain p).2.2.length < 2 ^ 31) :
    p.1.bytes ks n = packetBytes ks (plain p).1 (plain p).2.1 n (plain p).2.2 := by
  unfold plain at hsize ⊢
  rw [Packet.bytes, toInt32_of_lt hsize, Int.toNat_natCast]
  exact List.take_of_length_le (by rw [length_packetBytes])

theorem mem_packets (h : Serialized ks a) {b : Bytes} {rc : Int} (hb : ⟨.binary b, rc⟩ ∈ a.wire) :
    ∃ p ∈ a.packets, p.1.bytes ks a.sessionNonce = b := by
  have hmem : (b, rc) ∈ a.wire.filterMap Sent.binary := List.mem_filterMap.2 ⟨_, hb, rfl⟩
  rw [h.packets] at hmem
  obtain ⟨p, hp, heq⟩ := List.mem_map.1 hmem
  exact ⟨p, hp, (Prod.mk.inj heq).1⟩

/-- The frames of a server's connection are a feed for the firmware. -/
theorem feed_wire (h : Serialized ks a) (ht : Texts a) (hs : Sendable (a.packets.map plain)) :
    Feed ks a.sessionNonce (a.wire.map fun f => message f.frame) where
  text t hmem := by
    obtain ⟨⟨f, rc⟩, hf, heq⟩ := List.mem_map.1 hmem
    cases f with
    | text p =>
      cases heq
      exact ht t rc hf
    | binary p => cases heq
  binary b hmem := by
    obtain ⟨⟨f, rc⟩, hf, heq⟩ := List.mem_map.1 hmem
    cases f with
    | text p => cases heq
    | binary p =>
      cases heq
      obtain ⟨p, hp, rfl⟩ := mem_packets h hf
      have hplain := List.mem_map_of_mem (f := plain) hp
      exact ⟨plain p, bytes_plain (hs.size _ hplain), hs.ne_nil _ hplain, hs.size _ hplain⟩
  first pre post b hcut := by
    obtain ⟨pre', rest, hwire, rfl, hrest⟩ := List.map_eq_append_iff.1 hcut
    obtain ⟨⟨f, rc⟩, post', rfl, hf, -⟩ := List.map_eq_cons_iff.1 hrest
    cases f with
    | text p => cases hf
    | binary p =>
      obtain ⟨⟨g, rc'⟩, hg, hinit⟩ := h.init_first pre' post' p rc hwire
      simp only [Sent.isInit, Bool.and_eq_true, beq_iff_eq] at hinit
      exact ⟨_, List.mem_map.2 ⟨_, hg, by rw [hinit.1]; rfl⟩⟩

/-- The packets of the frames are those of the server, in order. -/
theorem filterMap_wire (h : Serialized ks a) (hs : Sendable (a.packets.map plain)) :
    (a.wire.map fun f => message f.frame).filterMap (framePlain ks a.sessionNonce) =
      a.packets.map plain := by
  have hwire : ∀ f : Sent, framePlain ks a.sessionNonce (message f.frame) =
      f.binary.bind fun b => framePlain ks a.sessionNonce (2, b.1) := by
    rintro ⟨f | f, rc⟩
    · have hkind : (1 : UInt8) ≠ 2 := by decide
      exact if_neg hkind
    · rfl
  have hbin : ∀ p ∈ a.packets,
      framePlain ks a.sessionNonce (2, p.1.bytes ks a.sessionNonce) = some (plain p) := by
    intro p hp
    have hsize := hs.size _ (List.mem_map_of_mem (f := plain) hp)
    rw [bytes_plain hsize]
    exact framePlain_packet hsize
  have hfun : (framePlain ks a.sessionNonce ∘ fun f : Sent => message f.frame) =
      fun f => f.binary.bind fun b => framePlain ks a.sessionNonce (2, b.1) := funext hwire
  rw [List.filterMap_map, hfun, ← List.filterMap_filterMap, h.packets, List.filterMap_map]
  rw [← List.filterMap_eq_map']
  exact List.filterMap_congr hbin

end

/-! ## From the firmware to the client -/

/-- The header and the encrypted payload of a packet on USB. -/
def usbRecord (ks : KeyStream) (p : Plain) : MediaInfo × Bytes :=
  ({ streamId := p.1
     flags := relayFlags p
     seqNo := p.2.1
     payloadLen := UInt32.ofNat (cryptoStreamPacketSize p.2.2.length) },
   packetBytes ks p.1 p.2.1 usbCryptoSessionNonce p.2.2)

section
variable {ks : KeyStream} {p : Plain} {plains : List Plain}

theorem mediaPacket_usbRecord (hne : p.2.2 ≠ []) :
    mediaPacket ks p.1 p.2.1 p.2.2 =
      gatewayProtoWriteMediaHeader (usbRecord ks p).1 ++ (usbRecord ks p).2 := by
  unfold mediaPacket
  simp only [if_neg hne, length_packetBytes]
  rfl

theorem usbPackets_flatten (hs : Sendable plains) :
    (usbPackets ks plains).flatten = packetStream (plains.map (usbRecord ks)) := by
  rw [usbPackets, packetStream, List.map_map]
  congr 1
  exact List.map_congr_left fun p hp => mediaPacket_usbRecord (hs.ne_nil p hp)

theorem packetOk_usbRecord (hsize : cryptoStreamPacketSize p.2.2.length < 2 ^ 31) :
    PacketOk (usbRecord ks p) := by
  refine ⟨?_, ?_⟩
  · simp only [usbRecord, length_packetBytes]
    exact UInt32.toNat_ofNat_of_lt' (Nat.lt_trans hsize (by decide))
  · apply Bool.eq_false_iff.2
    intro hmagic
    have hfirst : (0x43 : UInt8) = 0x47 := (startsGatewayMagic_bytes hmagic).1
    exact absurd hfirst (by decide)

/-- The client decrypts every packet. -/
theorem handleRecords_plains (hs : Sendable plains) (frag : FragState) :
    handleRecords ks true frag ((plains.map (usbRecord ks)).map fun r => .media r.1 r.2 0) =
      handlePlains frag plains := by
  induction plains generalizing frag with
  | nil => rfl
  | cons p plains ih =>
    have ih := ih ⟨fun q hq => hs.ne_nil q (by simp [hq]), fun q hq => hs.size q (by simp [hq])⟩
    have hdec : decryptUsbMediaPayload ks (usbRecord ks p).1 (usbRecord ks p).2 = some p.2.2 :=
      decryptUsbMediaPayload_packet (hs.size p (by simp))
    simp only [List.map_cons, handleRecords, handleRecord, handlePlains]
    rw [hdec]
    simp only [ih]
    rfl

end

/-! ## The relay -/

/-- The packets of a NAL unit are not empty, and no larger than a fragment. -/
theorem calls_size {frameId : UInt32} {nal p : Bytes} (hn : ServerNal nal)
    (hp : p ∈ (sendVideoMedia frameId nal allSent).calls) :
    p ≠ [] ∧ cryptoStreamPacketSize p.length < 2 ^ 31 := by
  have hbound : p ≠ [] ∧ p.length ≤ 16 + videoFragmentDataSize := by
    by_cases hlen : nal.length ≤ videoFragmentDataSize
    · rw [sendVideoMedia_small hn.ne_nil hlen, List.mem_singleton] at hp
      subst hp
      exact ⟨hn.ne_nil, by omega⟩
    · rw [sendVideoMedia_large hn (by omega)] at hp
      obtain ⟨i, -, rfl⟩ := List.mem_map.1 hp
      refine ⟨List.cons_ne_nil _ _, ?_⟩
      rw [fragmentOf, length_fragmentPacket, Chunks.length_chunk]
      omega
  refine ⟨hbound.1, ?_⟩
  have := hbound.2
  unfold cryptoStreamPacketSize headerSize
  rw [videoFragmentDataSize] at this
  omega

theorem sendable_onWire {frameId : UInt32} {cur : Option (Bytes × List Bytes)}
    {sends : List MediaSend} {packets : List (UInt8 × Bytes)}
    (h : OnWire frameId cur sends packets) (hok : ∀ m ∈ sends, m.Ok)
    (hcur : ∀ nal rest, cur = some (nal, rest) → ∀ p ∈ rest, p ≠ [] ∧
      cryptoStreamPacketSize p.length < 2 ^ 31) :
    ∀ p ∈ packets, p.2 ≠ [] ∧ cryptoStreamPacketSize p.2.length < 2 ^ 31 := by
  induction h with
  | done => simp
  | audio c o pcm _ ih =>
    have hpcm := hok (.audio c o pcm) List.mem_cons_self
    refine List.forall_mem_cons.2 ⟨⟨List.cons_ne_nil _ _, ?_⟩,
      ih (fun m hm => hok m (List.mem_cons_of_mem _ hm)) hcur⟩
    rw [length_audioPacket]
    exact hpcm
  | begin nal hwire ih =>
    apply ih hok
    intro nal' rest heq
    cases heq
    exact fun p hp => calls_size (hok _ (hwire.mem rfl)) hp
  | packet _ ih =>
    have hall := hcur _ _ rfl
    refine List.forall_mem_cons.2 ⟨hall _ List.mem_cons_self, ih hok fun nal' rest heq => ?_⟩
    cases heq
    exact fun p hp => hall p (List.mem_cons_of_mem _ hp)
  | last _ ih =>
    refine List.forall_mem_cons.2 ⟨hcur _ _ rfl _ List.mem_cons_self,
      ih (fun m hm => hok m (List.mem_cons_of_mem _ hm)) nofun⟩

/-- The frames of a server whose threads make the sends: they carry the packets of the sends, each
of which the firmware and the gateway can receive. -/
theorem server_sends {τ : Type} [DecidableEq τ] {ks : KeyStream} {n : Nonce}
    {es : List (SendEvent τ)} {server : Sender τ}
    (hserver : Run.run (senderStep ks) (newSender n) es = some server)
    {frameId : UInt32} {sends : List MediaSend}
    (hsends : OnWire frameId none sends
      (server.app.packets.map fun p => (p.1.streamId, p.1.payload)))
    (hok : ∀ m ∈ sends, m.Ok) :
    OnWire frameId none sends
      ((server.app.packets.map plain).map fun p => (p.1, p.2.2)) ∧
    Sendable (server.app.packets.map plain) ∧
    Feed ks server.app.sessionNonce (server.app.wire.map fun f => message f.frame) ∧
    (server.app.wire.map fun f => message f.frame).filterMap
      (framePlain ks server.app.sessionNonce) = server.app.packets.map plain := by
  have hser : Serialized ks server.app :=
    (Run.inv senderInv_step hserver (senderInv_newSender n)).core.serialized
  obtain ⟨htexts, -⟩ := run_texts hserver
  have hplains : (server.app.packets.map plain).map (fun p => (p.1, p.2.2)) =
      server.app.packets.map fun p => (p.1.streamId, p.1.payload) := by
    rw [List.map_map]
    rfl
  rw [← hplains] at hsends
  have hsize := sendable_onWire hsends hok nofun
  have hs : Sendable (server.app.packets.map plain) :=
    ⟨fun p hp => (hsize (p.1, p.2.2) (List.mem_map_of_mem hp)).1,
      fun p hp => (hsize (p.1, p.2.2) (List.mem_map_of_mem hp)).2⟩
  exact ⟨hsends, hs, feed_wire hser htexts hs, filterMap_wire hser hs⟩

/-- **The USB relay is faithful.** The threads of a connection make the sends `sends`, in whatever
interleaving; the firmware receives every frame, no allocation fails there, no packet is refused
and the stream is not reset, and its ring is drained. Then of the stream it delivered, of which
the client's startup may have taken the INIT record, `network_reader` obtains exactly the sends. -/
theorem usbRelay_faithful {τ : Type} [DecidableEq τ] {ks : KeyStream}
    {cJSONParse : Bytes → Option Json} (hparse : ParsesCryptoInit cJSONParse) {n : Nonce}
    {es : List (SendEvent τ)} {server : Sender τ}
    (hserver : Run.run (senderStep ks) (newSender n) es = some server)
    {frameId : UInt32} {sends : List MediaSend}
    (hsends : OnWire frameId none sends
      (server.app.packets.map fun p => (p.1.streamId, p.1.payload)))
    (hok : ∀ m ∈ sends, m.Ok) {g : Gateway} (hfresh : Fresh g.usb)
    (hready : g.usbStarted ∧ g.usbConfigured ∧ g.usbHostReady) {fs : List FwEvent} {fw : FwState}
    (hfw : Run.run (fwStep ks cJSONParse) { gateway := g } fs = some fw)
    (hcalm : Run.Meets (fwStep ks cJSONParse) (fun _ e => e.Calm) { gateway := g } fs)
    (hreceived : fw.received = server.app.wire.map fun f => message f.frame)
    (hrefused : fw.refused = 0) (hreset : fw.past = [])
    (hdrained : fw.gateway.usb.tx.contents = []) {init : Bytes}
    (hinit : init = [] ∨ init = initRecord) {source : Source}
    (hsource : init ++ source.remaining = fw.session.delivered) :
    networkReader ks true source = sends.map MediaSend.obtained := by
  obtain ⟨hsends, hs, hfeed, hframes⟩ := server_sends hserver hsends hok
  rw [← hreceived] at hfeed hframes
  obtain ⟨husb, haccepted⟩ := run_relays hparse hfeed hfresh hready hfw hcalm hrefused hreset
  rw [hframes] at haccepted
  have hdata := husb.data
  have hempty := husb.init
  simp only [FwState.usbState, hdrained, List.append_nil, Session.stream, haccepted] at hdata hempty
  rw [usbPackets_flatten hs, ← hsource] at hdata
  have hok' : ∀ r ∈ (server.app.packets.map plain).map (usbRecord ks), PacketOk r := by
    intro r hr
    obtain ⟨p, hp, rfl⟩ := List.mem_map.1 hr
    exact packetOk_usbRecord (hs.size p hp)
  have hread : networkReader ks true source = handleRecords ks true resetVideoFragments
      (((server.app.packets.map plain).map (usbRecord ks)).map fun r => .media r.1 r.2 0) := by
    cases hsent : fw.gateway.usb.protoInitSent with
    | false =>
      have hnil : init ++ source.remaining = [] := by
        simpa [hsent, packetStream, List.map_eq_nil_iff.1 (hempty hsent)] using hdata
      apply networkReader_packets ks true hok' (.inl rfl)
      rw [(List.append_eq_nil_iff.1 hnil).2, List.map_eq_nil_iff.1 (hempty hsent)]
      rfl
    | true =>
      simp only [hsent, if_true] at hdata
      rcases hinit with rfl | rfl
      · exact networkReader_packets ks true hok' (.inr rfl) hdata
      · exact networkReader_packets ks true hok' (.inl rfl) (List.append_cancel_left hdata)
  rw [hread, handleRecords_plains hs]
  exact handlePlains_onWire hsends hok rfl rfl

/-- A NAL unit and a PCM chunk. -/
def twoSends : List MediaSend := [.video [0x65, 1, 2, 3], .audio 0 0 [0x10, 0x20]]

theorem twoSends_ok : ∀ m ∈ twoSends, m.Ok := by
  have hnal : ServerNal [0x65, 1, 2, 3] := by refine ⟨?_, ?_, ?_, ?_⟩ <;> decide
  have hpcm : MediaSend.Ok (.audio 0 0 [0x10, 0x20]) := by unfold MediaSend.Ok; decide
  simpa [twoSends] using ⟨hnal, hpcm⟩

/-- One thread makes the sends, first a NAL unit of one packet and then PCM chunks. -/
def oneThread {τ : Type} (t : τ) (sends : List MediaSend) : List (SendEvent τ) :=
  (sequential 0 sends).flatMap fun p =>
    .call t p.1 p.2 :: List.replicate (if p.1 = streamIdAudio then 15 else 16) (.go t true 9)

/-- A frame of the server that arrives in one piece. -/
def arrival (frame : UInt8 × Bytes) : Recv.Result :=
  .data ([0x80 + frame.1, 126, UInt8.ofNat (frame.2.length / 256), UInt8.ofNat frame.2.length] ++
    frame.2)

/-- The firmware polls the frames, and its IN transfers complete. -/
def pollRun (frames : List (UInt8 × Bytes)) : List FwEvent :=
  frames.map (fun f => .poll [arrival f] ⟨true, true, true, true, true, 0⟩) ++
    [.usb (.inComplete 0 0), .usb (.inComplete 0 0)]

/-- The firmware on a connection. -/
def connectedGateway : Gateway := ⟨bootUsb, ⟨3, .null, true, noNonce⟩, true, true, true⟩

/-- The server after its sends, and the firmware that polled its frames. -/
def relayedSends : Option (Sender Unit × FwState) :=
  (Run.run (senderStep fun _ _ _ _ => 0x5a) (newSender ⟨List.replicate 12 7, rfl⟩)
    (oneThread () twoSends)).bind
    fun server => (Run.run (fwStep (fun _ _ _ _ => 0x5a) parseServerText)
      { gateway := connectedGateway } (pollRun (server.app.wire.map fun f => message f.frame))).map
        fun fw => (server, fw)

theorem usbRelay_faithful_twoSends :
    ∃ server fw, relayedSends = some (server, fw) ∧
      networkReader (fun _ _ _ _ => 0x5a) true ⟨[], 0, fw.session.delivered⟩ =
        [.video [0x65, 1, 2, 3] 1, .audio [0x10, 0x20]] := by
  have hdone : ∃ r ∈ relayedSends,
      (r.1.app.packets.map fun p => (p.1.streamId, p.1.payload)) = sequential 0 twoSends ∧
        r.2.received = (r.1.app.wire.map fun f => message f.frame) ∧ r.2.refused = 0 ∧
        r.2.past = [] ∧ r.2.gateway.usb.tx.contents = [] := by
    decide +kernel
  obtain ⟨⟨server, fw⟩, hmem, hpackets, hreceived, hrefused, hpast, hdrained⟩ := hdone
  refine ⟨server, fw, hmem, ?_⟩
  obtain ⟨_, hserver, hrun⟩ := Option.bind_eq_some_iff.1 hmem
  obtain ⟨_, hfw, heq⟩ := Option.map_eq_some_iff.1 hrun
  cases heq
  refine usbRelay_faithful parsesCryptoInit_parseServerText hserver
    (hpackets ▸ onWire_sequential twoSends_ok) twoSends_ok fresh_bootUsb ⟨rfl, rfl, rfl⟩ hfw
    (Run.meets_of_forall ?_) hreceived hrefused hpast hdrained (.inl rfl) rfl
  intro e he
  rcases List.mem_append.1 he with he | he
  · obtain ⟨f, -, rfl⟩ := List.mem_map.1 he
    exact ⟨rfl, rfl, rfl, rfl⟩
  · rcases List.mem_pair.1 he with rfl | rfl <;> trivial

end E2E
