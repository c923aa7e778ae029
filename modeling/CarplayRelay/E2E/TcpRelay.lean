import CarplayRelay.Client.Resync
import CarplayRelay.E2E.UsbRelay
import CarplayRelay.Gateway.Session

/-!
# From the server to the client over TCP

The gateway writes the plaintext of every packet, and the client's `network_reader` decrypts every
payload as one of the USB relay, whatever its transport.

* `run_writes`: the gateway writes the packets of the server behind an INIT record, in order.
* `tcpRelay_lost`: whatever the keystream is, the client obtains the sends of a connection only
  if there are none.
* `nothing_obtained`: of a NAL unit and a PCM chunk it obtains nothing.
-/

namespace E2E

open Bytes Crypto Media Proto Client Server Firmware

/-! ## From the server to the gateway -/

/-- The header and the payload of a packet on TCP. -/
def tcpRecord (p : Plain) : MediaInfo × Bytes :=
  ({ streamId := p.1
     flags := relayFlags p
     seqNo := p.2.1
     payloadLen := UInt32.ofNat p.2.2.length }, p.2.2)

/-- What the gateway writes for the packets `plains`. -/
def tcpStream (plains : List Plain) : Bytes := initRecord ++ packetStream (plains.map tcpRecord)

/-- So far the gateway received a part of a server's frames, knows the nonce once it was sent, and
has written the packets. -/
structure GatewayInv (ks : KeyStream) (n : Nonce) (s : Gateway.Session) : Prop where
  nonce : s.running = true → ∀ t, (1, t) ∈ s.received → s.nonce = ⟨n, true⟩
  written : s.written = tcpStream (s.received.filterMap (framePlain ks n))

section
variable {ks : KeyStream} {cJSONParse : Bytes → Option Json} {n : Nonce}
  {frames : List (UInt8 × Bytes)} {s s' : Gateway.Session}

theorem writePacket_calm {calls : Gateway.FrameCalls} (hh : calls.headerSent = none)
    (hp : calls.plaintextSent = none) (p : Plain) :
    Gateway.writePacket p.1 p.2.1 p.2.2 calls =
      (true, gatewayProtoWriteMediaHeader (tcpRecord p).1 ++ (tcpRecord p).2) := by
  simp only [Gateway.writePacket, Gateway.tcpTransportWriteAll, hh, hp, not_true, if_false]
  rfl

theorem tcpStream_concat (plains : List Plain) (p : Plain) :
    tcpStream (plains ++ [p]) =
      tcpStream plains ++ (gatewayProtoWriteMediaHeader (tcpRecord p).1 ++ (tcpRecord p).2) := by
  simp [tcpStream, packetStream]

theorem framePlain_of_ne {frame : UInt8 × Bytes} (h : frame.1 ≠ 2) :
    framePlain ks n frame = none := if_neg h

/-- Every frame of the server is handled. -/
theorem gatewayInv_frame (hparse : ParsesCryptoInit cJSONParse) (hfeed : Feed ks n frames)
    (hi : GatewayInv ks n s) (hrun : s.running = true) {pre : WsClient.Prebuffer}
    {frame : UInt8 × Bytes} (hrec : s.received ++ [frame] <+: frames)
    {calls : Gateway.FrameCalls} (hc : calls.textOk = true ∧ calls.decodedOk = true ∧
      calls.plaintextOk = true ∧ calls.headerSent = none ∧ calls.plaintextSent = none) :
    GatewayInv ks n (Gateway.relayFrame ks cJSONParse
      { s with prebuffer := pre, received := s.received ++ [frame] } frame calls) := by
  obtain ⟨htext, hdec, hplain, hheader, hwrite⟩ := hc
  obtain ⟨op, b⟩ := frame
  have hmem : (op, b) ∈ frames := hrec.subset (by simp)
  unfold Gateway.relayFrame
  by_cases h1 : op = 1
  · subst h1
    have hkind : (1 : UInt8) ≠ 2 := by decide
    have hnone : framePlain ks n (1, cryptoInitText n) = none := framePlain_of_ne hkind
    rw [if_pos rfl, hfeed.text b hmem, htext, hdec, gatewayParseCryptoInit_text hparse]
    exact ⟨fun _ _ _ => rfl, by simp [hi.written, hnone]⟩
  by_cases h2 : op = 2
  · subst h2
    obtain ⟨p, rfl, hne, hsize⟩ := hfeed.binary b hmem
    obtain ⟨post, hpost⟩ := hrec
    obtain ⟨t, ht⟩ := hfeed.first s.received post (packetBytes ks p.1 p.2.1 n p.2.2)
      (by rw [← hpost, List.append_assoc]; rfl)
    have hnonce : s.nonce = ⟨n, true⟩ := hi.nonce hrun t ht
    have hframe : framePlain ks n (2, packetBytes ks p.1 p.2.1 n p.2.2) = some p :=
      framePlain_packet hsize
    rw [if_neg h1, if_pos rfl, if_neg (by simp [hnonce]), if_neg (by simp [hplain])]
    simp only [hnonce, decryptPacket_plain hsize]
    rw [if_neg (by omega), Int.toNat_natCast, List.take_length,
      writePacket_calm hheader hwrite p]
    refine ⟨fun _ _ _ => rfl, ?_⟩
    simp [hi.written, hframe, tcpStream_concat]
  · have hnone : framePlain ks n (op, b) = none := framePlain_of_ne h2
    have hwritten : s.written =
        tcpStream ((s.received ++ [(op, b)]).filterMap (framePlain ks n)) := by
      simp [hi.written, hnone]
    rw [if_neg h1, if_neg h2]
    split
    · exact ⟨fun hr => (by cases hr), hwritten⟩
    · refine ⟨fun hr t ht => hi.nonce hr t ?_, hwritten⟩
      rcases List.mem_append.1 ht with ht | ht
      · exact ht
      · cases List.mem_singleton.1 ht
        exact absurd rfl h1

/-- The gateway received a part of `frames`, which grew by at most one. -/
theorem sessionStep_received {e : Gateway.SessionEvent}
    (hs : Gateway.sessionStep ks cJSONParse s e = some s') : s.received <+: s'.received := by
  cases e with
  | client status =>
    simp only [Gateway.sessionStep, Option.ite_none_left_eq_some] at hs
    cases hs.2
    exact List.prefix_rfl
  | upstream recvs calls =>
    simp only [Gateway.sessionStep, Option.ite_none_left_eq_some] at hs
    obtain ⟨-, hs⟩ := hs
    split at hs
    · cases hs
      exact List.prefix_rfl
    · cases hs
      rw [Gateway.relayFrame_received]
      exact List.prefix_append _ _

theorem gatewayInv_step (hparse : ParsesCryptoInit cJSONParse) (hfeed : Feed ks n frames)
    {e : Gateway.SessionEvent} (hi : s.received <+: frames → GatewayInv ks n s) (hc : e.Calm)
    (hs : Gateway.sessionStep ks cJSONParse s e = some s') (hrec : s'.received <+: frames) :
    GatewayInv ks n s' := by
  have hi := hi ((sessionStep_received hs).trans hrec)
  cases e with
  | client status =>
    simp only [Gateway.sessionStep, Option.ite_none_left_eq_some, not_not] at hs
    obtain ⟨hrun, hs⟩ := hs
    cases hs
    exact ⟨fun _ => hi.nonce hrun, hi.written⟩
  | upstream recvs calls =>
    simp only [Gateway.sessionStep, Option.ite_none_left_eq_some, not_not] at hs
    obtain ⟨hrun, hs⟩ := hs
    split at hs
    · cases hs
      exact ⟨fun hr => (by cases hr), hi.written⟩
    · cases hs
      rw [Gateway.relayFrame_received] at hrec
      exact gatewayInv_frame hparse hfeed hi hrun hrec hc

/-- **The gateway writes every packet**: if it received the frames of a server and no call failed,
it has written their packets. -/
theorem run_writes (hparse : ParsesCryptoInit cJSONParse) (hfeed : Feed ks n s.received)
    {prebuffer : WsClient.Prebuffer} {junk : Nonce} {es : List Gateway.SessionEvent}
    (h : Run.run (Gateway.sessionStep ks cJSONParse) (Gateway.newSession prebuffer junk) es =
      some s)
    (hcalm : Run.Meets (Gateway.sessionStep ks cJSONParse) (fun _ e => e.Calm)
      (Gateway.newSession prebuffer junk) es) :
    s.written = tcpStream (s.received.filterMap (framePlain ks n)) := by
  have hstart : GatewayInv ks n (Gateway.newSession prebuffer junk) :=
    ⟨by simp [Gateway.newSession],
      by simp [Gateway.newSession, tcpStream, packetStream, initRecord]⟩
  have hinv := Run.inv_where (I := fun s' => s'.received <+: s.received → GatewayInv ks n s')
    (fun hi hc hs => gatewayInv_step hparse hfeed hi hc hs) h hcalm (fun _ => hstart)
    List.prefix_rfl
  exact hinv.written

end

/-! ## From the gateway to the client -/

/-- `network_reader`, the packets it reads. -/
def handlePackets (ks : KeyStream) (audioOpen : Bool) :
    FragState → List (MediaInfo × Bytes) → List Obtained
  | _, [] => []
  | frag, p :: packets =>
    match decryptUsbMediaPayload ks p.1 p.2 with
    | none => handlePackets ks audioOpen frag packets
    | some payload =>
      let (frag, obtained) := handlePayload audioOpen frag p.1 payload
      obtained ++ handlePackets ks audioOpen frag packets

theorem handleRecords_packets (ks : KeyStream) (audioOpen : Bool) (frag : FragState)
    (records : List Record) :
    handleRecords ks audioOpen frag records =
      handlePackets ks audioOpen frag (records.filterMap Record.packet) := by
  induction records generalizing frag with
  | nil => rfl
  | cons record records ih =>
    cases record with
    | init | lost => exact ih frag
    | media info payload skipped =>
      simp only [handleRecords, handleRecord]
      show _ = handlePackets ks audioOpen frag ((info, payload) :: records.filterMap Record.packet)
      rw [handlePackets]
      cases decryptUsbMediaPayload ks info payload with
      | none => exact ih frag
      | some payload => simp only [ih]

/-- **What `network_reader` hands on depends on the bytes to come only.** -/
theorem networkReader_packetsOf (ks : KeyStream) (audioOpen : Bool) (s : Source) :
    networkReader ks audioOpen s =
      handlePackets ks audioOpen resetVideoFragments (packetsOf s.remaining) := by
  rw [networkReader, handleRecords_packets, readRecords_packetsOf]

/-- A packet of which the keystream decides nothing: it is rejected, empty, or of no stream the
client handles. -/
def Inert (p : MediaInfo × Bytes) : Prop :=
  ∀ c, cryptoBody p.1 p.2 = some c → c = [] ∨ (p.1.streamId ≠ streamVideo ∧
    p.1.streamId ≠ streamAudio)

/-- Nothing is in what the client obtains. -/
def Obtained.IsEmpty : Obtained → Prop
  | .video nal _ => nal = []
  | .audio pcm => pcm = []

theorem chacha20Xor_nil (ks : KeyStream) (key nonce : Bytes) (counter : UInt32) :
    chacha20Xor ks [] key nonce counter = [] := rfl

theorem handlePayload_nil {frag : FragState} {info : MediaInfo} {e : Obtained}
    (he : e ∈ (handlePayload true frag info []).2) : Obtained.IsEmpty e := by
  have hfragment : ¬ IsFragment ([] : Bytes) := by simp [IsFragment]
  unfold handlePayload at he
  split at he
  · rw [reassembleVideoPayload, if_pos hfragment] at he
    cases List.mem_singleton.1 he
    rfl
  split at he
  · cases List.mem_singleton.1 he
    rfl
  · cases he

/-- Inert packets are handled in the same way with every keystream. -/
theorem handlePackets_inert {packets : List (MediaInfo × Bytes)} (h : ∀ p ∈ packets, Inert p)
    (frag : FragState) :
    ∃ frag' out, (∀ e ∈ out, Obtained.IsEmpty e) ∧
      ∀ ks rest, handlePackets ks true frag (packets ++ rest) =
        out ++ handlePackets ks true frag' rest := by
  induction packets generalizing frag with
  | nil => exact ⟨frag, [], by simp, fun ks rest => rfl⟩
  | cons p packets ih =>
    have ih := ih fun q hq => h q (List.mem_cons_of_mem _ hq)
    have hp := h p List.mem_cons_self
    cases hbody : cryptoBody p.1 p.2 with
    | none =>
      obtain ⟨frag', out, hempty, hout⟩ := ih frag
      refine ⟨frag', out, hempty, ?_⟩
      intro ks rest
      rw [List.cons_append, handlePackets, decryptUsbMediaPayload_eq, hbody]
      exact hout ks rest
    | some c =>
      by_cases hstream : p.1.streamId ≠ streamVideo ∧ p.1.streamId ≠ streamAudio
      · obtain ⟨frag', out, hempty, hout⟩ := ih frag
        refine ⟨frag', out, hempty, ?_⟩
        intro ks rest
        rw [List.cons_append, handlePackets, decryptUsbMediaPayload_eq, hbody]
        simp only [Option.map_some, handlePayload, if_neg hstream.1, if_neg hstream.2]
        exact hout ks rest
      · have hc : c = [] := (hp c hbody).resolve_right hstream
        obtain ⟨frag', out, hempty, hout⟩ := ih (handlePayload true frag p.1 []).1
        refine ⟨frag', (handlePayload true frag p.1 []).2 ++ out, ?_, ?_⟩
        · intro e he
          rcases List.mem_append.1 he with he | he
          · exact handlePayload_nil he
          · exact hempty e he
        · intro ks rest
          rw [List.cons_append, handlePackets, decryptUsbMediaPayload_eq, hbody, hc]
          simp only [Option.map_some, chacha20Xor_nil, hout, List.append_assoc]

/-- The byte `b` everywhere, of whatever `c` is. -/
def turnInto (b : UInt8) (c : Bytes) : KeyStream := fun _ _ _ i => c.getD i 0 ^^^ b

theorem chacha20Xor_turnInto (b : UInt8) (c key nonce : Bytes) (counter : UInt32) :
    chacha20Xor (turnInto b c) c key nonce counter = List.replicate c.length b := by
  apply List.ext_getElem
  · simp
  · intro i hi hi'
    have hlt : i < c.length := by simpa using hi
    simp [chacha20Xor, turnInto, List.getD_eq_getElem?_getD, hlt, ← UInt8.xor_assoc]

/-- What is made of a payload of one byte, repeated: neither a fragment nor a debug packet. -/
def plainObtained (info : MediaInfo) (payload : Bytes) : Obtained :=
  if info.streamId = streamVideo then .video payload info.flags else .audio payload

theorem handlePayload_replicate {info : MediaInfo}
    (hstream : info.streamId = streamVideo ∨ info.streamId = streamAudio) {b : UInt8}
    (hv : b ≠ 0x56) (ha : b ≠ 0x41) (n : Nat) (frag : FragState) :
    (handlePayload true frag info (List.replicate n b)).2 =
      [plainObtained info (List.replicate n b)] := by
  have htake (x : UInt8) (hx : b ≠ x) (q : Bytes) :
      (List.replicate n b).take 4 ≠ x :: q := by
    rw [List.take_replicate]
    cases hn : min 4 n with
    | zero => simp
    | succ m =>
      rw [List.replicate_succ]
      exact fun h => hx (List.cons.inj h).1
  unfold handlePayload plainObtained
  by_cases hvideo : info.streamId = streamVideo
  · have hfragment : ¬ IsFragment (List.replicate n b) := fun h => htake _ hv _ h.2
    rw [if_pos hvideo, if_pos hvideo, reassembleVideoPayload, if_pos hfragment]
    rfl
  · have haudio := hstream.resolve_left hvideo
    have hplain : unwrapAudioDebugPayload (List.replicate n b) = List.replicate n b :=
      if_pos (.inr (htake _ ha _))
    simp only [if_neg hvideo, if_pos haudio, hplain, if_true]

/-- **If a packet is not inert, no list is obtained with every keystream**: the first such packet
can be turned into different payloads. -/
theorem not_forall_handlePackets {packets : List (MediaInfo × Bytes)}
    (h : ¬ ∀ p ∈ packets, Inert p) (frag : FragState) (expected : List Obtained) :
    ¬ ∀ ks, handlePackets ks true frag packets = expected := by
  classical
  intro hall
  obtain ⟨q, hq, hnot⟩ : ∃ q ∈ packets, ¬ Inert q := by simpa using h
  have hfound : (packets.find? fun p => ¬ Inert p).isSome := by
    rw [List.find?_isSome]
    exact ⟨q, hq, by simpa using hnot⟩
  obtain ⟨p, hp⟩ := Option.isSome_iff_exists.1 hfound
  obtain ⟨hpnot, pre, post, rfl, hpre⟩ := List.find?_eq_some_iff_append.1 hp
  obtain ⟨c, hbody, hne, hstream⟩ : ∃ c, cryptoBody p.1 p.2 = some c ∧ c ≠ [] ∧
      (p.1.streamId = streamVideo ∨ p.1.streamId = streamAudio) := by
    simp only [decide_eq_true_eq, Inert, not_forall, not_or] at hpnot
    obtain ⟨c, hbody, hne, hs⟩ := hpnot
    exact ⟨c, hbody, hne, by rwa [not_and_or, not_not, not_not] at hs⟩
  obtain ⟨frag', out, -, hout⟩ :=
    handlePackets_inert (fun p (hp : p ∈ pre) => by simpa using hpre p hp) frag
  -- with this keystream the packet becomes `b`, repeated
  have hturn {b : UInt8} (hv : b ≠ 0x56) (ha : b ≠ 0x41) : ∃ rest,
      expected = out ++ plainObtained p.1 (List.replicate c.length b) :: rest := by
    have hread := hall (turnInto b c)
    rw [hout, handlePackets, decryptUsbMediaPayload_eq, hbody] at hread
    simp only [Option.map_some, chacha20Xor_turnInto] at hread
    rw [handlePayload_replicate hstream hv ha] at hread
    exact ⟨_, hread.symm⟩
  obtain ⟨rest, h1⟩ := hturn (b := 1) (by decide) (by decide)
  obtain ⟨rest', h2⟩ := hturn (b := 2) (by decide) (by decide)
  have heq := (List.cons.inj (List.append_cancel_left (h1.symm.trans h2))).1
  have hlen : 0 < c.length := List.length_pos_of_ne_nil hne
  obtain ⟨k, hk⟩ := Nat.exists_eq_add_of_lt hlen
  rw [hk, List.replicate_succ, List.replicate_succ] at heq
  unfold plainObtained at heq
  split at heq
  · simp at heq
  · simp at heq

theorem handlePackets_rejected {packets : List (MediaInfo × Bytes)} {ks : KeyStream}
    (h : ∀ p ∈ packets, decryptUsbMediaPayload ks p.1 p.2 = none) (frag : FragState) :
    handlePackets ks true frag packets = [] := by
  induction packets with
  | nil => rfl
  | cons p packets ih =>
    rw [handlePackets, h p List.mem_cons_self]
    exact ih fun q hq => h q (List.mem_cons_of_mem _ hq)

/-- A payload that starts neither like a record nor like a crypto packet. -/
def Plaintext (p : Plain) : Prop :=
  p.2.2.length < 2 ^ 32 ∧ p.2.2 ≠ [] ∧ p.2.2.byteAt 0 ≠ 0x43 ∧ p.2.2.byteAt 0 ≠ 0x47

/-- **The client rejects every plaintext.** -/
theorem networkReader_plaintext {plains : List Plain} (h : ∀ p ∈ plains, Plaintext p)
    (ks : KeyStream) {init : Bytes} (hinit : init = [] ∨ init = initRecord) {s : Source}
    (hs : init ++ s.remaining = tcpStream plains) : networkReader ks true s = [] := by
  have hok : ∀ r ∈ plains.map tcpRecord, PacketOk r := by
    intro r hr
    obtain ⟨p, hp, rfl⟩ := List.mem_map.1 hr
    obtain ⟨hlen, -, -, hmagic⟩ := h p hp
    refine ⟨UInt32.toNat_ofNat_of_lt' hlen, Bool.eq_false_iff.2 ?_⟩
    intro hm
    exact hmagic (startsGatewayMagic_bytes hm).1
  have hrejected : ∀ r ∈ plains.map tcpRecord, decryptUsbMediaPayload ks r.1 r.2 = none := by
    intro r hr
    obtain ⟨p, hp, rfl⟩ := List.mem_map.1 hr
    obtain ⟨-, hne, hfirst, -⟩ := h p hp
    have hbody : cryptoBody (tcpRecord p).1 (tcpRecord p).2 = none := cryptoBody_none hne hfirst
    rw [decryptUsbMediaPayload_eq, hbody]
    rfl
  have hread : networkReader ks true s = handleRecords ks true resetVideoFragments
      ((plains.map tcpRecord).map fun p => .media p.1 p.2 0) := by
    rcases hinit with rfl | rfl
    · exact networkReader_packets ks true hok (.inr rfl) hs
    · exact networkReader_packets ks true hok (.inl rfl) (List.append_cancel_left hs)
  have hpackets : ((plains.map tcpRecord).map fun p => Record.media p.1 p.2 0).filterMap
      Record.packet = plains.map tcpRecord := by
    rw [List.filterMap_map]
    exact List.filterMap_some
  rw [hread, handleRecords_packets, hpackets, handlePackets_rejected hrejected]

/-! ## The relay -/

/-- Without NAL units every packet is a PCM chunk. -/
theorem OnWire.audio_only {frameId : UInt32} {cur : Option (Bytes × List Bytes)}
    {sends : List MediaSend} {packets : List (UInt8 × Bytes)}
    (h : OnWire frameId cur sends packets) (hcur : cur = none)
    (hsends : ∀ nal, MediaSend.video nal ∉ sends) :
    ∀ p ∈ packets, ∃ c o pcm, MediaSend.audio c o pcm ∈ sends ∧ p.2 = audioPacket c o pcm := by
  induction h with
  | done => simp
  | audio c o pcm _ ih =>
    intro p hp
    rcases List.mem_cons.1 hp with rfl | hp
    · exact ⟨c, o, pcm, List.mem_cons_self, rfl⟩
    · obtain ⟨c, o, pcm, hmem, heq⟩ :=
        ih hcur (fun nal hmem => hsends nal (List.mem_cons_of_mem _ hmem)) p hp
      exact ⟨c, o, pcm, List.mem_cons_of_mem _ hmem, heq⟩
  | begin nal hwire => exact absurd (hwire.mem rfl) (hsends nal)
  | packet | last => cases hcur

theorem plaintext_audio {p : Plain} {c o : UInt32} {pcm : Bytes}
    (hok : MediaSend.Ok (.audio c o pcm)) (hp : p.2.2 = audioPacket c o pcm) : Plaintext p := by
  have hlen : p.2.2.length < 2 ^ 31 := by
    have hsize : cryptoStreamPacketSize (12 + pcm.length) < 2 ^ 31 := hok
    rw [hp, length_audioPacket]
    unfold cryptoStreamPacketSize at hsize
    omega
  refine ⟨Nat.lt_trans hlen (by decide), ?_, ?_, ?_⟩ <;> rw [hp]
  · exact List.ne_nil_of_length_pos (by rw [length_audioPacket]; omega)
  · show (0x41 : UInt8) ≠ 0x43
    decide
  · show (0x41 : UInt8) ≠ 0x47
    decide

/-- **The TCP relay delivers nothing faithfully.** A server's threads send on one connection,
however they interleave, and the gateway receives every frame and no call fails there. Then
`network_reader` obtains exactly the sends from what the gateway has written, of which the client's
startup may have taken the INIT record, with every keystream of the client exactly if there were
no sends. -/
theorem tcpRelay_lost {τ : Type} [DecidableEq τ] {ks : KeyStream}
    {cJSONParse : Bytes → Option Json} (hparse : ParsesCryptoInit cJSONParse) {n : Nonce}
    {es : List (SendEvent τ)} {server : Sender τ}
    (hserver : Run.run (senderStep ks) (newSender n) es = some server)
    {frameId : UInt32} {sends : List MediaSend}
    (hsends : OnWire frameId none sends
      (server.app.packets.map fun p => (p.1.streamId, p.1.payload)))
    (hok : ∀ m ∈ sends, m.Ok) {prebuffer : WsClient.Prebuffer} {junk : Nonce}
    {gs : List Gateway.SessionEvent} {g : Gateway.Session}
    (hg : Run.run (Gateway.sessionStep ks cJSONParse) (Gateway.newSession prebuffer junk) gs =
      some g)
    (hcalm : Run.Meets (Gateway.sessionStep ks cJSONParse) (fun _ e => e.Calm)
      (Gateway.newSession prebuffer junk) gs)
    (hreceived : g.received = server.app.wire.map fun f => message f.frame) {init : Bytes}
    (hinit : init = [] ∨ init = initRecord) {source : Source}
    (hsource : init ++ source.remaining = g.written) :
    (∀ client, networkReader client true source = sends.map MediaSend.obtained) ↔ sends = [] := by
  obtain ⟨hsends, -, hfeed, hframes⟩ := server_sends hserver hsends hok
  rw [← hreceived] at hfeed hframes
  have hwritten := run_writes hparse hfeed hg hcalm
  rw [hframes, ← hsource] at hwritten
  -- without NAL units the client rejects every packet
  have haudio (hno : ∀ nal, MediaSend.video nal ∉ sends) (client : KeyStream) :
      networkReader client true source = [] := by
    refine networkReader_plaintext ?_ client hinit hwritten
    intro p hp
    obtain ⟨c, o, pcm, hmem, heq⟩ :=
      hsends.audio_only rfl hno (p.1, p.2.2) (List.mem_map_of_mem hp)
    exact plaintext_audio (hok _ hmem) heq
  constructor
  · intro hall
    have hinert : ∀ p ∈ packetsOf source.remaining, Inert p := by
      by_contra hnot
      refine not_forall_handlePackets hnot resetVideoFragments (sends.map MediaSend.obtained)
        ?_
      intro client
      rw [← networkReader_packetsOf]
      exact hall client
    obtain ⟨frag, out, hempty, hout⟩ := handlePackets_inert hinert resetVideoFragments
    have hread := hall ks
    rw [networkReader_packetsOf, ← List.append_nil (packetsOf _), hout] at hread
    have hout' : out = sends.map MediaSend.obtained := by
      rw [← hread, handlePackets, List.append_nil]
    have hno : ∀ nal, MediaSend.video nal ∉ sends := by
      intro nal hmem
      have hnal : ServerNal nal := hok _ hmem
      have hobtained : Obtained.video nal (videoPayloadFlags nal) ∈ out := by
        rw [hout']
        exact List.mem_map.2 ⟨_, hmem, rfl⟩
      exact hnal.ne_nil (hempty _ hobtained)
    exact List.map_eq_nil_iff.1 ((hall ks).symm.trans (haudio hno ks))
  · rintro rfl client
    exact haudio (by simp) client

/-- The gateway receives the frames. -/
def receiveRun (frames : List (UInt8 × Bytes)) : List Gateway.SessionEvent :=
  frames.map fun f => .upstream [arrival f] ⟨true, true, true, true, none, none⟩

/-- The server after its sends, and the gateway that received its frames. -/
def tcpSends : Option (Sender Unit × Gateway.Session) :=
  (Run.run (senderStep fun _ _ _ _ => 0x5a) (newSender ⟨List.replicate 12 9, rfl⟩)
    (oneThread () twoSends)).bind
    fun server => (Run.run (Gateway.sessionStep (fun _ _ _ _ => 0x5a) parseServerText)
      (Gateway.newSession .null ⟨List.replicate 12 8, rfl⟩)
      (receiveRun (server.app.wire.map fun f => message f.frame))).map fun g => (server, g)

theorem tcpSends_done :
    ∃ r ∈ tcpSends,
      (r.1.app.packets.map fun p => (p.1.streamId, p.1.payload)) = sequential 0 twoSends ∧
        r.2.received = (r.1.app.wire.map fun f => message f.frame) ∧
        r.2.written =
          tcpStream [(1, 0, [0x65, 1, 2, 3]), (2, 1, audioPacket 0 0 [0x10, 0x20])] := by
  decide +kernel

theorem calm_receiveRun (frames : List (UInt8 × Bytes)) :
    ∀ e ∈ receiveRun frames, Gateway.SessionEvent.Calm e := by
  intro e he
  obtain ⟨f, -, rfl⟩ := List.mem_map.1 he
  exact ⟨rfl, rfl, rfl, rfl, rfl⟩

theorem tcpRelay_lost_twoSends :
    ∃ server g, tcpSends = some (server, g) ∧
      ((∀ client, networkReader client true ⟨[], 0, g.written⟩ = twoSends.map MediaSend.obtained) ↔
        twoSends = []) := by
  obtain ⟨⟨server, g⟩, hmem, hpackets, hreceived, -⟩ := tcpSends_done
  refine ⟨server, g, hmem, ?_⟩
  obtain ⟨_, hserver, hrun⟩ := Option.bind_eq_some_iff.1 hmem
  obtain ⟨_, hg, heq⟩ := Option.map_eq_some_iff.1 hrun
  cases heq
  exact tcpRelay_lost parsesCryptoInit_parseServerText hserver
    (hpackets ▸ onWire_sequential twoSends_ok) twoSends_ok hg
    (Run.meets_of_forall (calm_receiveRun _)) hreceived (.inl rfl) rfl

/-- **Of a NAL unit and a PCM chunk the client obtains nothing.** -/
theorem nothing_obtained :
    ∃ server g, tcpSends = some (server, g) ∧
      g.received = (server.app.wire.map fun f => message f.frame) ∧
      networkReader (fun _ _ _ _ => 0x5a) true ⟨[], 0, g.written⟩ = [] ∧
      twoSends.map MediaSend.obtained = [.video [0x65, 1, 2, 3] 1, .audio [0x10, 0x20]] := by
  obtain ⟨⟨server, g⟩, hmem, -, hreceived, hwritten⟩ := tcpSends_done
  refine ⟨server, g, hmem, hreceived, ?_, by decide⟩
  have hplaintext : ∀ p ∈ [((1 : UInt8), (0 : UInt32), ([0x65, 1, 2, 3] : Bytes)),
      (2, 1, audioPacket 0 0 [0x10, 0x20])], Plaintext p := by
    unfold Plaintext
    decide
  exact networkReader_plaintext hplaintext _ (.inl rfl) hwritten

end E2E
