import CarplayRelay.E2E.UsbRelay

/-!
# The nonces of the USB link

A server draws a session nonce for each connection and numbers its packets from zero; the firmware
encrypts them again with their numbers and one nonce for all connections.

* `run_nonce_reuse`: in every run of the firmware a packet nonce is used for one plaintext exactly
  if packets of different connections that have the same number have the same plaintext: on one
  connection no number is used twice.
* `nonce_reused`: after a reconnect the nonce of the first packet is used again.
-/

namespace E2E

open Bytes Crypto Server Firmware

/-! ## Sequence numbers of frames -/

/-- The sequence number in the header of a frame's packet. -/
def frameSeq (frame : UInt8 × Bytes) : Option UInt32 :=
  if frame.1 = 2 ∧ headerSize ≤ frame.2.length then some (ofBe32 (frame.2.drop 4)) else none

section
variable {ks : KeyStream}

theorem frameSeq_bytes {n : Nonce} {p : Packet} {q : UInt32}
    (h : frameSeq (2, p.bytes ks n) = some q) : q = p.seqNo := by
  simp only [frameSeq, Option.ite_none_right_eq_some, Option.some.injEq, true_and] at h
  obtain ⟨hlen, rfl⟩ := h
  obtain ⟨tail, htail⟩ : ∃ tail, p.bytes ks n =
      [0x43, 0x48, 1, p.streamId] ++ (be32 p.seqNo ++ tail) := by
    have hsize : headerSize ≤ (toInt32 (cryptoStreamPacketSize p.payload.length)).toNat := by
      unfold Packet.bytes at hlen
      exact hlen.trans (List.length_take_le _ _)
    obtain ⟨k, hk⟩ := Nat.exists_eq_add_of_le hsize
    refine ⟨(chacha20Xor ks p.payload defaultKey (cryptoStreamPacketNonce n p.seqNo) 1).take k, ?_⟩
    have hhead : ([0x43, 0x48, 1, p.streamId] ++ be32 p.seqNo).length = headerSize := rfl
    rw [Packet.bytes, hk, packetBytes, ← List.append_assoc, ← hhead]
    exact List.take_length_add_append k
  rw [htail]
  exact ofBe32_be32 p.seqNo tail

/-- The sequence numbers on a server's wire increase. -/
theorem frameSeq_wire {τ : Type} {a : SendApp τ} (h : Serialized ks a) (ht : a.taken ≤ 2 ^ 32) :
    ((a.wire.map fun f => message f.frame).filterMap frameSeq).Pairwise (· < ·) := by
  have hwire : ∀ f : Sent,
      frameSeq (message f.frame) = f.binary.bind fun b => frameSeq (2, b.1) := by
    rintro ⟨f | f, rc⟩
    · exact if_neg fun hf => absurd hf.1 (by decide : (1 : UInt8) ≠ 2)
    · rfl
  have hfun : (frameSeq ∘ fun f : Sent => message f.frame) =
      fun f => f.binary.bind fun b => frameSeq (2, b.1) := funext hwire
  rw [List.filterMap_map, hfun, ← List.filterMap_filterMap, h.packets, List.filterMap_map]
  apply (h.increasing ht).filterMap _
  intro p p' hlt q hq q' hq'
  rw [frameSeq_bytes hq, frameSeq_bytes hq']
  exact hlt

/-- The firmware takes a packet's number from its frame. -/
theorem decryptFrame_seq {g : Gateway} {b : Bytes} {plaintextOk : Bool} {p : Plain}
    (h : decryptFrame ks g b plaintextOk = some p) : frameSeq (2, b) = some p.2.1 := by
  unfold decryptFrame at h
  split at h
  · cases h
  split at h
  · cases h
  split at h
  · cases h
  rename_i d hd
  simp only [Option.ite_none_right_eq_some, Option.some.injEq] at h
  obtain ⟨-, rfl⟩ := h
  unfold cryptoStreamDecryptPacket at hd
  split at hd
  · cases hd
  rename_i hlen
  simp only [Option.ite_none_left_eq_some, Option.some.injEq] at hd
  obtain ⟨-, -, -, rfl⟩ := hd
  exact if_pos ⟨rfl, Nat.le_of_not_lt hlen⟩

end

/-! ## Connections -/

/-- The frames on the wire of a connection of a server that has taken at most 2^32 numbers. -/
def ServerWire (ks : KeyStream) (frames : List (UInt8 × Bytes)) : Prop :=
  ∃ (n : Nonce) (es : List (SendEvent Nat)) (server : Sender Nat),
    Run.run (senderStep ks) (newSender n) es = some server ∧ server.app.taken ≤ 2 ^ 32 ∧
      frames = server.app.wire.map fun f => message f.frame

/-- The firmware, with the packets that it encrypted on its connections. -/
structure LinkState where
  fw : FwState
  earlier : List (List Plain) := []
  current : List Plain := []

def LinkState.connections (s : LinkState) : List (List Plain) := s.earlier ++ [s.current]

/-- The packets that the firmware has encrypted since `before`. -/
def encryptedSince (before after : FwState) : List Plain :=
  after.encrypted.drop before.encrypted.length

def linkStep (ks : KeyStream) (cJSONParse : Bytes → Option Json) (s : LinkState) (e : FwEvent) :
    Option LinkState :=
  (fwStep ks cJSONParse s.fw e).map fun fw =>
    match e with
    | .connect _ _ => { fw := fw, earlier := s.earlier ++ [s.current] }
    | _ => { s with fw := fw, current := s.current ++ encryptedSince s.fw fw }

/-- The frames of the connection are the first ones of a server's. -/
def Served (servers : List (List (UInt8 × Bytes))) (s : LinkState) : Prop :=
  ∃ frames ∈ servers, s.fw.received <+: frames

instance (servers : List (List (UInt8 × Bytes))) (s : LinkState) : Decidable (Served servers s) :=
  inferInstanceAs (Decidable (∃ frames ∈ servers, _))

/-- What the packets of the connections have to do with what was received and encrypted. -/
structure LinkInv (s : LinkState) : Prop where
  encrypted : s.fw.encrypted = s.connections.flatten
  current : (s.current.map fun p => p.2.1).Sublist (s.fw.received.filterMap frameSeq)
  earlier : ∀ c ∈ s.earlier, (c.map fun p => p.2.1).Pairwise (· < ·)

section
variable {ks : KeyStream} {cJSONParse : Bytes → Option Json} {s s' : LinkState}
  {servers : List (List (UInt8 × Bytes))}

theorem increasing_current (hservers : ∀ frames ∈ servers, ServerWire ks frames)
    (hserved : Served servers s) (h : LinkInv s) :
    (s.current.map fun p => p.2.1).Pairwise (· < ·) := by
  obtain ⟨frames, hframes, hpre⟩ := hserved
  obtain ⟨n, es, server, hrun, htaken, rfl⟩ := hservers frames hframes
  exact (frameSeq_wire (run_serialized hrun) htaken).sublist
    (h.current.trans (hpre.sublist.filterMap _))

/-- A poll encrypts the packet of its frame, if any. -/
theorem encrypts_frame {g : Gateway} {frame : UInt8 × Bytes} {calls : PollCalls} {u : Usb} :
    ((encryptedPacket u calls (relayed ks g calls frame)).map fun p => p.2.1).Sublist
      ([frame].filterMap frameSeq) := by
  cases hrel : relayed ks g calls frame with
  | none => exact List.nil_sublist _
  | some r =>
    simp only [relayed, Option.ite_none_right_eq_some] at hrel
    obtain ⟨hop, hrel⟩ := hrel
    obtain ⟨p, hp, rfl⟩ := Option.map_eq_some_iff.1 hrel
    have hseq : frameSeq frame = some p.2.1 := by
      rw [← decryptFrame_seq hp, ← hop]
    simp only [encryptedPacket, List.filterMap_cons, hseq, List.filterMap_nil]
    split
    · exact List.Sublist.refl _
    · exact List.nil_sublist _

theorem linkInv_step (hservers : ∀ frames ∈ servers, ServerWire ks frames)
    {e : FwEvent} (h : LinkInv s) (hserved : Served servers s)
    (hs : linkStep ks cJSONParse s e = some s') : LinkInv s' := by
  obtain ⟨fw, hfw, rfl⟩ := Option.map_eq_some_iff.1 hs
  cases e with
  | poll recvs calls =>
    simp only [fwStep, Option.ite_none_left_eq_some, Option.some.injEq] at hfw
    obtain ⟨-, rfl⟩ := hfw
    refine ⟨?_, ?_, h.earlier⟩
    · simp only [encryptedSince, List.drop_left]
      simp [LinkState.connections, h.encrypted]
    · simp only [List.map_append, List.filterMap_append, encryptedSince, List.drop_left]
      apply h.current.append
      generalize receiveFrame s.fw.gateway recvs calls = r
      obtain ⟨_ | frame, g⟩ := r
      · exact List.Sublist.refl _
      · exact encrypts_frame
  | connect config calls =>
    simp only [fwStep, Option.ite_none_left_eq_some, Option.some.injEq] at hfw
    obtain ⟨-, rfl⟩ := hfw
    refine ⟨?_, List.nil_sublist _, ?_⟩
    · simpa [LinkState.connections] using h.encrypted
    · intro c hc
      rcases List.mem_append.1 hc with hc | hc
      · exact h.earlier c hc
      · rw [List.mem_singleton.1 hc]
        exact increasing_current hservers hserved h
  | close =>
    cases hfw
    exact ⟨by simpa [LinkState.connections, encryptedSince] using h.encrypted,
      by simpa [encryptedSince] using h.current, h.earlier⟩
  | usb e =>
    obtain ⟨-, u, -, rfl⟩ := fwStep_usb hfw
    exact ⟨by simpa [LinkState.connections, encryptedSince] using h.encrypted,
      by simpa [encryptedSince] using h.current, h.earlier⟩

/-- **When the USB nonces are safe.** In every run of the firmware on connections of servers, the
packets that are encrypted with the same nonce have the same plaintext exactly if this is so for
packets with the same number of different connections. -/
theorem run_nonce_reuse (hservers : ∀ frames ∈ servers, ServerWire ks frames) {g : Gateway}
    {es : List FwEvent}
    (h : Run.run (linkStep ks cJSONParse) { fw := { gateway := g } } es = some s)
    (hmeets : Run.Meets (linkStep ks cJSONParse) (fun s _ => Served servers s)
      { fw := { gateway := g } } es) (hserved : Served servers s) :
    (s.fw.encrypted.Pairwise fun p q =>
      cryptoStreamPacketNonce gatewayUsbCryptoNonce p.2.1 =
        cryptoStreamPacketNonce gatewayUsbCryptoNonce q.2.1 → p.2.2 = q.2.2) ↔
    s.connections.Pairwise fun c c' => ∀ p ∈ c, ∀ q ∈ c', p.2.1 = q.2.1 → p.2.2 = q.2.2 := by
  have hinv : LinkInv s := Run.inv_where (fun hi hc hs => linkInv_step hservers hi hc hs) h hmeets
    ⟨rfl, List.nil_sublist _, by simp⟩
  have hincreasing : ∀ c ∈ s.connections, c.Pairwise fun p q =>
      cryptoStreamPacketNonce gatewayUsbCryptoNonce p.2.1 =
        cryptoStreamPacketNonce gatewayUsbCryptoNonce q.2.1 → p.2.2 = q.2.2 := by
    intro c hc
    have hlt : (c.map fun p => p.2.1).Pairwise (· < ·) := by
      rcases List.mem_append.1 hc with hc | hc
      · exact hinv.earlier c hc
      · rw [List.mem_singleton.1 hc]
        exact increasing_current hservers hserved hinv
    refine (List.pairwise_map.1 hlt).imp fun {p q} hlt heq => ?_
    rw [cryptoStreamPacketNonce_inj heq] at hlt
    exact absurd hlt (UInt32.lt_irrefl _)
  rw [hinv.encrypted, List.pairwise_flatten]
  constructor
  · rintro ⟨-, hcross⟩
    exact hcross.imp fun hcc p hp q hq heq => hcc p hp q hq (by rw [heq])
  · intro hcross
    exact ⟨hincreasing, hcross.imp fun hcc p hp q hq heq =>
      hcc p hp q hq (cryptoStreamPacketNonce_inj heq)⟩

end

/-- The wire of a server with the session nonce `fill`, ..., `fill` that sends the NAL units. -/
def nalWire (fill : UInt8) (nals : List Bytes) : List (UInt8 × Bytes) :=
  let n : Nonce := ⟨List.replicate 12 fill, rfl⟩
  (1, cryptoInitText n) :: nals.mapIdx fun i nal =>
    (2, packetBytes (fun _ _ _ _ => 0x5a) 1 (UInt32.ofNat i) n nal)

/-- Connections on which the frames are polled, one after the other. -/
def linkRun (wires : List (List (UInt8 × Bytes))) : List FwEvent :=
  wires.flatMap fun frames =>
    [.connect ⟨ascii "10.0.0.1", ascii "/gateway", 8081, true, 1⟩
      ⟨3, true, true, true, [.data (ascii "HTTP/1.1 101\r\n\r\n")], true, true, true⟩] ++
    frames.map (fun f => .poll [arrival f] ⟨true, true, true, true, true, 0⟩) ++ [.close]

/-- Two servers send one NAL unit each. -/
def twoWires : List (List (UInt8 × Bytes)) :=
  [nalWire 7 [[0x65, 1, 2, 3]], nalWire 8 [[0x65, 4, 5, 6]]]

/-- One server sends two NAL units. -/
def oneWire : List (UInt8 × Bytes) := nalWire 7 [[0x65, 1, 2, 3], [0x41, 4]]

/-- One thread sends the NAL units of one packet; the first call also sends the `crypto_init`. -/
def nalRun (nals : List Bytes) : List (SendEvent Nat) :=
  (nals.mapIdx fun i nal =>
    .call 0 streamIdVideo nal :: List.replicate (if i = 0 then 16 else 12) (.go 0 true 9)).flatten

theorem serverWire_of_run {fill : UInt8} {nals : List Bytes}
    (h : ∃ server, Run.run (senderStep fun _ _ _ _ => 0x5a)
      (newSender ⟨List.replicate 12 fill, rfl⟩) (nalRun nals) = some server ∧
        server.app.taken ≤ 2 ^ 32 ∧
        nalWire fill nals = server.app.wire.map fun f => message f.frame) :
    ServerWire (fun _ _ _ _ => 0x5a) (nalWire fill nals) := by
  obtain ⟨server, hrun, htaken, hwire⟩ := h
  exact ⟨_, _, server, hrun, htaken, hwire⟩

theorem twoWires_ok : ∀ frames ∈ twoWires, ServerWire (fun _ _ _ _ => 0x5a) frames := by
  intro frames hframes
  rcases List.mem_pair.1 hframes with rfl | rfl
  · exact serverWire_of_run (by decide +kernel)
  · exact serverWire_of_run (by decide +kernel)

theorem oneWire_ok : ∀ frames ∈ [oneWire], ServerWire (fun _ _ _ _ => 0x5a) frames := by
  intro frames hframes
  rw [List.mem_singleton.1 hframes]
  exact serverWire_of_run (by decide +kernel)

theorem served_twoWires :
    Run.Meets (linkStep (fun _ _ _ _ => 0x5a) parseServerText) (fun s _ => Served twoWires s)
      { fw := { gateway := bootGateway } } (linkRun twoWires) := by
  decide +kernel

/-- On one connection the second packet has a nonce of its own. -/
theorem run_nonce_reuse_oneWire :
    ∃ s, Run.run (linkStep (fun _ _ _ _ => 0x5a) parseServerText)
        { fw := { gateway := bootGateway } } (linkRun [oneWire]) = some s ∧
      s.fw.encrypted = [(1, 0, [0x65, 1, 2, 3]), (1, 1, [0x41, 4])] ∧
      s.fw.encrypted.Pairwise fun p q =>
        cryptoStreamPacketNonce gatewayUsbCryptoNonce p.2.1 =
          cryptoStreamPacketNonce gatewayUsbCryptoNonce q.2.1 → p.2.2 = q.2.2 := by
  have h : ∃ s, Run.run (linkStep (fun _ _ _ _ => 0x5a) parseServerText)
      { fw := { gateway := bootGateway } } (linkRun [oneWire]) = some s ∧
        s.fw.encrypted = [(1, 0, [0x65, 1, 2, 3]), (1, 1, [0x41, 4])] ∧ Served [oneWire] s ∧
        s.connections.Pairwise fun c c' => ∀ p ∈ c, ∀ q ∈ c', p.2.1 = q.2.1 → p.2.2 = q.2.2 := by
    decide +kernel
  have hmeets : Run.Meets (linkStep (fun _ _ _ _ => 0x5a) parseServerText)
      (fun s _ => Served [oneWire] s) { fw := { gateway := bootGateway } } (linkRun [oneWire]) := by
    decide +kernel
  obtain ⟨s, hs, hencrypted, hserved, hcross⟩ := h
  exact ⟨s, hs, hencrypted, (run_nonce_reuse oneWire_ok hs hmeets hserved).2 hcross⟩

/-- **A nonce is used for two plaintexts**: the first packets of two connections. -/
theorem nonce_reused :
    (∀ frames ∈ twoWires, ServerWire (fun _ _ _ _ => 0x5a) frames) ∧
    Run.Meets (linkStep (fun _ _ _ _ => 0x5a) parseServerText) (fun s _ => Served twoWires s)
      { fw := { gateway := bootGateway } } (linkRun twoWires) ∧
    ∃ s, Run.run (linkStep (fun _ _ _ _ => 0x5a) parseServerText)
        { fw := { gateway := bootGateway } } (linkRun twoWires) = some s ∧
      s.fw.encrypted = [(1, 0, [0x65, 1, 2, 3]), (1, 0, [0x65, 4, 5, 6])] :=
  ⟨twoWires_ok, served_twoWires, by decide +kernel⟩

end E2E
