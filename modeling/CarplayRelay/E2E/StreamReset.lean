import CarplayRelay.Client.Resync
import CarplayRelay.Firmware.UsbStream

/-!
# Resets of the USB stream

A reset of the firmware's stream, by the stall watchdog or after a failed IN completion, starts a
new session: the host gets the front of one session's stream and then an INIT record again. The
client looks for a record only where a payload begins, and a crypto packet has no checksum.

* `run_unspliced`: in every run in which nothing reaches the host behind a part of a media packet
  that the client would fill up (`Clean`), every payload the client accepts is the plaintext of one
  packet the firmware enqueued.
* `spliced`: a reset behind the first bytes of a payload makes the client accept a payload that is
  the plaintext of no packet.
-/

namespace E2E

open Bytes Crypto Media Proto Client Firmware

/-! ## What the client accepts -/

/-- The payloads for which `read_gateway_payload_resync` returns 1 and `decrypt_usb_media_payload`
returns true, with the stream and the sequence number of their headers. -/
def acceptedPayloads (ks : KeyStream) (s : Source) : List Plain :=
  (readRecords s).filterMap fun
    | .media info payload _ =>
      (decryptUsbMediaPayload ks info payload).map fun p => (info.streamId, info.seqNo, p)
    | .init _ _ | .lost _ _ => none

theorem acceptedPayloads_eq (ks : KeyStream) (s : Source) :
    acceptedPayloads ks s = (packetsOf s.remaining).filterMap fun p =>
      (decryptUsbMediaPayload ks p.1 p.2).map fun plaintext =>
        (p.1.streamId, p.1.seqNo, plaintext) := by
  rw [← readRecords_packetsOf, List.filterMap_filterMap]
  apply List.filterMap_congr
  intro record _
  cases record <;> rfl

/-! ## Where a session stops -/

/-- The bytes the host got, session after session. -/
def heard (sessions : List Session) : Bytes := (sessions.map Session.delivered).flatten

/-- The bytes of the first `n` packets of a session and its INIT record. -/
def upTo (session : Session) (n : Nat) : Nat :=
  16 + (session.accepted.take n).flatten.length

/-- The host got whole packets and at most a part of the next one's magic, or not more than the
INIT record. -/
def BeforeHeader (session : Session) : Prop :=
  session.delivered.length ≤ 16 ∨
    ∃ n ≤ session.accepted.length, ∃ k < 4, session.delivered.length = upTo session n + k

/-- The host got whole packets and the header of one more. -/
def BehindHeader (session : Session) : Prop :=
  ∃ n < session.accepted.length, session.delivered.length = upTo session n + 16 ∧
    upTo session n + 16 < upTo session (n + 1)

/-- The bytes the host has got of the sessions start like a record, if they are enough for it. -/
def GoesOn (sessions : List Session) : Prop :=
  (heard sessions).length < 4 ∨ startsGatewayMagic (heard sessions) = true

/-- No session of which the host got a part of a media packet is followed by more bytes, except
where the part ends in the magic, or is the header and a magic follows. -/
def Clean : List Session → Prop
  | [] => True
  | session :: sessions =>
    (heard sessions = [] ∨ BeforeHeader session ∨ (BehindHeader session ∧ GoesOn sessions)) ∧
      Clean sessions

instance (session : Session) : Decidable (BeforeHeader session) := by
  unfold BeforeHeader
  infer_instance

instance (session : Session) : Decidable (BehindHeader session) := by
  unfold BehindHeader
  infer_instance

instance (sessions : List Session) : Decidable (GoesOn sessions) := by
  unfold GoesOn
  infer_instance

instance decidableClean : (sessions : List Session) → Decidable (Clean sessions)
  | [] => isTrue trivial
  | _ :: sessions =>
    have := decidableClean sessions
    inferInstanceAs (Decidable (_ ∧ _))

/-! ## The packets of a session -/

/-- The header and the payload of a packet on USB. -/
def packetRecord (ks : KeyStream) (streamId : UInt8) (seqNo : UInt32) (payload : Bytes) :
    MediaInfo × Bytes :=
  let encrypted := if payload = [] then [] else
    packetBytes ks streamId seqNo gatewayUsbCryptoNonce payload
  ({ streamId := streamId
     flags := if streamId = streamVideo then gatewayVideoFlags payload else 0
     seqNo := seqNo
     payloadLen := UInt32.ofNat encrypted.length }, encrypted)

/-- A packet the firmware accepted. -/
def IsPacket (ks : KeyStream) (packet : Bytes) : Prop :=
  ∃ streamId seqNo payload, packet = mediaPacket ks streamId seqNo payload ∧
    cryptoStreamPacketSize payload.length < 2 ^ 31

/-- What holds of every session of the firmware. -/
structure SessionOk (ks : KeyStream) (session : Session) : Prop where
  delivered : session.Prefix
  accepted : ∀ packet ∈ session.accepted, IsPacket ks packet

section
variable {ks : KeyStream} {streamId : UInt8} {seqNo : UInt32} {payload : Bytes}

theorem mediaPacket_eq : mediaPacket ks streamId seqNo payload =
    gatewayProtoWriteMediaHeader (packetRecord ks streamId seqNo payload).1 ++
      (packetRecord ks streamId seqNo payload).2 := rfl

theorem ofBe32_header (info : MediaInfo) :
    ofBe32 (gatewayProtoWriteMediaHeader info) = packetMagic := by
  simpa using ofBe32_writeMediaHeader info []

theorem length_packetRecord (hsize : cryptoStreamPacketSize payload.length < 2 ^ 31) :
    (packetRecord ks streamId seqNo payload).1.payloadLen.toNat =
      (packetRecord ks streamId seqNo payload).2.length := by
  have hlt : (packetRecord ks streamId seqNo payload).2.length < 2 ^ 32 := by
    unfold packetRecord
    dsimp only
    split
    · decide
    · rw [length_packetBytes]
      omega
  exact UInt32.toNat_ofNat_of_lt' hlt

theorem packetOk_packetRecord (hsize : cryptoStreamPacketSize payload.length < 2 ^ 31) :
    PacketOk (packetRecord ks streamId seqNo payload) := by
  refine ⟨length_packetRecord hsize, Bool.eq_false_iff.2 ?_⟩
  intro hmagic
  unfold packetRecord at hmagic
  dsimp only at hmagic
  split at hmagic
  · cases hmagic
  · have hfirst : (0x43 : UInt8) = 0x47 := (startsGatewayMagic_bytes hmagic).1
    exact absurd hfirst (by decide)

/-- A payload that is not empty is a crypto packet. -/
theorem four_le_payloadLen (hsize : cryptoStreamPacketSize payload.length < 2 ^ 31)
    (hlong : 16 < (mediaPacket ks streamId seqNo payload).length) :
    4 ≤ (packetRecord ks streamId seqNo payload).1.payloadLen.toNat := by
  rw [length_packetRecord hsize]
  rw [mediaPacket_eq, List.length_append, length_writeMediaHeader] at hlong
  unfold packetRecord at hlong ⊢
  dsimp only at hlong ⊢
  split at hlong
  · simp at hlong
  · rename_i hne
    rw [if_neg hne, length_packetBytes, cryptoStreamPacketSize]
    have : headerSize = 8 := rfl
    omega

theorem decrypt_packetRecord (hsize : cryptoStreamPacketSize payload.length < 2 ^ 31) :
    decryptUsbMediaPayload ks (packetRecord ks streamId seqNo payload).1
      (packetRecord ks streamId seqNo payload).2 = some payload := by
  by_cases hp : payload = []
  · subst hp
    simp [packetRecord, decryptUsbMediaPayload]
  · simp only [packetRecord, if_neg hp]
    exact @decryptUsbMediaPayload_packet ks ⟨streamId, _, seqNo, _⟩ payload hsize

theorem packetRecord_unique {info : MediaInfo} {encrypted : Bytes}
    (h : gatewayProtoWriteMediaHeader info ++ encrypted = mediaPacket ks streamId seqNo payload) :
    (info, encrypted) = packetRecord ks streamId seqNo payload := by
  obtain ⟨hheader, hpay⟩ := List.append_inj (h.trans mediaPacket_eq) rfl
  have hinfo := congrArg mediaInfoOf hheader
  rw [mediaInfoOf_write, mediaInfoOf_write] at hinfo
  exact Prod.ext hinfo hpay

end

/-! ## What the host gets of a session -/

section
variable {ks : KeyStream} {session : Session}

theorem SessionOk.eq_take (h : SessionOk ks session) : session.delivered =
    (initRecord ++ session.accepted.flatten).take session.delivered.length :=
  List.prefix_iff_eq_take.1 h.delivered

theorem SessionOk.init (h : SessionOk ks session) (hle : session.delivered.length ≤ 16) :
    session.delivered = initRecord.take session.delivered.length := by
  have := h.eq_take
  rwa [List.take_append_of_le_length (by rwa [length_initRecord])] at this

theorem take_upTo (session : Session) (n k : Nat) :
    (initRecord ++ session.accepted.flatten).take (upTo session n + k) =
      initRecord ++ ((session.accepted.take n).flatten ++
        (session.accepted.drop n).flatten.take k) := by
  have hcut : session.accepted.flatten =
      (session.accepted.take n).flatten ++ (session.accepted.drop n).flatten := by
    rw [← List.flatten_append, List.take_append_drop]
  have hinit : upTo session n + k =
      initRecord.length + ((session.accepted.take n).flatten.length + k) := by
    rw [length_initRecord, upTo, Nat.add_assoc]
  rw [hinit, List.take_length_add_append, hcut, List.take_length_add_append]

theorem header_magicPart {info : MediaInfo} {k : Nat} (hk : k < 4) {x : UInt8}
    (hx : x ∈ ((gatewayProtoWriteMediaHeader info).take k).drop 1) : x ≠ 0x47 := by
  have hfront : (gatewayProtoWriteMediaHeader info).take k = (be32 packetMagic).take k := by
    rw [gatewayProtoWriteMediaHeader, List.append_assoc, List.append_assoc, List.append_assoc]
    exact List.take_append_of_le_length hk.le
  have hall : ((be32 packetMagic).drop 1).all (· != 0x47) = true := by decide
  rw [hfront, List.drop_take] at hx
  exact bne_iff_ne.1 (List.all_eq_true.1 hall x (List.mem_of_mem_take hx))

/-- Behind the whole packets stands a part of a magic, or nothing. -/
theorem SessionOk.beforeHeader (h : SessionOk ks session) {n k : Nat} (hk : k < 4)
    (hlen : session.delivered.length = upTo session n + k) :
    ∃ g, session.delivered = initRecord ++ ((session.accepted.take n).flatten ++ g) ∧
      g.length < 4 ∧ ∀ x ∈ g.drop 1, x ≠ 0x47 := by
  refine ⟨(session.accepted.drop n).flatten.take k, ?_, ?_, ?_⟩
  · have := h.eq_take
    rwa [hlen, take_upTo] at this
  · exact (List.length_take_le _ _).trans_lt hk
  · intro x hx
    rcases Nat.lt_or_ge n session.accepted.length with hn | hn
    · obtain ⟨streamId, seqNo, payload, hp, -⟩ := h.accepted _ (List.getElem_mem hn)
      rw [List.drop_eq_getElem_cons hn, List.flatten_cons, hp, mediaPacket_eq, List.append_assoc,
        List.take_append_of_le_length (by rw [length_writeMediaHeader]; omega)] at hx
      exact header_magicPart hk hx
    · rw [List.drop_eq_nil_of_le hn, List.flatten_nil, List.take_nil, List.drop_nil] at hx
      cases hx

theorem SessionOk.behindHeader (h : SessionOk ks session) (hb : BehindHeader session) :
    ∃ n header, session.delivered = initRecord ++ ((session.accepted.take n).flatten ++ header) ∧
      header.length = 16 ∧ ofBe32 header = packetMagic ∧
      4 ≤ (mediaInfoOf header).payloadLen.toNat := by
  obtain ⟨n, hn, hlen, hlong⟩ := hb
  obtain ⟨streamId, seqNo, payload, hp, hsize⟩ := h.accepted _ (List.getElem_mem hn)
  have hdrop : (session.accepted.drop n).flatten.take 16 =
      gatewayProtoWriteMediaHeader (packetRecord ks streamId seqNo payload).1 := by
    rw [List.drop_eq_getElem_cons hn, List.flatten_cons, hp, mediaPacket_eq, List.append_assoc,
      List.take_left' (length_writeMediaHeader _)]
  refine ⟨n, gatewayProtoWriteMediaHeader (packetRecord ks streamId seqNo payload).1, ?_,
    length_writeMediaHeader _, ofBe32_header _, ?_⟩
  · have := h.eq_take
    rwa [hlen, take_upTo, hdrop] at this
  · rw [mediaInfoOf_write]
    apply four_le_payloadLen hsize
    rw [upTo, upTo, List.take_succ_eq_append_getElem hn, List.flatten_append, List.length_append,
      List.flatten_singleton, hp] at hlong
    omega

/-! ## What the client reads of the sessions -/

/-- A packet that was accepted in one of the sessions. -/
def Accepted (sessions : List Session) (p : MediaInfo × Bytes) : Prop :=
  ∃ session ∈ sessions, gatewayProtoWriteMediaHeader p.1 ++ p.2 ∈ session.accepted

theorem Accepted.cons {sessions : List Session} {p : MediaInfo × Bytes}
    (h : Accepted sessions p) (session : Session) : Accepted (session :: sessions) p := by
  obtain ⟨other, hmem, hp⟩ := h
  exact ⟨other, List.mem_cons_of_mem _ hmem, hp⟩

/-- Whole packets are read one by one. -/
theorem packetsOf_flatten {packets : List Bytes} (h : ∀ packet ∈ packets, IsPacket ks packet)
    (r : Bytes) {p : MediaInfo × Bytes} (hp : p ∈ packetsOf (packets.flatten ++ r)) :
    gatewayProtoWriteMediaHeader p.1 ++ p.2 ∈ packets ∨ p ∈ packetsOf r := by
  induction packets with
  | nil => exact .inr hp
  | cons packet packets ih =>
    obtain ⟨streamId, seqNo, payload, rfl, hsize⟩ := h packet List.mem_cons_self
    obtain ⟨hlen, hmagic⟩ : PacketOk (packetRecord ks streamId seqNo payload) :=
      packetOk_packetRecord hsize
    rw [List.flatten_cons, List.append_assoc, mediaPacket_eq, List.append_assoc,
      packetsOf_packet (length_writeMediaHeader _) (ofBe32_header _)
        (by rwa [mediaInfoOf_write]) hmagic, mediaInfoOf_write] at hp
    rcases List.mem_cons.1 hp with rfl | hp
    · exact .inl List.mem_cons_self
    · rcases ih (fun q hq => h q (List.mem_cons_of_mem _ hq)) hp with hp | hp
      · exact .inl (List.mem_cons_of_mem _ hp)
      · exact .inr hp

theorem heard_cons (session : Session) (sessions : List Session) :
    heard (session :: sessions) = session.delivered ++ heard sessions := rfl

/-- What the host got starts like an INIT record. -/
theorem heard_starts {sessions : List Session} (h : ∀ session ∈ sessions, SessionOk ks session) :
    heard sessions = [] ∨ byteAt (heard sessions) 0 = 0x47 := by
  induction sessions with
  | nil => exact .inl rfl
  | cons session sessions ih =>
    by_cases hne : session.delivered = []
    · rw [heard_cons, hne, List.nil_append]
      exact ih fun other hmem => h other (List.mem_cons_of_mem _ hmem)
    · right
      obtain ⟨k, hk⟩ := Nat.exists_eq_add_of_lt (List.length_pos_of_ne_nil hne)
      have hd := (h session List.mem_cons_self).eq_take
      rw [hk, Nat.zero_add] at hd
      rw [heard_cons, hd]
      rfl

theorem mem_initRecord_drop {j : Nat} (hj : 0 < j) {x : UInt8} (hx : x ∈ initRecord.drop j) :
    x ≠ 0x47 := by
  have hall : (initRecord.drop 1).all (· != 0x47) = true := by decide
  refine bne_iff_ne.1 (List.all_eq_true.1 hall x ?_)
  obtain ⟨k, rfl⟩ := Nat.exists_eq_add_of_lt hj
  rw [Nat.zero_add, Nat.add_comm k 1, ← List.drop_drop] at hx
  exact List.mem_of_mem_drop hx

/-- A part of the INIT record, with the bytes behind it that fill it up, holds no packet. -/
theorem packetsOf_initPart {j k : Nat} (hk : k ≤ 16) (hjk : j < k) {r : Bytes}
    (hr : k < 4 → r = [] ∨ r.byteAt 0 = 0x47) :
    ∃ i ≤ 16 - k, packetsOf ((initRecord.take k).drop j ++ r) = packetsOf (r.drop i) := by
  have hlen : (initRecord.take k).length = k := by
    rw [List.length_take, length_initRecord]
    omega
  have hgarbage (i : Nat) (hi : 0 < i) :
      packetsOf ((initRecord.take k).drop i ++ r) = packetsOf r := by
    refine packetsOf_garbage (fun x hx => mem_initRecord_drop hi ?_) r
    rw [List.drop_take] at hx
    exact List.mem_of_mem_take hx
  rcases Nat.eq_zero_or_pos j with rfl | hj
  · rw [List.drop_zero]
    by_cases h4 : k < 4
    · refine ⟨0, Nat.zero_le _, packetsOf_magicPart (hlen.trans_lt h4) (fun x hx => ?_) (hr h4)⟩
      rw [List.drop_take] at hx
      exact mem_initRecord_drop Nat.one_pos (List.mem_of_mem_take hx)
    · refine ⟨16 - k, Nat.le_refl _, ?_⟩
      by_cases hshort : r.length < 16 - k
      · rw [packetsOf_short (by rw [List.length_append]; omega),
          List.drop_eq_nil_of_le (by omega), packetsOf_nil]
      · have hrecord : (initRecord.take k ++ r.take (16 - k)).length = 16 := by
          rw [List.length_append, hlen, List.length_take]
          omega
        have hmagic : ofBe32 (initRecord.take k ++ r.take (16 - k)) = initMagic := by
          rw [ofBe32_append (by omega)]
          have hwhole : ofBe32 initRecord = initMagic := by decide
          rw [← hwhole]
          conv_rhs => rw [← List.take_append_drop k initRecord]
          rw [ofBe32_append (by omega)]
        have := packetsOf_init hrecord hmagic (r.drop (16 - k))
        rwa [List.append_assoc, List.take_append_drop] at this
  · exact ⟨0, Nat.zero_le _, by rw [hgarbage j hj, List.drop_zero]⟩

/-- **Of clean sessions the client reads packets that were accepted**, also from a byte of the first
INIT record on. -/
theorem packetsOf_heard {sessions : List Session} (h : ∀ session ∈ sessions, SessionOk ks session)
    (hc : Clean sessions) {j : Nat} (hj : j ≤ 16) {p : MediaInfo × Bytes}
    (hp : p ∈ packetsOf ((heard sessions).drop j)) : Accepted sessions p := by
  induction sessions generalizing j with
  | nil =>
    rw [heard, List.map_nil, List.flatten_nil, List.drop_nil, packetsOf_nil] at hp
    cases hp
  | cons session sessions ih =>
    obtain ⟨hcut, hc⟩ := hc
    have hok := h session List.mem_cons_self
    have hoks : ∀ other ∈ sessions, SessionOk ks other := fun other hmem =>
      h other (List.mem_cons_of_mem _ hmem)
    have later {i : Nat} (hi : i ≤ 16) (hp : p ∈ packetsOf ((heard sessions).drop i)) :
        Accepted (session :: sessions) p := (ih hoks hc hi hp).cons session
    -- behind a whole INIT record come the packets
    have packets {n : Nat} {bytes r : Bytes}
        (hd : bytes = initRecord ++ ((session.accepted.take n).flatten ++ r))
        (hp : p ∈ packetsOf (bytes.drop j))
        (hr : p ∈ packetsOf r → Accepted (session :: sessions) p) :
        Accepted (session :: sessions) p := by
      rw [hd, List.drop_append_of_le_length (by rwa [length_initRecord])] at hp
      have hp' : p ∈ packetsOf ((session.accepted.take n).flatten ++ r) := by
        rcases Nat.lt_or_ge j 16 with hlt | hge
        · obtain ⟨i, hi, heq⟩ := packetsOf_initPart (k := 16) (Nat.le_refl _) hlt
            (r := (session.accepted.take n).flatten ++ r) (fun h4 => absurd h4 (by decide))
          rw [Nat.sub_self, Nat.le_zero] at hi
          rw [List.take_of_length_le (by rw [length_initRecord]), hi, List.drop_zero] at heq
          rwa [heq] at hp
        · rwa [List.drop_eq_nil_of_le (by rwa [length_initRecord]), List.nil_append] at hp
      rcases packetsOf_flatten (fun q hq => hok.accepted q (List.mem_of_mem_take hq)) r hp' with
        hp' | hp'
      · exact ⟨session, List.mem_cons_self, List.mem_of_mem_take hp'⟩
      · exact hr hp'
    rcases hcut with hnil | (hle | ⟨n, -, k, hk, hlen⟩) | ⟨hbehind, hgo⟩
    · -- let the session be delivered to its end: the packets read so far stay
      obtain ⟨rest, hrest⟩ := hok.delivered
      rw [heard_cons, hnil, List.append_nil] at hp
      have hmore : p ∈ packetsOf ((session.delivered ++ rest).drop j) := by
        rw [List.drop_append]
        exact (packetsOf_append _ _).subset hp
      refine packets (n := session.accepted.length) (r := []) ?_ hmore fun hp => ?_
      · rw [List.take_length, List.append_nil, hrest]
      · rw [packetsOf_nil] at hp
        cases hp
    · rw [heard_cons, List.drop_append] at hp
      rcases Nat.lt_or_ge j session.delivered.length with hlt | hge
      · rw [Nat.sub_eq_zero_of_le hlt.le, List.drop_zero, hok.init hle] at hp
        obtain ⟨i, hi, heq⟩ := packetsOf_initPart hle hlt fun _ => heard_starts hoks
        rw [heq] at hp
        exact later (hi.trans (Nat.sub_le _ _)) hp
      · rw [List.drop_eq_nil_of_le hge, List.nil_append] at hp
        exact later (by omega) hp
    · obtain ⟨g, hd, hshort, hg⟩ := hok.beforeHeader hk hlen
      refine packets (n := n) (r := g ++ heard sessions) (by rw [heard_cons, hd]; simp) hp ?_
      intro hp
      rw [packetsOf_magicPart hshort hg (heard_starts hoks)] at hp
      exact later (Nat.zero_le _) hp
    · obtain ⟨n, header, hd, h16, hm, h4⟩ := hok.behindHeader hbehind
      refine packets (n := n) (r := header ++ heard sessions) (by rw [heard_cons, hd]; simp) hp ?_
      intro hp
      rw [packetsOf_lost h16 hm h4 hgo] at hp
      exact later (Nat.zero_le _) hp

end

/-! ## Runs of the firmware -/

section
variable {ks : KeyStream} {s s' : UsbState}

/-- What an operation does to the sessions. -/
theorem usbStep_sessions (hi : UsbInv s) {e : UsbEvent} (hs : usbStep ks s e = some s') :
    (s'.past = s.past ∧ ∃ new, s'.session.accepted = s.session.accepted ++ new ∧
      ∀ packet ∈ new, IsPacket ks packet) ∨
    (∃ moved, (e = .inError moved ∨ ∃ dequeue, e = .reset dequeue moved) ∧
      s'.past = s.past ++ [s.deliver moved] ∧ s'.session = {}) := by
  have hsame : s.session.accepted = s.session.accepted ++ [] := (List.append_nil _).symm
  cases e with
  | enqueueInit | kickTx | sendPong =>
    cases hs
    exact .inl ⟨rfl, [], hsame, by simp⟩
  | enqueueMedia streamId seqNo payload mallocOk =>
    simp only [usbStep, Option.ite_none_right_eq_some] at hs
    obtain ⟨⟨-, hsize⟩, hs⟩ := hs
    obtain ⟨tx', -, ⟨heq, -⟩ | ⟨heq, -⟩⟩ :=
      enqueueMedia_cases ks hi.ok.tx streamId seqNo hsize mallocOk
    · rw [heq] at hs
      cases hs
      refine .inl ⟨rfl, _, rfl, ?_⟩
      intro packet hp
      exact ⟨streamId, seqNo, payload, List.mem_singleton.1 hp, hsize⟩
    · rw [heq] at hs
      cases hs
      exact .inl ⟨rfl, [], rfl, by simp⟩
  | inComplete actual rc =>
    simp only [usbStep, Option.ite_none_left_eq_some] at hs
    cases hs.2
    refine .inl ⟨rfl, [], ?_, by simp⟩
    dsimp only [UsbState.deliver]
    split <;> exact hsame
  | inError moved =>
    simp only [usbStep, Option.ite_none_left_eq_some] at hs
    cases hs.2
    exact .inr ⟨moved, .inl rfl, rfl, rfl⟩
  | reset dequeue moved =>
    cases hs
    exact .inr ⟨moved, .inr ⟨dequeue, rfl⟩, rfl, rfl⟩

theorem deliver_accepted (s : UsbState) (moved : Nat) :
    (s.deliver moved).accepted = s.session.accepted := by
  unfold UsbState.deliver
  split <;> rfl

/-- What holds of the sessions in every run. -/
structure SessionsInv (ks : KeyStream) (s : UsbState) : Prop where
  usb : UsbInv s
  accepted : ∀ session ∈ s.past ++ [s.session], ∀ packet ∈ session.accepted, IsPacket ks packet

theorem sessionsInv_step {e : UsbEvent} (hi : SessionsInv ks s) (hs : usbStep ks s e = some s') :
    SessionsInv ks s' where
  usb := usbInv_step hi.usb hs
  accepted := by
    have hlast := hi.accepted s.session (by simp)
    have hpast : ∀ session ∈ s.past, ∀ packet ∈ session.accepted, IsPacket ks packet :=
      fun session hmem => hi.accepted session (List.mem_append_left _ hmem)
    rcases usbStep_sessions hi.usb hs with ⟨hp, new, hnew, hok⟩ | ⟨moved, -, hp, hsession⟩
    · rw [hp]
      intro session hmem packet hpacket
      rcases List.mem_append.1 hmem with hmem | hmem
      · exact hpast session hmem packet hpacket
      · rw [List.mem_singleton.1 hmem, hnew] at hpacket
        exact (List.mem_append.1 hpacket).elim (hlast packet) (hok packet)
    · rw [hp, hsession]
      intro session hmem packet hpacket
      rcases List.mem_append.1 hmem with hmem | hmem
      · rcases List.mem_append.1 hmem with hmem | hmem
        · exact hpast session hmem packet hpacket
        · rw [List.mem_singleton.1 hmem, deliver_accepted] at hpacket
          exact hlast packet hpacket
      · rw [List.mem_singleton.1 hmem] at hpacket
        cases hpacket

theorem sessionsInv_fresh {u : Usb} (hu : Fresh u) : SessionsInv ks { usb := u } where
  usb := usbInv_fresh hu
  accepted := by simp

theorem SessionsInv.sessionOk (hi : SessionsInv ks s) :
    ∀ session ∈ s.past ++ [s.session], SessionOk ks session := by
  intro session hmem
  refine ⟨?_, hi.accepted session hmem⟩
  rcases List.mem_append.1 hmem with hpast | hlast
  · exact hi.usb.past session hpast
  · rw [List.mem_singleton.1 hlast]
    exact (List.prefix_append _ _).trans (hi.usb.data ▸ hi.usb.stream_prefix)

/-! ## What the client accepts in a run -/

/-- **No payload is spliced while nothing follows a part of a media packet** that the client would
fill up. The client has read what the host got since one of the sessions began, of which its startup
may have taken the INIT record. -/
theorem run_unspliced {u : Usb} (hu : Fresh u) {es : List UsbEvent}
    (h : Run.run (usbStep ks) { usb := u } es = some s) {k : Nat}
    (hclean : Clean ((s.past ++ [s.session]).drop k))
    {init : Bytes} (hinit : init = [] ∨ init = initRecord) {source : Source}
    (hsource : init ++ source.remaining = heard ((s.past ++ [s.session]).drop k)) :
    ∀ p ∈ acceptedPayloads ks source, ∃ session ∈ s.past ++ [s.session],
      mediaPacket ks p.1 p.2.1 p.2.2 ∈ session.accepted := by
  intro p hp
  have hi : SessionsInv ks s := Run.inv sessionsInv_step h (sessionsInv_fresh hu)
  rw [acceptedPayloads_eq] at hp
  obtain ⟨⟨info, payload⟩, hread, hp⟩ := List.mem_filterMap.1 hp
  obtain ⟨plaintext, hdec, rfl⟩ := Option.map_eq_some_iff.1 hp
  have hj : init.length ≤ 16 := by
    rcases hinit with rfl | rfl
    · exact Nat.zero_le _
    · rw [length_initRecord]
  have hcut : source.remaining = (heard ((s.past ++ [s.session]).drop k)).drop init.length := by
    rw [← hsource, List.drop_left]
  rw [hcut] at hread
  obtain ⟨session, hmem, hpacket⟩ :=
    packetsOf_heard (fun session hmem => hi.sessionOk session (List.mem_of_mem_drop hmem))
      hclean hj hread
  have hmem := List.mem_of_mem_drop hmem
  obtain ⟨streamId, seqNo, pt, heq, hsize⟩ := hi.accepted session hmem _ hpacket
  have hrec := packetRecord_unique heq
  have hpt : decryptUsbMediaPayload ks info payload = some pt := by
    rw [show info = _ from congrArg Prod.fst hrec, show payload = _ from congrArg Prod.snd hrec]
    exact decrypt_packetRecord hsize
  cases hdec.symm.trans hpt
  refine ⟨session, hmem, ?_⟩
  rw [heq] at hpacket
  rw [show info = _ from congrArg Prod.fst hrec]
  exact hpacket

end

/-- The host gets the header of a packet, and behind a reset a whole packet and three bytes of the
next one; behind another reset a packet and a part of one, and after a failed completion nothing. -/
def headerRun : List UsbEvent :=
  [.enqueueInit, .enqueueMedia 1 0 [0x65] true, .kickTx 0, .inComplete 32 0, .reset ⟨0, true⟩ 0,
    .enqueueInit, .enqueueMedia 1 1 [0x41] true, .enqueueMedia 1 2 [0x42] true, .kickTx 0,
    .inComplete 44 0, .reset ⟨0, true⟩ 0,
    .enqueueInit, .enqueueMedia 1 3 [0x43] true, .enqueueMedia 1 4 [0x44] true, .kickTx 0,
    .inComplete 60 0, .inError 5]

theorem run_unspliced_headerRun :
    ∃ s, Run.run (usbStep fun _ _ _ _ => 0) { usb := bootUsb } headerRun = some s ∧
      (acceptedPayloads (fun _ _ _ _ => 0) ⟨[], 0, heard (s.past ++ [s.session])⟩).length = 2 ∧
      ∀ p ∈ acceptedPayloads (fun _ _ _ _ => 0) ⟨[], 0, heard (s.past ++ [s.session])⟩,
        ∃ session ∈ s.past ++ [s.session],
          mediaPacket (fun _ _ _ _ => 0) p.1 p.2.1 p.2.2 ∈ session.accepted := by
  have h : (Run.run (usbStep fun _ _ _ _ => 0) { usb := bootUsb } headerRun).any (fun s =>
      decide (Clean (s.past ++ [s.session]) ∧ (acceptedPayloads (fun _ _ _ _ => 0)
        ⟨[], 0, heard (s.past ++ [s.session])⟩).length = 2)) = true := by
    decide +kernel
  obtain ⟨s, hs, hfacts⟩ := (Option.any_eq_true _ _).1 h
  obtain ⟨hclean, hlength⟩ := of_decide_eq_true hfacts
  exact ⟨s, hs, hlength, run_unspliced (k := 0) fresh_bootUsb hs hclean (.inl rfl) rfl⟩

/-! ## A spliced payload -/

/-- The cipher of the example. -/
def noKeyStream : KeyStream := fun _ _ _ _ => 0

/-- A NAL unit. -/
def cutNal : Bytes := 0x65 :: List.replicate 19 0x41

/-- A transfer is short, the rest of the packet stalls, the stream is reset, and a packet
follows. -/
def stalledRun : List UsbEvent :=
  [.enqueueInit, .enqueueMedia 1 0 cutNal true, .kickTx 0, .inComplete 48 0,
    .reset ⟨0, true⟩ 0, .enqueueInit, .enqueueMedia 1 1 [0x41] true, .kickTx 0, .inComplete 41 0]

/-- The plaintext the client gets: the end of the NAL unit is the start of the next session. -/
def splicedNal : Bytes :=
  cutNal.take 8 ++ initRecord.take 12

theorem stalledRun_sessions :
    (Run.run (usbStep noKeyStream) { usb := bootUsb } stalledRun).map
        (fun s => s.past ++ [s.session]) =
      some [⟨[mediaPacket noKeyStream 1 0 cutNal],
          (initRecord ++ mediaPacket noKeyStream 1 0 cutNal).take 48⟩,
        ⟨[mediaPacket noKeyStream 1 1 [0x41]],
          initRecord ++ mediaPacket noKeyStream 1 1 [0x41]⟩] := by
  decide +kernel

/-- **A reset inside a packet splices a payload**: the client accepts one that the firmware never
enqueued. -/
theorem spliced :
    ∃ s, Run.run (usbStep noKeyStream) { usb := bootUsb } stalledRun = some s ∧
      ∃ p ∈ acceptedPayloads noKeyStream ⟨[], 0, heard (s.past ++ [s.session])⟩,
        ∀ session ∈ s.past ++ [s.session],
          mediaPacket noKeyStream p.1 p.2.1 p.2.2 ∉ session.accepted := by
  obtain ⟨s, hs, hsessions⟩ := Option.map_eq_some_iff.1 stalledRun_sessions
  refine ⟨s, hs, (1, 0, splicedNal), ?_, ?_⟩
  · rw [acceptedPayloads_eq, hsessions]
    refine List.mem_filterMap.2 ⟨((packetRecord noKeyStream 1 0 cutNal).1,
      (packetRecord noKeyStream 1 0 cutNal).2.take 16 ++ initRecord.take 12), ?_,
      by decide +kernel⟩
    have hcut : heard [⟨[mediaPacket noKeyStream 1 0 cutNal],
          (initRecord ++ mediaPacket noKeyStream 1 0 cutNal).take 48⟩,
        ⟨[mediaPacket noKeyStream 1 1 [0x41]],
          initRecord ++ mediaPacket noKeyStream 1 1 [0x41]⟩] =
        initRecord ++ (gatewayProtoWriteMediaHeader (packetRecord noKeyStream 1 0 cutNal).1 ++
          (((packetRecord noKeyStream 1 0 cutNal).2.take 16 ++ initRecord.take 12) ++
            (initRecord.drop 12 ++ mediaPacket noKeyStream 1 1 [0x41]))) := by
      decide +kernel
    show _ ∈ packetsOf (heard _)
    rw [hcut, packetsOf_init length_initRecord (by decide),
      packetsOf_packet (length_writeMediaHeader _) (ofBe32_header _) (by decide +kernel)
        (by decide +kernel), mediaInfoOf_write]
    exact List.mem_cons_self
  · rw [hsessions]
    decide +kernel

end E2E
