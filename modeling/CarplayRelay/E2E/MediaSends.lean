import CarplayRelay.Client.Reader
import CarplayRelay.Server.Sender

/-!
# Media sends and what a client makes of their packets

A connection of the server sends NAL units and PCM chunks (`MediaSend`). Its packets are put on the
wire by two threads, so the packets of a NAL unit may have audio packets between them (`OnWire`);
a send is complete with its last packet.

* `handlePlains_onWire`: a client that is handed the packets obtains the sends, in the order in
  which they were complete.
-/

namespace E2E

open Bytes Crypto Media Proto Client Server

/-! ## Sends -/

inductive MediaSend
  | video (nal : Bytes)
  | audio (chunkIndex offset : UInt32) (pcm : Bytes)

/-- The sends the server makes; the packet of a PCM chunk has a size that is an `int`. -/
def MediaSend.Ok : MediaSend → Prop
  | .video nal => ServerNal nal
  | .audio _ _ pcm => cryptoStreamPacketSize (12 + pcm.length) < 2 ^ 31

/-- What a client should obtain of a send. -/
def MediaSend.obtained : MediaSend → Obtained
  | .video nal => .video nal (videoPayloadFlags nal)
  | .audio _ _ pcm => .audio pcm

/-- The calls of `send_encrypted_media` that complete the sends `sends` in this order: `cur` is the
NAL unit that is being sent and its packets that are not sent yet. -/
inductive OnWire : UInt32 → Option (Bytes × List Bytes) → List MediaSend →
    List (UInt8 × Bytes) → Prop
  | done (frameId : UInt32) : OnWire frameId none [] []
  | audio {frameId : UInt32} {cur : Option (Bytes × List Bytes)} {sends : List MediaSend}
      {packets : List (UInt8 × Bytes)} (chunkIndex offset : UInt32) (pcm : Bytes) :
      OnWire frameId cur sends packets →
      OnWire frameId cur (.audio chunkIndex offset pcm :: sends)
        ((streamIdAudio, audioPacket chunkIndex offset pcm) :: packets)
  | begin {frameId : UInt32} {sends : List MediaSend} {packets : List (UInt8 × Bytes)}
      (nal : Bytes) :
      OnWire (sendVideoMedia frameId nal allSent).videoFrameId
        (some (nal, (sendVideoMedia frameId nal allSent).calls)) sends packets →
      OnWire frameId none sends packets
  | packet {frameId : UInt32} {nal p p' : Bytes} {rest : List Bytes} {sends : List MediaSend}
      {packets : List (UInt8 × Bytes)} :
      OnWire frameId (some (nal, p' :: rest)) sends packets →
      OnWire frameId (some (nal, p :: p' :: rest)) sends ((streamIdVideo, p) :: packets)
  | last {frameId : UInt32} {nal p : Bytes} {sends : List MediaSend}
      {packets : List (UInt8 × Bytes)} :
      OnWire frameId none sends packets →
      OnWire frameId (some (nal, [p])) (.video nal :: sends) ((streamIdVideo, p) :: packets)

/-- The calls when every send is made by itself. -/
def sequential (frameId : UInt32) : List MediaSend → List (UInt8 × Bytes)
  | [] => []
  | .audio c o pcm :: sends => (streamIdAudio, audioPacket c o pcm) :: sequential frameId sends
  | .video nal :: sends =>
    (sendVideoMedia frameId nal allSent).calls.map (fun p => (streamIdVideo, p)) ++
      sequential (sendVideoMedia frameId nal allSent).videoFrameId sends

section
variable {frameId : UInt32} {nal : Bytes} {sends : List MediaSend} {packets : List (UInt8 × Bytes)}

theorem onWire_packets {ps : List Bytes} (hne : ps ≠ []) (h : OnWire frameId none sends packets) :
    OnWire frameId (some (nal, ps)) (.video nal :: sends)
      (ps.map (fun p => (streamIdVideo, p)) ++ packets) := by
  induction ps with
  | nil => exact absurd rfl hne
  | cons p ps ih =>
    cases ps with
    | nil => exact .last h
    | cons p' ps => exact .packet (ih (by simp))

theorem calls_ne_nil (hn : ServerNal nal) : (sendVideoMedia frameId nal allSent).calls ≠ [] := by
  by_cases hlen : nal.length ≤ videoFragmentDataSize
  · rw [sendVideoMedia_small hn.ne_nil hlen]
    simp
  · rw [sendVideoMedia_large hn (by omega)]
    simpa using fragments_ne_zero hn

/-- Sends made one after the other are complete in this order. -/
theorem onWire_sequential (hok : ∀ m ∈ sends, m.Ok) :
    OnWire frameId none sends (sequential frameId sends) := by
  induction sends generalizing frameId with
  | nil => exact .done frameId
  | cons m sends ih =>
    have ih (frameId : UInt32) : OnWire frameId none sends (sequential frameId sends) :=
      ih fun m hm => hok m (by simp [hm])
    cases m with
    | audio c o pcm => exact .audio c o pcm (ih _)
    | video nal =>
      exact .begin nal (onWire_packets (calls_ne_nil (hok (.video nal) (by simp))) (ih _))

/-- The NAL unit that is being sent is among the sends. -/
theorem OnWire.mem {cur : Option (Bytes × List Bytes)} (h : OnWire frameId cur sends packets)
    {rest : List Bytes} (hcur : cur = some (nal, rest)) : .video nal ∈ sends := by
  induction h generalizing rest with
  | done => cases hcur
  | audio _ _ _ _ ih => exact List.mem_cons_of_mem _ (ih hcur)
  | begin => cases hcur
  | packet _ ih =>
    cases hcur
    exact ih rfl
  | last =>
    cases hcur
    exact List.mem_cons_self

end

/-! ## Packets -/

/-- The flags of a packet in a relay's header. -/
def relayFlags (p : Plain) : UInt8 := if p.1 = streamVideo then gatewayVideoFlags p.2.2 else 0

/-- What `network_reader` obtains of the decrypted packets; the relay's headers carry their stream
ids, sequence numbers and flags. -/
def handlePlains : FragState → List Plain → List Obtained
  | _, [] => []
  | frag, p :: plains =>
    let (frag, obtained) := handlePayload true frag
      { streamId := p.1, flags := relayFlags p, seqNo := p.2.1, payloadLen := 0 } p.2.2
    obtained ++ handlePlains frag plains

/-- The state holds what was received of the NAL unit that is being sent. -/
def Holding (frag : FragState) : Option (Bytes × List Bytes) → Prop
  | none => frag.fragActive = false
  | some (nal, rest) => ServerNal nal ∧
    ((rest = [nal] ∧ frag.fragActive = false) ∨
      ∃ frameId i, i < fragments nal ∧
        rest = (List.range' i (fragments nal - i)).map (fragmentOf frameId nal) ∧
        ((i = 0 ∧ frag.fragActive = false) ∨ Holds frag nal frameId (List.range i)))

section
variable {frag : FragState} {nal : Bytes} {frameId : UInt32} {p : Plain} {plains : List Plain}

theorem holding_begin (hn : ServerNal nal) (h : Holding frag none) :
    Holding frag (some (nal, (sendVideoMedia frameId nal allSent).calls)) := by
  refine ⟨hn, ?_⟩
  by_cases hlen : nal.length ≤ videoFragmentDataSize
  · rw [sendVideoMedia_small hn.ne_nil hlen]
    exact .inl ⟨rfl, h⟩
  · rw [sendVideoMedia_large hn (by omega)]
    exact .inr ⟨frameId, 0, Nat.pos_of_ne_zero (fragments_ne_zero hn),
      by rw [Nat.sub_zero, List.range_eq_range'], .inl ⟨rfl, h⟩⟩

/-- The next fragment completes the NAL unit or is added to the ones held. -/
theorem reassemble_next (hn : ServerNal nal) {i : Nat} (hi : i < fragments nal)
    (h : (i = 0 ∧ frag.fragActive = false) ∨ Holds frag nal frameId (List.range i)) (flags : UInt8)
    (seqNo : UInt32) :
    (i + 1 = fragments nal →
      reassembleVideoPayload frag (fragmentOf frameId nal i) flags seqNo =
        (resetVideoFragments, some (nal, videoPayloadFlags nal))) ∧
    (i + 1 < fragments nal →
      ∃ frag', reassembleVideoPayload frag (fragmentOf frameId nal i) flags seqNo = (frag', none) ∧
        Holds frag' nal frameId (List.range (i + 1))) := by
  have hstart : Holds (startFrame frag (videoPayloadFlags nal) (UInt16.ofNat (fragments nal))
      frameId) nal frameId (List.range i) := by
    rcases h with ⟨rfl, hidle⟩ | h
    · exact startFrame_stale hn fun ha => by rw [hidle] at ha; cases ha
    · rw [startFrame_holds h]
      exact h
  have hstore := storeFragment_holds hstart hi (by simp) seqNo
  rw [← List.range_succ] at hstore
  rw [reassembleVideoPayload_fragmentOf hn hi]
  refine ⟨?_, ?_⟩
  · intro hlast
    rw [Nat.succ_eq_add_one, hlast] at hstore
    exact assembleFrame_complete hn hstore
  · intro hlt
    exact ⟨_, assembleFrame_partial hn hstore (by simpa using hlt), hstore⟩

theorem handlePlains_audio {c o : UInt32} {pcm : Bytes} (hid : p.1 = streamIdAudio)
    (hp : p.2.2 = audioPacket c o pcm) :
    handlePlains frag (p :: plains) = .audio pcm :: handlePlains frag plains := by
  have hne : p.1 ≠ streamVideo := by rw [hid]; decide
  have heq : p.1 = streamAudio := by rw [hid]; decide
  simp only [handlePlains, handlePayload]
  rw [if_neg hne, if_pos heq, hp, unwrapAudioDebugPayload_audioPacket]
  rfl

theorem handlePlains_video {r : FragState × Option (Bytes × UInt8)} (hid : p.1 = streamIdVideo)
    (h : reassembleVideoPayload frag p.2.2 (gatewayVideoFlags p.2.2) p.2.1 = r) :
    handlePlains frag (p :: plains) =
      (r.2.toList.map fun r => .video r.1 r.2) ++ handlePlains r.1 plains := by
  have heq : p.1 = streamVideo := by rw [hid]; decide
  simp only [handlePlains, handlePayload, relayFlags]
  rw [if_pos heq, if_pos heq, h]

end

/-- **A client obtains the sends in the order in which they were complete**, by induction on the
packets: it holds what it received of the NAL unit that is being sent. -/
theorem handlePlains_onWire {frameId : UInt32} {cur : Option (Bytes × List Bytes)}
    {sends : List MediaSend} {packets : List (UInt8 × Bytes)}
    (h : OnWire frameId cur sends packets) (hok : ∀ m ∈ sends, m.Ok) {plains : List Plain}
    (hp : plains.map (fun p => (p.1, p.2.2)) = packets) {frag : FragState}
    (hfrag : Holding frag cur) : handlePlains frag plains = sends.map MediaSend.obtained := by
  induction h generalizing plains frag with
  | done =>
    rw [List.map_eq_nil_iff.1 hp]
    rfl
  | audio c o pcm _ ih =>
    obtain ⟨p, plains, rfl, hhead, htail⟩ := List.map_eq_cons_iff.1 hp
    rw [Prod.mk.injEq] at hhead
    rw [handlePlains_audio hhead.1 hhead.2,
      ih (fun m hm => hok m (List.mem_cons_of_mem _ hm)) htail hfrag]
    rfl
  | begin nal hwire ih =>
    exact ih hok hp (holding_begin (hok _ (hwire.mem rfl)) hfrag)
  | @packet _ nal _ _ _ _ _ hwire ih =>
    obtain ⟨p, plains, rfl, hhead, htail⟩ := List.map_eq_cons_iff.1 hp
    rw [Prod.mk.injEq] at hhead
    obtain ⟨hn, ⟨hsmall, -⟩ | ⟨id, i, hi, hrest, hheld⟩⟩ := hfrag
    · simp at hsmall
    have hlen := congrArg List.length hrest
    simp only [List.length_cons, List.length_map, List.length_range'] at hlen
    rw [show fragments nal - i = fragments nal - (i + 1) + 1 by omega, List.range'_succ,
      List.map_cons, List.cons.injEq] at hrest
    obtain ⟨frag', hstep, hheld'⟩ := (reassemble_next hn hi hheld
      (gatewayVideoFlags p.2.2) p.2.1).2 (by omega)
    rw [← hrest.1, ← hhead.2] at hstep
    rw [handlePlains_video hhead.1 hstep, ih hok htail
      ⟨hn, .inr ⟨id, i + 1, by omega, hrest.2, .inr hheld'⟩⟩]
    rfl
  | last hwire ih =>
    obtain ⟨p, plains, rfl, hhead, htail⟩ := List.map_eq_cons_iff.1 hp
    rw [Prod.mk.injEq] at hhead
    have ih := fun frag (hfrag : Holding frag none) =>
      ih (fun m hm => hok m (List.mem_cons_of_mem _ hm)) htail hfrag
    obtain ⟨hn, ⟨hsmall, hidle⟩ | ⟨id, i, hi, hrest, hheld⟩⟩ := hfrag
    · have hstep := reassembleVideoPayload_nal (s := frag) hn (gatewayVideoFlags p.2.2) p.2.1
      rw [List.singleton_inj] at hsmall
      rw [← hsmall, ← hhead.2] at hstep
      rw [handlePlains_video hhead.1 hstep, ih frag hidle, hhead.2, hsmall,
        gatewayVideoFlags_nal hn]
      rfl
    · have hlen := congrArg List.length hrest
      simp only [List.length_singleton, List.length_map, List.length_range'] at hlen
      rw [← hlen, List.range'_one, List.map_singleton, List.singleton_inj] at hrest
      have hstep := (reassemble_next hn hi hheld (gatewayVideoFlags p.2.2) p.2.1).1 (by omega)
      rw [← hrest, ← hhead.2] at hstep
      rw [handlePlains_video hhead.1 hstep, ih resetVideoFragments rfl]
      rfl

end E2E
