import CarplayRelay.Client.Fragments

/-!
# Reassembly across upstream connections

When the firmware's upstream connection is lost, the server of the next one counts its frames from
zero again, while the client keeps the fragments it holds. The identity of a frame is its id and
its number of fragments, so a held frame is continued by the first fragment that arrives of the
next connection if these agree (`Continues`); otherwise that fragment starts a new frame.

* `run_connections_whole`: if no connection continues a held frame, the client returns NAL units
  of the connections only, exactly those all of whose packets arrived.
* `fragments_spliced`: a NAL unit of two fragments, of which only the first arrived, is completed
  with the last fragment of another connection.
-/

namespace Client

open Bytes Media Chunks Server
open scoped List

/-! ## Connections -/

/-- An upstream connection: the NAL units its server sends, the packets of each that arrive at the
client, and these packets with their sequence numbers. -/
structure Connection where
  nals : List Bytes
  kept : List (List Bytes)
  arrived : List (Bytes × UInt32)

/-- Any packets are lost, also all from some point on; the server counts its frames from zero. -/
structure Connection.Ok (c : Connection) : Prop where
  nals : ∀ nal ∈ c.nals, ServerNal nal
  frames : fragmented c.nals < 2 ^ 32
  kept : List.Forall₂ (· <+ ·) c.kept (sendAll 0 c.nals)
  arrived : c.arrived.map Prod.fst = c.kept.flatten

/-- The state of the client after `reassemble_video_payload` was called on the packets. -/
def reassembleState : FragState → List (Bytes × UInt32) → FragState
  | s, [] => s
  | s, (payload, seqNo) :: rest =>
    reassembleState
      (reassembleVideoPayload s payload (gatewayVideoFlags payload) seqNo).1 rest

/-- The first fragment that arrives has the frame id and the count of the frame that is held. -/
def Continues (s : FragState) (arrived : List (Bytes × UInt32)) : Prop :=
  s.fragActive = true ∧ ∃ p ∈ arrived.find? fun p => IsFragment p.1,
    ofLe32 (p.1.drop 12) = s.fragFrameId ∧ ofLe16 (p.1.drop 8) = s.fragCount

instance (s : FragState) (arrived : List (Bytes × UInt32)) : Decidable (Continues s arrived) :=
  inferInstanceAs (Decidable (_ ∧ _))

/-- None of the connections continues the frame that is held when it begins. -/
def Separate : FragState → List Connection → Prop
  | _, [] => True
  | s, c :: cs => ¬ Continues s c.arrived ∧ Separate (reassembleState s c.arrived) cs

/-! ## A new connection -/

section
variable {s : FragState} {arrived : List (Bytes × UInt32)}

theorem reassembleAll_append (s : FragState) (arrived tail : List (Bytes × UInt32)) :
    reassembleAll s (arrived ++ tail) =
      reassembleAll s arrived ++ reassembleAll (reassembleState s arrived) tail := by
  induction arrived generalizing s with
  | nil => rfl
  | cons p arrived ih =>
    simp only [List.cons_append, reassembleAll, reassembleState, ih, List.append_assoc]

/-- A fragment of another frame than the one held starts a new one. -/
theorem startFrame_new {flags : UInt8} {fragCount : UInt16} {frameId : UInt32}
    (h : s.fragActive = true → frameId = s.fragFrameId → fragCount ≠ s.fragCount) :
    startFrame s flags fragCount frameId =
      startFrame resetVideoFragments flags fragCount frameId := by
  have hnew : ¬ s.fragActive ∨ s.fragFrameId ≠ frameId ∨ s.fragCount ≠ fragCount := by
    by_cases ha : s.fragActive = true
    · by_cases hid : frameId = s.fragFrameId
      · exact .inr (.inr (Ne.symm (h ha hid)))
      · exact .inr (.inl (Ne.symm hid))
    · exact .inl ha
  have hreset : ¬ resetVideoFragments.fragActive ∨ resetVideoFragments.fragFrameId ≠ frameId ∨
      resetVideoFragments.fragCount ≠ fragCount := .inl (by decide)
  rw [startFrame, startFrame, if_pos hnew, if_pos hreset]

/-- A connection that does not continue the held frame is received as by a new client. -/
theorem reassembleAll_reset (h : ¬ Continues s arrived) :
    reassembleAll s arrived = reassembleAll resetVideoFragments arrived := by
  induction arrived with
  | nil => rfl
  | cons p arrived ih =>
    obtain ⟨payload, seqNo⟩ := p
    by_cases hf : IsFragment payload
    · have hfind : ((payload, seqNo) :: arrived).find? (fun p => IsFragment p.1) =
          some (payload, seqNo) := by simp [hf]
      have hnew : s.fragActive = true → ofLe32 (payload.drop 12) = s.fragFrameId →
          ofLe16 (payload.drop 8) ≠ s.fragCount := fun ha hid hcount =>
        h ⟨ha, (payload, seqNo), hfind, hid, hcount⟩
      have hsame : ∀ flags, reassembleVideoPayload s payload flags seqNo =
          reassembleVideoPayload resetVideoFragments payload flags seqNo := by
        intro flags
        rw [reassembleVideoPayload, reassembleVideoPayload, if_neg (not_not.2 hf),
          if_neg (not_not.2 hf)]
        simp only [startFrame_new hnew]
      rw [reassembleAll, reassembleAll, hsame]
    · have hrest : ¬ Continues s arrived := by
        rintro ⟨ha, q, hq, hcont⟩
        exact h ⟨ha, q, by simpa [hf] using hq, hcont⟩
      rw [reassembleAll, reassembleAll, reassembleVideoPayload, reassembleVideoPayload, if_pos hf,
        if_pos hf]
      simp only [ih hrest]

end

/-! ## Runs -/

/-- What the client returns of a connection: the NAL units all of whose packets arrived. -/
def Connection.results (c : Connection) : List (Bytes × UInt8) :=
  resultsOf c.nals (sendAll 0 c.nals) c.kept

theorem mem_results {c : Connection} {r : Bytes × UInt8} (h : r ∈ c.results) :
    r.1 ∈ c.nals := by
  obtain ⟨⟨nal, sent, kept⟩, hmem, hr⟩ := List.mem_flatMap.1 h
  simp only [resultOf, List.mem_ite_nil_right, List.mem_singleton] at hr
  rw [hr.2]
  exact (List.of_mem_zip hmem).1

/-- The connections from some state of the client on. -/
theorem reassembleAll_connections {s : FragState} {connections : List Connection}
    (hok : ∀ c ∈ connections, c.Ok) (h : Separate s connections) :
    reassembleAll s (connections.flatMap Connection.arrived) =
      connections.flatMap Connection.results := by
  induction connections generalizing s with
  | nil => rfl
  | cons c connections ih =>
    have hc := hok c List.mem_cons_self
    rw [List.flatMap_cons, List.flatMap_cons, reassembleAll_append, reassembleAll_reset h.1,
      reassembleAll_survivors hc.nals hc.frames hc.kept hc.arrived,
      ih (fun c hmem => hok c (List.mem_cons_of_mem _ hmem)) h.2]
    rfl

/-- **Connections are not mixed.** Packets are lost and the upstream connection is lost and made
again any number of times. If no connection continues a frame that is held, every payload that is
returned is a NAL unit of one connection, and those returned are the ones that arrived whole. -/
theorem run_connections_whole {connections : List Connection} (hok : ∀ c ∈ connections, c.Ok)
    (h : Separate resetVideoFragments connections) :
    (∀ r ∈ reassembleAll resetVideoFragments (connections.flatMap Connection.arrived),
      ∃ c ∈ connections, r.1 ∈ c.nals) ∧
    reassembleAll resetVideoFragments (connections.flatMap Connection.arrived) =
      connections.flatMap Connection.results := by
  have heq := reassembleAll_connections hok h
  refine ⟨?_, heq⟩
  intro r hr
  rw [heq] at hr
  obtain ⟨c, hc, hr⟩ := List.mem_flatMap.1 hr
  exact ⟨c, hc, mem_results hr⟩

/-! ## A continued frame -/

section
variable {a b : Bytes}

theorem storeFragment_held {s : FragState} {frameId : UInt32} {got : List Nat} {i : Nat}
    (h : Holds s a frameId got) (hi : i < fragments a) (hgot : i ∈ got) (data : Bytes)
    (seqNo : UInt32) : Holds (storeFragment s i data seqNo) a frameId got := by
  have hheld : s.fragParts.getD i [] ≠ [] := by
    rw [h.parts_eq, List.getD_eq_getElem?_getD]
    simpa [hi, hgot] using chunk_ne_nil (by decide) hi
  unfold storeFragment
  rw [if_neg hheld]
  exact ⟨h.active, h.frameId_eq, h.flags_eq, h.count_eq, h.received_eq, h.parts_eq⟩

/-- The first fragment of `a` and then both fragments of `b`, all of frame 0. -/
theorem reassembleAll_splice (ha : ServerNal a) (hb : ServerNal b) (hfa : fragments a = 2)
    (hfb : fragments b = 2) :
    reassembleAll resetVideoFragments
        [(fragmentOf 0 a 0, 0), (fragmentOf 0 b 0, 0), (fragmentOf 0 b 1, 1)] =
      [(chunk videoFragmentDataSize a 0 ++ chunk videoFragmentDataSize b 1,
        videoPayloadFlags a)] := by
  have hstale : Stale resetVideoFragments 0 := by rintro ⟨⟩
  obtain ⟨s₀, hs₀, heq⟩ := reassembleAll_startFrame ha hstale (i := 0) (by omega) 0
    [(fragmentOf 0 b 0, 0), (fragmentOf 0 b 1, 1)]
  rw [heq, reassembleAll]
  have hsub : [] ++ [0] <+ List.range (fragments a) := by
    rw [hfa]
    decide
  have hpart : [] ++ [0] ≠ List.range (fragments a) := by
    rw [hfa]
    decide
  rcases reassembleVideoPayload_step ha hs₀ hsub (gatewayVideoFlags (fragmentOf 0 a 0)) 0 with
    ⟨hall, -⟩ | ⟨-, s₁, hstep₁, hs₁⟩
  · exact absurd hall hpart
  have hsame : ∀ {s : FragState} {got : List Nat}, Holds s a 0 got →
      startFrame s (videoPayloadFlags b) (UInt16.ofNat (fragments b)) 0 = s := fun h => by
    rw [hfb, ← hfa]
    exact startFrame_holds h
  -- the first fragment of `b` finds its place taken
  have hs₂ := storeFragment_held hs₁ (i := 0) (by omega) (by simp)
    (chunk videoFragmentDataSize b 0) 0
  have hstep₂ : reassembleVideoPayload s₁ (fragmentOf 0 b 0) (gatewayVideoFlags (fragmentOf 0 b 0))
      0 = (storeFragment s₁ 0 (chunk videoFragmentDataSize b 0) 0, none) := by
    rw [reassembleVideoPayload_fragmentOf hb (by omega), hsame hs₁]
    exact assembleFrame_partial ha hs₂ (by rw [hfa]; decide)
  generalize storeFragment s₁ 0 (chunk videoFragmentDataSize b 0) 0 = s₂ at hs₂ hstep₂
  have hparts : s₂.fragParts = [chunk videoFragmentDataSize a 0, []] := by
    rw [hs₂.parts_eq, hfa]
    rfl
  have hne : chunk videoFragmentDataSize a 0 ≠ [] := chunk_ne_nil (by decide) (by
    show 0 < fragments a
    omega)
  have hne' : chunk videoFragmentDataSize b 1 ≠ [] := chunk_ne_nil (by decide) (by
    show 1 < fragments b
    omega)
  have hcount : s₂.fragCount = 2 := by
    rw [hs₂.count_eq, hfa]
    rfl
  have hreceived : s₂.fragReceived = 1 := hs₂.received_eq
  have hstep₃ : reassembleVideoPayload s₂ (fragmentOf 0 b 1) (gatewayVideoFlags (fragmentOf 0 b 1))
      1 = (resetVideoFragments, some (chunk videoFragmentDataSize a 0 ++
        chunk videoFragmentDataSize b 1, videoPayloadFlags a)) := by
    rw [reassembleVideoPayload_fragmentOf hb (by omega), hsame hs₂]
    simp [storeFragment, assembleFrame, hparts, hcount, hreceived, hne, hne', hs₂.flags_eq]
  simp [reassembleAll, hstep₁, hstep₂, hstep₃]

end

/-- A NAL unit of two fragments. -/
def longNal (fill : UInt8) : Bytes := 0x41 :: List.replicate videoFragmentDataSize fill

theorem serverNal_longNal (fill : UInt8) : ServerNal (longNal fill) :=
  ⟨List.cons_ne_nil _ _, by
    rw [longNal, List.length_cons, List.length_replicate]
    decide, (by decide : 1 ≤ (0x41 : UInt8) &&& 0x1f), (by decide : (0x41 : UInt8) &&& 0x1f ≤ 12)⟩

theorem fragments_longNal (fill : UInt8) : fragments (longNal fill) = 2 := by
  rw [fragments, chunkCount, longNal, List.length_cons, List.length_replicate]
  decide

theorem chunks_longNal (fill : UInt8) : chunk videoFragmentDataSize (longNal fill) 0 =
    0x41 :: List.replicate (videoFragmentDataSize - 1) fill ∧
      chunk videoFragmentDataSize (longNal fill) 1 = [fill] := by
  have hsize : videoFragmentDataSize = videoFragmentDataSize - 1 + 1 := rfl
  refine ⟨?_, ?_⟩
  · rw [chunk, Nat.zero_mul, List.drop_zero, longNal, hsize, List.take_succ_cons,
      List.take_replicate]
    rfl
  · rw [chunk, Nat.one_mul, longNal, hsize, List.drop_succ_cons, List.drop_replicate]
    rfl

theorem longNal_chunks (fill : UInt8) : longNal fill =
    chunk videoFragmentDataSize (longNal fill) 0 ++
      chunk videoFragmentDataSize (longNal fill) 1 := by
  rw [(chunks_longNal fill).1, (chunks_longNal fill).2, List.cons_append, ← List.replicate_succ']
  rfl

/-- Of the first connection one fragment arrives, of the second one everything. -/
def splicedConnections : List Connection :=
  [⟨[longNal 7], [[fragmentOf 0 (longNal 7) 0]], [(fragmentOf 0 (longNal 7) 0, 0)]⟩,
   ⟨[longNal 9], [[fragmentOf 0 (longNal 9) 0, fragmentOf 0 (longNal 9) 1]],
     [(fragmentOf 0 (longNal 9) 0, 0), (fragmentOf 0 (longNal 9) 1, 1)]⟩]

theorem sendAll_longNal (fill : UInt8) : sendAll 0 [longNal fill] =
    [[fragmentOf 0 (longNal fill) 0, fragmentOf 0 (longNal fill) 1]] := by
  have hlen : videoFragmentDataSize < (longNal fill).length := by
    rw [longNal, List.length_cons, List.length_replicate]
    omega
  rw [sendAll, sendVideoMedia_large (serverNal_longNal fill) hlen, fragments_longNal]
  rfl

theorem splicedConnections_ok : ∀ c ∈ splicedConnections, c.Ok := by
  have hone : ∀ nal : Bytes, fragmented [nal] < 2 ^ 32 := fun nal =>
    Nat.lt_of_le_of_lt List.countP_le_length (by decide : 1 < 2 ^ 32)
  intro c hc
  rcases List.mem_pair.1 hc with rfl | rfl
  · refine ⟨by simpa using serverNal_longNal 7, hone _, ?_, rfl⟩
    rw [sendAll_longNal]
    exact .cons (by simp) .nil
  · refine ⟨by simpa using serverNal_longNal 9, hone _, ?_, rfl⟩
    rw [sendAll_longNal]
    exact .cons (.refl _) .nil

/-- A part of a frame is held when the second connection begins, which sends a small NAL unit. -/
theorem run_connections_whole_small :
    let small : Connection := ⟨[[0x65, 1]], [[[0x65, 1]]], [([0x65, 1], 0)]⟩
    let connections := splicedConnections.take 1 ++ [small]
    ∀ r ∈ reassembleAll resetVideoFragments (connections.flatMap Connection.arrived),
      ∃ c ∈ connections, r.1 ∈ c.nals := by
  intro small connections
  have hnal : ServerNal [0x65, 1] := ⟨by decide, by decide, by decide, by decide⟩
  have hsmall : small.Ok := by
    refine ⟨by simpa [small] using hnal, ?_, ?_, rfl⟩
    · exact Nat.lt_of_le_of_lt List.countP_le_length (by decide : 1 < 2 ^ 32)
    · rw [sendAll, sendVideoMedia_small hnal.ne_nil (by decide)]
      exact .cons (.refl _) .nil
  have hok : ∀ c ∈ connections, c.Ok := by
    intro c hc
    rcases List.mem_append.1 hc with hc | hc
    · exact splicedConnections_ok c (List.mem_of_mem_take hc)
    · exact List.mem_singleton.1 hc ▸ hsmall
  have hseparate : Separate resetVideoFragments connections := by
    refine ⟨?_, ?_, trivial⟩
    · rintro ⟨hactive, -⟩
      cases hactive
    · rintro ⟨-, p, hp, -⟩
      cases hp
  exact (run_connections_whole hok hseparate).1

/-- **Fragments of two connections are combined**: neither server sent the NAL unit returned. -/
theorem fragments_spliced : (∀ c ∈ splicedConnections, c.Ok) ∧
    ∃ r ∈ reassembleAll resetVideoFragments (splicedConnections.flatMap Connection.arrived),
      ∀ c ∈ splicedConnections, r.1 ∉ c.nals := by
  refine ⟨splicedConnections_ok, ?_⟩
  have hsplice := reassembleAll_splice (serverNal_longNal 7) (serverNal_longNal 9)
    (fragments_longNal 7) (fragments_longNal 9)
  refine ⟨(chunk videoFragmentDataSize (longNal 7) 0 ++ chunk videoFragmentDataSize (longNal 9) 1,
    videoPayloadFlags (longNal 7)), ?_, ?_⟩
  · show _ ∈ reassembleAll resetVideoFragments
      [(fragmentOf 0 (longNal 7) 0, 0), (fragmentOf 0 (longNal 9) 0, 0),
        (fragmentOf 0 (longNal 9) 1, 1)]
    rw [hsplice]
    exact List.mem_singleton_self _
  · intro c hc hmem
    rcases List.mem_pair.1 hc with rfl | rfl
    · have heq := (List.mem_singleton.1 hmem).trans (longNal_chunks 7)
      have htail := List.append_cancel_left heq
      rw [(chunks_longNal 9).2, (chunks_longNal 7).2] at htail
      exact absurd htail (by decide)
    · have heq := (List.mem_singleton.1 hmem).trans (longNal_chunks 9)
      have hhead := List.append_cancel_right heq
      rw [(chunks_longNal 7).1, (chunks_longNal 9).1] at hhead
      have hfill := (List.replicate_inj.1 (List.cons.inj hhead).2).2
      exact absurd (hfill.resolve_left (by decide)) (by decide)

end Client
