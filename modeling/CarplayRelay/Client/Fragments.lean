import CarplayRelay.Server.Media
import Mathlib.Data.List.Forall2

/-!
# Reassembly of NAL units (`reassemble_video_payload`)

The client keeps the fragments of one frame at a time. `Holds s nal frameId got` says that the
state `s` has collected exactly the fragments `got` of a NAL unit; a fragment that is not the
last missing one extends it (`reassemble_partial`), the last one returns the NAL unit and resets
the state (`reassemble_complete`).

* `reassembleAll_survivors`: whatever packets of a connection are lost, the survivors reassemble
  to exactly the NAL units all of whose packets survived.
* `reassembleAll_all`: without loss every NAL unit is returned, on connections of any length.
-/

namespace Client

open Bytes Media Chunks Server
open scoped List

/-! ## The code -/

/-- The fragment fields of `SharedVideoState`. -/
structure FragState where
  fragActive : Bool := false
  fragFrameId : UInt32 := 0
  fragFlags : UInt8 := 0
  fragCount : UInt16 := 0
  fragLastSeqNo : UInt32 := 0
  fragReceived : Nat := 0
  fragTotalSize : Nat := 0
  fragParts : List Bytes := []
  deriving DecidableEq, Repr

/-- `reset_video_fragments`. -/
def resetVideoFragments : FragState := {}

/-- `reassemble_video_payload`, when the fragment does not belong to the frame being collected. -/
def startFrame (s : FragState) (flags : UInt8) (fragCount : UInt16) (frameId : UInt32) :
    FragState :=
  if ¬ s.fragActive ∨ s.fragFrameId ≠ frameId ∨ s.fragCount ≠ fragCount then
    { resetVideoFragments with
      fragActive := true, fragFrameId := frameId, fragFlags := flags, fragCount := fragCount
      fragParts := List.replicate fragCount.toNat [] }
  else s

/-- `reassemble_video_payload`, the fragment's data. -/
def storeFragment (s : FragState) (fragIndex : Nat) (data : Bytes) (seqNo : UInt32) : FragState :=
  let s := if s.fragParts.getD fragIndex [] = [] then
      { s with
        fragParts := s.fragParts.set fragIndex data
        fragReceived := s.fragReceived + 1
        fragTotalSize := s.fragTotalSize + data.length }
    else s
  { s with fragLastSeqNo := seqNo }

/-- `reassemble_video_payload`, the assembly once every fragment is there. -/
def assembleFrame (s : FragState) : FragState × Option (Bytes × UInt8) :=
  if s.fragReceived ≠ s.fragCount.toNat then (s, none)
  else if s.fragParts.any List.isEmpty then (resetVideoFragments, none)
  else (resetVideoFragments, some (s.fragParts.flatten, s.fragFlags))

/-- `reassemble_video_payload`: the new state, and the payload and flags if it returns true. -/
def reassembleVideoPayload (s : FragState) (payload : Bytes) (flags : UInt8) (seqNo : UInt32) :
    FragState × Option (Bytes × UInt8) :=
  if ¬ IsFragment payload then (s, some (payload, flags))
  else
    let flags := payload.byteAt 4
    let fragIndex := ofLe16 (payload.drop 6)
    let fragCount := ofLe16 (payload.drop 8)
    let frameId := ofLe32 (payload.drop 12)
    if fragCount = 0 ∨ fragCount ≤ fragIndex then (resetVideoFragments, none)
    else
      let s := startFrame s flags fragCount frameId
      assembleFrame (storeFragment s fragIndex.toNat (payload.drop 16) seqNo)

/-- The video packets of a connection as `network_reader` hands them to
`reassemble_video_payload`, each with its sequence number and with the flags the relay computed
for it: the payloads and flags of the calls that return true. -/
def reassembleAll : FragState → List (Bytes × UInt32) → List (Bytes × UInt8)
  | _, [] => []
  | s, (payload, seqNo) :: rest =>
    let (s, result) := reassembleVideoPayload s payload (gatewayVideoFlags payload) seqNo
    result.toList ++ reassembleAll s rest

/-! ## Collecting the fragments of a NAL unit -/

/-- The state holds the fragments `got` of `nal` and nothing else. -/
structure Holds (s : FragState) (nal : Bytes) (frameId : UInt32) (got : List Nat) : Prop where
  active : s.fragActive = true
  frameId_eq : s.fragFrameId = frameId
  flags_eq : s.fragFlags = videoPayloadFlags nal
  count_eq : s.fragCount = UInt16.ofNat (fragments nal)
  received_eq : s.fragReceived = got.length
  parts_eq : s.fragParts = (List.range (fragments nal)).map fun i =>
    if i ∈ got then chunk videoFragmentDataSize nal i else []

section
variable {s : FragState} {nal : Bytes} {frameId : UInt32} {flags : UInt8} {got : List Nat}
  {i : Nat}

/-- The frame being collected, if any, is not `frameId`. -/
def Stale (s : FragState) (frameId : UInt32) : Prop := s.fragActive → s.fragFrameId ≠ frameId

theorem startFrame_stale (hn : ServerNal nal) (h : Stale s frameId) :
    Holds (startFrame s (videoPayloadFlags nal) (UInt16.ofNat (fragments nal)) frameId) nal frameId
      [] := by
  have hnew : ¬ s.fragActive ∨ s.fragFrameId ≠ frameId ∨
      s.fragCount ≠ UInt16.ofNat (fragments nal) := by
    by_cases ha : s.fragActive
    · exact .inr (.inl (h ha))
    · exact .inl ha
  rw [startFrame, if_pos hnew]
  refine ⟨rfl, rfl, rfl, rfl, rfl, ?_⟩
  simp only [UInt16.toNat_ofNat_of_lt' (fragments_lt hn), List.not_mem_nil, if_false]
  rw [List.map_const', List.length_range]

theorem startFrame_holds (h : Holds s nal frameId got) :
    startFrame s flags (UInt16.ofNat (fragments nal)) frameId = s := by
  rw [startFrame, if_neg]
  simp [h.active, h.frameId_eq, h.count_eq]

theorem storeFragment_holds (h : Holds s nal frameId got) (hi : i < fragments nal)
    (hgot : i ∉ got) (seqNo : UInt32) :
    Holds (storeFragment s i (chunk videoFragmentDataSize nal i) seqNo) nal frameId
      (got ++ [i]) := by
  have hempty : s.fragParts.getD i [] = [] := by
    rw [h.parts_eq, List.getD_eq_getElem?_getD]
    simp [hi, hgot]
  unfold storeFragment
  rw [if_pos hempty]
  refine ⟨h.active, h.frameId_eq, h.flags_eq, h.count_eq, ?_, ?_⟩
  · simp [h.received_eq]
  · show s.fragParts.set i _ = _
    rw [h.parts_eq]
    apply List.ext_getElem
    · simp
    · intro j hj hj'
      by_cases hij : i = j
      · subst hij
        simp
      · simp [List.getElem_set_ne hij, List.mem_append, Ne.symm hij]

theorem assembleFrame_partial (hn : ServerNal nal) (h : Holds s nal frameId got)
    (hlt : got.length < fragments nal) : assembleFrame s = (s, none) := by
  have hcount : s.fragReceived ≠ s.fragCount.toNat := by
    rw [h.received_eq, h.count_eq, UInt16.toNat_ofNat_of_lt' (fragments_lt hn)]
    omega
  rw [assembleFrame, if_pos hcount]

/-- Every fragment is there: the NAL unit is returned. -/
theorem assembleFrame_complete (hn : ServerNal nal)
    (h : Holds s nal frameId (List.range (fragments nal))) :
    assembleFrame s = (resetVideoFragments, some (nal, videoPayloadFlags nal)) := by
  have hcount : s.fragReceived = s.fragCount.toNat := by
    rw [h.received_eq, h.count_eq, UInt16.toNat_ofNat_of_lt' (fragments_lt hn), List.length_range]
  have hparts : s.fragParts =
      (List.range (fragments nal)).map (chunk videoFragmentDataSize nal) := by
    rw [h.parts_eq]
    exact List.map_congr_left fun i hi => if_pos hi
  have hfull : s.fragParts.any List.isEmpty = false := by
    rw [hparts, List.any_eq_false]
    rintro _ hp
    obtain ⟨i, hi, rfl⟩ := List.mem_map.1 hp
    rw [List.isEmpty_iff]
    exact chunk_ne_nil (by decide) (List.mem_range.1 hi)
  rw [assembleFrame, if_neg (not_not.2 hcount), hfull, hparts, h.flags_eq]
  simp only [Bool.false_eq_true, if_false]
  rw [fragments, flatten_chunkCount (by decide)]

/-- A fragment of a server's NAL unit is stored in its frame. -/
theorem reassembleVideoPayload_fragmentOf (hn : ServerNal nal) (hi : i < fragments nal)
    (fl : UInt8) (seqNo : UInt32) :
    reassembleVideoPayload s (fragmentOf frameId nal i) fl seqNo =
      assembleFrame (storeFragment
        (startFrame s (videoPayloadFlags nal) (UInt16.ofNat (fragments nal)) frameId) i
        (chunk videoFragmentDataSize nal i) seqNo) := by
  have hcount := fragments_lt hn
  have hi' : i < 2 ^ 16 := by omega
  have hvalid : ¬ (UInt16.ofNat (fragments nal) = 0 ∨
      UInt16.ofNat (fragments nal) ≤ UInt16.ofNat i) := by
    rw [← UInt16.toNat_inj, UInt16.le_iff_toNat_le, UInt16.toNat_ofNat_of_lt' hcount,
      UInt16.toNat_ofNat_of_lt' hi']
    simp
    omega
  have hfrag : IsFragment (fragmentOf frameId nal i) := isFragment_fragmentPacket ..
  rw [reassembleVideoPayload, if_neg (not_not.2 hfrag)]
  simp only [fragmentOf, fragmentPacket_flags, fragmentPacket_index, fragmentPacket_count,
    fragmentPacket_frameId, fragmentPacket_data, if_neg hvalid, UInt16.toNat_ofNat_of_lt' hi']

theorem reassembleVideoPayload_nal (hn : ServerNal nal) (fl : UInt8) (seqNo : UInt32) :
    reassembleVideoPayload s nal fl seqNo = (s, some (nal, fl)) := by
  rw [reassembleVideoPayload, if_pos hn.not_fragment]

end

/-! ## The packets of one NAL unit -/

section
variable {nal : Bytes} {frameId : UInt32}

/-- What a NAL unit reassembles to when the packets `kept` of `sent` survive. -/
def resultOf (nal : Bytes) (sent kept : List Bytes) : List (Bytes × UInt8) :=
  if kept = sent then [(nal, videoPayloadFlags nal)] else []

/-- One fragment: it completes the NAL unit or is added to the ones held. -/
theorem reassembleVideoPayload_step (hn : ServerNal nal) {s : FragState} {got : List Nat} {i : Nat}
    (hs : Holds s nal frameId got) (hsub : got ++ [i] <+ List.range (fragments nal)) (fl : UInt8)
    (seqNo : UInt32) :
    (got ++ [i] = List.range (fragments nal) ∧
      reassembleVideoPayload s (fragmentOf frameId nal i) fl seqNo =
        (resetVideoFragments, some (nal, videoPayloadFlags nal))) ∨
    (got ++ [i] ≠ List.range (fragments nal) ∧
      ∃ s', reassembleVideoPayload s (fragmentOf frameId nal i) fl seqNo = (s', none) ∧
        Holds s' nal frameId (got ++ [i])) := by
  have hi : i < fragments nal := List.mem_range.1 (hsub.subset (by simp))
  have hnot : i ∉ got := by
    have hnd := hsub.nodup List.nodup_range
    rw [List.nodup_append] at hnd
    exact fun hmem => hnd.2.2 i hmem i (by simp) rfl
  have hstore := storeFragment_holds hs hi hnot seqNo
  rw [reassembleVideoPayload_fragmentOf hn hi, startFrame_holds hs]
  by_cases hall : got ++ [i] = List.range (fragments nal)
  · rw [hall] at hstore
    exact .inl ⟨hall, assembleFrame_complete hn hstore⟩
  · have hle := hsub.length_le
    have hne : (got ++ [i]).length ≠ (List.range (fragments nal)).length :=
      fun h => hall (hsub.eq_of_length h)
    rw [List.length_range] at hle hne
    exact .inr ⟨hall, _, assembleFrame_partial hn hstore (by omega), hstore⟩

/-- The rest of the surviving fragments of a NAL unit, by induction on them. -/
theorem reassembleAll_holds (hn : ServerNal nal) {s : FragState} {got rest : List Nat}
    (hs : Holds s nal frameId got) (hsub : got ++ rest <+ List.range (fragments nal))
    (hne : got ≠ List.range (fragments nal)) {arrived : List (Bytes × UInt32)}
    (ha : arrived.map Prod.fst = rest.map (fragmentOf frameId nal))
    (tail : List (Bytes × UInt32)) :
    ∃ s', (s'.fragActive → s'.fragFrameId = frameId) ∧
      (got ++ rest = List.range (fragments nal) → s'.fragActive = false) ∧
      reassembleAll s (arrived ++ tail) =
        (if got ++ rest = List.range (fragments nal) then [(nal, videoPayloadFlags nal)] else []) ++
          reassembleAll s' tail := by
  induction rest generalizing s got arrived with
  | nil =>
    rw [List.map_nil, List.map_eq_nil_iff] at ha
    subst ha
    rw [List.append_nil, if_neg hne]
    exact ⟨s, fun _ => hs.frameId_eq, fun h => absurd h hne, rfl⟩
  | cons i rest ih =>
    obtain ⟨⟨p, seqNo⟩, arrived, rfl, rfl, hmap⟩ := List.map_eq_cons_iff.1 ha
    have hcut : got ++ i :: rest = (got ++ [i]) ++ rest := by simp
    rw [hcut] at hsub ⊢
    have hstep := reassembleVideoPayload_step hn hs
      ((List.sublist_append_left (got ++ [i]) rest).trans hsub)
      (gatewayVideoFlags (fragmentOf frameId nal i)) seqNo
    rw [List.cons_append, reassembleAll]
    rcases hstep with ⟨hall, hstep⟩ | ⟨hall, s', hstep, hs'⟩
    · have hrest : rest = [] := by
        have hle := hsub.length_le
        rw [List.length_append, hall] at hle
        exact List.eq_nil_of_length_eq_zero (by omega)
      subst hrest
      rw [List.map_nil, List.map_eq_nil_iff] at hmap
      subst hmap
      rw [List.append_nil, if_pos hall]
      simp only at hstep ⊢
      rw [hstep]
      exact ⟨resetVideoFragments, by rintro ⟨⟩, fun _ => rfl, rfl⟩
    · simp only at hstep ⊢
      rw [hstep]
      exact ih hs' hsub hall hmap

theorem reassembleAll_startFrame (hn : ServerNal nal) {s : FragState} (hs : Stale s frameId)
    {i : Nat} (hi : i < fragments nal) (seqNo : UInt32) (tail : List (Bytes × UInt32)) :
    ∃ s', Holds s' nal frameId [] ∧
      reassembleAll s ((fragmentOf frameId nal i, seqNo) :: tail) =
        reassembleAll s' ((fragmentOf frameId nal i, seqNo) :: tail) := by
  have hstart := startFrame_stale hn hs
  refine ⟨_, hstart, ?_⟩
  rw [reassembleAll, reassembleAll, reassembleVideoPayload_fragmentOf hn hi,
    reassembleVideoPayload_fragmentOf hn hi, startFrame_holds hstart]

/-- What the surviving packets of one NAL unit do to the frame being collected. -/
structure After (s s' : FragState) (nal : Bytes) (frameId : UInt32) (all : Prop) : Prop where
  frame : s'.fragActive → (s.fragActive ∧ s'.fragFrameId = s.fragFrameId) ∨
    (videoFragmentDataSize < nal.length ∧ s'.fragFrameId = frameId)
  idle : all → s.fragActive = false → s'.fragActive = false

/-- The surviving packets of one NAL unit, in a state that collects no other frame with its id. -/
theorem reassembleAll_nal (hn : ServerNal nal) {s : FragState}
    (hs : videoFragmentDataSize < nal.length → Stale s frameId) {sent kept : List Bytes}
    (hsent : (sendVideoMedia frameId nal allSent).calls = sent) (hk : kept <+ sent)
    {arrived : List (Bytes × UInt32)} (ha : arrived.map Prod.fst = kept)
    (tail : List (Bytes × UInt32)) :
    ∃ s', After s s' nal frameId (kept = sent) ∧
      reassembleAll s (arrived ++ tail) = resultOf nal sent kept ++ reassembleAll s' tail := by
  by_cases hlen : nal.length ≤ videoFragmentDataSize
  · rw [sendVideoMedia_small hn.ne_nil hlen] at hsent
    subst hsent
    refine ⟨s, ⟨fun h => .inl ⟨h, rfl⟩, fun _ h => h⟩, ?_⟩
    rcases List.sublist_singleton.1 hk with rfl | rfl
    · rw [List.map_eq_nil_iff] at ha
      subst ha
      rfl
    · obtain ⟨⟨p, seqNo⟩, rest, rfl, rfl, hrest⟩ := List.map_eq_cons_iff.1 ha
      rw [List.map_eq_nil_iff] at hrest
      subst hrest
      simp only at hn ⊢
      rw [List.singleton_append, reassembleAll, reassembleVideoPayload_nal hn,
        gatewayVideoFlags_nal hn, resultOf, if_pos rfl]
      rfl
  · rw [sendVideoMedia_large hn (by omega)] at hsent
    subst hsent
    obtain ⟨rest, hrest, rfl⟩ := List.sublist_map_iff.1 hk
    have hall : rest.map (fragmentOf frameId nal) =
        (List.range (fragments nal)).map (fragmentOf frameId nal) ↔
        rest = List.range (fragments nal) :=
      ⟨fun h => hrest.eq_of_length (by simpa using congrArg List.length h), congrArg _⟩
    have hne : ([] : List Nat) ≠ List.range (fragments nal) := by
      rw [ne_comm, Ne, List.range_eq_nil]
      exact fragments_ne_zero hn
    cases rest with
    | nil =>
      rw [List.map_nil, List.map_eq_nil_iff] at ha
      subst ha
      rw [resultOf, if_neg (mt hall.1 hne)]
      exact ⟨s, ⟨fun h => .inl ⟨h, rfl⟩, fun _ h => h⟩, rfl⟩
    | cons i rest =>
      obtain ⟨⟨p, seqNo⟩, arrived', rfl, rfl, -⟩ := List.map_eq_cons_iff.1 ha
      have hi : i < fragments nal := List.mem_range.1 (hrest.subset (by simp))
      obtain ⟨s₀, hs₀, heq⟩ := reassembleAll_startFrame hn (hs (by omega)) hi seqNo
        (arrived' ++ tail)
      obtain ⟨s', hframe, hidle, hrun⟩ := reassembleAll_holds hn hs₀
        (show [] ++ i :: rest <+ List.range (fragments nal) from hrest) hne ha tail
      rw [List.nil_append] at hidle hrun
      refine ⟨s', ⟨fun h => .inr ⟨by omega, hframe h⟩, fun h _ => hidle (hall.1 h)⟩, ?_⟩
      rw [List.cons_append] at hrun ⊢
      simp only at heq hrun ⊢
      rw [heq, hrun, resultOf, if_congr hall rfl rfl]

end

/-! ## Connections -/

/-- The NAL units all of whose packets survive, `kept` of `sent` for each. -/
def resultsOf (nals : List Bytes) (sent kept : List (List Bytes)) : List (Bytes × UInt8) :=
  (nals.zip (sent.zip kept)).flatMap fun (nal, sent, kept) => resultOf nal sent kept

/-- The number of NAL units that are cut into fragments. -/
def fragmented (nals : List Bytes) : Nat :=
  nals.countP fun nal => videoFragmentDataSize < nal.length

/-- The frame being collected, if any, is one of the `k` ids from `first` on. -/
def EarlierFrame (s : FragState) (first : UInt32) (k : Nat) : Prop :=
  s.fragActive → ∃ j < k, s.fragFrameId = first + UInt32.ofNat j

theorem EarlierFrame.stale {s : FragState} {first : UInt32} {k : Nat} (h : EarlierFrame s first k)
    (hk : k < 2 ^ 32) : Stale s (first + UInt32.ofNat k) := by
  intro ha heq
  obtain ⟨j, hj, hframe⟩ := h ha
  rw [hframe] at heq
  have hjk := (UInt32.add_right_inj first).1 heq
  have : j = k := by
    rw [← UInt32.toNat_ofNat_of_lt' (show j < 2 ^ 32 by omega), hjk,
      UInt32.toNat_ofNat_of_lt' hk]
  omega

theorem sendVideoMedia_videoFrameId {nal : Bytes} (hn : ServerNal nal) (first : UInt32) (k : Nat) :
    (sendVideoMedia (first + UInt32.ofNat k) nal allSent).videoFrameId =
      first + UInt32.ofNat (k + fragmented [nal]) := by
  by_cases hlen : nal.length ≤ videoFragmentDataSize
  · have : fragmented [nal] = 0 := by simp [fragmented]; omega
    rw [sendVideoMedia_small hn.ne_nil hlen, this]
    rfl
  · have : fragmented [nal] = 1 := by simp [fragmented]; omega
    rw [sendVideoMedia_large hn (by omega), this, UInt32.ofNat_add, ← UInt32.add_assoc]
    rfl

theorem fragmented_cons (nal : Bytes) (nals : List Bytes) :
    fragmented (nal :: nals) = fragmented [nal] + fragmented nals := by
  simp only [fragmented, List.countP_cons, List.countP_nil]
  omega

theorem fragmented_singleton {nal : Bytes} (h : videoFragmentDataSize < nal.length) :
    fragmented [nal] = 1 := by simp [fragmented, h]

theorem After.earlierFrame {s s' : FragState} {nal : Bytes} {first : UInt32} {k : Nat} {all : Prop}
    (h : After s s' nal (first + UInt32.ofNat k) all) (hs : EarlierFrame s first k) :
    EarlierFrame s' first (k + fragmented [nal]) := by
  intro ha
  rcases h.frame ha with ⟨hactive, heq⟩ | ⟨hlarge, heq⟩
  · obtain ⟨j, hj, hframe⟩ := hs hactive
    exact ⟨j, by omega, heq.trans hframe⟩
  · exact ⟨k, by rw [fragmented_singleton hlarge]; omega, heq⟩

/-- The connection from its `k`-th frame id on, by induction on the NAL units. -/
theorem reassembleAll_earlier {nals : List Bytes} (hn : ∀ nal ∈ nals, ServerNal nal)
    {first : UInt32} {k : Nat} (hk : k + fragmented nals ≤ 2 ^ 32) {s : FragState}
    (hs : EarlierFrame s first k) {kept : List (List Bytes)}
    (hkept : List.Forall₂ (· <+ ·) kept (sendAll (first + UInt32.ofNat k) nals))
    {arrived : List (Bytes × UInt32)} (ha : arrived.map Prod.fst = kept.flatten) :
    reassembleAll s arrived =
      resultsOf nals (sendAll (first + UInt32.ofNat k) nals) kept := by
  induction nals generalizing k s kept arrived with
  | nil =>
    rw [sendAll, List.forall₂_nil_right_iff] at hkept
    subst hkept
    rw [List.flatten_nil, List.map_eq_nil_iff] at ha
    subst ha
    rfl
  | cons nal nals ih =>
    have hnal := hn nal (by simp)
    rw [fragmented_cons] at hk
    simp only [sendAll, sendVideoMedia_videoFrameId hnal] at hkept ⊢
    obtain ⟨kept₀, kept', hkept₀, hkept', rfl⟩ := List.forall₂_cons_right_iff.1 hkept
    rw [List.flatten_cons] at ha
    obtain ⟨arrived₀, arrived', rfl, ha₀, ha'⟩ := List.map_eq_append_iff.1 ha
    have hstale : videoFragmentDataSize < nal.length → Stale s (first + UInt32.ofNat k) :=
      fun hlarge => hs.stale (by rw [fragmented_singleton hlarge] at hk; omega)
    obtain ⟨s', hafter, hrun⟩ := reassembleAll_nal hnal hstale rfl hkept₀ ha₀ arrived'
    rw [hrun, ih (fun nal h => hn nal (by simp [h])) (by omega) (hafter.earlierFrame hs) hkept' ha']
    rfl

/-- **Reassembly under packet loss.** Of the packets `send_video_media` makes of the NAL units
`nals`, any ones are lost and `kept` survive. The calls of `reassemble_video_payload` on them
return exactly the NAL units all of whose packets survived, whole, in order and with their
flags. -/
theorem reassembleAll_survivors {nals : List Bytes} (hn : ∀ nal ∈ nals, ServerNal nal)
    (hcount : fragmented nals < 2 ^ 32) {videoFrameId : UInt32} {kept : List (List Bytes)}
    (hkept : List.Forall₂ (· <+ ·) kept (sendAll videoFrameId nals))
    {arrived : List (Bytes × UInt32)} (ha : arrived.map Prod.fst = kept.flatten) :
    reassembleAll resetVideoFragments arrived =
      resultsOf nals (sendAll videoFrameId nals) kept := by
  have hid : videoFrameId + UInt32.ofNat 0 = videoFrameId := UInt32.add_zero _
  have hfresh : EarlierFrame resetVideoFragments videoFrameId 0 := by rintro ⟨⟩
  rw [← hid] at hkept
  have h := reassembleAll_earlier hn (by omega) hfresh hkept ha
  rwa [hid] at h

/-- Of a whole NAL unit and one of two fragments, only the first packets survive. -/
theorem reassembleAll_survivors_first :
    let nals : List Bytes := [[0x65, 1], 0x41 :: List.replicate videoFragmentDataSize 7]
    let kept := (sendAll 0 nals).map (List.take 1)
    reassembleAll resetVideoFragments (kept.flatten.map fun p => (p, 0)) =
      resultsOf nals (sendAll 0 nals) kept := by
  refine reassembleAll_survivors ?_ ?_ ?_ (by simp [Function.comp_def])
  · intro nal hnal
    rcases List.mem_pair.1 hnal with rfl | rfl
    · exact ⟨by decide, by decide, by decide, by decide⟩
    · exact ⟨List.cons_ne_nil _ _, by
        rw [List.length_cons, List.length_replicate]
        decide, by decide, by decide⟩
  · exact Nat.lt_of_le_of_lt List.countP_le_length (by decide)
  · rw [List.forall₂_map_left_iff, List.forall₂_same]
    exact fun sent _ => List.take_sublist 1 sent

/-- Without loss every NAL unit is returned, whatever the number of frame ids used. -/
theorem reassembleAll_all {nals : List Bytes} (hn : ∀ nal ∈ nals, ServerNal nal)
    {videoFrameId : UInt32} {s : FragState} (hs : s.fragActive = false)
    {arrived : List (Bytes × UInt32)}
    (ha : arrived.map Prod.fst = (sendAll videoFrameId nals).flatten) :
    reassembleAll s arrived = nals.map fun nal => (nal, videoPayloadFlags nal) := by
  induction nals generalizing videoFrameId s arrived with
  | nil =>
    rw [sendAll, List.flatten_nil, List.map_eq_nil_iff] at ha
    subst ha
    rfl
  | cons nal nals ih =>
    rw [sendAll, List.flatten_cons] at ha
    obtain ⟨arrived₀, arrived', rfl, ha₀, ha'⟩ := List.map_eq_append_iff.1 ha
    have hstale : Stale s videoFrameId := fun h => by rw [hs] at h; cases h
    obtain ⟨s', hafter, hrun⟩ := reassembleAll_nal (hn nal (by simp)) (fun _ => hstale) rfl
      (List.Sublist.refl _) ha₀ arrived'
    rw [hrun, ih (fun nal h => hn nal (by simp [h])) (hafter.idle rfl hs) ha', resultOf, if_pos rfl]
    rfl

end Client
