import CarplayRelay.Client.VideoQueue
import CarplayRelay.Media

/-!
# The stream of the decoder

`network_reader` keeps the last SPS and the last PPS, and makes one packet of every other NAL unit
it obtains; a keyframe has the two in front of it. The packets go through the video queue.

* `coded`: the NAL units that are no parameter sets, each with the sets in force.
* `run_decoderStream`: in every interleaving with the main thread, the decoder is handed runs of
  these without a gap, each from a keyframe and its parameter sets on.
-/

namespace Client

open Bytes Media Proto

/-! ## The code -/

/-- `h264_nal_type`. -/
def h264NalType (payload : Bytes) : UInt8 := if payload = [] then 0 else payload.byteAt 0 &&& 0x1f

/-- `annexb_append`. -/
def annexbAppend (packet nal : Bytes) : Bytes :=
  if nal = [] then packet else packet ++ ([0, 0, 0, 1] ++ nal)

/-- `sps` and `pps` of `SharedVideoState`. -/
structure ParameterSets where
  sps : Bytes := []
  pps : Bytes := []
  deriving DecidableEq, Repr

/-- `network_reader`, a NAL unit with the config flag. -/
def ParameterSets.config (sets : ParameterSets) (nal : Bytes) : ParameterSets :=
  if h264NalType nal = 7 then { sets with sps := nal }
  else if h264NalType nal = 8 then { sets with pps := nal }
  else sets

/-- `network_reader`, the packet of another NAL unit. -/
def videoPacket (sets : ParameterSets) (keyframe : Bool) (nal : Bytes) : Bytes :=
  let packet := if keyframe then annexbAppend (annexbAppend [] sets.sps) sets.pps else []
  annexbAppend packet nal

/-- The two threads and the parameter sets. `obtained`, which is not in the code, are the NAL units
that `reassemble_video_payload` gave, with their flags. -/
structure Player where
  sets : ParameterSets := {}
  playback : Playback := {}
  obtained : List (Bytes × UInt8) := []

inductive PlayerEvent
  /-- `network_reader`, in the video lock: a NAL unit. -/
  | obtain (nal : Bytes) (flags : UInt8) (seqNo : UInt32)
  /-- A step of the main thread. -/
  | main (e : Event)

def playerStep (s : Player) : PlayerEvent → Option Player
  | .obtain nal flags seqNo =>
    let s := { s with obtained := s.obtained ++ [(nal, flags)] }
    if flags &&& flagConfig ≠ 0 then some { s with sets := s.sets.config nal }
    else
      let keyframe := flags &&& flagKeyframe ≠ 0
      (step s.playback (.receive (videoPacket s.sets keyframe nal) keyframe seqNo)).map fun p =>
        { s with playback := p }
  | .main (.receive _ _ _) => none
  | .main e => (step s.playback e).map fun p => { s with playback := p }

/-! ## What is to be decoded -/

/-- NAL units, each behind a start code of four bytes. -/
def annexB (units : List Bytes) : Bytes := units.flatMap fun nal => [0, 0, 0, 1] ++ nal

/-- The last parameter set of a type, empty if there is none. -/
def lastSet (nalType : UInt8) (obtained : List (Bytes × UInt8)) : Bytes :=
  ((obtained.filter fun u => u.2 &&& flagConfig ≠ 0 ∧ h264NalType u.1 = nalType).getLast?).elim []
    (·.1)

/-- A NAL unit that is no parameter set, and the sets in force. -/
structure Coded where
  nal : Bytes
  keyframe : Bool
  sets : ParameterSets
  deriving DecidableEq, Repr

/-- The coded NAL units of `obtained`, which were obtained behind `before`. -/
def codedFrom (before : List (Bytes × UInt8)) : List (Bytes × UInt8) → List Coded
  | [] => []
  | (nal, flags) :: obtained =>
    if flags &&& flagConfig ≠ 0 then codedFrom (before ++ [(nal, flags)]) obtained
    else
      ⟨nal, flags &&& flagKeyframe ≠ 0, ⟨lastSet 7 before, lastSet 8 before⟩⟩ ::
        codedFrom (before ++ [(nal, flags)]) obtained

def coded (obtained : List (Bytes × UInt8)) : List Coded := codedFrom [] obtained

/-- The NAL units that the decoder needs: a keyframe, and what may refer to it, needs its sets. -/
def Coded.units (c : Coded) : List Bytes :=
  ((if c.keyframe then [c.sets.sps, c.sets.pps] else []) ++ [c.nal]).filter (· ≠ [])

/-- The decoder was handed `cs` in one segment: a run of what is to be decoded, from a keyframe
on. -/
def IsCodedRun (obtained : List (Bytes × UInt8)) (cs : List Coded) : Prop :=
  (∃ c rest, cs = c :: rest ∧ c.keyframe) ∧ cs <:+: coded obtained

/-! ## Packets -/

theorem annexbAppend_eq (units : List Bytes) (nal : Bytes) :
    annexbAppend (annexB units) nal = annexB (units ++ [nal].filter (· ≠ [])) := by
  unfold annexbAppend
  by_cases h : nal = []
  · simp [h]
  · simp [h, annexB]

/-- **A packet is the Annex B form of its NAL units.** -/
theorem videoPacket_eq (sets : ParameterSets) (keyframe : Bool) (nal : Bytes) :
    videoPacket sets keyframe nal = annexB (Coded.units ⟨nal, keyframe, sets⟩) := by
  have hfirst (nal : Bytes) : annexbAppend [] nal = annexB ([nal].filter (· ≠ [])) :=
    annexbAppend_eq [] nal
  unfold videoPacket Coded.units
  cases keyframe with
  | false => exact hfirst nal
  | true =>
    rw [if_pos rfl, if_pos rfl, hfirst, annexbAppend_eq, annexbAppend_eq]
    simp only [← List.filter_append]
    rfl

theorem codedFrom_append (before obtained obtained' : List (Bytes × UInt8)) :
    codedFrom before (obtained ++ obtained') =
      codedFrom before obtained ++ codedFrom (before ++ obtained) obtained' := by
  induction obtained generalizing before with
  | nil => simp [codedFrom]
  | cons u obtained ih =>
    obtain ⟨nal, flags⟩ := u
    rw [List.cons_append, codedFrom, codedFrom, ih]
    split
    · simp
    · simp

theorem lastSet_append (nalType : UInt8) (obtained : List (Bytes × UInt8)) (nal : Bytes)
    (flags : UInt8) :
    lastSet nalType (obtained ++ [(nal, flags)]) =
      if flags &&& flagConfig ≠ 0 ∧ h264NalType nal = nalType then nal
      else lastSet nalType obtained := by
  unfold lastSet
  by_cases h : flags &&& flagConfig ≠ 0 ∧ h264NalType nal = nalType
  · rw [if_pos h, List.filter_append]
    simp [h]
  · rw [if_neg h, List.filter_append]
    simp [h]

/-- Where a coded NAL unit comes from. -/
theorem mem_coded {before obtained : List (Bytes × UInt8)} {c : Coded}
    (h : c ∈ codedFrom before obtained) :
    ∃ front nal flags back, obtained = front ++ (nal, flags) :: back ∧ ¬ flags &&& flagConfig ≠ 0 ∧
      c = ⟨nal, flags &&& flagKeyframe ≠ 0,
        ⟨lastSet 7 (before ++ front), lastSet 8 (before ++ front)⟩⟩ := by
  induction obtained generalizing before with
  | nil => cases h
  | cons u obtained ih =>
    obtain ⟨nal, flags⟩ := u
    rw [codedFrom] at h
    have hcases : ¬ flags &&& flagConfig ≠ 0 ∧
        c = ⟨nal, flags &&& flagKeyframe ≠ 0, ⟨lastSet 7 before, lastSet 8 before⟩⟩ ∨
        c ∈ codedFrom (before ++ [(nal, flags)]) obtained := by
      split at h
      · exact .inr h
      · rename_i hconfig
        exact (List.mem_cons.1 h).imp_left fun hc => ⟨hconfig, hc⟩
    rcases hcases with ⟨hconfig, hc⟩ | h
    · exact ⟨[], nal, flags, obtained, rfl, hconfig, by rw [hc, List.append_nil]⟩
    · obtain ⟨front, nal', flags', back, rfl, hconfig, hc⟩ := ih h
      rw [List.append_assoc] at hc
      exact ⟨(nal, flags) :: front, nal', flags', back, rfl, hconfig, hc⟩

/-- The last set is one that was obtained, unless there was none. -/
theorem lastSet_cases (nalType : UInt8) (obtained : List (Bytes × UInt8)) :
    (lastSet nalType obtained = [] ∧
      ∀ u ∈ obtained, u.2 &&& flagConfig ≠ 0 → h264NalType u.1 ≠ nalType) ∨
      (h264NalType (lastSet nalType obtained) = nalType ∧
        ∃ flags, (lastSet nalType obtained, flags) ∈ obtained) := by
  unfold lastSet
  cases hlast : (obtained.filter
      fun u => u.2 &&& flagConfig ≠ 0 ∧ h264NalType u.1 = nalType).getLast? with
  | none =>
    refine .inl ⟨rfl, fun u hu hconfig htype => ?_⟩
    have hnone := List.filter_eq_nil_iff.1 (List.getLast?_eq_none_iff.1 hlast) u hu
    exact hnone (decide_eq_true ⟨hconfig, htype⟩)
  | some u =>
    obtain ⟨hmem, hset⟩ := List.mem_filter.1 (List.mem_of_getLast? hlast)
    exact .inr ⟨(of_decide_eq_true hset).2, u.2, hmem⟩

theorem lastSet_type {nalType : UInt8} {obtained : List (Bytes × UInt8)} {u : Bytes × UInt8}
    (hu : u ∈ obtained) (hconfig : u.2 &&& flagConfig ≠ 0) (htype : h264NalType u.1 = nalType) :
    h264NalType (lastSet nalType obtained) = nalType := by
  rcases lastSet_cases nalType obtained with ⟨-, hnone⟩ | ⟨hlast, -⟩
  · exact absurd htype (hnone u hu hconfig)
  · exact hlast

/-! ## The invariant -/

/-- The sets are the last ones, and the packets that arrived are those of the coded NAL units. -/
structure PlayerInv (s : Player) : Prop where
  playback : PlaybackInv s.playback
  sets : s.sets = ⟨lastSet 7 s.obtained, lastSet 8 s.obtained⟩
  arrived : s.playback.arrived.map (fun p => (p.packet, p.keyframe)) =
    (coded s.obtained).map fun c => (annexB c.units, c.keyframe)

theorem playerInv_init : PlayerInv {} := ⟨inv_init, rfl, rfl⟩

section
variable {s s' : Player} {e : PlayerEvent}

theorem arrived_step {p p' : Playback} {e : Event}
    (he : ∀ packet keyframe seqNo, e ≠ .receive packet keyframe seqNo) (h : step p e = some p') :
    p'.arrived = p.arrived := by
  cases e with
  | receive packet keyframe seqNo => exact absurd rfl (he packet keyframe seqNo)
  | pop | decodeOk | decodeFailed | clearQueue =>
    simp only [step] at h
    repeat' split at h
    all_goals first | cases h; rfl | cases h

theorem playerInv_obtain {nal : Bytes} {flags : UInt8} {seqNo : UInt32} (hs : PlayerInv s)
    (h : playerStep s (.obtain nal flags seqNo) = some s') : PlayerInv s' := by
  simp only [playerStep] at h
  have hcoded := codedFrom_append [] s.obtained [(nal, flags)]
  rw [List.nil_append, codedFrom] at hcoded
  by_cases hconfig : flags &&& flagConfig ≠ 0
  · rw [if_pos hconfig, Option.some.injEq] at h
    rw [if_pos hconfig, codedFrom, List.append_nil] at hcoded
    subst h
    refine ⟨hs.playback, ?_, ?_⟩
    · show s.sets.config nal = _
      rw [lastSet_append, lastSet_append, hs.sets, ParameterSets.config]
      by_cases hsps : h264NalType nal = 7
      · have hpps : h264NalType nal ≠ 8 := hsps ▸ by decide
        rw [if_pos hsps, if_pos ⟨hconfig, hsps⟩, if_neg fun h => hpps h.2]
      · rw [if_neg hsps, if_neg fun h : _ ∧ h264NalType nal = 7 => hsps h.2]
        by_cases hpps : h264NalType nal = 8
        · rw [if_pos hpps, if_pos ⟨hconfig, hpps⟩]
        · rw [if_neg hpps, if_neg fun h => hpps h.2]
    · exact hs.arrived.trans (congrArg _ hcoded.symm)
  · rw [if_neg hconfig, Option.map_eq_some_iff] at h
    rw [if_neg hconfig, codedFrom] at hcoded
    obtain ⟨p, hstep, rfl⟩ := h
    refine ⟨inv_step hs.playback hstep, ?_, ?_⟩
    · rw [lastSet_append, lastSet_append, if_neg fun h => hconfig h.1, if_neg fun h => hconfig h.1]
      exact hs.sets
    · simp only [step, Option.some.injEq] at hstep
      subst hstep
      show (s.playback.arrived ++ [_]).map _ = (coded (s.obtained ++ [_])).map _
      rw [List.map_append, hs.arrived, coded, coded, hcoded, List.map_append, List.map_singleton,
        List.map_singleton, videoPacket_eq, hs.sets]

theorem playerInv_step (hs : PlayerInv s) (h : playerStep s e = some s') : PlayerInv s' := by
  cases e with
  | obtain nal flags seqNo => exact playerInv_obtain hs h
  | main e =>
    have hplay (he : ∀ packet keyframe seqNo, e ≠ .receive packet keyframe seqNo)
        (h : (step s.playback e).map (fun p => { s with playback := p }) = some s') :
        PlayerInv s' := by
      obtain ⟨p, hstep, rfl⟩ := Option.map_eq_some_iff.1 h
      exact ⟨inv_step hs.playback hstep, hs.sets,
        (congrArg _ (arrived_step he hstep)).trans hs.arrived⟩
    cases e with
    | receive => cases h
    | pop | decodeOk | decodeFailed | clearQueue => exact hplay nofun h

/-- The segments of the queue are runs of coded NAL units. -/
theorem PlayerInv.segments (hs : PlayerInv s) :
    ∃ segs : List (List QueuedVideoPacket × Bool), s.playback.trace = segs.flatMap segmentTrace ∧
      ∀ seg ∈ segs, ∃ cs, IsCodedRun s.obtained cs ∧
        seg.1.map (·.packet) = cs.map fun c => annexB c.units := by
  obtain ⟨segs, htrace, hsegs⟩ := hs.playback.segmented
  refine ⟨segs, htrace, fun seg hseg => ?_⟩
  obtain ⟨stop, ⟨p, rest, hp, hkey⟩, pre, post, hrun, -⟩ := hsegs seg hseg
  have harrived := hs.arrived
  rw [hrun, List.map_append, List.map_append] at harrived
  obtain ⟨_, csPost, hcoded, hfront, -⟩ := List.map_eq_append_iff.1 harrived.symm
  obtain ⟨csPre, cs, rfl, -, hcs⟩ := List.map_eq_append_iff.1 hfront
  refine ⟨cs, ⟨?_, csPre, csPost, hcoded.symm⟩, ?_⟩
  · rw [hp, List.map_cons] at hcs
    obtain ⟨c, rest', rfl, hc, -⟩ := List.map_eq_cons_iff.1 hcs
    exact ⟨c, rest', rfl, (congrArg Prod.snd hc).trans hkey⟩
  · have hpackets := congrArg (List.map Prod.fst) hcs
    rw [List.map_map, List.map_map] at hpackets
    exact hpackets.symm

/-- **What the decoder is handed.** After every interleaving of the two threads it has seen
segments: the packets of one are the Annex B forms of a run of coded NAL units without a gap, which
starts with a keyframe. The keyframe has the last parameter sets that were obtained before it in
front of it. -/
theorem run_decoderStream {es : List PlayerEvent} (h : Run.run playerStep {} es = some s) :
    ∃ segs : List (List QueuedVideoPacket × Bool), s.playback.trace = segs.flatMap segmentTrace ∧
      ∀ seg ∈ segs, ∃ cs, IsCodedRun s.obtained cs ∧
        seg.1.map (·.packet) = cs.map fun c => annexB c.units :=
  (Run.inv playerInv_step h playerInv_init).segments

end

/-- A slice is not decoded, and the decoder goes on with the next keyframe. -/
def smallRun : List PlayerEvent :=
  [.obtain [0x67, 1] 2 0, .obtain [0x68, 2] 2 1, .obtain [0x65, 3] 1 2, .main .pop,
    .main (.decodeOk true), .obtain [0x61, 4] 0 3, .main .pop, .main .decodeFailed,
    .main .clearQueue, .obtain [0x67, 1] 2 4, .obtain [0x68, 2] 2 5, .obtain [0x65, 3] 1 6,
    .main .pop]

theorem run_decoderStream_smallRun :
    ∃ s, Run.run playerStep {} smallRun = some s ∧
      ∃ segs : List (List QueuedVideoPacket × Bool),
        s.playback.trace = segs.flatMap segmentTrace ∧
          ∀ seg ∈ segs, ∃ cs, IsCodedRun s.obtained cs ∧
            seg.1.map (·.packet) = cs.map fun c => annexB c.units := by
  have hrun : (Run.run playerStep {} smallRun).isSome := by decide +kernel
  obtain ⟨s, hs⟩ := Option.isSome_iff_exists.1 hrun
  exact ⟨s, hs, run_decoderStream hs⟩

end Client
