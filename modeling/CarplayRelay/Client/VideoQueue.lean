import CarplayRelay.Lib.Bytes
import CarplayRelay.Lib.Run
import Mathlib.Data.List.Induction

/-!
# The client's video queue

The reader thread enqueues arriving packets and trims the queue, the main thread pops and decodes
them; every critical section of the video lock is one step. Four rules drop packets: none is
queued while the client waits for a keyframe, an overflowing queue is emptied, a long queue is
trimmed to its last keyframe, and a decode failure empties the queue.

The invariant (`PlaybackInv`) is that the queue is the end of what has arrived, that it is empty
while waiting for a keyframe, and that it otherwise continues behind the last popped packet or
starts with a keyframe.

* `run_decodes`: in every interleaving the packets handed to the decoder form segments, each a
  gapless run of arrivals from a keyframe on, and a decode failure ends its segment.
-/

namespace Client

open scoped List

/-! ## The code -/

/-- `QueuedVideoPacket`. `arrival` is not in the code: it numbers the packets as they arrive. -/
structure QueuedVideoPacket where
  packet : Bytes
  keyframe : Bool
  seqNo : UInt32
  arrival : Nat
  deriving DecidableEq, Repr

/-- The queue fields of `SharedVideoState`. -/
structure VideoQueue where
  queue : List QueuedVideoPacket := []
  waitingForKeyframe : Bool := true
  droppedPackets : Nat := 0
  deriving DecidableEq, Repr

def maxQueuedVideoPackets : Nat := 8
def videoCatchupThreshold : Nat := 6

/-- `enqueue_video_packet`. -/
def enqueueVideoPacket (v : VideoQueue) (p : QueuedVideoPacket) : VideoQueue :=
  if v.waitingForKeyframe ∧ ¬ p.keyframe then v
  else
    let v := if p.keyframe then { v with waitingForKeyframe := false } else v
    if maxQueuedVideoPackets ≤ v.queue.length then
      let v := { v with
        droppedPackets := v.droppedPackets + v.queue.length, queue := []
        waitingForKeyframe := true }
      if ¬ p.keyframe then v else { v with waitingForKeyframe := false, queue := [p] }
    else { v with queue := v.queue ++ [p] }

/-- The search of `trim_video_queue_for_latency` below position `i`, from the back. -/
def keepFrom (queue : List QueuedVideoPacket) : Nat → Nat
  | 0 => queue.length
  | i + 1 => if (queue[i]?.map (·.keyframe)) = some true then i else keepFrom queue i

/-- `trim_video_queue_for_latency`. -/
def trimVideoQueueForLatency (v : VideoQueue) : VideoQueue :=
  if v.queue.length ≤ videoCatchupThreshold then v
  else
    let keep := keepFrom v.queue v.queue.length
    if v.queue.length ≤ keep then
      { v with
        droppedPackets := v.droppedPackets + v.queue.length, queue := []
        waitingForKeyframe := true }
    else if 0 < keep then
      { v with droppedPackets := v.droppedPackets + keep, queue := v.queue.drop keep }
    else v

/-- Where the main thread is in its decode loop. -/
inductive MainPc
  | idle
  /-- In `decode_video_packet`. -/
  | decoding (p : QueuedVideoPacket)
  /-- The decode failed and the video lock is still to be taken. -/
  | failed
  deriving DecidableEq, Repr

/-- What the decoder sees. -/
inductive DecodeEvent
  | decode (p : QueuedVideoPacket)
  | failure
  deriving DecidableEq, Repr

/-- The two threads. `arrived`, `popped` and `trace` are not in the code: the packets that
arrived, how many of them were there when the last popped packet came, and what was decoded. -/
structure Playback where
  video : VideoQueue := {}
  haveSync : Bool := false
  pc : MainPc := .idle
  arrived : List QueuedVideoPacket := []
  popped : Nat := 0
  trace : List DecodeEvent := []

inductive Event
  /-- `network_reader`, in the video lock: a packet is enqueued and the queue trimmed. -/
  | receive (packet : Bytes) (keyframe : Bool) (seqNo : UInt32)
  /-- `main` pops a packet and hands it to `decode_video_packet`, or skips it. -/
  | pop
  /-- `decode_video_packet` returns true, having rendered a frame or not. -/
  | decodeOk (rendered : Bool)
  /-- `decode_video_packet` returns false; `main` gives up its sync. -/
  | decodeFailed
  /-- `main`, in the video lock after a failure. -/
  | clearQueue

def step (s : Playback) : Event → Option Playback
  | .receive packet keyframe seqNo =>
    let p : QueuedVideoPacket := ⟨packet, keyframe, seqNo, s.arrived.length⟩
    some { s with
      video := trimVideoQueueForLatency (enqueueVideoPacket s.video p)
      arrived := s.arrived ++ [p] }
  | .pop =>
    match s.pc, s.video.queue with
    | .idle, p :: queue =>
      let s := { s with video := { s.video with queue := queue }, popped := p.arrival + 1 }
      if ¬ p.keyframe ∧ ¬ s.haveSync then some s
      else some { s with pc := .decoding p, trace := s.trace ++ [.decode p] }
    | _, _ => none
  | .decodeOk rendered =>
    match s.pc with
    | .decoding p =>
      if p.packet = [] then some { s with pc := .idle }
      else some { s with pc := .idle, haveSync := s.haveSync || rendered || p.keyframe }
    | _ => none
  | .decodeFailed =>
    match s.pc with
    | .decoding p =>
      -- an empty packet is not decoded at all
      if p.packet = [] then none
      else some { s with pc := .failed, haveSync := false, trace := s.trace ++ [.failure] }
    | _ => none
  | .clearQueue =>
    match s.pc with
    | .failed => some { s with
        pc := .idle, video := { s.video with queue := [], waitingForKeyframe := true } }
    | _ => none

/-! ## The dropping rules -/

/-- The queue starts with a keyframe. -/
def KeyframeFirst (queue : List QueuedVideoPacket) : Prop :=
  ∃ p rest, queue = p :: rest ∧ p.keyframe

/-- The only keyframe of the queue is its first packet. -/
def OnlyKeyframeFirst (queue : List QueuedVideoPacket) : Prop :=
  ∃ p rest, queue = p :: rest ∧ p.keyframe ∧ ∀ q ∈ rest, ¬ q.keyframe

theorem OnlyKeyframeFirst.keyframeFirst {queue : List QueuedVideoPacket}
    (h : OnlyKeyframeFirst queue) : KeyframeFirst queue := by
  obtain ⟨p, rest, rfl, hp, -⟩ := h
  exact ⟨p, rest, rfl, hp⟩

/-- The search finds the last keyframe below `i`, or none. -/
theorem keepFrom_cases (queue : List QueuedVideoPacket) {i : Nat} (hi : i ≤ queue.length)
    (hno : ∀ q ∈ queue.drop i, ¬ q.keyframe) :
    keepFrom queue i = queue.length ∨
      (keepFrom queue i < queue.length ∧ OnlyKeyframeFirst (queue.drop (keepFrom queue i))) := by
  induction i with
  | zero => exact .inl rfl
  | succ i ih =>
    have hcons : queue.drop i = queue[i] :: queue.drop (i + 1) := List.drop_eq_getElem_cons hi
    rw [keepFrom, List.getElem?_eq_getElem hi]
    by_cases hkey : queue[i].keyframe
    · rw [if_pos (by simp [hkey])]
      exact .inr ⟨hi, queue[i], _, hcons, hkey, hno⟩
    · rw [if_neg (by simp [hkey])]
      apply ih (by omega)
      intro q hq
      rw [hcons] at hq
      rcases List.mem_cons.1 hq with rfl | hq
      · exact hkey
      · exact hno q hq

/-- What trimming does to a queue: nothing, or it starts with its last keyframe, or the queue is
empty and the client waits. -/
theorem trimVideoQueueForLatency_cases (v : VideoQueue) :
    (v.queue.length ≤ videoCatchupThreshold ∧ trimVideoQueueForLatency v = v) ∨
    ((trimVideoQueueForLatency v).queue = [] ∧
      (trimVideoQueueForLatency v).waitingForKeyframe = true) ∨
    (OnlyKeyframeFirst (trimVideoQueueForLatency v).queue ∧
      (trimVideoQueueForLatency v).queue <:+ v.queue ∧
      (trimVideoQueueForLatency v).waitingForKeyframe = v.waitingForKeyframe) := by
  unfold trimVideoQueueForLatency
  by_cases hlen : v.queue.length ≤ videoCatchupThreshold
  · exact .inl ⟨hlen, if_pos hlen⟩
  · rw [if_neg hlen]
    rcases keepFrom_cases v.queue (Nat.le_refl _) (by simp) with hnone | ⟨hlt, honly⟩
    · simp only [hnone, Nat.le_refl, if_true]
      exact .inr (.inl (by simp))
    · simp only [if_neg (Nat.not_le.2 hlt)]
      refine .inr (.inr ?_)
      split
      · exact ⟨honly, List.drop_suffix _ _, rfl⟩
      · rw [show keepFrom v.queue v.queue.length = 0 by omega, List.drop_zero] at honly
        exact ⟨honly, List.suffix_rfl, rfl⟩

/-- What enqueueing does: the packet is not queued and the client waits, or it is appended, or it
is a keyframe and starts the queue anew. -/
theorem enqueueVideoPacket_cases {v : VideoQueue} (hw : v.waitingForKeyframe → v.queue = [])
    (p : QueuedVideoPacket) :
    ((enqueueVideoPacket v p).queue = [] ∧ (enqueueVideoPacket v p).waitingForKeyframe = true) ∨
    (v.queue.length < maxQueuedVideoPackets ∧ v.waitingForKeyframe = false ∧
      (enqueueVideoPacket v p).queue = v.queue ++ [p] ∧
      (enqueueVideoPacket v p).waitingForKeyframe = false) ∨
    (p.keyframe ∧ (enqueueVideoPacket v p).queue = [p] ∧
      (enqueueVideoPacket v p).waitingForKeyframe = false) := by
  unfold enqueueVideoPacket
  cases hv : v.waitingForKeyframe <;> cases hp : p.keyframe
  case false.false =>
    by_cases hfull : maxQueuedVideoPackets ≤ v.queue.length
    · exact .inl (by simp [hfull])
    · exact .inr (.inl (by simp [hfull, hv]; omega))
  case false.true =>
    by_cases hfull : maxQueuedVideoPackets ≤ v.queue.length
    · exact .inr (.inr (by simp [hfull]))
    · exact .inr (.inl (by simp [hfull]; omega))
  case true.false => exact .inl (by simp [hv, hw hv])
  case true.true => exact .inr (.inr (by simp [hw hv, maxQueuedVideoPackets]))

/-- The queue after a packet was received while `v` was the queue. -/
structure Received (v : VideoQueue) (p : QueuedVideoPacket) (v' : VideoQueue) : Prop where
  waiting : v'.waitingForKeyframe = false
  ne_nil : v'.queue ≠ []
  suffix : v'.queue <:+ v.queue ++ [p]
  length_le : v'.queue.length ≤ maxQueuedVideoPackets
  front : (v'.queue = v.queue ++ [p] ∧ v.waitingForKeyframe = false) ∨ KeyframeFirst v'.queue
  long : videoCatchupThreshold < v'.queue.length → OnlyKeyframeFirst v'.queue

/-- **Receiving a packet** leaves an empty queue that waits for a keyframe, or a queue that ends
with the packet and either continues the old one or starts with a keyframe. -/
theorem receive_cases {v : VideoQueue} (hw : v.waitingForKeyframe → v.queue = [])
    (p : QueuedVideoPacket) {v' : VideoQueue}
    (hv' : trimVideoQueueForLatency (enqueueVideoPacket v p) = v') :
    (v'.queue = [] ∧ v'.waitingForKeyframe = true) ∨ Received v p v' := by
  subst hv'
  generalize hu : enqueueVideoPacket v p = u
  have henq := enqueueVideoPacket_cases hw p
  have htrim := trimVideoQueueForLatency_cases u
  rw [hu] at henq
  generalize trimVideoQueueForLatency u = v' at htrim
  have key (hne : u.queue ≠ []) (huw : u.waitingForKeyframe = false)
      (hsuf : u.queue <:+ v.queue ++ [p]) (hlen : u.queue.length ≤ maxQueuedVideoPackets)
      (hfront : (u.queue = v.queue ++ [p] ∧ v.waitingForKeyframe = false) ∨
        KeyframeFirst u.queue) :
      (v'.queue = [] ∧ v'.waitingForKeyframe = true) ∨ Received v p v' := by
    rcases htrim with ⟨hshort, rfl⟩ | hempty | ⟨honly, hsuf', hwait⟩
    · exact .inr ⟨huw, hne, hsuf, hlen, hfront, fun h => absurd h (Nat.not_lt.2 hshort)⟩
    · exact .inl hempty
    · obtain ⟨q, rest, hq, -⟩ := id honly
      exact .inr ⟨hwait.trans huw, by simp [hq], hsuf'.trans hsuf,
        Nat.le_trans hsuf'.length_le hlen, .inr honly.keyframeFirst, fun _ => honly⟩
  rcases henq with ⟨hempty, hwait⟩ | ⟨hlen, hwait, hq, hu⟩ | ⟨hkey, hq, hu⟩
  · rcases htrim with ⟨-, rfl⟩ | hempty' | ⟨⟨q, rest, hq, -⟩, hsuf, -⟩
    · exact .inl ⟨hempty, hwait⟩
    · exact .inl hempty'
    · rw [hempty, List.suffix_nil] at hsuf
      simp [hsuf] at hq
  · exact key (by simp [hq]) hu (hq ▸ List.suffix_rfl) (by simp [hq]; omega) (.inl ⟨hq, hwait⟩)
  · exact key (by simp [hq]) hu (hq ▸ List.suffix_append _ _)
      (by simp [hq, maxQueuedVideoPackets]) (.inr ⟨p, [], hq, hkey⟩)

/-! ## Segments -/

/-- `seg` is a gapless run of arrivals that starts with a keyframe and ends before arrival
`stop`. -/
def IsSegment (arrived seg : List QueuedVideoPacket) (stop : Nat) : Prop :=
  KeyframeFirst seg ∧ ∃ pre post, arrived = pre ++ seg ++ post ∧ (pre ++ seg).length = stop

/-- What the decoder sees of a segment: its packets, and a failure if the last one failed. -/
def segmentTrace (seg : List QueuedVideoPacket × Bool) : List DecodeEvent :=
  seg.1.map .decode ++ if seg.2 then [.failure] else []

/-- The decoder has seen segments only. -/
def Segmented (arrived : List QueuedVideoPacket) (trace : List DecodeEvent) : Prop :=
  ∃ segs : List (List QueuedVideoPacket × Bool), trace = segs.flatMap segmentTrace ∧
    ∀ seg ∈ segs, ∃ stop, IsSegment arrived seg.1 stop

/-- The decoder has seen segments only, and the last one goes up to arrival `stop` without a
failure. -/
def OpenSegment (arrived : List QueuedVideoPacket) (trace : List DecodeEvent) (stop : Nat) : Prop :=
  ∃ before seg, trace = before ++ seg.map .decode ∧ Segmented arrived before ∧
    IsSegment arrived seg stop

section
variable {arrived : List QueuedVideoPacket} {trace : List DecodeEvent} {stop : Nat}

theorem IsSegment.arrive {seg : List QueuedVideoPacket} (h : IsSegment arrived seg stop)
    (p : QueuedVideoPacket) : IsSegment (arrived ++ [p]) seg stop := by
  obtain ⟨hkey, pre, post, rfl, hstop⟩ := h
  exact ⟨hkey, pre, post ++ [p], by simp, hstop⟩

theorem Segmented.arrive (h : Segmented arrived trace) (p : QueuedVideoPacket) :
    Segmented (arrived ++ [p]) trace := by
  obtain ⟨segs, htrace, hsegs⟩ := h
  refine ⟨segs, htrace, ?_⟩
  intro seg hseg
  obtain ⟨stop, hstop⟩ := hsegs seg hseg
  exact ⟨stop, hstop.arrive p⟩

theorem OpenSegment.arrive (h : OpenSegment arrived trace stop) (p : QueuedVideoPacket) :
    OpenSegment (arrived ++ [p]) trace stop := by
  obtain ⟨before, seg, htrace, hbefore, hseg⟩ := h
  exact ⟨before, seg, htrace, hbefore.arrive p, hseg.arrive p⟩

theorem Segmented.append {seg : List QueuedVideoPacket} (h : Segmented arrived trace)
    (hseg : IsSegment arrived seg stop) (failed : Bool) :
    Segmented arrived (trace ++ segmentTrace (seg, failed)) := by
  obtain ⟨segs, rfl, hsegs⟩ := h
  refine ⟨segs ++ [(seg, failed)], by simp, ?_⟩
  intro seg' hseg'
  rcases List.mem_append.1 hseg' with hmem | hmem
  · exact hsegs seg' hmem
  · rw [List.mem_singleton.1 hmem]
    exact ⟨stop, hseg⟩

theorem OpenSegment.segmented (h : OpenSegment arrived trace stop) : Segmented arrived trace := by
  obtain ⟨before, seg, rfl, hbefore, hseg⟩ := h
  simpa [segmentTrace] using hbefore.append hseg false

theorem OpenSegment.failure (h : OpenSegment arrived trace stop) :
    Segmented arrived (trace ++ [.failure]) := by
  obtain ⟨before, seg, rfl, hbefore, hseg⟩ := h
  simpa [segmentTrace] using hbefore.append hseg true

theorem Segmented.keyframe (h : Segmented arrived trace) {p : QueuedVideoPacket} (hp : p.keyframe)
    {pre post : List QueuedVideoPacket} (ha : arrived = pre ++ p :: post) :
    OpenSegment arrived (trace ++ [.decode p]) (pre.length + 1) :=
  ⟨trace, [p], rfl, h, ⟨p, [], rfl, hp⟩, pre, post, by simp [ha], by simp⟩

theorem OpenSegment.next {pre post : List QueuedVideoPacket} {p : QueuedVideoPacket}
    (h : OpenSegment arrived trace pre.length) (ha : arrived = pre ++ p :: post) :
    OpenSegment arrived (trace ++ [.decode p]) (pre.length + 1) := by
  obtain ⟨before, seg, rfl, hbefore, ⟨q, rest, rfl, hq⟩, pre', post', ha', hlen⟩ := h
  obtain ⟨rfl, rfl⟩ := List.append_inj (ha'.symm.trans ha) hlen
  exact ⟨before, q :: rest ++ [p], by simp, hbefore, ⟨q, rest ++ [p], rfl, hq⟩, pre', post,
    by simp [ha], by simp; omega⟩

end

/-- A packet without a keyframe is decoded only right after the packet that arrived before it. -/
def NoGap (trace : List DecodeEvent) : Prop :=
  ∀ before p after, trace = before ++ .decode p :: after → ¬ p.keyframe →
    ∃ before' q, before = before' ++ [.decode q] ∧ q.arrival + 1 = p.arrival

/-- Packets are numbered in the order of their arrival. -/
def Numbered (arrived : List QueuedVideoPacket) : Prop :=
  ∀ (i : Nat) (p : QueuedVideoPacket), arrived[i]? = some p → p.arrival = i

section
variable {arrived : List QueuedVideoPacket} {trace : List DecodeEvent}

theorem NoGap.snoc (h : NoGap trace) {e : DecodeEvent}
    (he : ∀ p, e = .decode p → ¬ p.keyframe →
      ∃ before q, trace = before ++ [.decode q] ∧ q.arrival + 1 = p.arrival) :
    NoGap (trace ++ [e]) := by
  intro before p after heq hp
  rcases List.eq_nil_or_concat after with rfl | ⟨after, e', rfl⟩
  · obtain ⟨rfl, hlast⟩ := List.append_inj' heq rfl
    exact he p (List.singleton_inj.1 hlast) hp
  · rw [List.concat_eq_append, ← List.cons_append, ← List.append_assoc] at heq
    exact h before p after (List.append_inj' heq rfl).1 hp

/-- The packets of a segment, by induction from its front. -/
theorem NoGap.segment (h : NoGap trace) (hn : Numbered arrived) {pre seg post}
    (ha : arrived = pre ++ seg ++ post) (hkey : ∀ p rest, seg = p :: rest → p.keyframe) :
    NoGap (trace ++ seg.map .decode) := by
  induction seg using List.reverseRecOn generalizing post with
  | nil => simpa using h
  | append_singleton seg p ih =>
    have ha' : arrived = pre ++ seg ++ p :: post := by rw [ha]; simp
    have hseg := ih ha' fun q rest hq => hkey q (rest ++ [p]) (by rw [hq]; rfl)
    rw [List.map_append, ← List.append_assoc]
    apply hseg.snoc
    intro p' hp' hnot
    cases hp'
    rcases List.eq_nil_or_concat seg with rfl | ⟨seg', q, rfl⟩
    · exact absurd (hkey p [] rfl) hnot
    · refine ⟨trace ++ seg'.map .decode, q, by simp, ?_⟩
      rw [List.concat_eq_append] at ha
      rw [hn (pre ++ seg').length q (by rw [ha]; simp),
        hn ((pre ++ seg').length + 1) p (by rw [ha]; simp [Nat.add_assoc])]

theorem Segmented.noGap (h : Segmented arrived trace) (hn : Numbered arrived) : NoGap trace := by
  obtain ⟨segs, rfl, hsegs⟩ := h
  induction segs using List.reverseRecOn with
  | nil => intro before p after h; simp at h
  | append_singleton segs seg ih =>
    obtain ⟨stop, ⟨p, rest, hp, hkey⟩, pre, post, ha, -⟩ := hsegs seg (by simp)
    have hpackets := (ih fun seg hseg => hsegs seg (by simp [hseg])).segment hn ha
      fun q rest' hq => by
      rw [hp] at hq
      cases hq
      exact hkey
    rw [List.flatMap_append, List.flatMap_singleton, segmentTrace, ← List.append_assoc]
    split
    · exact hpackets.snoc fun p hp => by cases hp
    · simpa using hpackets

end

/-! ## The invariant -/

structure PlaybackInv (s : Playback) : Prop where
  length_le : s.video.queue.length ≤ maxQueuedVideoPackets
  suffix : s.video.queue <:+ s.arrived
  waiting : s.video.waitingForKeyframe → s.video.queue = []
  numbered : Numbered s.arrived
  next : s.video.waitingForKeyframe = false →
    s.popped + s.video.queue.length = s.arrived.length ∨ KeyframeFirst s.video.queue
  sync : s.haveSync = true ∨ (∃ p, s.pc = .decoding p) → OpenSegment s.arrived s.trace s.popped
  segmented : Segmented s.arrived s.trace

section
variable {s s' : Playback}

theorem inv_init : PlaybackInv {} where
  length_le := Nat.zero_le _
  suffix := List.nil_suffix
  waiting _ := rfl
  numbered _ _ h := by simp at h
  next h := by cases h
  sync h := by rcases h with h | ⟨p, h⟩ <;> cases h
  segmented := ⟨[], rfl, by simp⟩

theorem inv_receive {packet : Bytes} {keyframe : Bool} {seqNo : UInt32} (hs : PlaybackInv s)
    (h : step s (.receive packet keyframe seqNo) = some s') :
    PlaybackInv s' ∧ (videoCatchupThreshold < s'.video.queue.length →
      OnlyKeyframeFirst s'.video.queue) := by
  simp only [step, Option.some.injEq] at h
  generalize hp : QueuedVideoPacket.mk packet keyframe seqNo s.arrived.length = p at h
  generalize hv : trimVideoQueueForLatency (enqueueVideoPacket s.video p) = v' at h
  subst h
  have harrival : p.arrival = s.arrived.length := by rw [← hp]
  have hnumbered : Numbered (s.arrived ++ [p]) := by
    intro i q hq
    rcases Nat.lt_trichotomy i s.arrived.length with hi | rfl | hi
    · rw [List.getElem?_append_left hi] at hq
      exact hs.numbered i q hq
    · rw [List.getElem?_concat_length, Option.some.injEq] at hq
      rw [← hq, harrival]
    · rw [List.getElem?_eq_none (by simp; omega)] at hq
      cases hq
  rcases receive_cases hs.waiting p hv with ⟨hempty, hwait⟩ | hrec
  · refine ⟨⟨by simp [hempty], by simp [hempty], fun _ => hempty, hnumbered, ?_, ?_, ?_⟩, ?_⟩
    · exact fun hno => by rw [hwait] at hno; cases hno
    · exact fun h => (hs.sync h).arrive p
    · exact hs.segmented.arrive p
    · exact fun hlong => by simp [hempty] at hlong
  · have hsuffix : s.video.queue ++ [p] <:+ s.arrived ++ [p] := by
      obtain ⟨pre, hpre⟩ := hs.suffix
      exact ⟨pre, by rw [← List.append_assoc, hpre]⟩
    refine ⟨⟨hrec.length_le, hrec.suffix.trans hsuffix, ?_, hnumbered, fun _ => ?_, ?_, ?_⟩,
      hrec.long⟩
    · exact fun hwait => by rw [hrec.waiting] at hwait; cases hwait
    · rcases hrec.front with ⟨hq, hwait⟩ | hkey
      · show _ + v'.queue.length = _ ∨ KeyframeFirst v'.queue
        rw [hq]
        rcases hs.next hwait with hnext | ⟨q, rest, hkq, hkey⟩
        · exact .inl (by simp; omega)
        · exact .inr ⟨q, rest ++ [p], by simp [hkq], hkey⟩
      · exact .inr hkey
    · exact fun h => (hs.sync h).arrive p
    · exact hs.segmented.arrive p

theorem inv_pop (hs : PlaybackInv s) (h : step s .pop = some s') : PlaybackInv s' := by
  simp only [step] at h
  split at h
  case h_2 => cases h
  case h_1 p queue hpc hqueue =>
  obtain ⟨pre, hpre⟩ := hs.suffix
  rw [hqueue] at hpre
  have harrival : p.arrival = pre.length := hs.numbered _ _ (by rw [← hpre]; simp)
  have hwait : s.video.waitingForKeyframe = false := by
    rw [Bool.eq_false_iff]
    exact fun hw => by simp [hs.waiting hw] at hqueue
  have hlen := hs.length_le
  rw [hqueue, List.length_cons] at hlen
  have hsuffix : queue <:+ s.arrived := ⟨pre ++ [p], by rw [← hpre]; simp⟩
  have hnext : p.arrival + 1 + queue.length = s.arrived.length := by
    rw [harrival, ← hpre]
    simp
    omega
  have hnowait (hw : s.video.waitingForKeyframe = true) : queue = [] := by
    rw [hwait] at hw
    cases hw
  split at h
  · rename_i hskip
    cases h
    refine ⟨by simpa using by omega, hsuffix, hnowait, hs.numbered, fun _ => .inl hnext, ?_,
      hs.segmented⟩
    rintro (hsync | ⟨q, hq⟩)
    · exact absurd hsync hskip.2
    · rw [hpc] at hq
      cases hq
  · rename_i hdecode
    cases h
    have hopen : OpenSegment s.arrived (s.trace ++ [.decode p]) (p.arrival + 1) := by
      rw [harrival]
      by_cases hkey : p.keyframe
      · exact hs.segmented.keyframe hkey hpre.symm
      · have hsync : s.haveSync = true := by simpa [hkey] using hdecode
        rcases hs.next hwait with hpos | ⟨q, rest, hq, hqkey⟩
        · have hpopped : s.popped = pre.length := by
            rw [hqueue, ← hpre] at hpos
            simp at hpos
            omega
          exact (hpopped ▸ hs.sync (.inl hsync)).next hpre.symm
        · rw [hqueue] at hq
          cases hq
          exact absurd hqkey hkey
    exact ⟨by simpa using by omega, hsuffix, hnowait, hs.numbered, fun _ => .inl hnext,
      fun _ => hopen, hopen.segmented⟩

theorem inv_decodeOk {rendered : Bool} (hs : PlaybackInv s)
    (h : step s (.decodeOk rendered) = some s') : PlaybackInv s' := by
  simp only [step] at h
  split at h
  case h_2 => cases h
  case h_1 p hpc =>
  have hopen := hs.sync (.inr ⟨p, hpc⟩)
  split at h <;> cases h <;>
    exact ⟨hs.length_le, hs.suffix, hs.waiting, hs.numbered, hs.next, fun _ => hopen, hs.segmented⟩

theorem inv_decodeFailed (hs : PlaybackInv s) (h : step s .decodeFailed = some s') :
    PlaybackInv s' := by
  simp only [step] at h
  split at h
  case h_2 => cases h
  case h_1 p hpc =>
  have hopen := hs.sync (.inr ⟨p, hpc⟩)
  split at h
  · cases h
  · cases h
    refine ⟨hs.length_le, hs.suffix, hs.waiting, hs.numbered, hs.next, ?_, hopen.failure⟩
    rintro (h | ⟨q, h⟩) <;> cases h

theorem inv_clearQueue (hs : PlaybackInv s) (h : step s .clearQueue = some s') :
    PlaybackInv s' := by
  simp only [step] at h
  split at h
  case h_2 => cases h
  case h_1 hpc =>
  cases h
  refine ⟨Nat.zero_le _, List.nil_suffix, fun _ => rfl, hs.numbered, (fun h => by cases h), ?_,
    hs.segmented⟩
  rintro (h | ⟨q, h⟩)
  · exact hs.sync (.inl h)
  · cases h

theorem inv_step {e : Event} (hs : PlaybackInv s) (h : step s e = some s') : PlaybackInv s' := by
  cases e with
  | receive packet keyframe seqNo => exact (inv_receive hs h).1
  | pop => exact inv_pop hs h
  | decodeOk rendered => exact inv_decodeOk hs h
  | decodeFailed => exact inv_decodeFailed hs h
  | clearQueue => exact inv_clearQueue hs h

/-- **The queue never breaks a decode chain.** After every interleaving of the two threads: the
queue holds at most 8 packets, the end of what has arrived; receiving leaves more than 6 only if
the first one is the only keyframe; and the decoder has seen a sequence of segments, so that no
packet without a keyframe was decoded after a gap or a failure. -/
theorem run_decodes {es : List Event} (h : Run.run step {} es = some s) :
    s.video.queue.length ≤ 8 ∧ s.video.queue <:+ s.arrived ∧ Numbered s.arrived ∧
      (∀ packet keyframe seqNo s', step s (.receive packet keyframe seqNo) = some s' →
        6 < s'.video.queue.length → OnlyKeyframeFirst s'.video.queue) ∧
      Segmented s.arrived s.trace ∧ NoGap s.trace := by
  have hs : PlaybackInv s := Run.inv inv_step h inv_init
  exact ⟨hs.length_le, hs.suffix, hs.numbered, fun _ _ _ s' h' => (inv_receive hs h').2,
    hs.segmented, hs.segmented.noGap hs.numbered⟩

end

/-- A failure while the next packet arrives: it is not decoded, and the keyframe after it is. -/
def failureRun : List Event :=
  [.receive [1] true 0, .receive [2] false 1, .pop, .decodeOk true, .pop, .decodeFailed,
   .receive [3] false 2, .clearQueue, .receive [4] true 3, .pop]

theorem run_decodes_failureRun :
    ∃ s, Run.run step {} failureRun = some s ∧ Segmented s.arrived s.trace ∧ NoGap s.trace := by
  have h : (Run.run step {} failureRun).isSome := by decide
  obtain ⟨s, hs⟩ := Option.isSome_iff_exists.1 h
  exact ⟨s, hs, (run_decodes hs).2.2.2.2⟩

end Client
