import CarplayRelay.Lib.Bytes
import CarplayRelay.Lib.Run
import Mathlib.Data.List.Induction
import Mathlib.Data.List.Perm.Basic
import Mathlib.Data.List.Range

/-!
# The client's audio queue (`enqueue_audio_packet`, `service_audio_output`)

Audio packets wait in a queue of limited size, the oldest are dropped when it overflows, and the
queue is fed to SDL up to a target level once it was filled to the prebuffer level. A call is one
step. `none` stands for a subtraction from `queued_bytes` that goes below zero; what SDL reports is
any number, and zero as long as nothing was queued there.

* `enqueueAudioPacket_spec`, `serviceAudioOutput_spec`: a call goes through and keeps `AudioInv`.
* `run_audio`: the counter is the size of the queue and within the limit, every packet has one
  place, what is fed is in order and only after the prebuffer level, and the device is unpaused
  once the playback started.
-/

namespace Client

/-! ## The code -/

/-- A packet of the queue. `arrival` is not in the code: it numbers the packets as they arrive. -/
structure AudioPacket where
  arrival : Nat
  data : Bytes
  deriving DecidableEq, Repr

/-- `audio_prebuffer_bytes`, `audio_target_bytes`, `audio_max_buffer_bytes`. -/
def audioPrebufferBytes : Nat := 8 * 1024
def audioTargetBytes : Nat := 16 * 1024
def audioMaxBufferBytes : Nat := 48 * 1024

/-- `SharedAudioState`, and whether the device is paused. What is not in the code is where the
packets went: `received` are those of all calls, `fed` and `refused` those of the calls of
`SDL_QueueAudio`, `skipped` the empty ones, `dropped` those counted in `dropped_packets`. -/
structure AudioState where
  queue : List AudioPacket := []
  queuedBytes : Nat := 0
  started : Bool := false
  droppedPackets : Nat := 0
  paused : Bool := true
  received : List AudioPacket := []
  fed : List AudioPacket := []
  refused : List AudioPacket := []
  skipped : List AudioPacket := []
  dropped : List AudioPacket := []
  deriving DecidableEq, Repr

/-- The packet at the front leaves the queue, and `queued_bytes` is decremented. -/
def AudioState.popFront (s : AudioState) (p : AudioPacket) (queue : List AudioPacket) :
    Option AudioState :=
  if p.data.length ≤ s.queuedBytes then
    some { s with queue := queue, queuedBytes := s.queuedBytes - p.data.length }
  else none

/-- A packet is counted in `dropped_packets`. -/
def AudioState.drop (s : AudioState) (p : AudioPacket) : AudioState :=
  { s with droppedPackets := s.droppedPackets + 1, dropped := s.dropped ++ [p] }

/-- The loop of `enqueue_audio_packet`. -/
def dropOldest (payloadSize : Nat) : List AudioPacket → AudioState → Option AudioState
  | [], s => some s
  | p :: queue, s =>
    if audioMaxBufferBytes < s.queuedBytes + payloadSize then
      (s.popFront p queue).bind fun s => dropOldest payloadSize queue (s.drop p)
    else some s

/-- `enqueue_audio_packet`. -/
def enqueueAudioPacket (s : AudioState) (payload : Bytes) : Option AudioState :=
  (dropOldest payload.length s.queue s).map fun s =>
    let p : AudioPacket := ⟨s.received.length, payload⟩
    let s := { s with received := s.received ++ [p] }
    if audioMaxBufferBytes < payload.length then s.drop p
    else { s with queuedBytes := s.queuedBytes + payload.length, queue := s.queue ++ [p] }

/-- The loop of `service_audio_output`; `queueAudio i` tells whether the `i`-th call of
`SDL_QueueAudio` succeeds. -/
def serviceLoop (queueAudio : Nat → Bool) :
    List AudioPacket → (sdlQueued calls : Nat) → AudioState → Option AudioState
  | [], sdlQueued, _, s =>
    if ¬ s.started ∧ sdlQueued + s.queuedBytes < audioPrebufferBytes then some s
    else some { s with started := true }
  | p :: queue, sdlQueued, calls, s =>
    if ¬ s.started ∧ sdlQueued + s.queuedBytes < audioPrebufferBytes then some s
    else
      let shouldStart := ¬ s.started
      let s := { s with started := true }
      if audioTargetBytes ≤ sdlQueued then some s
      else
        (s.popFront p queue).bind fun s =>
          let s := if shouldStart then { s with paused := false } else s
          if p.data.length = 0 then
            serviceLoop queueAudio queue sdlQueued calls { s with skipped := s.skipped ++ [p] }
          else if queueAudio calls then
            serviceLoop queueAudio queue (sdlQueued + p.data.length) (calls + 1)
              { s with fed := s.fed ++ [p] }
          else some { s with refused := s.refused ++ [p] }

/-- `service_audio_output`; `sdlQueued` is what `SDL_GetQueuedAudioSize` returns. -/
def serviceAudioOutput (s : AudioState) (sdlQueued : Nat) (queueAudio : Nat → Bool) :
    Option AudioState :=
  serviceLoop queueAudio s.queue sdlQueued 0 s

inductive AudioEvent
  | enqueue (payload : Bytes)
  | service (sdlQueued : Nat) (queueAudio : Nat → Bool)

/-- SDL reports nothing queued until something was queued. -/
def AudioEvent.Possible (s : AudioState) : AudioEvent → Prop
  | .enqueue _ => True
  | .service sdlQueued _ => s.fed = [] → sdlQueued = 0

/-- The packet that arrives. -/
def AudioEvent.payload : AudioEvent → Option Bytes
  | .enqueue payload => some payload
  | .service _ _ => none

instance (s : AudioState) : (e : AudioEvent) → Decidable (e.Possible s)
  | .enqueue _ => isTrue trivial
  | .service sdlQueued _ => inferInstanceAs (Decidable (s.fed = [] → sdlQueued = 0))

def audioStep (s : AudioState) (e : AudioEvent) : Option AudioState :=
  if ¬ e.Possible s then none
  else
    match e with
    | .enqueue payload => enqueueAudioPacket s payload
    | .service sdlQueued queueAudio => serviceAudioOutput s sdlQueued queueAudio

/-! ## The invariant -/

/-- The bytes of some packets. -/
def audioBytes (ps : List AudioPacket) : Nat := (ps.flatMap AudioPacket.data).length

/-- Where the packets are. -/
structure AudioLedger (s : AudioState) : Prop where
  bytes : s.queuedBytes = audioBytes s.queue
  limit : s.queuedBytes ≤ audioMaxBufferBytes
  order : (s.fed ++ s.queue).Sublist s.received
  places : (s.fed ++ s.refused ++ s.skipped ++ s.dropped ++ s.queue).Perm s.received
  empty : ∀ p ∈ s.skipped, p.data = []
  dropped : s.droppedPackets = s.dropped.length
  numbered : s.received.map AudioPacket.arrival = List.range s.received.length

/-- The playback is started and the device unpaused, or nothing has left the queue for SDL. -/
def AudioStarted (s : AudioState) : Prop :=
  if s.started then s.paused = false else s.fed = [] ∧ s.refused = [] ∧ s.skipped = []

structure AudioInv (s : AudioState) : Prop where
  ledger : AudioLedger s
  started : AudioStarted s

section
variable {s s' : AudioState} {p : AudioPacket} {queue : List AudioPacket} {sdlQueued : Nat}

theorem audioBytes_cons (p : AudioPacket) (queue : List AudioPacket) :
    audioBytes (p :: queue) = p.data.length + audioBytes queue := by
  simp [audioBytes]

theorem audioBytes_append (queue : List AudioPacket) (p : AudioPacket) :
    audioBytes (queue ++ [p]) = audioBytes queue + p.data.length := by
  simp [audioBytes]

/-- The subtraction stays above zero. -/
theorem AudioLedger.popFront (h : AudioLedger s) (hq : s.queue = p :: queue) :
    s.popFront p queue = some { s with queue := queue, queuedBytes := audioBytes queue } := by
  have hbytes := h.bytes
  rw [hq, audioBytes_cons] at hbytes
  unfold AudioState.popFront
  rw [if_pos (by omega), hbytes, Nat.add_sub_cancel_left]

theorem AudioLedger.pop_limit (h : AudioLedger s) (hq : s.queue = p :: queue) :
    audioBytes queue ≤ audioMaxBufferBytes := by
  have hbytes := h.bytes
  have hlimit := h.limit
  rw [hq, audioBytes_cons] at hbytes
  omega

/-- The front packet is dropped. -/
theorem AudioLedger.drop (h : AudioLedger s) (hq : s.queue = p :: queue) :
    AudioLedger
      (({ s with queue := queue, queuedBytes := audioBytes queue } : AudioState).drop p) := by
  have horder := h.order
  have hplaces := h.places
  rw [hq] at horder hplaces
  refine ⟨rfl, h.pop_limit hq, ?_, ?_, h.empty, ?_, h.numbered⟩
  · exact ((List.sublist_cons_self p queue).append_left s.fed).trans horder
  · refine .trans ?_ hplaces
    simp [AudioState.drop]
  · simp [AudioState.drop, h.dropped]

theorem dropOldest_spec (h : AudioLedger s) (hq : s.queue = queue) (payloadSize : Nat) :
    ∃ s', dropOldest payloadSize queue s = some s' ∧ AudioLedger s' ∧
      (payloadSize ≤ audioMaxBufferBytes → s'.queuedBytes + payloadSize ≤ audioMaxBufferBytes) ∧
      s'.received = s.received ∧ s'.started = s.started ∧ s'.paused = s.paused ∧
      s'.fed = s.fed ∧ s'.refused = s.refused ∧ s'.skipped = s.skipped := by
  induction queue generalizing s with
  | nil =>
    have hbytes := h.bytes
    rw [hq] at hbytes
    exact ⟨s, rfl, h, fun hle => by rw [hbytes]; simpa [audioBytes], rfl, rfl, rfl, rfl, rfl, rfl⟩
  | cons p queue ih =>
    unfold dropOldest
    split
    · rw [h.popFront hq, Option.bind_some]
      obtain ⟨s', hs', hledger, hfits, hsame⟩ := ih (h.drop hq) rfl
      exact ⟨s', hs', hledger, hfits, hsame⟩
    · rename_i hfits
      exact ⟨s, rfl, h, fun _ => by omega, rfl, rfl, rfl, rfl, rfl, rfl⟩

theorem enqueueAudioPacket_received (h : AudioLedger s) (payload : Bytes)
    (hs : enqueueAudioPacket s payload = some s') :
    s'.received.map AudioPacket.data = s.received.map AudioPacket.data ++ [payload] := by
  obtain ⟨t, ht, -, -, hreceived, -⟩ := dropOldest_spec h rfl payload.length
  rw [enqueueAudioPacket, ht, Option.map_some, Option.some.injEq, hreceived] at hs
  rw [← hs]
  dsimp only
  split <;> simp [AudioState.drop]

theorem popFront_received (h : s.popFront p queue = some s') : s'.received = s.received := by
  unfold AudioState.popFront at h
  split at h <;> cases h
  rfl

/-- Nothing is received in a service. -/
theorem serviceLoop_received {queueAudio : Nat → Bool} {calls : Nat}
    (h : serviceLoop queueAudio queue sdlQueued calls s = some s') :
    s'.received = s.received := by
  induction queue generalizing s sdlQueued calls with
  | nil =>
    rw [serviceLoop] at h
    split at h <;> cases h <;> rfl
  | cons p queue ih =>
    rw [serviceLoop] at h
    split at h
    · cases h
      rfl
    dsimp only at h
    split at h
    · cases h
      rfl
    obtain ⟨t, ht, h⟩ := Option.bind_eq_some_iff.1 h
    have hreceived := popFront_received ht
    dsimp only at h hreceived
    rw [← hreceived]
    split at h
    · rw [ih h]
      split <;> rfl
    split at h
    · rw [ih h]
      split <;> rfl
    · cases h
      split <;> rfl

theorem numbered_append (h : AudioLedger s) (payload : Bytes) :
    (s.received ++ [(⟨s.received.length, payload⟩ : AudioPacket)]).map AudioPacket.arrival =
      List.range (s.received ++ [(⟨s.received.length, payload⟩ : AudioPacket)]).length := by
  rw [List.map_append, h.numbered, List.length_append, List.length_singleton, List.range_succ]
  rfl

/-- **An enqueue goes through**: no decrement of `queued_bytes` goes below zero. -/
theorem enqueueAudioPacket_spec (h : AudioInv s) (payload : Bytes) :
    ∃ s', enqueueAudioPacket s payload = some s' ∧ AudioInv s' ∧ s'.started = s.started ∧
      s'.fed = s.fed ∧ s'.refused = s.refused := by
  obtain ⟨t, ht, hledger, hfits, hreceived, hstarted, hpaused, hfed, hrefused, hskipped⟩ :=
    dropOldest_spec h.ledger rfl payload.length
  have hplaces := hledger.places
  have hlatch : AudioStarted t := by
    unfold AudioStarted
    rw [hstarted, hpaused, hfed, hrefused, hskipped]
    exact h.started
  unfold enqueueAudioPacket
  rw [ht, Option.map_some]
  refine ⟨_, rfl, ?_⟩
  dsimp only
  split
  · refine ⟨⟨⟨hledger.bytes, hledger.limit, ?_, ?_, hledger.empty, ?_, numbered_append hledger _⟩,
      hlatch⟩, hstarted, hfed, hrefused⟩
    · exact hledger.order.trans (List.sublist_append_left _ _)
    · refine .trans ?_ (hplaces.append_right _)
      simp only [AudioState.drop, List.append_assoc]
      refine .append_left _ (.append_left _ (.append_left _ (.append_left _ ?_)))
      exact List.perm_append_comm
    · simp [AudioState.drop, hledger.dropped]
  · rename_i hsize
    refine ⟨⟨⟨?_, hfits (by omega), ?_, ?_, hledger.empty, hledger.dropped,
      numbered_append hledger _⟩, hlatch⟩, hstarted, hfed, hrefused⟩
    · rw [audioBytes_append, hledger.bytes]
    · rw [← List.append_assoc]
      exact hledger.order.append_right _
    · refine .trans ?_ (hplaces.append_right _)
      simp only [List.append_assoc]
      exact .refl _

/-- The front packet leaves the queue for another place. -/
theorem AudioLedger.pop (h : AudioLedger s) (hq : s.queue = p :: queue) (started paused : Bool)
    {fed refused skipped : List AudioPacket}
    (horder : (fed ++ queue).Sublist (s.fed ++ p :: queue))
    (hplaces : ∀ a, fed.count a + refused.count a + skipped.count a =
      s.fed.count a + s.refused.count a + s.skipped.count a + [p].count a)
    (hempty : ∀ q ∈ skipped, q.data = []) :
    AudioLedger { s with
      queue := queue, queuedBytes := audioBytes queue, started := started, paused := paused,
      fed := fed, refused := refused, skipped := skipped } := by
  refine ⟨rfl, h.pop_limit hq, horder.trans (hq ▸ h.order), .trans ?_ h.places, hempty, h.dropped,
    h.numbered⟩
  rw [List.perm_iff_count]
  intro a
  have hcount := hplaces a
  rw [hq, ← List.singleton_append]
  simp only [List.count_append]
  omega

theorem AudioLedger.feed (h : AudioLedger s) (hq : s.queue = p :: queue) (started paused : Bool) :
    AudioLedger { s with
      queue := queue, queuedBytes := audioBytes queue, started := started, paused := paused,
      fed := s.fed ++ [p] } := by
  refine h.pop hq started paused (by simp) ?_ h.empty
  intro a
  rw [List.count_append]
  omega

theorem AudioLedger.refuse (h : AudioLedger s) (hq : s.queue = p :: queue)
    (started paused : Bool) :
    AudioLedger { s with
      queue := queue, queuedBytes := audioBytes queue, started := started, paused := paused,
      refused := s.refused ++ [p] } := by
  refine h.pop hq started paused ((List.sublist_cons_self p queue).append_left s.fed) ?_ h.empty
  intro a
  rw [List.count_append]
  omega

/-- The front packet is empty and left out. -/
theorem AudioLedger.skip (h : AudioLedger s) (hq : s.queue = p :: queue) (hempty : p.data = [])
    (started paused : Bool) :
    AudioLedger { s with
      queue := queue, queuedBytes := audioBytes queue, started := started, paused := paused,
      skipped := s.skipped ++ [p] } := by
  refine h.pop hq started paused ((List.sublist_cons_self p queue).append_left s.fed) ?_ ?_
  · intro a
    rw [List.count_append]
    omega
  · intro q hq
    rcases List.mem_append.1 hq with hold | hnew
    · exact h.empty q hold
    · rw [List.mem_singleton.1 hnew]
      exact hempty

/-- What the loop does with the front packet once the playback is started. -/
def serviceFront (queueAudio : Nat → Bool) (p : AudioPacket) (queue : List AudioPacket)
    (sdlQueued calls : Nat) (s : AudioState) : Option AudioState :=
  if p.data.length = 0 then
    serviceLoop queueAudio queue sdlQueued calls { s with skipped := s.skipped ++ [p] }
  else if queueAudio calls then
    serviceLoop queueAudio queue (sdlQueued + p.data.length) (calls + 1)
      { s with fed := s.fed ++ [p] }
  else some { s with refused := s.refused ++ [p] }

theorem serviceLoop_cons (h : AudioLedger s) (hq : s.queue = p :: queue)
    (hstart : s.started = true ∨ audioPrebufferBytes ≤ sdlQueued + s.queuedBytes)
    (hroom : sdlQueued < audioTargetBytes) (queueAudio : Nat → Bool) (calls : Nat) :
    serviceLoop queueAudio (p :: queue) sdlQueued calls s =
      serviceFront queueAudio p queue sdlQueued calls
        { s with
          queue := queue, queuedBytes := audioBytes queue, started := true,
          paused := if s.started then s.paused else false } := by
  have hpop : ({ s with started := true } : AudioState).popFront p queue =
      some { s with queue := queue, queuedBytes := audioBytes queue, started := true } :=
    AudioLedger.popFront (s := { s with started := true })
      ⟨h.bytes, h.limit, h.order, h.places, h.empty, h.dropped, h.numbered⟩ hq
  have hgo : ¬ (¬ s.started = true ∧ sdlQueued + s.queuedBytes < audioPrebufferBytes) := by
    rintro ⟨hnot, hlow⟩
    exact hstart.elim hnot fun hlevel => absurd hlow (by omega)
  rw [serviceLoop, if_neg hgo]
  simp only [if_neg (Nat.not_le.2 hroom), hpop, Option.bind_some]
  cases s.started <;> rfl

theorem AudioLedger.start (h : AudioLedger s) : AudioLedger { s with started := true } :=
  ⟨h.bytes, h.limit, h.order, h.places, h.empty, h.dropped, h.numbered⟩

/-- A call that leaves the playback started and the device unpaused. -/
def Unpaused (r : Option AudioState) : Prop :=
  ∃ s, r = some s ∧ AudioLedger s ∧ s.started = true ∧ s.paused = false

theorem serviceFront_unpaused (h : AudioLedger s) (hq : s.queue = p :: queue)
    (queueAudio : Nat → Bool) (calls : Nat) {paused : Bool} (hpaused : paused = false)
    (hloop : ∀ t : AudioState, AudioLedger t → t.queue = queue → t.started = true →
      t.paused = false → ∀ n calls, Unpaused (serviceLoop queueAudio queue n calls t)) :
    Unpaused (serviceFront queueAudio p queue sdlQueued calls
      { s with
        queue := queue, queuedBytes := audioBytes queue, started := true, paused := paused }) := by
  unfold serviceFront
  split
  · rename_i hempty
    exact hloop _ (h.skip hq (List.eq_nil_of_length_eq_zero hempty) true paused) rfl rfl hpaused _ _
  split
  · exact hloop _ (h.feed hq true paused) rfl rfl hpaused _ _
  · exact ⟨_, rfl, h.refuse hq true paused, rfl, hpaused⟩

/-- The loop once the playback is started and the device unpaused. -/
theorem serviceLoop_unpaused (h : AudioLedger s) (hq : s.queue = queue)
    (hstarted : s.started = true) (hpaused : s.paused = false) (queueAudio : Nat → Bool)
    (sdlQueued calls : Nat) : Unpaused (serviceLoop queueAudio queue sdlQueued calls s) := by
  induction queue generalizing s sdlQueued calls with
  | nil =>
    rw [serviceLoop, if_neg fun hnot => hnot.1 hstarted]
    exact ⟨_, rfl, h.start, rfl, hpaused⟩
  | cons p queue ih =>
    by_cases hroom : sdlQueued < audioTargetBytes
    · rw [serviceLoop_cons h hq (.inl hstarted) hroom]
      exact serviceFront_unpaused h hq queueAudio calls (by rw [if_pos hstarted, hpaused])
        fun t ht hq hstarted hpaused => ih ht hq hstarted hpaused
    · rw [serviceLoop, if_neg fun hnot => hnot.1 hstarted]
      simp only [if_pos (Nat.le_of_not_lt hroom)]
      exact ⟨_, rfl, h.start, rfl, hpaused⟩

theorem AudioInv.of_started (h : AudioLedger s) (hstarted : s.started = true)
    (hpaused : s.paused = false) : AudioInv s := by
  refine ⟨h, ?_⟩
  unfold AudioStarted
  rw [if_pos hstarted]
  exact hpaused

/-- **A service goes through.** The playback starts with the first packet fed, as SDL reports an
empty queue before: the call of `SDL_PauseAudioDevice` is not passed over. -/
theorem serviceAudioOutput_spec (h : AudioInv s) (hposs : s.fed = [] → sdlQueued = 0)
    (queueAudio : Nat → Bool) :
    ∃ s', serviceAudioOutput s sdlQueued queueAudio = some s' ∧ AudioInv s' ∧
      (s'.started = true → s.started = true ∨
        s.fed = [] ∧ s.refused = [] ∧ audioPrebufferBytes ≤ s.queuedBytes) := by
  have hlatch := h.started
  have hledger := h.ledger
  unfold AudioStarted at hlatch
  unfold serviceAudioOutput
  cases hstarted : s.started with
  | true =>
    rw [if_pos hstarted] at hlatch
    obtain ⟨s', hs', hledger', hstarted', hpaused'⟩ :=
      serviceLoop_unpaused hledger rfl hstarted hlatch queueAudio sdlQueued 0
    exact ⟨s', hs', .of_started hledger' hstarted' hpaused', fun _ => .inl rfl⟩
  | false =>
    rw [hstarted] at hlatch
    obtain ⟨hfed, hrefused, hskipped⟩ := hlatch
    have hzero := hposs hfed
    by_cases hlow : s.queuedBytes < audioPrebufferBytes
    · -- below the prebuffer level
      have hstop : ¬ s.started = true ∧ sdlQueued + s.queuedBytes < audioPrebufferBytes :=
        ⟨by simp [hstarted], by omega⟩
      refine ⟨s, ?_, h, fun hs => absurd hs (by simp [hstarted])⟩
      cases s.queue <;> rw [serviceLoop, if_pos hstop]
    · cases hq : s.queue with
      | nil =>
        have hbytes := hledger.bytes
        rw [hq] at hbytes
        exact absurd (hbytes ▸ hlow) (by decide)
      | cons p queue =>
        have hroom : sdlQueued < audioTargetBytes := hzero ▸ (by decide)
        rw [serviceLoop_cons hledger hq (.inr (by omega)) hroom]
        obtain ⟨s', hs', hledger', hstarted', hpaused'⟩ :=
          @serviceFront_unpaused _ _ _ sdlQueued hledger hq queueAudio 0 _
            (if_neg (ne_true_of_eq_false hstarted)) fun t ht hq hstarted hpaused =>
              serviceLoop_unpaused ht hq hstarted hpaused queueAudio
        exact ⟨s', hs', .of_started hledger' hstarted' hpaused',
          fun _ => .inr ⟨hfed, hrefused, by omega⟩⟩

/-! ## Runs -/

theorem audioStep_spec (h : AudioInv s) {e : AudioEvent} (hposs : e.Possible s) :
    ∃ s', audioStep s e = some s' ∧ AudioInv s' ∧
      (s'.started = true → s.started = true ∨
        s.fed = [] ∧ s.refused = [] ∧ audioPrebufferBytes ≤ s.queuedBytes) := by
  unfold audioStep
  rw [if_neg (not_not.2 hposs)]
  cases e with
  | enqueue payload =>
    obtain ⟨s', hs', hinv, hstarted, -⟩ := enqueueAudioPacket_spec h payload
    exact ⟨s', hs', hinv, fun hs => .inl (hstarted ▸ hs)⟩
  | service sdlQueued queueAudio => exact serviceAudioOutput_spec h hposs queueAudio

theorem audioStep_received (h : AudioInv s) {e : AudioEvent} (hs : audioStep s e = some s') :
    s'.received.map AudioPacket.data =
      s.received.map AudioPacket.data ++ e.payload.toList := by
  unfold audioStep at hs
  split at hs
  · cases hs
  cases e with
  | enqueue payload => exact enqueueAudioPacket_received h.ledger payload hs
  | service sdlQueued queueAudio =>
    rw [serviceLoop_received hs]
    exact (List.append_nil _).symm

theorem audioInv_start : AudioInv {} :=
  ⟨⟨rfl, Nat.zero_le _, .refl _, .refl _, fun _ hp => absurd hp List.not_mem_nil, rfl, rfl⟩,
    rfl, rfl, rfl⟩

theorem audioInv_step {e : AudioEvent} (h : AudioInv s) (hs : audioStep s e = some s') :
    AudioInv s' ∧ (s'.started = true → s.started = true ∨
      s.fed = [] ∧ s.refused = [] ∧ audioPrebufferBytes ≤ s.queuedBytes) := by
  have hposs : e.Possible s := by
    by_contra hno
    unfold audioStep at hs
    rw [if_pos hno] at hs
    cases hs
  obtain ⟨m, hm, hspec⟩ := audioStep_spec h hposs
  cases hs.symm.trans hm
  exact hspec

/-- The packets received are those of the calls. -/
theorem received_run {es : List AudioEvent} (hrun : Run.run audioStep {} es = some s) :
    s.received.map AudioPacket.data = es.filterMap AudioEvent.payload :=
  Run.trace (f := fun s => s.received.map AudioPacket.data)
    (fun h hs => ⟨(audioInv_step h hs).1, audioStep_received h hs⟩) hrun audioInv_start

/-- A playback was started at a call that found the queue filled to the prebuffer level. -/
theorem started_run {es : List AudioEvent} (hrun : Run.run audioStep {} es = some s)
    (hstarted : s.started = true) :
    ∃ before after s₁, es = before ++ after ∧ Run.run audioStep {} before = some s₁ ∧
      s₁.fed = [] ∧ s₁.refused = [] ∧ audioPrebufferBytes ≤ s₁.queuedBytes := by
  induction es using List.reverseRecOn generalizing s with
  | nil =>
    cases hrun
    exact absurd hstarted Bool.false_ne_true
  | append_singleton es e ih =>
    obtain ⟨m, hm, hs⟩ := (Run.run_append audioStep).1 hrun
    obtain ⟨m', hs, hend⟩ := (Run.run_cons audioStep).1 hs
    cases hend
    have hinv : AudioInv m := Run.inv (fun h hs => (audioInv_step h hs).1) hm audioInv_start
    obtain hold | hnow := (audioInv_step hinv hs).2 hstarted
    · obtain ⟨before, after, s₁, rfl, hrest⟩ := ih hm hold
      exact ⟨before, after ++ [e], s₁, List.append_assoc _ _ _, hrest⟩
    · exact ⟨es, [e], m, rfl, hm, hnow⟩

/-- **The audio queue over any sequence of calls.** `queued_bytes` is the size of the queue and
within the limit; the packets received are those of the calls of `enqueue_audio_packet`, and every
one is in one place; what is fed is in the order received; nothing is fed or refused before the
queue was filled to the prebuffer level; the device of a started playback is unpaused; and every
further call goes through, no decrement of `queued_bytes` going below zero. -/
theorem run_audio {es : List AudioEvent} (hrun : Run.run audioStep {} es = some s) :
    s.queuedBytes = audioBytes s.queue ∧ s.queuedBytes ≤ audioMaxBufferBytes ∧
      s.received.map AudioPacket.data = es.filterMap AudioEvent.payload ∧
      s.received.map AudioPacket.arrival = List.range s.received.length ∧
      s.fed.Sublist s.received ∧
      (s.fed ++ s.refused ++ s.skipped ++ s.dropped ++ s.queue).Perm s.received ∧
      s.droppedPackets = s.dropped.length ∧ (∀ p ∈ s.skipped, p.data = []) ∧
      (s.started = true → s.paused = false) ∧
      (s.fed ≠ [] ∨ s.refused ≠ [] → ∃ before after s₁, es = before ++ after ∧
        Run.run audioStep {} before = some s₁ ∧ s₁.fed = [] ∧ s₁.refused = [] ∧
        audioPrebufferBytes ≤ s₁.queuedBytes) ∧
      ∀ e : AudioEvent, e.Possible s → (audioStep s e).isSome := by
  have hinv : AudioInv s := Run.inv (fun h hs => (audioInv_step h hs).1) hrun audioInv_start
  have hledger := hinv.ledger
  have hlatch := hinv.started
  unfold AudioStarted at hlatch
  refine ⟨hledger.bytes, hledger.limit, received_run hrun, hledger.numbered,
    (List.sublist_append_left _ _).trans hledger.order, hledger.places, hledger.dropped,
    hledger.empty, ?_, fun hfed => started_run hrun ?_, ?_⟩
  · intro hstarted
    rwa [if_pos hstarted] at hlatch
  · by_contra hno
    rw [if_neg hno] at hlatch
    exact hfed.elim (fun h => h hlatch.1) fun h => h hlatch.2.1
  · intro e hposs
    obtain ⟨s', hs', -⟩ := audioStep_spec hinv hposs
    rw [hs']
    rfl

/-- Two packets fill the queue to the prebuffer level and are fed, as is the third; SDL refuses the
fourth, and the fifth waits. -/
def feedRun : List AudioEvent :=
  [.enqueue (List.replicate 4096 0x10), .service 0 fun _ => true,
    .enqueue (List.replicate 4096 0x20), .enqueue [], .service 0 fun _ => true,
    .enqueue [0x30, 0x31], .enqueue [0x40], .enqueue [0x50], .service 100 fun i => i == 0]

theorem run_audio_feedRun :
    ∃ s, Run.run audioStep {} feedRun = some s ∧ s.fed.map AudioPacket.arrival = [0, 1, 3] ∧
      s.refused = [⟨4, [0x40]⟩] ∧ s.queue = [⟨5, [0x50]⟩] ∧ s.paused = false ∧
      s.received.map AudioPacket.data = feedRun.filterMap AudioEvent.payload := by
  have h : (Run.run audioStep {} feedRun).any (fun s => decide (
      s.fed.map AudioPacket.arrival = [0, 1, 3] ∧ s.refused = [⟨4, [0x40]⟩] ∧
        s.queue = [⟨5, [0x50]⟩] ∧ s.started = true)) = true := by
    decide +kernel
  obtain ⟨s, hs, hfacts⟩ := (Option.any_eq_true _ _).1 h
  obtain ⟨hfed, hrefused, hqueue, hstarted⟩ := of_decide_eq_true hfacts
  obtain ⟨-, -, hreceived, -, -, -, -, -, hunpaused, -⟩ := run_audio hs
  exact ⟨s, hs, hfed, hrefused, hqueue, hunpaused hstarted, hreceived⟩

end

end Client
