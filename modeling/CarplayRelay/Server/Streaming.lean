import CarplayRelay.Lib.Run
import Mathlib.Data.List.Basic

/-!
# Starting and stopping the streaming threads

The event thread of a connection starts and stops its video and audio threads through two bits of
`app->state` each: a start sets STREAMING, a stop sets CLOSING and waits for STREAMING to be
cleared by the thread, which clears both bits one after the other when it leaves its loop. Every
statement that reads or updates the word is one step.

`Side` is what the connection is for one kind of thread: every step of the connection is a step
of each of its sides or leaves it alone (`side_step`), and a step of a side keeps its invariant
(`sideInv_step`). The video thread clears CLOSING first, which is right in every run. The audio
thread clears STREAMING first, and also leaves when `malloc` fails: between its two clears, and
between the test and the update of `stop_audio_stream`, is a `Window`.

* `run_handshake`: in every run that keeps out of the window the handshake holds.
* `handshake_fails`: in a run that does not, a stop returns with CLOSING still set.
-/

namespace Server

/-! ## The code -/

/-- The two kinds of streaming threads. -/
inductive Kind
  | video
  | audio
  deriving DecidableEq, Repr

/-- `STATE_CLOSING_VIDEO`, `STATE_CLOSING_AUDIO`. -/
def closing : Kind → UInt32
  | .video => 0x01
  | .audio => 0x08

/-- `STATE_STREAMING_VIDEO`, `STATE_STREAMING_AUDIO`. -/
def streaming : Kind → UInt32
  | .video => 0x02
  | .audio => 0x10

/-- The C condition `state & flag`. -/
def isSet (state flag : UInt32) : Bool := state &&& flag != 0

/-- Where a streaming thread is. -/
inductive ThreadPc
  | enter
  /-- At the test of CLOSING. -/
  | test
  /-- In the body of its loop. -/
  | send
  | clearFirst
  | clearSecond
  | done
  deriving DecidableEq, Repr

/-- A statement of `h264_streaming`. -/
def h264Streaming (state : UInt32) : ThreadPc → Option (UInt32 × ThreadPc)
  | .enter => some (state, .test)
  | .test =>
    some (state, if state &&& closing .video = closing .video then .clearFirst else .send)
  | .send => some (state, .test)
  | .clearFirst => some (state &&& ~~~closing .video, .clearSecond)
  | .clearSecond => some (state &&& ~~~streaming .video, .done)
  | .done => none

/-- A statement of `audio_streaming`; `ok` is false if there is no bitstream or `malloc` fails. -/
def audioStreaming (state : UInt32) (ok : Bool) : ThreadPc → Option (UInt32 × ThreadPc)
  | .enter => some (state, if ok then .test else .done)
  | .test =>
    some (state, if state &&& closing .audio = closing .audio then .clearFirst else .send)
  | .send => some (state, if ok then .test else .clearFirst)
  | .clearFirst => some (state &&& ~~~streaming .audio, .clearSecond)
  | .clearSecond => some (state &&& ~~~closing .audio, .done)
  | .done => none

def threadStep : Kind → UInt32 → Bool → ThreadPc → Option (UInt32 × ThreadPc)
  | .video, state, _, pc => h264Streaming state pc
  | .audio, state, ok, pc => audioStreaming state ok pc

/-- Where the event thread is. A stop with `closing` was called by `onclose`. -/
inductive EventPc
  | idle
  /-- In `start_*_stream`, before the update of the word and before `pthread_create`. -/
  | startSet (k : Kind)
  | startCreate (k : Kind)
  /-- In `stop_*_stream`, before the update of the word, in the loop, and at the return. -/
  | stopSet (k : Kind) (closing : Bool)
  | stopPoll (k : Kind) (closing : Bool)
  | stopped (k : Kind) (closing : Bool)
  /-- `onclose` has freed `app`. -/
  | closed
  deriving DecidableEq, Repr

/-- A connection. `stoppedLast` is not in the code: the last command of the kind was a stop, which
has returned. -/
structure Conn where
  state : UInt32 := 0
  pc : EventPc := .idle
  threads : Kind → List ThreadPc := fun _ => []
  stoppedLast : Kind → Bool := fun _ => false

inductive ConnEvent
  /-- The event thread receives a command, or `onclose` is called. -/
  | start (k : Kind)
  | stop (k : Kind)
  | close
  /-- The event thread goes on. -/
  | go
  /-- Streaming thread `i` of a kind goes on. -/
  | thread (k : Kind) (i : Nat) (ok : Bool)
  deriving DecidableEq, Repr

/-- The test at the head of `stop_*_stream`. -/
def stopTest (s : Conn) (k : Kind) (closing : Bool) : Conn :=
  if isSet s.state (streaming k) then { s with pc := .stopSet k closing }
  else { s with
    pc := .stopped k closing, stoppedLast := Function.update s.stoppedLast k true }

/-- The event thread in the middle of a command. -/
def eventStep (s : Conn) : EventPc → Option Conn
  | .idle | .closed => none
  | .startSet k => some { s with state := s.state ||| streaming k, pc := .startCreate k }
  | .startCreate k => some { s with
      threads := Function.update s.threads k (s.threads k ++ [.enter]), pc := .idle }
  | .stopSet k closing' =>
    some { s with state := s.state ||| closing k, pc := .stopPoll k closing' }
  | .stopPoll k closing' =>
    if isSet s.state (streaming k) then some s
    else some { s with
      pc := .stopped k closing', stoppedLast := Function.update s.stoppedLast k true }
  | .stopped _ false => some { s with pc := .idle }
  | .stopped .video true => some (stopTest s .audio true)
  | .stopped .audio true => some { s with pc := .closed }

def connStep (s : Conn) : ConnEvent → Option Conn
  | .start k =>
    if s.pc ≠ .idle then none
    else
      let s := { s with stoppedLast := Function.update s.stoppedLast k false }
      some (if isSet s.state (streaming k) then s else { s with pc := .startSet k })
  | .stop k => if s.pc ≠ .idle then none else some (stopTest s k false)
  | .close => if s.pc ≠ .idle then none else some (stopTest s .video true)
  | .go => eventStep s s.pc
  | .thread k i ok =>
    match (s.threads k)[i]? with
    | none => none
    | some pc =>
      (threadStep k s.state ok pc).map fun (state, pc) =>
        { s with
          state := state
          threads := Function.update s.threads k ((s.threads k).set i pc) }

/-! ## The handshake -/

/-- What a stop and a start promise. -/
structure Handshake (s : Conn) : Prop where
  /-- When a stop returns, both flags are clear and no thread of the kind runs any more. -/
  stop_clear : ∀ {k closing'}, s.pc = .stopped k closing' →
    isSet s.state (closing k) = false ∧ isSet s.state (streaming k) = false
  stop_done : ∀ {k closing'}, s.pc = .stopped k closing' → ∀ pc ∈ s.threads k, pc = .done
  /-- No thread runs when `app` is freed. -/
  closed_done : s.pc = .closed → ∀ k, ∀ pc ∈ s.threads k, pc = .done
  /-- A start after a stop is accepted, and leaves one running thread that is not told to stop. -/
  start_accepted : ∀ {k s'}, s.stoppedLast k → connStep s (.start k) = some s' →
    s'.pc = .startSet k
  start_one : ∀ {k s'}, s.pc = .startCreate k → connStep s .go = some s' →
    (s'.threads k).countP (· ≠ .done) = 1 ∧ isSet s'.state (closing k) = false

/-! ## One kind of thread -/

/-- Where the event thread is, for one kind. -/
inductive SidePc
  | away
  | startSet
  | startCreate
  | stopSet
  | stopPoll
  deriving DecidableEq, Repr

/-- What one kind of thread has to do with the connection. -/
structure Side where
  streaming : Bool
  closing : Bool
  pc : SidePc
  threads : List ThreadPc
  stoppedLast : Bool

inductive SideEvent
  | startTest
  | setStreaming
  | create
  | stopTest
  | setClosing
  | poll
  | thread (i : Nat) (ok : Bool)
  deriving DecidableEq, Repr

/-- A statement of a streaming thread on the flags of its kind: STREAMING, CLOSING and the
thread's position after it. -/
def sideThread (k : Kind) (streaming closing ok : Bool) :
    ThreadPc → Option (Bool × Bool × ThreadPc)
  | .enter => some (streaming, closing, if k = .video ∨ ok then .test else .done)
  | .test => some (streaming, closing, if closing then .clearFirst else .send)
  | .send => some (streaming, closing, if k = .video ∨ ok then .test else .clearFirst)
  | .clearFirst =>
    match k with
    | .video => some (streaming, false, .clearSecond)
    | .audio => some (false, closing, .clearSecond)
  | .clearSecond =>
    match k with
    | .video => some (false, closing, .done)
    | .audio => some (streaming, false, .done)
  | .done => none

def sideStep (k : Kind) (s : Side) : SideEvent → Option Side
  | .startTest =>
    if s.pc ≠ .away then none
    else some { s with
      pc := if s.streaming then .away else .startSet, stoppedLast := false }
  | .setStreaming =>
    if s.pc ≠ .startSet then none else some { s with streaming := true, pc := .startCreate }
  | .create =>
    if s.pc ≠ .startCreate then none
    else some { s with threads := s.threads ++ [.enter], pc := .away }
  | .stopTest =>
    if s.pc ≠ .away then none
    else some (if s.streaming then { s with pc := .stopSet } else { s with stoppedLast := true })
  | .setClosing =>
    if s.pc ≠ .stopSet then none else some { s with closing := true, pc := .stopPoll }
  | .poll =>
    if s.pc ≠ .stopPoll then none
    else some (if s.streaming then s else { s with pc := .away, stoppedLast := true })
  | .thread i ok =>
    match s.threads[i]? with
    | none => none
    | some pc =>
      (sideThread k s.streaming s.closing ok pc).map fun (streaming, closing, pc) =>
        { s with streaming := streaming, closing := closing, threads := s.threads.set i pc }

/-! ## The connection has two sides -/

theorem isSet_or (w f g : UInt32) : isSet (w ||| f) g = (isSet w g || isSet f g) := by
  have h : (w ||| f) &&& g = (w &&& g) ||| (f &&& g) :=
    UInt32.toBitVec_inj.1 (by simp [BitVec.and_or_distrib_right])
  simp only [isSet, h, bne, Bool.not_eq_eq_eq_not, ← Bool.not_and]
  rw [Bool.eq_iff_iff]
  simp [UInt32.or_eq_zero_iff]

theorem isSet_and (w m g : UInt32) : isSet (w &&& m) g = isSet w (m &&& g) := by
  simp only [isSet, UInt32.and_assoc]

@[simp] theorem isSet_zero (w : UInt32) : isSet w 0 = false := by simp [isSet]

/-- A flag is one bit: the test of the threads is the test of the commands. -/
theorem and_closing (w : UInt32) (k : Kind) :
    w &&& closing k = closing k ↔ isSet w (closing k) = true := by
  obtain ⟨i, hi⟩ : ∃ i, (closing k).toBitVec = BitVec.twoPow 32 i := by
    cases k
    · exact ⟨0, rfl⟩
    · exact ⟨3, rfl⟩
  have h0 : (closing k).toBitVec ≠ 0#32 := by cases k <;> decide
  have h : w &&& closing k = closing k ∨ w &&& closing k = 0 := by
    simp only [← UInt32.toBitVec_inj, UInt32.toBitVec_and, hi, BitVec.and_twoPow]
    by_cases hw : w.toBitVec.getLsbD i <;> simp [hw]
  have hne : closing k ≠ 0 := by cases k <;> decide
  rcases h with h | h <;> simp [isSet, h, hne, hne.symm]

@[simp] theorem isSet_clear (w f : UInt32) : isSet (w &&& ~~~f) f = false := by
  rw [isSet_and]; simp

theorem isSet_clear_of {w f g : UInt32} (h : ~~~f &&& g = g) :
    isSet (w &&& ~~~f) g = isSet w g := by
  rw [isSet_and, h]

theorem isSet_set {w f : UInt32} (h : f ≠ 0) : isSet (w ||| f) f = true := by
  rw [isSet_or]; simp [isSet, h]

theorem isSet_set_of {w f g : UInt32} (h : f &&& g = 0) : isSet (w ||| f) g = isSet w g := by
  rw [isSet_or]; simp [isSet, h]

/-- What the connection is for one kind of thread. -/
def Conn.side (s : Conn) (k : Kind) : Side where
  streaming := isSet s.state (streaming k)
  closing := isSet s.state (closing k)
  pc := match s.pc with
    | .startSet k' => if k' = k then .startSet else .away
    | .startCreate k' => if k' = k then .startCreate else .away
    | .stopSet k' _ => if k' = k then .stopSet else .away
    | .stopPoll k' _ => if k' = k then .stopPoll else .away
    | .idle | .stopped _ _ | .closed => .away
  threads := s.threads k
  stoppedLast := s.stoppedLast k

/-- What an event is for one kind of thread, if it has to do with it. -/
def sideEvent (s : Conn) (k : Kind) : ConnEvent → Option SideEvent
  | .start k' => if k' = k then some .startTest else none
  | .stop k' => if k' = k then some .stopTest else none
  | .close => if k = .video then some .stopTest else none
  | .go =>
    match s.pc with
    | .startSet k' => if k' = k then some .setStreaming else none
    | .startCreate k' => if k' = k then some .create else none
    | .stopSet k' _ => if k' = k then some .setClosing else none
    | .stopPoll k' _ => if k' = k then some .poll else none
    | .stopped .video true => if k = .audio then some .stopTest else none
    | _ => none
  | .thread k' i ok => if k' = k then some (.thread i ok) else none

theorem threadStep_own {k : Kind} {w w' : UInt32} {ok : Bool} {pc pc' : ThreadPc}
    (h : threadStep k w ok pc = some (w', pc')) :
    sideThread k (isSet w (streaming k)) (isSet w (closing k)) ok pc =
      some (isSet w' (streaming k), isSet w' (closing k), pc') := by
  cases k <;> cases pc <;>
    simp only [threadStep, h264Streaming, audioStreaming, and_closing, Option.some.injEq,
      Prod.mk.injEq, reduceCtorEq] at h <;>
    obtain ⟨rfl, rfl⟩ := h <;>
    simp (disch := decide) [sideThread, isSet_clear_of]

/-- It leaves the flags of the other kind alone. -/
theorem threadStep_other {k k' : Kind} {w w' : UInt32} {ok : Bool} {pc pc' : ThreadPc}
    (h : threadStep k w ok pc = some (w', pc')) (hk : k ≠ k') :
    isSet w' (streaming k') = isSet w (streaming k') ∧
      isSet w' (closing k') = isSet w (closing k') := by
  cases k <;> cases k' <;> try exact absurd rfl hk
  all_goals
    cases pc <;>
    simp only [threadStep, h264Streaming, audioStreaming, Option.some.injEq, Prod.mk.injEq,
      reduceCtorEq] at h <;>
    obtain ⟨rfl, rfl⟩ := h <;>
    simp (disch := decide) [isSet_clear_of]

/-- The test at the head of a stop, for each side. -/
theorem stopTest_side {s : Conn} {k : Kind} (k' : Kind) (c : Bool) (h : (s.side k).pc = .away) :
    (if k' = k then some SideEvent.stopTest else none).elim (some (s.side k))
      (sideStep k (s.side k)) = some ((stopTest s k' c).side k) := by
  by_cases hk : k' = k
  · subst hk
    simp only [if_pos, Option.elim_some, sideStep, h, ne_eq, not_true_eq_false, if_false,
      stopTest]
    by_cases hf : isSet s.state (streaming k') <;> simp_all [Conn.side]
  · simp only [hk, if_false, Option.elim_none, stopTest]
    by_cases hf : isSet s.state (streaming k') <;>
      simp_all [Conn.side, Function.update_of_ne (Ne.symm hk)]

/-- The event thread in the middle of a command, for each side. -/
theorem go_side {s s' : Conn} (h : eventStep s s.pc = some s') (k : Kind) :
    (sideEvent s k .go).elim (some (s.side k)) (sideStep k (s.side k)) = some (s'.side k) := by
  cases hpc : s.pc with
  | idle => simp [hpc, eventStep] at h
  | closed => simp [hpc, eventStep] at h
  | startSet k' =>
    simp only [hpc, eventStep, Option.some.injEq] at h
    subst h
    cases k <;> cases k' <;>
      simp (disch := decide) [sideEvent, hpc, Conn.side, sideStep, isSet_set, isSet_set_of]
  | startCreate k' =>
    simp only [hpc, eventStep, Option.some.injEq] at h
    subst h
    cases k <;> cases k' <;> simp [sideEvent, hpc, Conn.side, sideStep]
  | stopSet k' c =>
    simp only [hpc, eventStep, Option.some.injEq] at h
    subst h
    cases k <;> cases k' <;>
      simp (disch := decide) [sideEvent, hpc, Conn.side, sideStep, isSet_set, isSet_set_of]
  | stopPoll k' c =>
    simp only [hpc, eventStep] at h
    split at h <;> cases h <;> rename_i hf <;> cases k <;> cases k' <;>
      simp [sideEvent, hpc, Conn.side, sideStep, hf]
  | stopped k' c =>
    rcases c with _ | _
    · cases hpc ▸ h
      cases k <;> cases k' <;> simp [sideEvent, hpc, Conn.side]
    · cases k' with
      | audio =>
        cases hpc ▸ h
        cases k <;> simp [sideEvent, hpc, Conn.side]
      | video =>
        cases hpc ▸ h
        have := stopTest_side (k := k) .audio true (s := s) (by simp [Conn.side, hpc])
        simpa [sideEvent, hpc, eq_comm] using this

/-- **Every step of the connection is a step of each of its sides**, or leaves the side alone. -/
theorem side_step {s s' : Conn} {e : ConnEvent} (h : connStep s e = some s') (k : Kind) :
    (sideEvent s k e).elim (some (s.side k)) (sideStep k (s.side k)) = some (s'.side k) := by
  cases e with
  | start k' =>
    simp only [connStep, sideEvent] at h ⊢
    split at h
    · cases h
    · rename_i hpc
      simp only [not_not] at hpc
      cases h
      by_cases hk : k' = k
      · subst hk
        by_cases hf : isSet s.state (streaming k') <;>
          simp [sideStep, Conn.side, hpc, hf]
      · by_cases hf : isSet s.state (streaming k') <;>
          simp [Conn.side, hpc, hf, hk, Function.update_of_ne (Ne.symm hk)]
  | stop k' =>
    simp only [connStep] at h
    split at h
    · cases h
    · rename_i hpc
      cases h
      exact stopTest_side k' false (by simp [Conn.side, not_not.1 hpc])
  | close =>
    simp only [connStep] at h
    split at h
    · cases h
    · rename_i hpc
      cases h
      have := stopTest_side (k := k) .video true (s := s) (by simp [Conn.side, not_not.1 hpc])
      simpa [sideEvent, eq_comm] using this
  | go => exact go_side h k
  | thread k' i ok =>
    simp only [connStep] at h
    split at h
    · cases h
    · rename_i pc hpc
      obtain ⟨⟨w, pc'⟩, ht, rfl⟩ := Option.map_eq_some_iff.1 h
      by_cases hk : k' = k
      · subst hk
        have hside : (s.side k').threads[i]? = some pc := hpc
        simp only [sideEvent, if_pos, Option.elim_some, sideStep, hside]
        rw [show (s.side k').streaming = isSet s.state (streaming k') from rfl,
          show (s.side k').closing = isSet s.state (closing k') from rfl, threadStep_own ht]
        simp [Conn.side]
      · obtain ⟨h1, h2⟩ := threadStep_other ht hk
        simp [sideEvent, hk, Conn.side, h1, h2, Function.update_of_ne (Ne.symm hk)]

/-! ## The invariant of a side -/

/-- What holds of a side whose only running thread is at `r`. -/
structure SideInv (k : Kind) (s : Side) (r : Option ThreadPc) : Prop where
  running : s.threads.filter (· ≠ .done) = r.toList
  /-- With STREAMING clear, only an audio thread can still be about to clear CLOSING. -/
  quiet : s.streaming = false → r = none ∨ k = .audio ∧ r = some .clearSecond
  told : s.closing = true →
    s.pc = .stopPoll ∧ (s.streaming = true ∨ k = .audio ∧ r = some .clearSecond)
  starting : s.pc = .startSet ∨ s.pc = .startCreate → r = none ∧ s.stoppedLast = false
  created : s.pc = .startCreate → s.streaming = true
  /-- A video thread leaves only when it is told to. -/
  stopping : k = .video → s.pc = .stopSet → s.streaming = true
  leaving : k = .video → r = some .clearFirst ∨ r = some .clearSecond → s.pc = .stopPoll
  video_second : k = .video → r = some .clearSecond → s.closing = false
  audio_second : k = .audio → r = some .clearSecond → s.streaming = false
  stopped : s.stoppedLast = true →
    s.pc = .away ∧ r = none ∧ s.streaming = false ∧ s.closing = false

/-- The event thread looks at STREAMING while a thread has cleared only the first of its flags, or
sets CLOSING for a thread that has left. -/
def Window (s : Side) : SideEvent → Prop
  | .startTest | .stopTest | .poll => .clearSecond ∈ s.threads
  | .setClosing => s.streaming = false ∧ .clearSecond ∉ s.threads
  | .setStreaming | .create | .thread _ _ => False

instance (s : Side) (e : SideEvent) : Decidable (Window s e) := by
  cases e <;> unfold Window <;> infer_instance

theorem filter_set {threads : List ThreadPc} {i : Nat} {pc : ThreadPc} {r : Option ThreadPc}
    (h : threads.filter (· ≠ .done) = r.toList) (hi : threads[i]? = some pc)
    (hpc : pc ≠ .done) (pc' : ThreadPc) :
    r = some pc ∧ (threads.set i pc').filter (· ≠ .done) =
      (if pc' = .done then none else some pc').toList := by
  obtain ⟨hlt, hget⟩ := List.getElem?_eq_some_iff.1 hi
  have hsplit : threads = threads.take i ++ pc :: threads.drop (i + 1) := by
    rw [← hget, List.getElem_cons_drop, List.take_append_drop]
  rw [hsplit] at h
  rw [List.set_eq_take_append_cons_drop, if_pos hlt]
  simp only [List.filter_append, List.filter_cons, hpc, ne_eq, not_false_eq_true, decide_true,
    if_true] at h ⊢
  cases r with
  | none => simp at h
  | some q =>
    obtain ⟨ht, hq, hd⟩ : (threads.take i).filter (fun x => decide ¬x = .done) = [] ∧ pc = q ∧
        (threads.drop (i + 1)).filter (fun x => decide ¬x = .done) = [] := by
      simpa [List.append_eq_singleton_iff] using h
    rw [ht, hd, hq]
    refine ⟨rfl, ?_⟩
    by_cases hpc' : pc' = .done <;> simp [hpc']

theorem mem_of_running {threads : List ThreadPc} {r : Option ThreadPc} {pc : ThreadPc}
    (h : threads.filter (· ≠ .done) = r.toList) (hpc : pc ≠ .done) :
    pc ∈ threads ↔ r = some pc := by
  have : pc ∈ threads.filter (· ≠ .done) ↔ pc ∈ threads := by simp [hpc]
  rw [← this, h, Option.mem_toList]

section
variable {k : Kind} {s s' : Side} {r : Option ThreadPc}

theorem SideInv.streaming_set {pc : ThreadPc} (h : SideInv k s (some pc))
    (hpc : pc ≠ .clearSecond) : s.streaming = true := by
  by_contra hst
  rcases h.quiet (by simpa using hst) with hr | ⟨-, hr⟩
  · cases hr
  · exact hpc (Option.some.inj hr)

theorem SideInv.busy {pc : ThreadPc} (h : SideInv k s (some pc)) :
    s.pc ≠ .startSet ∧ s.pc ≠ .startCreate ∧ s.stoppedLast = false := by
  refine ⟨?_, ?_, ?_⟩
  · intro hp
    cases (h.starting (.inl hp)).1
  · intro hp
    cases (h.starting (.inr hp)).1
  · by_contra hl
    cases (h.stopped (by simpa using hl)).2.1

/-- A statement that leaves both flags alone. -/
theorem SideInv.keep {pc : ThreadPc} (h : SideInv k s (some pc)) (hpc : pc ≠ .clearSecond)
    {threads : List ThreadPc} (hrun : threads.filter (· ≠ .done) = r.toList)
    (hr : r ≠ some .clearSecond)
    (hleave : k = .video → r = some .clearFirst → s.pc = .stopPoll) :
    SideInv k { s with threads := threads } r where
  running := hrun
  quiet hst := absurd (h.streaming_set hpc) (by simpa using hst)
  told hcl := ⟨(h.told hcl).1, .inl (h.streaming_set hpc)⟩
  starting hp := by rcases hp with hp | hp; exacts [absurd hp h.busy.1, absurd hp h.busy.2.1]
  created := h.created
  stopping := h.stopping
  leaving hk hr' := hr'.elim (hleave hk) (absurd · hr)
  video_second _ hr' := absurd hr' hr
  audio_second _ hr' := absurd hr' hr
  stopped hl := by simp [h.busy.2.2] at hl

/-- The thread clears its first flag, after which STREAMING is still set for a video thread and
clear for an audio thread. -/
theorem SideInv.clearFirst (h : SideInv k s (some .clearFirst)) {ok st cl : Bool} {pc : ThreadPc}
    (ht : sideThread k s.streaming s.closing ok .clearFirst = some (st, cl, pc))
    {threads : List ThreadPc}
    (hrun : threads.filter (· ≠ .done) = (if pc = .done then none else some pc).toList) :
    SideInv k { s with streaming := st, closing := cl, threads := threads }
      (if pc = .done then none else some pc) := by
  have hst := h.streaming_set (by simp)
  obtain ⟨hstart, hcreate, hlast⟩ := h.busy
  cases k with
  | video =>
    cases ht
    exact {
      running := hrun
      quiet hs := absurd hst (by simpa using hs)
      told hcl := nomatch hcl
      starting hp := by simp [hstart, hcreate] at hp
      created := h.created
      stopping _ _ := hst
      leaving _ _ := h.leaving rfl (.inl rfl)
      video_second _ _ := rfl
      audio_second hk := nomatch hk
      stopped hl := by simp [hlast] at hl }
  | audio =>
    cases ht
    exact {
      running := hrun
      quiet _ := .inr ⟨rfl, rfl⟩
      told hcl := ⟨(h.told hcl).1, .inr ⟨rfl, rfl⟩⟩
      starting hp := by simp [hstart, hcreate] at hp
      created hp := absurd hp hcreate
      stopping hk := nomatch hk
      leaving hk := nomatch hk
      video_second hk := nomatch hk
      audio_second _ _ := rfl
      stopped hl := by simp [hlast] at hl }

/-- The thread clears its second flag and is done. -/
theorem SideInv.clearSecond (h : SideInv k s (some .clearSecond)) {ok st cl : Bool} {pc : ThreadPc}
    (ht : sideThread k s.streaming s.closing ok .clearSecond = some (st, cl, pc))
    {threads : List ThreadPc}
    (hrun : threads.filter (· ≠ .done) = (if pc = .done then none else some pc).toList) :
    SideInv k { s with streaming := st, closing := cl, threads := threads }
      (if pc = .done then none else some pc) := by
  obtain ⟨hstart, hcreate, hlast⟩ := h.busy
  cases k with
  | video =>
    cases ht
    exact {
      running := hrun
      quiet _ := .inl rfl
      told hcl := by simp [h.video_second rfl rfl] at hcl
      starting hp := by simp [hstart, hcreate] at hp
      created hp := absurd hp hcreate
      stopping _ hp := by simp [h.leaving rfl (.inr rfl)] at hp
      leaving _ hr := by simp at hr
      video_second _ hr := by simp at hr
      audio_second hk := nomatch hk
      stopped hl := by simp [hlast] at hl }
  | audio =>
    cases ht
    exact {
      running := hrun
      quiet _ := .inl rfl
      told hcl := nomatch hcl
      starting hp := by simp [hstart, hcreate] at hp
      created hp := absurd hp hcreate
      stopping hk := nomatch hk
      leaving hk := nomatch hk
      video_second hk := nomatch hk
      audio_second _ hr := by simp at hr
      stopped hl := by simp [hlast] at hl }

/-- The thread of a side goes on. -/
theorem SideInv.thread (h : SideInv k s r) {i : Nat} {ok : Bool}
    (hs : sideStep k s (.thread i ok) = some s') : ∃ r', SideInv k s' r' := by
  simp only [sideStep] at hs
  split at hs
  · cases hs
  rename_i pc hpc
  obtain ⟨⟨st, cl, pc'⟩, ht, rfl⟩ := Option.map_eq_some_iff.1 hs
  have hlive : pc ≠ .done := by rintro rfl; simp [sideThread] at ht
  obtain ⟨rfl, hset⟩ := filter_set h.running hpc hlive pc'
  refine ⟨if pc' = .done then none else some pc', ?_⟩
  cases pc with
  | enter =>
    cases ht
    exact h.keep (by simp) hset (by split <;> simp_all) (by split <;> simp_all)
  | test =>
    cases ht
    apply h.keep (by simp) hset (by split <;> simp_all)
    intro hk hr
    by_cases hcl : s.closing = true
    · exact (h.told hcl).1
    · simp [hcl] at hr
  | send =>
    cases ht
    exact h.keep (by simp) hset (by split <;> simp_all) (by rintro rfl; simp)
  | clearFirst => exact h.clearFirst ht hset
  | clearSecond => exact h.clearSecond ht hset
  | done => exact absurd rfl hlive

theorem SideInv.none_of_quiet (h : SideInv k s r) (hr : k = .audio → r ≠ some .clearSecond)
    (hst : s.streaming = false) : r = none :=
  (h.quiet hst).elim id fun ⟨hk, hr'⟩ => absurd hr' (hr hk)

/-- A stop returns. -/
theorem SideInv.stop_return (h : SideInv k s r) (hr : k = .audio → r ≠ some .clearSecond)
    (hst : s.streaming = false) :
    SideInv k { s with pc := .away, stoppedLast := true } none := by
  obtain rfl := h.none_of_quiet hr hst
  have hcl : s.closing = false := by
    by_contra hcl
    rcases (h.told (by simpa using hcl)).2 with hst' | ⟨-, hr'⟩
    · simp [hst] at hst'
    · cases hr'
  exact {
    running := h.running
    quiet _ := .inl rfl
    told hcl' := by simp [hcl] at hcl'
    starting hp := by simp at hp
    created hp := nomatch hp
    stopping _ hp := nomatch hp
    leaving _ hr := by simp at hr
    video_second _ hr := nomatch hr
    audio_second _ hr := nomatch hr
    stopped _ := ⟨rfl, rfl, hst, hcl⟩ }

/-- A start tests STREAMING. -/
theorem SideInv.startTest (h : SideInv k s r) (hpc : s.pc = .away)
    (hr : k = .audio → r ≠ some .clearSecond) :
    SideInv k
      { s with pc := if s.streaming then .away else .startSet, stoppedLast := false } r where
  running := h.running
  quiet := h.quiet
  told hcl := by simpa [hpc] using (h.told hcl).1
  starting hp := by
    by_cases hst : s.streaming = true
    · simp [hst] at hp
    · exact ⟨h.none_of_quiet hr (by simpa using hst), rfl⟩
  created hp := by split at hp <;> cases hp
  stopping _ hp := by split at hp <;> cases hp
  leaving hk hr' := by simpa [hpc] using h.leaving hk hr'
  video_second := h.video_second
  audio_second := h.audio_second
  stopped hl := nomatch hl

/-- No thread runs when a start sets STREAMING. -/
theorem SideInv.setStreaming (h : SideInv k s r) (hpc : s.pc = .startSet) :
    SideInv k { s with streaming := true, pc := .startCreate } none := by
  obtain ⟨rfl, hlast⟩ := h.starting (.inl hpc)
  exact {
    running := h.running
    quiet hst := nomatch hst
    told hcl := by simpa [hpc] using (h.told hcl).1
    starting _ := ⟨rfl, hlast⟩
    created _ := rfl
    stopping _ _ := rfl
    leaving _ hr := by simp at hr
    video_second _ hr := nomatch hr
    audio_second _ hr := nomatch hr
    stopped hl := by simp [hlast] at hl }

theorem SideInv.create (h : SideInv k s r) (hpc : s.pc = .startCreate) :
    SideInv k { s with threads := s.threads ++ [.enter], pc := .away } (some .enter) := by
  obtain ⟨rfl, hlast⟩ := h.starting (.inr hpc)
  exact {
    running := by rw [List.filter_append, h.running]; rfl
    quiet hst := by simp [h.created hpc] at hst
    told hcl := by simpa [hpc] using (h.told hcl).1
    starting hp := by simp at hp
    created hp := nomatch hp
    stopping _ hp := nomatch hp
    leaving _ hr := by simp at hr
    video_second _ hr := by simp at hr
    audio_second _ hr := by simp at hr
    stopped hl := by simp [hlast] at hl }

/-- A stop finds STREAMING set. -/
theorem SideInv.stopTest (h : SideInv k s r) (hpc : s.pc = .away) (hst : s.streaming = true) :
    SideInv k { s with pc := .stopSet } r := by
  have hlast : s.stoppedLast = false := by
    by_contra hl
    simp [(h.stopped (by simpa using hl)).2.2.1] at hst
  exact {
    running := h.running
    quiet := h.quiet
    told hcl := by simpa [hpc] using (h.told hcl).1
    starting hp := by simp at hp
    created hp := nomatch hp
    stopping _ _ := hst
    leaving hk hr' := by simpa [hpc] using h.leaving hk hr'
    video_second := h.video_second
    audio_second := h.audio_second
    stopped hl := by simp [hlast] at hl }

/-- A stop sets CLOSING for a thread that is still to see it, or has already left its loop. -/
theorem SideInv.setClosing (h : SideInv k s r) (hpc : s.pc = .stopSet)
    (hst : s.streaming = true ∨ k = .audio ∧ r = some .clearSecond) :
    SideInv k { s with closing := true, pc := .stopPoll } r where
  running := h.running
  quiet := h.quiet
  told _ := ⟨rfl, hst⟩
  starting hp := by simp at hp
  created hp := nomatch hp
  stopping _ hp := nomatch hp
  leaving _ _ := rfl
  video_second hk hr := by simp [h.leaving hk (.inr hr)] at hpc
  audio_second := h.audio_second
  stopped hl := by simp [(h.stopped hl).1] at hpc

/-- **A step keeps the invariant of its side**, for the audio thread outside the window. -/
theorem sideInv_step (h : SideInv k s r) {e : SideEvent} (hw : k = .audio → ¬ Window s e)
    (hs : sideStep k s e = some s') : ∃ r', SideInv k s' r' := by
  have hsecond : ThreadPc.clearSecond ∈ s.threads ↔ r = some .clearSecond :=
    mem_of_running h.running (by simp)
  cases e with
  | startTest =>
    simp only [sideStep, Option.ite_none_left_eq_some, not_not] at hs
    obtain ⟨hpc, hs⟩ := hs
    cases hs
    exact ⟨r, h.startTest hpc fun hk => mt hsecond.2 (hw hk)⟩
  | setStreaming =>
    simp only [sideStep, Option.ite_none_left_eq_some, not_not] at hs
    obtain ⟨hpc, hs⟩ := hs
    cases hs
    exact ⟨none, h.setStreaming hpc⟩
  | create =>
    simp only [sideStep, Option.ite_none_left_eq_some, not_not] at hs
    obtain ⟨hpc, hs⟩ := hs
    cases hs
    exact ⟨some .enter, h.create hpc⟩
  | stopTest =>
    simp only [sideStep, Option.ite_none_left_eq_some, not_not] at hs
    obtain ⟨hpc, hs⟩ := hs
    by_cases hst : s.streaming = true
    · rw [if_pos hst] at hs
      cases hs
      exact ⟨r, h.stopTest hpc hst⟩
    · rw [if_neg hst] at hs
      cases hs
      have hreturn := h.stop_return (fun hk => mt hsecond.2 (hw hk)) (by simpa using hst)
      exact ⟨none, by simpa [hpc] using hreturn⟩
  | setClosing =>
    simp only [sideStep, Option.ite_none_left_eq_some, not_not] at hs
    obtain ⟨hpc, hs⟩ := hs
    cases hs
    refine ⟨r, h.setClosing hpc ?_⟩
    cases k with
    | video => exact .inl (h.stopping rfl hpc)
    | audio =>
      rcases Bool.eq_false_or_eq_true s.streaming with hst | hst
      · exact .inl hst
      · exact .inr ⟨rfl, hsecond.1 (by simpa [Window, hst] using hw rfl)⟩
  | poll =>
    simp only [sideStep, Option.ite_none_left_eq_some, not_not] at hs
    obtain ⟨hpc, hs⟩ := hs
    by_cases hst : s.streaming = true
    · rw [if_pos hst] at hs
      cases hs
      exact ⟨r, h⟩
    · rw [if_neg hst] at hs
      cases hs
      exact ⟨none, h.stop_return (fun hk => mt hsecond.2 (hw hk)) (by simpa using hst)⟩
  | thread i ok => exact h.thread hs

end

/-! ## Runs of a connection -/

/-- `onclose` is past `stop_video_stream`. -/
def EventPc.videoStopped : EventPc → Bool
  | .stopSet .audio true | .stopPoll .audio true | .stopped .audio true | .closed => true
  | _ => false

structure ConnInv (s : Conn) : Prop where
  side : ∀ k, ∃ r, SideInv k (s.side k) r
  stopped : ∀ {k c}, s.pc = .stopped k c → s.stoppedLast k = true
  video : s.pc.videoStopped = true → s.stoppedLast .video = true
  audio : s.pc = .closed → s.stoppedLast .audio = true

/-- The step is not in the window of the audio thread. -/
def Outside (s : Conn) (e : ConnEvent) : Prop :=
  ∀ e', sideEvent s .audio e = some e' → ¬ Window (s.side .audio) e'

instance (s : Conn) (e : ConnEvent) : Decidable (Outside s e) := by
  unfold Outside
  infer_instance

section
variable {s s' : Conn}

theorem stopTest_pc (s : Conn) (k : Kind) (c : Bool) :
    (stopTest s k c).pc = .stopSet k c ∨ (stopTest s k c).pc = .stopped k c := by
  unfold stopTest
  split <;> simp

theorem stopTest_stopped {k k' : Kind} {c c' : Bool} (h : (stopTest s k c).pc = .stopped k' c') :
    (stopTest s k c).stoppedLast k' = true := by
  unfold stopTest at h ⊢
  split at h
  · cases h
  · cases h
    rw [if_neg ‹_›]
    simp

theorem stopTest_stoppedLast {k k' : Kind} {c : Bool} (h : s.stoppedLast k' = true) :
    (stopTest s k c).stoppedLast k' = true := by
  unfold stopTest
  split
  · exact h
  · simp [Function.update_apply, h]

theorem connInv_go (h : ConnInv s) (hside : ∀ k, ∃ r, SideInv k (s'.side k) r)
    (hs : eventStep s s.pc = some s') : ConnInv s' := by
  cases hpc : s.pc with
  | idle | closed => simp [hpc, eventStep] at hs
  | startSet k | startCreate k =>
    cases hpc ▸ hs
    exact ⟨hside, nofun, nofun, nofun⟩
  | stopSet k c =>
    cases hpc ▸ hs
    refine ⟨hside, nofun, fun hv => h.video ?_, nofun⟩
    rw [hpc]
    cases k <;> cases c <;> simp_all [EventPc.videoStopped]
  | stopPoll k c =>
    simp only [hpc, eventStep] at hs
    split at hs
    · cases hs
      exact h
    · cases hs
      refine ⟨hside, fun hp => by cases hp; simp, fun hv => ?_, nofun⟩
      cases k with
      | video => simp
      | audio =>
        cases c with
        | false => simp [EventPc.videoStopped] at hv
        | true => simpa using h.video (by rw [hpc]; rfl)
  | stopped k c =>
    cases c with
    | false =>
      cases hpc ▸ hs
      exact ⟨hside, nofun, nofun, nofun⟩
    | true =>
      cases k with
      | video =>
        cases hpc ▸ hs
        refine ⟨hside, stopTest_stopped, fun _ => stopTest_stoppedLast (h.stopped hpc), ?_⟩
        rcases stopTest_pc s .audio true with hp | hp <;> simp [hp]
      | audio =>
        cases hpc ▸ hs
        exact ⟨hside, nofun, fun _ => h.video (by rw [hpc]; rfl), fun _ => h.stopped hpc⟩

theorem connInv_step {e : ConnEvent} (h : ConnInv s) (hw : Outside s e)
    (hs : connStep s e = some s') : ConnInv s' := by
  have hside (k : Kind) : ∃ r, SideInv k (s'.side k) r := by
    obtain ⟨r, hr⟩ := h.side k
    have hstep := side_step hs k
    cases he : sideEvent s k e with
    | none =>
      rw [he] at hstep
      exact ⟨r, Option.some.inj hstep ▸ hr⟩
    | some e' =>
      rw [he] at hstep
      refine sideInv_step hr ?_ hstep
      intro hk
      subst hk
      exact hw e' he
  cases e with
  | start k =>
    simp only [connStep, Option.ite_none_left_eq_some, not_not] at hs
    obtain ⟨hpc, hs⟩ := hs
    by_cases hst : isSet s.state (streaming k) = true <;> simp only [hst, if_true] at hs <;>
      cases hs
    · exact ⟨hside, by simp [hpc], by simp [hpc, EventPc.videoStopped], by simp [hpc]⟩
    · exact ⟨hside, nofun, nofun, nofun⟩
  | stop k =>
    simp only [connStep, Option.ite_none_left_eq_some, not_not] at hs
    obtain ⟨hpc, hs⟩ := hs
    cases hs
    rcases stopTest_pc s k false with hp | hp <;>
      exact ⟨hside, stopTest_stopped, by simp [hp, EventPc.videoStopped], by simp [hp]⟩
  | close =>
    simp only [connStep, Option.ite_none_left_eq_some, not_not] at hs
    obtain ⟨hpc, hs⟩ := hs
    cases hs
    rcases stopTest_pc s .video true with hp | hp <;>
      exact ⟨hside, stopTest_stopped, by simp [hp, EventPc.videoStopped], by simp [hp]⟩
  | go => exact connInv_go h hside hs
  | thread k i ok =>
    simp only [connStep] at hs
    split at hs
    · cases hs
    · obtain ⟨⟨w, pc'⟩, -, rfl⟩ := Option.map_eq_some_iff.1 hs
      exact ⟨hside, h.stopped, h.video, h.audio⟩

theorem ConnInv.quiet (h : ConnInv s) {k : Kind} (hk : s.stoppedLast k = true) :
    isSet s.state (closing k) = false ∧ isSet s.state (streaming k) = false ∧
      ∀ pc ∈ s.threads k, pc = .done := by
  obtain ⟨r, hr⟩ := h.side k
  obtain ⟨-, rfl, hst, hcl⟩ := hr.stopped hk
  refine ⟨hcl, hst, ?_⟩
  intro pc hpc
  by_contra hne
  simpa using (mem_of_running hr.running hne).1 hpc

theorem ConnInv.handshake (h : ConnInv s) : Handshake s where
  stop_clear hp := ⟨(h.quiet (h.stopped hp)).1, (h.quiet (h.stopped hp)).2.1⟩
  stop_done hp := (h.quiet (h.stopped hp)).2.2
  closed_done hp k := by
    cases k with
    | video => exact (h.quiet (h.video (by rw [hp]; rfl))).2.2
    | audio => exact (h.quiet (h.audio hp)).2.2
  start_accepted hk hs := by
    simp only [connStep, Option.ite_none_left_eq_some, (h.quiet hk).2.1] at hs
    cases hs.2
    rfl
  start_one := by
    intro k s' hp hs
    obtain ⟨r, hr⟩ := h.side k
    have hpc : (s.side k).pc = .startCreate := by simp [Conn.side, hp]
    obtain ⟨rfl, -⟩ := hr.starting (.inr hpc)
    have hdone : ∀ pc ∈ s.threads k, pc = .done := by simpa [Conn.side] using hr.running
    simp only [connStep, hp, eventStep, Option.some.injEq] at hs
    subst hs
    refine ⟨?_, ?_⟩
    · simpa [List.countP_append, List.countP_eq_zero] using hdone
    · by_contra hcl
      have hcl : isSet s.state (closing k) = true := by simpa using hcl
      simpa [hpc] using (hr.told hcl).1

theorem connInv_init : ConnInv {} where
  side k := ⟨none, by cases k <;> constructor <;> simp [Conn.side, isSet]⟩
  stopped := nofun
  video := nofun
  audio := nofun

/-- **The stop handshake holds** in every run that keeps out of the window of the audio thread. -/
theorem run_handshake {es : List ConnEvent} (h : Run.run connStep {} es = some s)
    (hw : Run.Meets connStep Outside {} es) : Handshake s :=
  (Run.inv_where connInv_step h hw connInv_init).handshake

end

/-- The audio thread is stopped; a second stop finds STREAMING clear. -/
def audioRun : List ConnEvent :=
  [.start .audio, .go, .go, .thread .audio 0 true, .stop .audio, .go, .thread .audio 0 true,
    .thread .audio 0 true, .thread .audio 0 true, .go, .go, .start .audio]

theorem run_handshake_audioRun :
    ∃ s, Run.run connStep {} audioRun = some s ∧ Handshake s := by
  have h : (Run.run connStep {} audioRun).isSome := by decide
  obtain ⟨s, hs⟩ := Option.isSome_iff_exists.1 h
  exact ⟨s, hs, run_handshake hs (by decide)⟩

/-- `stop_audio_stream` sees STREAMING clear while the thread still has to clear CLOSING. -/
def windowRun : List ConnEvent :=
  [.start .audio, .go, .go, .thread .audio 0 true, .stop .audio, .go, .thread .audio 0 true,
    .thread .audio 0 true, .go]

theorem handshake_fails : ¬ ∀ es s, Run.run connStep {} es = some s → Handshake s := by
  intro h
  have hrun : (Run.run connStep {} windowRun).isSome := by decide
  obtain ⟨s, hs⟩ := Option.isSome_iff_exists.1 hrun
  have hpc : (Run.run connStep {} windowRun).map (·.pc) = some (.stopped .audio false) := by decide
  have hstate : (Run.run connStep {} windowRun).map (·.state) = some (closing .audio) := by decide
  simp only [hs, Option.map_some, Option.some.injEq] at hpc hstate
  have := ((h windowRun s hs).stop_clear hpc).1
  simp [hstate, isSet, closing] at this

end Server
