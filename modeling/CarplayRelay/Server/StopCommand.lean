import CarplayRelay.Server.Streaming

/-!
# The end of a stop command

`stop_video_stream` and `stop_audio_stream` poll until STREAMING is clear, which only a streaming
thread clears. STREAMING is set before `pthread_create`, whose result is not looked at, and the
audio thread leaves without clearing it when there is no bitstream.

* `run_stop_ends`: in every run in which `pthread_create` succeeds and the audio thread has a
  bitstream (`Starts`), STREAMING is set only while a thread is still to clear it; and out of the
  window of the audio thread, a stop that polls is released once that thread has taken its steps.
* `stop_hangs`: with an empty audio file a stop polls forever.
-/

namespace Server

/-! ## The code -/

inductive StopEvent
  | conn (e : ConnEvent)
  /-- `pthread_create` fails. -/
  | createFails
  deriving DecidableEq, Repr

/-- A step of the connection; a start that fails to create its thread goes on all the same. -/
def stopStep (s : Conn) : StopEvent → Option Conn
  | .conn e => connStep s e
  | .createFails =>
    match s.pc with
    | .startCreate _ => some { s with pc := .idle }
    | _ => none

/-- `pthread_create` does not fail, and an audio thread that starts has a bitstream. -/
def Starts (s : Conn) : StopEvent → Prop
  | .conn (.thread .audio i ok) => (s.threads .audio)[i]? = some .enter → ok = true
  | .conn _ => True
  | .createFails => False

instance (s : Conn) (e : StopEvent) : Decidable (Starts s e) := by
  unfold Starts
  split <;> infer_instance

/-- The step is not in the window of the audio thread. -/
def OutsideWindow (s : Conn) : StopEvent → Prop
  | .conn e => Outside s e
  | .createFails => True

instance (s : Conn) (e : StopEvent) : Decidable (OutsideWindow s e) := by
  unfold OutsideWindow
  split <;> infer_instance

/-- A thread of kind `k` at `pc` is still to clear STREAMING. -/
def Armed (k : Kind) (pc : ThreadPc) : Prop := pc ≠ .done ∧ (k = .audio → pc ≠ .clearSecond)

/-- A step of a thread of kind `k`. -/
def StopEvent.isThread (k : Kind) : StopEvent → Bool
  | .conn (.thread k' _ _) => k' == k
  | _ => false

/-- STREAMING is cleared before the threads of the kind have taken four more steps. -/
def Released (k : Kind) (s : Conn) : Prop :=
  ∀ es s', Run.run stopStep s es = some s' → Run.Meets stopStep Starts s es →
    4 ≤ es.countP (StopEvent.isThread k) →
      ∃ es₁ m, es₁ <+: es ∧ Run.run stopStep s es₁ = some m ∧
        isSet m.state (streaming k) = false

/-! ## Threads that are still to clear STREAMING -/

/-- While STREAMING is set, a thread is to be created or still to clear it. -/
def Alive (k : Kind) (s : Side) : Prop :=
  s.streaming = true → s.pc = .startCreate ∨ ∃ pc ∈ s.threads, Armed k pc

/-- The audio thread has a bitstream. -/
def Loaded (k : Kind) (s : Side) : SideEvent → Prop
  | .thread i ok => k = .audio → s.threads[i]? = some .enter → ok = true
  | _ => True

section
variable {k : Kind} {s s' : Side} {pc pc' : ThreadPc}

theorem armed_of_ne (h : pc ≠ .done) (h' : pc ≠ .clearSecond) : Armed k pc := ⟨h, fun _ => h'⟩

theorem mem_set_armed {threads : List ThreadPc} {i : Nat} {q : ThreadPc} (h : q ∈ threads)
    (hi : threads[i]? = some pc) (hne : q ≠ pc) : q ∈ threads.set i pc' := by
  obtain ⟨j, hj⟩ := List.mem_iff_getElem?.1 h
  refine List.mem_iff_getElem?.2 ⟨j, ?_⟩
  have hij : i ≠ j := by
    rintro rfl
    exact hne (Option.some.inj (hj.symm.trans hi))
  rw [List.getElem?_set_ne hij, hj]

theorem alive_thread (h : Alive k s) {i : Nat} {ok : Bool} (hl : Loaded k s (.thread i ok))
    (hs : sideStep k s (.thread i ok) = some s') : Alive k s' := by
  simp only [sideStep] at hs
  split at hs
  · cases hs
  rename_i pc hpc
  obtain ⟨⟨st, cl, pc'⟩, ht, rfl⟩ := Option.map_eq_some_iff.1 hs
  have hmem : pc' ∈ s.threads.set i pc' :=
    List.mem_set (List.getElem?_eq_some_iff.1 hpc).1 pc'
  intro hst
  cases pc with
  | enter =>
    have hrun : k = .video ∨ ok = true := by
      cases k with
      | video => exact .inl rfl
      | audio => exact .inr (hl rfl hpc)
    simp only [sideThread, if_pos hrun, Option.some.injEq, Prod.mk.injEq] at ht
    obtain ⟨-, -, rfl⟩ := ht
    exact .inr ⟨_, hmem, armed_of_ne (by simp) (by simp)⟩
  | test | send =>
    simp only [sideThread, Option.some.injEq, Prod.mk.injEq] at ht
    obtain ⟨-, -, rfl⟩ := ht
    exact .inr ⟨_, hmem, by split <;> exact armed_of_ne (by simp) (by simp)⟩
  | clearFirst =>
    cases k with
    | video =>
      cases ht
      exact .inr ⟨_, hmem, by simp [Armed]⟩
    | audio =>
      cases ht
      cases hst
  | clearSecond =>
    cases k with
    | video =>
      cases ht
      cases hst
    | audio =>
      cases ht
      rcases h hst with hc | ⟨q, hq, harmed⟩
      · exact .inl hc
      · exact .inr ⟨q, mem_set_armed hq hpc (harmed.2 rfl), harmed⟩
  | done => cases ht

/-- Every step keeps a thread for STREAMING. -/
theorem alive_step (h : Alive k s) {e : SideEvent} (hl : Loaded k s e)
    (hs : sideStep k s e = some s') : Alive k s' := by
  have hkeep : s.pc ≠ .startCreate → s.streaming = true → ∃ pc ∈ s.threads, Armed k pc :=
    fun hpc hst => (h hst).resolve_left hpc
  cases e with
  | startTest =>
    simp only [sideStep, Option.ite_none_left_eq_some, not_not] at hs
    obtain ⟨hpc, hs⟩ := hs
    cases hs
    exact fun hst => .inr (hkeep (by simp [hpc]) hst)
  | setStreaming =>
    simp only [sideStep, Option.ite_none_left_eq_some] at hs
    cases hs.2
    exact fun _ => .inl rfl
  | create =>
    simp only [sideStep, Option.ite_none_left_eq_some] at hs
    cases hs.2
    exact fun _ => .inr ⟨.enter, by simp, by simp [Armed]⟩
  | stopTest | poll =>
    simp only [sideStep, Option.ite_none_left_eq_some, not_not] at hs
    obtain ⟨hpc, hs⟩ := hs
    intro hst
    split at hs <;> cases hs <;> exact .inr (hkeep (by simp [hpc]) hst)
  | setClosing =>
    simp only [sideStep, Option.ite_none_left_eq_some, not_not] at hs
    obtain ⟨hpc, hs⟩ := hs
    cases hs
    exact fun hst => .inr (hkeep (by simp [hpc]) hst)
  | thread i ok => exact alive_thread h hl hs

/-- While a stop polls, CLOSING is set or has been seen. -/
def Told (k : Kind) (s : Side) : Prop :=
  s.pc = .stopPoll → s.streaming = true →
    s.closing = true ∨ k = .video ∧ .clearSecond ∈ s.threads

theorem told_thread {r : Option ThreadPc} (hinv : SideInv k s r) (h : Told k s) {i : Nat}
    {ok : Bool} (hs : sideStep k s (.thread i ok) = some s') : Told k s' := by
  simp only [sideStep] at hs
  split at hs
  · cases hs
  rename_i pc hpc
  obtain ⟨⟨st, cl, pc'⟩, ht, rfl⟩ := Option.map_eq_some_iff.1 hs
  have hlive : pc ≠ .done := by
    rintro rfl
    cases ht
  obtain ⟨rfl, -⟩ := filter_set hinv.running hpc hlive pc'
  have hmem : pc' ∈ s.threads.set i pc' :=
    List.mem_set (List.getElem?_eq_some_iff.1 hpc).1 pc'
  -- the only running thread is at `pc`
  have hsecond : pc ≠ .clearSecond → ThreadPc.clearSecond ∉ s.threads := fun hne hmem =>
    hne (Option.some.inj ((mem_of_running hinv.running (by simp)).1 hmem))
  intro hpoll hst
  cases pc with
  | enter | test | send =>
    simp only [sideThread, Option.some.injEq, Prod.mk.injEq] at ht
    obtain ⟨rfl, rfl, -⟩ := ht
    exact .inl ((h hpoll hst).resolve_right fun hv => hsecond (by simp) hv.2)
  | clearFirst =>
    cases k with
    | video =>
      cases ht
      exact .inr ⟨rfl, hmem⟩
    | audio =>
      cases ht
      cases hst
  | clearSecond =>
    cases k with
    | video =>
      cases ht
      cases hst
    | audio =>
      cases ht
      exact absurd ((hinv.audio_second rfl rfl).symm.trans hst) Bool.false_ne_true
  | done => exact absurd rfl hlive

theorem told_step {r : Option ThreadPc} (hinv : SideInv k s r) (h : Told k s) {e : SideEvent}
    (hs : sideStep k s e = some s') : Told k s' := by
  cases e with
  | setClosing =>
    simp only [sideStep, Option.ite_none_left_eq_some] at hs
    cases hs.2
    exact fun _ _ => .inl rfl
  | poll =>
    simp only [sideStep, Option.ite_none_left_eq_some] at hs
    obtain ⟨-, hs⟩ := hs
    split at hs <;> cases hs
    · exact h
    · intro hpoll
      cases hpoll
  | startTest | stopTest =>
    simp only [sideStep, Option.ite_none_left_eq_some, not_not] at hs
    obtain ⟨hpc, hs⟩ := hs
    intro hpoll
    split at hs <;> cases hs <;> simp [hpc] at hpoll
  | setStreaming | create =>
    simp only [sideStep, Option.ite_none_left_eq_some] at hs
    cases hs.2
    intro hpoll
    cases hpoll
  | thread i ok => exact told_thread hinv h hs

end

/-! ## Runs -/

section
variable {s s' : Conn} {k : Kind}

theorem startCreate_of_side (h : (s.side k).pc = .startCreate) : s.pc = .startCreate k := by
  simp only [Conn.side] at h
  cases hpc : s.pc with
  | startCreate k' =>
    simp only [hpc] at h
    split at h
    · rename_i hk
      rw [hk]
    · cases h
  | startSet | stopSet | stopPoll =>
    simp only [hpc] at h
    split at h <;> cases h
  | idle | stopped | closed => simp [hpc] at h

/-- What holds of each side of the connection without a failed start. -/
theorem alive_conn {e : StopEvent} (h : ∀ k, Alive k (s.side k)) (hc : Starts s e)
    (hs : stopStep s e = some s') (k : Kind) : Alive k (s'.side k) := by
  cases e with
  | createFails => exact hc.elim
  | conn e =>
    have hstep := side_step hs k
    cases he : sideEvent s k e with
    | none =>
      rw [he] at hstep
      exact Option.some.inj hstep ▸ h k
    | some e' =>
      rw [he] at hstep
      refine alive_step (h k) ?_ hstep
      cases e' with
      | thread i ok =>
        rintro rfl hi
        cases e with
        | thread k' j ok' =>
          simp only [sideEvent, Option.ite_none_right_eq_some, Option.some.injEq,
            SideEvent.thread.injEq] at he
          obtain ⟨rfl, rfl, rfl⟩ := he
          exact hc hi
        | go =>
          simp only [sideEvent] at he
          split at he <;> simp at he
        | _ => simp [sideEvent] at he
      | _ => trivial

/-- The invariant of a stop: the handshake's, and that the thread is told. -/
structure StopInv (s : Conn) : Prop where
  conn : ConnInv s
  told : ∀ k, Told k (s.side k)

theorem stopInv_step {e : StopEvent} (h : StopInv s) (hc : Starts s e ∧ OutsideWindow s e)
    (hs : stopStep s e = some s') : StopInv s' := by
  cases e with
  | createFails => exact hc.1.elim
  | conn e =>
    refine ⟨connInv_step h.conn hc.2 hs, ?_⟩
    intro k
    obtain ⟨r, hr⟩ := h.conn.side k
    have hstep := side_step hs k
    cases he : sideEvent s k e with
    | none =>
      rw [he] at hstep
      exact Option.some.inj hstep ▸ h.told k
    | some e' =>
      rw [he] at hstep
      exact told_step hr (h.told k) hstep

/-- How many steps a thread that is told takes until STREAMING is clear, at most. -/
def remaining : ThreadPc → Nat
  | .enter | .send => 4
  | .test => 3
  | .clearFirst => 2
  | .clearSecond => 1
  | .done => 0

/-- A stop polls, and the only running thread is at `pc` and knows that it has to leave. -/
structure Polling (k : Kind) (s : Conn) (pc : ThreadPc) : Prop where
  event : ∃ c, s.pc = .stopPoll k c
  streaming : isSet s.state (streaming k) = true
  closing : isSet s.state (closing k) = true ∨ k = .video ∧ pc = .clearSecond
  running : (s.threads k).filter (· ≠ .done) = [pc]
  armed : Armed k pc

/-- Its steps lead to STREAMING being clear. -/
theorem polling_thread {pc : ThreadPc} (h : Polling k s pc) {i : Nat} {ok : Bool}
    (hc : Starts s (.conn (.thread k i ok)))
    (hs : connStep s (.thread k i ok) = some s') :
    isSet s'.state (streaming k) = false ∨
      ∃ pc', Polling k s' pc' ∧ remaining pc' < remaining pc := by
  simp only [connStep] at hs
  split at hs
  · cases hs
  rename_i q hq
  obtain ⟨⟨w, pc'⟩, ht, rfl⟩ := Option.map_eq_some_iff.1 hs
  have hlive : q ≠ .done := by
    rintro rfl
    cases k <;> cases ht
  obtain ⟨hpc, hset⟩ := filter_set (r := some pc) h.running hq hlive pc'
  cases hpc
  have hown := threadStep_own ht
  rw [h.streaming] at hown
  -- a statement that leaves the flags alone
  have hkeep : isSet w (streaming k) = true → isSet w (closing k) = isSet s.state (closing k) →
      pc ≠ .clearSecond → pc' ≠ .done → pc' ≠ .clearSecond →
        Polling k { s with
          state := w, threads := Function.update s.threads k ((s.threads k).set i pc') } pc' := by
    intro hst hcl hsecond hdone hsecond'
    refine ⟨h.event, hst, .inl ?_, ?_, armed_of_ne hdone hsecond'⟩
    · rw [hcl]
      exact h.closing.resolve_right fun hv => hsecond hv.2
    · simpa [hdone] using hset
  cases pc with
  | enter =>
    have hrun : k = .video ∨ ok = true := by
      cases k with
      | video => exact .inl rfl
      | audio => exact .inr (hc hq)
    simp only [sideThread, if_pos hrun, Option.some.injEq, Prod.mk.injEq] at hown
    obtain ⟨hst, hcl, rfl⟩ := hown
    exact .inr ⟨_, hkeep hst.symm hcl.symm (by simp) (by simp) (by simp), by decide⟩
  | test =>
    have hcl : isSet s.state (closing k) = true :=
      h.closing.resolve_right fun hv => by cases hv.2
    simp only [sideThread, hcl, if_true, Option.some.injEq, Prod.mk.injEq] at hown
    obtain ⟨hst, hcl', rfl⟩ := hown
    exact .inr ⟨_, hkeep hst.symm (hcl'.symm.trans hcl.symm) (by simp) (by simp) (by simp),
      by decide⟩
  | send =>
    simp only [sideThread, Option.some.injEq, Prod.mk.injEq] at hown
    obtain ⟨hst, hcl, rfl⟩ := hown
    refine .inr ⟨_, hkeep hst.symm hcl.symm (by simp) ?_ ?_, ?_⟩ <;> split <;> decide
  | clearFirst =>
    cases k with
    | video =>
      simp only [sideThread, Option.some.injEq, Prod.mk.injEq] at hown
      obtain ⟨hst, -, rfl⟩ := hown
      exact .inr ⟨.clearSecond, ⟨h.event, hst.symm, .inr ⟨rfl, rfl⟩, by simpa using hset,
        by simp [Armed]⟩, by decide⟩
    | audio =>
      simp only [sideThread, Option.some.injEq, Prod.mk.injEq] at hown
      exact .inl hown.1.symm
  | clearSecond =>
    cases k with
    | video =>
      simp only [sideThread, Option.some.injEq, Prod.mk.injEq] at hown
      exact .inl hown.1.symm
    | audio => exact absurd rfl (h.armed.2 rfl)
  | done => exact absurd rfl hlive

/-- The other events do not change that. -/
theorem polling_other {pc : ThreadPc} (h : Polling k s pc) {e : StopEvent}
    (he : e.isThread k = false) (hs : stopStep s e = some s') : Polling k s' pc := by
  obtain ⟨c, hpc⟩ := h.event
  cases e with
  | createFails => simp [stopStep, hpc] at hs
  | conn e =>
    cases e with
    | start | stop | close => simp [stopStep, connStep, hpc] at hs
    | go =>
      simp only [stopStep, connStep, hpc, eventStep, h.streaming, if_true] at hs
      cases hs
      exact h
    | thread k' i ok =>
      have hk : k' ≠ k := by simpa [StopEvent.isThread] using he
      simp only [stopStep, connStep] at hs
      split at hs
      · cases hs
      obtain ⟨⟨w, pc'⟩, ht, rfl⟩ := Option.map_eq_some_iff.1 hs
      obtain ⟨hst, hcl⟩ := threadStep_other ht hk
      refine ⟨h.event, hst.trans h.streaming, ?_, ?_, h.armed⟩
      · rw [hcl]
        exact h.closing
      · dsimp only
        rw [Function.update_of_ne hk.symm]
        exact h.running

theorem polling_released {pc : ThreadPc} (h : Polling k s pc) {es : List StopEvent}
    (hs : Run.run stopStep s es = some s') (hc : Run.Meets stopStep Starts s es)
    (hn : remaining pc ≤ es.countP (StopEvent.isThread k)) :
    ∃ es₁ m, es₁ <+: es ∧ Run.run stopStep s es₁ = some m ∧
      isSet m.state (streaming k) = false := by
  induction es generalizing s pc with
  | nil =>
    obtain ⟨hne, hsec⟩ := h.armed
    cases pc <;> simp [remaining] at hn hne
  | cons e es ih =>
    obtain ⟨m, hm, hs⟩ := (Run.run_cons stopStep).1 hs
    have hrest : ∀ {pc'}, Polling k m pc' → remaining pc' ≤ es.countP (StopEvent.isThread k) →
        ∃ es₁ m, es₁ <+: e :: es ∧ Run.run stopStep s es₁ = some m ∧
          isSet m.state (streaming k) = false := by
      intro pc' hp hle
      obtain ⟨es₁, m', hpre, hrun, hst⟩ := ih hp hs (hc.2 m hm) hle
      exact ⟨e :: es₁, m', List.cons_prefix_cons.2 ⟨rfl, hpre⟩,
        (Run.run_cons stopStep).2 ⟨m, hm, hrun⟩, hst⟩
    cases he : e.isThread k with
    | false =>
      apply hrest (polling_other h he hm)
      simpa [List.countP_cons, he] using hn
    | true =>
      obtain ⟨i, ok, rfl⟩ : ∃ i ok, e = .conn (.thread k i ok) := by
        cases e with
        | createFails => cases he
        | conn e =>
          cases e <;> simp [StopEvent.isThread] at he
          exact ⟨_, _, by rw [he]⟩
      rcases polling_thread h hc.1 hm with hst | ⟨pc', hp, hlt⟩
      · exact ⟨[.conn (.thread k i ok)], m, by simp, (Run.run_cons stopStep).2 ⟨m, hm, rfl⟩, hst⟩
      · apply hrest hp
        rw [List.countP_cons, he, if_pos rfl] at hn
        omega

/-- A stop polls, and no thread is left to clear STREAMING. -/
structure Hung (k : Kind) (c : Bool) (s : Conn) : Prop where
  event : s.pc = .stopPoll k c
  streaming : isSet s.state (streaming k) = true
  threads : ∀ pc ∈ s.threads k, pc = .done

/-- It polls forever. -/
theorem hung_step {c : Bool} {e : StopEvent} (h : Hung k c s) (hs : stopStep s e = some s') :
    Hung k c s' := by
  cases e with
  | createFails => simp [stopStep, h.event] at hs
  | conn e =>
    cases e with
    | start | stop | close => simp [stopStep, connStep, h.event] at hs
    | go =>
      simp only [stopStep, connStep, h.event, eventStep, h.streaming, if_true] at hs
      cases hs
      exact h
    | thread k' i ok =>
      simp only [stopStep, connStep] at hs
      split at hs
      · cases hs
      rename_i pc hpc
      obtain ⟨⟨w, pc'⟩, ht, rfl⟩ := Option.map_eq_some_iff.1 hs
      by_cases hk : k' = k
      · subst hk
        rw [h.threads pc (List.mem_of_getElem? hpc)] at ht
        cases k' <;> cases ht
      · refine ⟨h.event, (threadStep_other ht hk).1.trans h.streaming, ?_⟩
        dsimp only
        rw [Function.update_of_ne (Ne.symm hk)]
        exact h.threads

/-- A stop that polls in a state that keeps the invariants. -/
theorem polling_of_inv (ha : Alive k (s.side k)) (h : StopInv s) {c : Bool}
    (hpc : s.pc = .stopPoll k c) (hst : isSet s.state (streaming k) = true) :
    ∃ pc, Polling k s pc := by
  have hside : (s.side k).pc = .stopPoll := by simp [Conn.side, hpc]
  obtain ⟨r, hr⟩ := h.conn.side k
  rcases ha hst with hc | ⟨pc, hmem, harmed⟩
  · rw [hside] at hc
    cases hc
  have hrpc := (mem_of_running hr.running harmed.1).1 hmem
  subst hrpc
  refine ⟨pc, ⟨c, hpc⟩, hst, ?_, hr.running, harmed⟩
  rcases h.told k hside hst with htold | ⟨hk, hsecond⟩
  · exact .inl htold
  · exact .inr ⟨hk, Option.some.inj ((mem_of_running hr.running (by simp)).1 hsecond)⟩

/-- **A stop command ends**, in every run in which the threads that are started start: a set
STREAMING is one that a thread is to be created for or is still to clear; and a stop that polls is
released, if the event thread was never in the window of the audio thread. -/
theorem run_stop_ends {es : List StopEvent} (h : Run.run stopStep {} es = some s)
    (hc : Run.Meets stopStep Starts {} es) :
    (∀ k, isSet s.state (streaming k) = true →
      s.pc = .startCreate k ∨ ∃ pc ∈ s.threads k, Armed k pc) ∧
    (Run.Meets stopStep OutsideWindow {} es → ∀ k c, s.pc = .stopPoll k c →
      isSet s.state (streaming k) = true → Released k s) := by
  have halive : ∀ k, Alive k (s.side k) :=
    Run.inv_where (fun h hc hs => alive_conn h hc hs) h hc fun k hst => by
      cases k <;> cases hst
  refine ⟨?_, ?_⟩
  · intro k hst
    exact (halive k hst).imp startCreate_of_side id
  · intro hw k c hpc hst
    have hinv : StopInv s := Run.inv_where stopInv_step h (hc.and hw)
      ⟨connInv_init, fun k hpoll => by cases hpoll⟩
    obtain ⟨pc, hp⟩ := polling_of_inv (halive k) hinv hpc hst
    intro es' s' hs' hc' hn
    refine polling_released hp hs' hc' (Nat.le_trans ?_ hn)
    cases pc <;> decide

end

/-- A start and a stop that polls, and a NAL unit in between. -/
def endedRun : List StopEvent :=
  [.start .video, .go, .go, .thread .video 0 true, .thread .video 0 true, .stop .video, .go].map
    .conn

theorem run_stop_ends_endedRun :
    ∃ s, Run.run stopStep {} endedRun = some s ∧ Released .video s := by
  have h : ∃ s, Run.run stopStep {} endedRun = some s ∧ s.pc = .stopPoll .video false ∧
      isSet s.state (streaming .video) = true := by
    decide
  obtain ⟨s, hs, hpc, hst⟩ := h
  exact ⟨s, hs, (run_stop_ends hs (by decide)).2 (by decide) .video false hpc hst⟩

/-- The audio thread finds no bitstream. -/
def emptyRun : List StopEvent :=
  [.start .audio, .go, .go, .thread .audio 0 false, .stop .audio, .go].map .conn

/-- **A stop hangs** after an audio thread without a bitstream: its polling never ends. -/
theorem stop_hangs : ∃ s, Run.run stopStep {} emptyRun = some s ∧
    isSet s.state (streaming .audio) = true ∧ s.threads .audio = [.done] ∧
      ∀ es s', Run.run stopStep s es = some s' → s'.pc = .stopPoll .audio false := by
  have h : ∃ s, Run.run stopStep {} emptyRun = some s ∧
      isSet s.state (streaming .audio) = true ∧ s.threads .audio = [.done] ∧
        s.pc = .stopPoll .audio false := by
    decide
  obtain ⟨s, hs, hst, hthreads, hpc⟩ := h
  refine ⟨s, hs, hst, hthreads, ?_⟩
  intro es s' hrun
  exact (Run.inv (hung_step (c := false)) hrun ⟨hpc, hst, by simp [hthreads]⟩).event

end Server
