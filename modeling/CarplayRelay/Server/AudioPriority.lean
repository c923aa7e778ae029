import CarplayRelay.Lib.Mutex
import CarplayRelay.Server.Sender

/-!
# The priority of audio

`begin_audio_priority` and `end_audio_priority` count the audio packets on their way in
`pending_audio_packets`, and `wait_for_audio_priority` lets the other senders sleep on
`priority_cond` while there are any. A sleeping thread goes on once it is woken, by a broadcast or
spuriously.

* `run_audio_priority`: the counter is the number of audio sends that have begun and not ended, as
  long as these are fewer than `2 ^ 32`; it is 0 when no audio send is in progress; and unless all
  senders have returned, one of them can take a step.
-/

namespace Server

open Bytes Crypto

/-! ## The code -/

variable {τ : Type}

/-- A connection, and the sleeping threads that are woken. -/
structure PrioritySender (τ : Type) where
  sender : Sender τ
  woken : τ → Bool := fun _ => false

inductive PriorityEvent (τ : Type)
  | send (e : SendEvent τ)
  /-- `pthread_cond_wait` returns without a broadcast. -/
  | spurious (t : τ)

/-- Whom a step wakes; a thread that goes to sleep is not woken. -/
def PrioritySender.wokenAfter [DecidableEq τ] (s : PrioritySender τ) : SendEvent τ → τ → Bool
  | .call _ _ _ => s.woken
  | .go t _ _ =>
    match (s.sender.thread t).pc with
    -- `pthread_cond_broadcast`
    | .beginUpdate | .endUpdate _ => fun _ => true
    | .waitTest => Function.update s.woken t false
    | _ => s.woken

/-- The thread sleeps on `priority_cond`. -/
def PrioritySender.asleep (s : PrioritySender τ) : SendEvent τ → Bool
  | .call _ _ _ => false
  | .go t _ _ => (s.sender.thread t).pc = .waitSleep && !s.woken t

def priorityStep [DecidableEq τ] (ks : KeyStream) (s : PrioritySender τ) :
    PriorityEvent τ → Option (PrioritySender τ)
  | .send e =>
    if s.asleep e then none
    else (senderStep ks s.sender e).map fun sender => ⟨sender, s.wokenAfter e⟩
  | .spurious t => some { s with woken := Function.update s.woken t true }

/-- A new connection. -/
def newPriority (n : Nonce) : PrioritySender τ := { sender := newSender n }

/-! ## What the counter counts -/

namespace SendPc

/-- Between taking and releasing `priority_lock`. -/
def inPriority : SendPc → Bool
  | beginUpdate | beginUnlock | waitTest | waitUnlock | endUpdate _ | endUnlock _ => true
  | _ => false

/-- Between taking and releasing `crypto_lock`. -/
def inCrypto : SendPc → Bool
  | initTest | initEncode | initMalloc _ | initSend _ | initMark | takeSeq _
  | unlockCrypto _ _ => true
  | _ => false

/-- Between the statements of an audio send that count its packet. -/
def begun : SendPc → Bool
  | beginUnlock | malloc | lockTx | endLock _ | endUpdate _ => true
  | pc => pc.inTx

/-- Whether the statement is one for audio packets or for the others, `none` if for both. -/
def ofAudio : SendPc → Option Bool
  | beginLock | beginUpdate | beginUnlock | endLock _ | endUpdate _ | endUnlock _ => some true
  | waitLock | waitTest | waitSleep | waitUnlock => some false
  | _ => none

end SendPc

/-- An audio send that has begun and not ended. -/
def SendThread.inAudioSend (th : SendThread) : Prop :=
  th.streamId = streamIdAudio ∧ th.pc.begun = true

/-- The audio sends that have begun and not ended. -/
def Sender.audioSends (s : Sender τ) : Set τ := {t | (s.thread t).inAudioSend}

/-- After the step, fewer than `2 ^ 32` audio sends have begun and not ended. -/
def Countable [DecidableEq τ] (ks : KeyStream) (s : PrioritySender τ) (e : PriorityEvent τ) :
    Prop :=
  ∀ s', priorityStep ks s e = some s' → s'.sender.audioSends.ncard < 2 ^ 32

/-- A thread has called `send_encrypted_media` and it has not returned. -/
def PrioritySender.Sends (s : PrioritySender τ) (t : τ) : Prop := (s.sender.thread t).pc ≠ .idle

/-! ## One statement -/

/-- The statement is one for packets of the stream. -/
def Placed (streamId : UInt8) (pc : SendPc) : Prop :=
  ∀ b, pc.ofAudio = some b → (streamId = streamIdAudio ↔ b = true)

section
variable {ks : KeyStream} {t : τ} {sid : UInt8} {payload : Bytes} {ok : Bool} {rc : Int}
  {a a' : SendApp τ} {pc pc' : SendPc}

theorem sendStmt_priority (h : sendStmt ks t sid payload ok rc a pc = some (a', pc')) :
    Mutex.Move t a.priorityLock pc.inPriority a'.priorityLock pc'.inPriority := by
  cases pc with
  | idle => cases h
  | beginLock | waitLock | waitSleep | endLock =>
    simp only [sendStmt, Option.ite_none_left_eq_some] at h
    obtain ⟨hfree, h⟩ := h
    cases h
    rw [Option.not_isSome_iff_eq_none.1 hfree]
    exact .take
  | beginUnlock | waitUnlock | endUnlock =>
    cases h
    exact .release
  | waitTest =>
    simp only [sendStmt] at h
    split at h <;> cases h
    · exact .release
    · exact .keep
  | lockTx | lockCrypto =>
    simp only [sendStmt, Option.ite_none_left_eq_some] at h
    cases h.2
    exact .keep
  | beginUpdate | initMark | takeSeq | sendPacket | endUpdate =>
    cases h
    exact .keep
  | initTest | initMalloc | initSend | unlockTx =>
    cases h
    split <;> exact .keep
  | malloc =>
    simp only [sendStmt] at h
    split at h <;> cases h
    · exact .keep
    · split <;> exact .keep
  | initEncode | unlockCrypto =>
    simp only [sendStmt] at h
    split at h <;> cases h <;> exact .keep
  | encrypt =>
    simp only [sendStmt] at h
    split at h
    · cases h
      exact .keep
    · split at h <;> cases h <;> exact .keep

theorem sendStmt_crypto (h : sendStmt ks t sid payload ok rc a pc = some (a', pc')) :
    Mutex.Move t a.cryptoLock pc.inCrypto a'.cryptoLock pc'.inCrypto := by
  cases pc with
  | lockCrypto =>
    simp only [sendStmt, Option.ite_none_left_eq_some] at h
    obtain ⟨hfree, h⟩ := h
    cases h
    rw [Option.not_isSome_iff_eq_none.1 hfree]
    exact .take
  | unlockCrypto =>
    simp only [sendStmt] at h
    split at h <;> cases h <;> exact .release
  | _ =>
    simp only [sendStmt] at h
    repeat' split at h
    all_goals cases h
    all_goals exact .keep

theorem sendStmt_tx (h : sendStmt ks t sid payload ok rc a pc = some (a', pc')) :
    Mutex.Move t a.txLock pc.inTx a'.txLock pc'.inTx := by
  cases hin : pc.inTx with
  | true =>
    rcases sendStmt_inTx h hin with ⟨hin', hl⟩ | ⟨hin', hl⟩
    · rw [hin', hl]
      exact .keep
    · rw [hin', hl]
      exact .release
  | false =>
    obtain ⟨-, ⟨hin', hl⟩ | ⟨rfl, hfree, hl⟩⟩ := sendStmt_outside h hin
    · rw [hin', hl]
      exact .keep
    · rw [hfree, hl]
      exact .take

theorem sendStmt_placed (h : sendStmt ks t sid payload ok rc a pc = some (a', pc'))
    (hp : Placed sid pc) : Placed sid pc' := by
  cases pc with
  | malloc | unlockTx =>
    simp only [sendStmt] at h
    repeat' split at h
    all_goals cases h
    all_goals simp_all [Placed, SendPc.ofAudio]
  | _ =>
    simp only [sendStmt] at h
    repeat' split at h
    all_goals cases h
    all_goals first | exact hp | simp [Placed, SendPc.ofAudio]

/-- What a statement does to the counter. -/
theorem sendStmt_pending (h : sendStmt ks t sid payload ok rc a pc = some (a', pc'))
    (hp : Placed sid pc) :
    (pc = .beginUpdate ∧ pc'.begun = true ∧
      a'.pendingAudioPackets = a.pendingAudioPackets + 1) ∨
    ((∃ rc, pc = .endUpdate rc) ∧ pc'.begun = false ∧ a'.pendingAudioPackets =
      if a.pendingAudioPackets > 0 then a.pendingAudioPackets - 1 else a.pendingAudioPackets) ∨
    (pc ≠ .beginUpdate ∧ (∀ rc, pc ≠ .endUpdate rc) ∧
      (sid = streamIdAudio → pc'.begun = pc.begun) ∧
      a'.pendingAudioPackets = a.pendingAudioPackets) := by
  cases pc with
  | beginUpdate =>
    cases h
    exact .inl ⟨rfl, rfl, rfl⟩
  | endUpdate rc =>
    cases h
    exact .inr (.inl ⟨⟨rc, rfl⟩, rfl, rfl⟩)
  | waitLock | waitTest | waitSleep | waitUnlock =>
    have hsid : sid ≠ streamIdAudio := fun he => by simpa using (hp false rfl).1 he
    simp only [sendStmt] at h
    repeat' split at h
    all_goals cases h
    all_goals exact .inr (.inr ⟨by simp, by simp, fun he => absurd he hsid, rfl⟩)
  | malloc | unlockTx =>
    simp only [sendStmt] at h
    repeat' split at h
    all_goals cases h
    all_goals refine .inr (.inr ⟨by simp, by simp, fun he => ?_, rfl⟩)
    all_goals first | rfl | exact absurd he ‹_›
  | _ =>
    simp only [sendStmt] at h
    repeat' split at h
    all_goals cases h
    all_goals exact .inr (.inr ⟨by simp, by simp, fun _ => rfl, rfl⟩)

/-- A thread goes to sleep only while there are audio packets. -/
theorem sendStmt_sleep (h : sendStmt ks t sid payload ok rc a pc = some (a', .waitSleep)) :
    pc = .waitTest ∧ 0 < a'.pendingAudioPackets := by
  cases pc with
  | waitTest =>
    simp only [sendStmt] at h
    split at h <;> cases h
    exact ⟨rfl, ‹_›⟩
  | _ =>
    simp only [sendStmt] at h
    repeat' split at h
    all_goals cases h

/-- What a thread waits for: the mutex of its next statement. -/
def SendApp.Free (a : SendApp τ) : SendPc → Prop
  | .beginLock | .waitLock | .waitSleep | .endLock _ => a.priorityLock = none
  | .lockTx => a.txLock = none
  | .lockCrypto => a.cryptoLock = none
  | _ => True

theorem sendStmt_isSome (hpc : pc ≠ .idle) (h : a.Free pc) :
    (sendStmt ks t sid payload ok rc a pc).isSome := by
  cases pc with
  | idle => exact absurd rfl hpc
  | beginLock | waitLock | waitSleep | endLock | lockTx | lockCrypto =>
    simp only [SendApp.Free] at h
    simp [sendStmt, h]
  | encrypt => simp only [sendStmt, cryptoStreamEncryptPacket_eq]; split <;> rfl
  | _ =>
    simp only [sendStmt]
    repeat' split
    all_goals rfl

/-- Who holds a mutex does not wait, but with `tx_lock` for `crypto_lock`. -/
theorem SendApp.free_of_inPriority (h : pc.inPriority = true) :
    a.Free pc ∧ pc ≠ .idle ∧ pc ≠ .waitSleep := by
  cases pc <;> simp_all [SendPc.inPriority, SendApp.Free]

theorem SendApp.free_of_inCrypto (h : pc.inCrypto = true) :
    a.Free pc ∧ pc ≠ .idle ∧ pc ≠ .waitSleep := by
  cases pc <;> simp_all [SendPc.inCrypto, SendApp.Free]

theorem SendApp.free_of_inTx (h : pc.inTx = true)
    (hc : a.cryptoLock = none) : a.Free pc ∧ pc ≠ .idle ∧ pc ≠ .waitSleep := by
  cases pc <;> simp_all [SendPc.inTx, SendApp.Free]

theorem SendApp.free_of_none (hp : a.priorityLock = none) (ht : a.txLock = none)
    (hc : a.cryptoLock = none) (pc : SendPc) : a.Free pc := by
  cases pc <;> simp_all [SendApp.Free]

end

/-! ## The invariant -/

structure PriorityInv (s : PrioritySender τ) : Prop where
  priority : Mutex.Guards s.sender.app.priorityLock fun t => (s.sender.thread t).pc.inPriority
  tx : Mutex.Guards s.sender.app.txLock fun t => (s.sender.thread t).pc.inTx
  crypto : Mutex.Guards s.sender.app.cryptoLock fun t => (s.sender.thread t).pc.inCrypto
  placed : ∀ t, Placed (s.sender.thread t).streamId (s.sender.thread t).pc
  finite : s.sender.audioSends.Finite
  /-- The counter may wrap around, and is never above the number of audio sends. -/
  pending_le : s.sender.app.pendingAudioPackets.toNat ≤ s.sender.audioSends.ncard
  /-- Whoever sleeps on is to be woken by the end of an audio send. -/
  asleep : ∀ t, (s.sender.thread t).pc = .waitSleep → s.woken t = false →
    0 < s.sender.app.pendingAudioPackets

/-- The counter is exact. -/
def PrioritySender.Exact (s : PrioritySender τ) : Prop :=
  s.sender.app.pendingAudioPackets.toNat = s.sender.audioSends.ncard

theorem priorityInv_newPriority (n : Nonce) : PriorityInv (newPriority n : PrioritySender τ) where
  priority t := by simp [newPriority, newSender, SendPc.inPriority]
  tx t := by simp [newPriority, newSender, SendPc.inTx]
  crypto t := by simp [newPriority, newSender, SendPc.inCrypto]
  placed t b hb := by simp [newPriority, newSender, SendPc.ofAudio] at hb
  finite := by
    simp [newPriority, newSender, Sender.audioSends, SendThread.inAudioSend, SendPc.begun,
      SendPc.inTx]
  pending_le := by simp [newPriority, newSender]
  asleep t ht := by simp [newPriority, newSender] at ht

theorem exact_newPriority (n : Nonce) : (newPriority n : PrioritySender τ).Exact := by
  simp [newPriority, newSender, PrioritySender.Exact, Sender.audioSends, SendThread.inAudioSend,
    SendPc.begun, SendPc.inTx]

variable {s s' : PrioritySender τ} {t : τ}

theorem PriorityInv.audioSend (hi : PriorityInv s)
    (hp : 0 < s.sender.app.pendingAudioPackets) : ∃ u, (s.sender.thread u).inAudioSend := by
  have hpos : 0 < s.sender.app.pendingAudioPackets.toNat := UInt32.lt_iff_toNat_lt.1 hp
  have hcard : 0 < s.sender.audioSends.ncard := Nat.lt_of_lt_of_le hpos hi.pending_le
  exact (Set.ncard_pos hi.finite).1 hcard

theorem PrioritySender.Exact.pos (he : s.Exact) (hi : PriorityInv s) {rc : Int}
    (hpc : (s.sender.thread t).pc = .endUpdate rc) : 0 < s.sender.app.pendingAudioPackets := by
  have hplaced := hi.placed t
  have haudio : (s.sender.thread t).streamId = streamIdAudio :=
    (hplaced true (by rw [hpc]; rfl)).2 rfl
  have hmem : t ∈ s.sender.audioSends := ⟨haudio, by rw [hpc]; rfl⟩
  have hpos : 0 < s.sender.audioSends.ncard := (Set.ncard_pos hi.finite).2 ⟨t, hmem⟩
  rw [← he] at hpos
  exact UInt32.lt_iff_toNat_lt.2 hpos

variable [DecidableEq τ] {ks : KeyStream} {ok : Bool} {rc : Int} {a' : SendApp τ} {pc' : SendPc}

theorem mem_audioSends_of_ne (s : Sender τ) (a : SendApp τ) (th : SendThread) {u : τ}
    (hu : u ≠ t) :
    u ∈ Sender.audioSends ⟨a, Function.update s.thread t th⟩ ↔ u ∈ s.audioSends := by
  simp [Sender.audioSends, Function.update_of_ne hu]

theorem mem_audioSends_self (s : Sender τ) (a : SendApp τ) (th : SendThread) :
    t ∈ Sender.audioSends ⟨a, Function.update s.thread t th⟩ ↔ th.inAudioSend := by
  simp [Sender.audioSends]

/-- How a statement moves the counter and the audio sends. -/
theorem sendStmt_count (hi : PriorityInv s)
    (hs : sendStmt ks t (s.sender.thread t).streamId (s.sender.thread t).payload ok rc
      s.sender.app (s.sender.thread t).pc = some (a', pc'))
    {s₁ : Sender τ}
    (h₁ : s₁ = ⟨a', Function.update s.sender.thread t { s.sender.thread t with pc := pc' }⟩) :
    (s₁.audioSends.ncard = s.sender.audioSends.ncard + 1 ∧
      s₁.app.pendingAudioPackets = s.sender.app.pendingAudioPackets + 1) ∨
    (s.sender.audioSends.ncard = s₁.audioSends.ncard + 1 ∧ s₁.app.pendingAudioPackets =
      if s.sender.app.pendingAudioPackets > 0 then s.sender.app.pendingAudioPackets - 1
      else s.sender.app.pendingAudioPackets) ∨
    (s₁.audioSends = s.sender.audioSends ∧
      s₁.app.pendingAudioPackets = s.sender.app.pendingAudioPackets) := by
  subst h₁
  have ho := fun u => mem_audioSends_of_ne (t := t) s.sender a' { s.sender.thread t with pc := pc' }
    (u := u)
  have hself := mem_audioSends_self (t := t) s.sender a' { s.sender.thread t with pc := pc' }
  have hplaced := hi.placed t
  rcases sendStmt_pending hs hplaced with ⟨hpc, hb, hp⟩ | ⟨⟨rc', hpc⟩, hb, hp⟩ | ⟨-, -, hb, hp⟩
  · have haudio : (s.sender.thread t).streamId = streamIdAudio :=
      (hplaced true (by rw [hpc]; rfl)).2 rfl
    refine .inl ⟨Mutex.count_enter ho hi.finite ?_ (hself.2 ⟨haudio, hb⟩), hp⟩
    rintro ⟨-, hbegun⟩
    rw [hpc] at hbegun
    cases hbegun
  · have haudio : (s.sender.thread t).streamId = streamIdAudio :=
      (hplaced true (by rw [hpc]; rfl)).2 rfl
    refine .inr (.inl ⟨Mutex.count_leave ho hi.finite ⟨haudio, by rw [hpc]; rfl⟩ ?_, hp⟩)
    rw [hself]
    rintro ⟨-, hbegun⟩
    exact absurd hbegun (by simp [hb])
  · refine .inr (.inr ⟨Mutex.eq_of_stay ho (hself.trans ?_), hp⟩)
    apply and_congr_right
    intro haudio
    rw [hb haudio]

/-- The counter stays at most the number of audio sends, as both go up and down together. -/
theorem pending_step {p p' : UInt32} {c c' : Nat} (h : p.toNat ≤ c)
    (hm : (c' = c + 1 ∧ p' = p + 1) ∨ (c = c' + 1 ∧ p' = if p > 0 then p - 1 else p) ∨
      (c' = c ∧ p' = p)) :
    p'.toNat ≤ c' ∧ (p.toNat = c → c' < 2 ^ 32 → p'.toNat = c') := by
  rcases hm with ⟨rfl, rfl⟩ | ⟨rfl, rfl⟩ | ⟨rfl, rfl⟩
  · have hadd : (p + 1).toNat = (p.toNat + 1) % 2 ^ 32 := UInt32.toNat_add p 1
    have := Nat.mod_le (p.toNat + 1) (2 ^ 32)
    refine ⟨by omega, ?_⟩
    intro he hc
    rw [hadd, he, Nat.mod_eq_of_lt hc]
  · by_cases hp : p > 0
    · have hpos : 0 < p.toNat := UInt32.lt_iff_toNat_lt.1 hp
      have hsub : (p - 1).toNat = p.toNat - 1 :=
        UInt32.toNat_sub_of_le p 1 (UInt32.le_iff_toNat_le.2 hpos)
      rw [if_pos hp]
      exact ⟨by omega, fun he _ => by omega⟩
    · have hzero : p.toNat = 0 := by
        by_contra hne
        exact hp (UInt32.lt_iff_toNat_lt.2 (Nat.pos_of_ne_zero hne))
      rw [if_neg hp]
      exact ⟨by omega, fun he _ => by omega⟩
  · exact ⟨h, fun he _ => he⟩

theorem wokenAfter_of_ne (s : PrioritySender τ) (ok : Bool) (rc : Int) {u : τ}
    (hb : (s.sender.thread t).pc ≠ .beginUpdate) (he : ∀ rc, (s.sender.thread t).pc ≠ .endUpdate rc)
    (hu : u ≠ t) : s.wokenAfter (.go t ok rc) u = s.woken u := by
  simp only [PrioritySender.wokenAfter]
  cases hpc : (s.sender.thread t).pc with
  | beginUpdate => exact absurd hpc hb
  | endUpdate rc => exact absurd hpc (he rc)
  | waitTest => exact Function.update_of_ne hu _ _
  | _ => rfl

/-- A statement keeps the invariant. -/
theorem priorityInv_go (hi : PriorityInv s)
    (hs : sendStmt ks t (s.sender.thread t).streamId (s.sender.thread t).payload ok rc
      s.sender.app (s.sender.thread t).pc = some (a', pc')) :
    PriorityInv ⟨⟨a', Function.update s.sender.thread t { s.sender.thread t with pc := pc' }⟩,
      s.wokenAfter (.go t ok rc)⟩ where
  priority := hi.priority.update (fun th : SendThread => th.pc.inPriority) (sendStmt_priority hs)
  tx := hi.tx.update (fun th : SendThread => th.pc.inTx) (sendStmt_tx hs)
  crypto := hi.crypto.update (fun th : SendThread => th.pc.inCrypto) (sendStmt_crypto hs)
  placed u := by
    by_cases hu : u = t
    · subst hu
      simpa using sendStmt_placed hs (hi.placed u)
    · simpa [Function.update_of_ne hu] using hi.placed u
  finite := Mutex.finite_step (fun u hu => mem_audioSends_of_ne _ _ _ hu) hi.finite
  pending_le := by
    refine (pending_step hi.pending_le ?_).1
    rcases sendStmt_count hi hs rfl with h | h | ⟨h, hp⟩
    · exact .inl h
    · exact .inr (.inl h)
    · exact .inr (.inr ⟨by rw [h], hp⟩)
  asleep u hsleep hwoken := by
    have hplaced := hi.placed t
    by_cases hu : u = t
    · subst hu
      simp only [Function.update_self] at hsleep
      subst hsleep
      exact (sendStmt_sleep hs).2
    · simp only [Function.update_of_ne hu] at hsleep
      -- a broadcast wakes every thread, and any other statement leaves the counter alone
      rcases sendStmt_pending hs hplaced with ⟨hpc, -, -⟩ | ⟨⟨rc', hpc⟩, -, -⟩ | ⟨hb, he, -, hp⟩
      · simp [PrioritySender.wokenAfter, hpc] at hwoken
      · simp [PrioritySender.wokenAfter, hpc] at hwoken
      · have hold : s.woken u = false := (wokenAfter_of_ne s ok rc hb he hu).symm.trans hwoken
        exact hp ▸ hi.asleep u hsleep hold

theorem priorityInv_call (hi : PriorityInv s) {sid : UInt8} (hidle : (s.sender.thread t).pc = .idle)
    (payload : Bytes) :
    PriorityInv ⟨⟨s.sender.app, Function.update s.sender.thread t
      ⟨if sid = streamIdAudio then .beginLock else .waitLock, sid, payload⟩⟩, s.woken⟩ ∧
    Sender.audioSends ⟨s.sender.app, Function.update s.sender.thread t
      ⟨if sid = streamIdAudio then .beginLock else .waitLock, sid, payload⟩⟩ =
        s.sender.audioSends := by
  obtain ⟨th, hth⟩ : ∃ th : SendThread,
    th = ⟨if sid = streamIdAudio then .beginLock else .waitLock, sid, payload⟩ := ⟨_, rfl⟩
  have hpc : th.pc = .beginLock ∨ th.pc = .waitLock := by
    rw [hth]
    dsimp only
    split
    exacts [.inl rfl, .inr rfl]
  have hsends : Sender.audioSends ⟨s.sender.app, Function.update s.sender.thread t th⟩ =
      s.sender.audioSends := by
    apply Mutex.eq_of_stay (fun u hu => mem_audioSends_of_ne _ _ _ hu)
    rw [mem_audioSends_self]
    refine iff_of_false ?_ ?_
    · intro h
      rcases hpc with hpc | hpc <;>
        simp [SendThread.inAudioSend, hpc, SendPc.begun, SendPc.inTx] at h
    · intro h
      simp [Sender.audioSends, SendThread.inAudioSend, hidle, SendPc.begun, SendPc.inTx] at h
  rw [← hth]
  refine ⟨⟨?_, ?_, ?_, ?_, ?_, ?_, ?_⟩, hsends⟩
  · apply hi.priority.update (fun th : SendThread => th.pc.inPriority)
    rcases hpc with hpc | hpc <;> simpa [hidle, hpc, SendPc.inPriority] using .keep
  · apply hi.tx.update (fun th : SendThread => th.pc.inTx)
    rcases hpc with hpc | hpc <;> simpa [hidle, hpc, SendPc.inTx] using .keep
  · apply hi.crypto.update (fun th : SendThread => th.pc.inCrypto)
    rcases hpc with hpc | hpc <;> simpa [hidle, hpc, SendPc.inCrypto] using .keep
  · intro u
    by_cases hu : u = t
    · subst hu
      simp only [Function.update_self, hth]
      by_cases hsid : sid = streamIdAudio <;> simp [Placed, hsid, SendPc.ofAudio]
    · simpa [Function.update_of_ne hu] using hi.placed u
  · dsimp only
    rw [hsends]
    exact hi.finite
  · dsimp only
    rw [hsends]
    exact hi.pending_le
  · intro u hsleep hwoken
    by_cases hu : u = t
    · subst hu
      simp only [Function.update_self] at hsleep
      rcases hpc with hpc | hpc <;> simp [hpc] at hsleep
    · simp only [Function.update_of_ne hu] at hsleep
      exact hi.asleep u hsleep hwoken

/-- What every step keeps, and what it keeps while the audio sends can be counted. -/
theorem priorityInv_step {e : PriorityEvent τ} (hi : PriorityInv s)
    (hs : priorityStep ks s e = some s') :
    PriorityInv s' ∧ (s.Exact → s'.sender.audioSends.ncard < 2 ^ 32 → s'.Exact) := by
  cases e with
  | spurious t =>
    cases hs
    refine ⟨⟨hi.priority, hi.tx, hi.crypto, hi.placed, hi.finite, hi.pending_le,
      fun u hsleep hwoken => hi.asleep u hsleep ?_⟩, fun he _ => he⟩
    by_cases hu : u = t
    · subst hu
      simp at hwoken
    · simpa [Function.update_of_ne hu] using hwoken
  | send e =>
    simp only [priorityStep, Option.ite_none_left_eq_some] at hs
    obtain ⟨sender, hsend, rfl⟩ := Option.map_eq_some_iff.1 hs.2
    cases e with
    | call t sid payload =>
      simp only [senderStep, Option.ite_none_left_eq_some, not_not] at hsend
      obtain ⟨hidle, hsend⟩ := hsend
      cases hsend
      obtain ⟨hinv, hsends⟩ := priorityInv_call (s := s) hi hidle payload
      exact ⟨hinv, fun he _ => he.trans (congrArg Set.ncard hsends.symm)⟩
    | go t ok rc =>
      obtain ⟨⟨a', pc'⟩, hstmt, rfl⟩ := Option.map_eq_some_iff.1 hsend
      refine ⟨priorityInv_go hi hstmt, fun he hlt => (pending_step hi.pending_le ?_).2 he hlt⟩
      rcases sendStmt_count hi hstmt rfl with h | h | ⟨h, hp⟩
      · exact .inl h
      · exact .inr (.inl h)
      · exact .inr (.inr ⟨congrArg Set.ncard h, hp⟩)

/-! ## Progress -/

/-- Thread `t` can take a step, whatever the calls in it return. -/
def PrioritySender.CanStep (ks : KeyStream) (s : PrioritySender τ) (t : τ) : Prop :=
  ∀ ok rc, (priorityStep ks s (.send (.go t ok rc))).isSome

theorem canStep (hsends : s.Sends t) (hfree : s.sender.app.Free (s.sender.thread t).pc)
    (hawake : (s.sender.thread t).pc = .waitSleep → s.woken t = true) : s.CanStep ks t := by
  intro ok rc
  have hasleep : s.asleep (.go t ok rc) = false := by
    by_cases hpc : (s.sender.thread t).pc = .waitSleep
    · simp [PrioritySender.asleep, hawake hpc]
    · simp [PrioritySender.asleep, hpc]
  have hstmt : (sendStmt ks t (s.sender.thread t).streamId (s.sender.thread t).payload ok rc
    s.sender.app (s.sender.thread t).pc).isSome := sendStmt_isSome hsends hfree
  simp only [priorityStep, hasleep, senderStep]
  simpa using hstmt

/-- **No deadlock.** -/
theorem PriorityInv.progress (hi : PriorityInv s) (h : ∃ t, s.Sends t) :
    ∃ t, s.Sends t ∧ s.CanStep ks t := by
  have hstep : ∀ {t}, s.sender.app.Free (s.sender.thread t).pc ∧ s.Sends t ∧
      (s.sender.thread t).pc ≠ .waitSleep → ∃ t, s.Sends t ∧ s.CanStep ks t :=
    fun {t} ⟨hfree, hsends, hawake⟩ =>
      ⟨t, hsends, canStep hsends hfree fun hsleep => absurd hsleep hawake⟩
  cases hp : s.sender.app.priorityLock with
  | some t => exact hstep (t := t) (SendApp.free_of_inPriority ((hi.priority t).2 hp))
  | none =>
    cases hc : s.sender.app.cryptoLock with
    | some t => exact hstep (t := t) (SendApp.free_of_inCrypto ((hi.crypto t).2 hc))
    | none =>
      cases ht : s.sender.app.txLock with
      | some t => exact hstep (t := t) (SendApp.free_of_inTx ((hi.tx t).2 ht) hc)
      | none =>
        have hfree := SendApp.free_of_none hp ht hc
        obtain ⟨t, hsends⟩ := h
        by_cases hsleep : (s.sender.thread t).pc = .waitSleep ∧ s.woken t = false
        · -- the sleeping thread waits for an audio send, which no mutex holds up
          obtain ⟨u, haudio, hbegun⟩ := hi.audioSend (hi.asleep t hsleep.1 hsleep.2)
          refine hstep (t := u) ⟨hfree _, ?_, ?_⟩
          · intro hidle
            rw [hidle] at hbegun
            cases hbegun
          · intro hpc
            rw [hpc] at hbegun
            cases hbegun
        · refine ⟨t, hsends, canStep hsends (hfree _) ?_⟩
          intro hpc
          simpa [hpc] using hsleep

/-! ## Runs of a connection -/

/-- The bookkeeping of audio priority. -/
structure Bookkept (ks : KeyStream) (s : PrioritySender τ) : Prop where
  /-- Without an audio send in progress, the counter is 0. -/
  zero : (∀ t, s.Sends t → (s.sender.thread t).streamId ≠ streamIdAudio) →
    s.sender.app.pendingAudioPackets = 0
  /-- Unless every sender has returned, one can take a step. -/
  progress : (∃ t, s.Sends t) → ∃ t, s.Sends t ∧ s.CanStep ks t

theorem PriorityInv.bookkept (hi : PriorityInv s) : Bookkept ks s where
  zero h := by
    have hempty : s.sender.audioSends = ∅ := by
      refine Set.eq_empty_iff_forall_notMem.2 fun t ⟨haudio, hbegun⟩ => h t ?_ haudio
      intro hidle
      rw [hidle] at hbegun
      cases hbegun
    have hle := hi.pending_le
    rw [hempty, Set.ncard_empty] at hle
    exact UInt32.toNat_inj.1 (Nat.le_zero.1 hle)
  progress := hi.progress

/-- **Audio priority is kept book of in every run**, whoever sends and however the senders
interleave and fail. -/
theorem run_audio_priority {n : Nonce} {es : List (PriorityEvent τ)}
    (h : Run.run (priorityStep ks) (newPriority n) es = some s) :
    Bookkept ks s ∧ (Run.Meets (priorityStep ks) (Countable ks) (newPriority n) es →
      s.sender.app.pendingAudioPackets.toNat = s.sender.audioSends.ncard ∧
      ∀ t rc, (s.sender.thread t).pc = .endUpdate rc → 0 < s.sender.app.pendingAudioPackets) := by
  have hi := Run.inv (fun hi hs => (priorityInv_step hi hs).1) h (priorityInv_newPriority n)
  refine ⟨hi.bookkept, ?_⟩
  intro hc
  have he : PriorityInv s ∧ s.Exact :=
    Run.inv_where (I := fun s => PriorityInv s ∧ s.Exact)
      (fun hi hc hs => ⟨(priorityInv_step hi.1 hs).1, (priorityInv_step hi.1 hs).2 hi.2 (hc _ hs)⟩)
      h hc ⟨priorityInv_newPriority n, exact_newPriority n⟩
  exact ⟨he.2, fun t rc hpc => he.2.pos hi hpc⟩

/-- A video thread sleeps on `priority_cond` while one of two audio threads has no memory. -/
def sleepingVideo : List (PriorityEvent (Fin 3)) :=
  [.send (.call 1 streamIdAudio [0x41]), .send (.call 2 streamIdAudio [0x42])] ++
    List.replicate 3 (.send (.go 1 true 0)) ++ List.replicate 3 (.send (.go 2 true 0)) ++
    [.send (.call 0 streamIdVideo [0x65, 1, 2]), .send (.go 0 true 0), .send (.go 0 true 0),
      .send (.go 1 false 0), .send (.go 1 true 0), .send (.go 1 true 0), .send (.go 1 true 0),
      .spurious 0, .send (.go 0 true 0), .send (.go 0 true 0)]

theorem countable_fin (s : PrioritySender (Fin 3)) (e : PriorityEvent (Fin 3)) :
    Countable (fun _ _ _ _ => 0) s e := fun s' _ => by
  have hcard : s'.sender.audioSends.ncard ≤ Nat.card (Fin 3) := Set.ncard_le_card _
  rw [Nat.card_fin] at hcard
  omega

theorem run_audio_priority_sleepingVideo :
    ∃ s : PrioritySender (Fin 3),
      Run.run (priorityStep fun _ _ _ _ => 0) (newPriority ⟨List.replicate 12 7, rfl⟩)
        sleepingVideo = some s ∧
      Bookkept (fun _ _ _ _ => 0) s ∧
      s.sender.app.pendingAudioPackets.toNat = s.sender.audioSends.ncard := by
  have h : (Run.run (priorityStep fun _ _ _ _ => 0) (newPriority ⟨List.replicate 12 7, rfl⟩)
    sleepingVideo).isSome := by decide +kernel
  obtain ⟨s, hs⟩ := Option.isSome_iff_exists.1 h
  obtain ⟨hbook, hexact⟩ := run_audio_priority hs
  exact ⟨s, hs, hbook, (hexact (Run.meets_of_all countable_fin)).1⟩

end Server
