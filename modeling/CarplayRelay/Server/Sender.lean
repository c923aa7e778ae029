import CarplayRelay.Lib.Run
import CarplayRelay.CryptoInit
import Mathlib.Logic.Function.Basic

/-!
# Sending encrypted media from several threads

The threads of a connection call `send_encrypted_media` concurrently. Every statement that takes a
lock, reads or updates shared data, or calls `malloc`, `base64_encode` or `ws_sendframe` is one
step, and the outcome of such a call is part of the event.

`inTx` is the section under `tx_lock`: only the thread that holds the lock is in it
(`SenderInv.lock`), so what the section keeps (`CoreOk`) is a matter of one thread at a time.

* `run_serialized`: the server's `crypto_init` text goes out before any packet and is sent once,
  and the packets carry increasing sequence numbers, hence distinct nonces.
-/

namespace Server

open Bytes Crypto

/-! ## The code -/

/-- A frame on the connection. -/
inductive Frame
  | text (payload : Bytes)
  | binary (payload : Bytes)
  deriving DecidableEq, Repr

/-- A call of `ws_sendframe` and its result. -/
structure Sent where
  frame : Frame
  rc : Int
  deriving DecidableEq, Repr

/-- What `send_encrypted_media` encrypts. -/
structure Packet where
  streamId : UInt8
  seqNo : UInt32
  payload : Bytes

/-- Where a thread is in `send_encrypted_media`. -/
inductive SendPc
  | idle
  /-- `begin_audio_priority`. -/
  | beginLock
  | beginUpdate
  | beginUnlock
  /-- `wait_for_audio_priority`. -/
  | waitLock
  | waitTest
  | waitSleep
  | waitUnlock
  | malloc
  | lockTx
  | lockCrypto
  /-- `send_crypto_init_locked`. -/
  | initTest
  | initEncode
  | initMalloc (encoded : Bytes)
  | initSend (json : Bytes)
  | initMark
  | takeSeq (rc : Int)
  | unlockCrypto (rc : Int) (seqNo : UInt32)
  | encrypt (seqNo : UInt32)
  | sendPacket (seqNo : UInt32) (packet : Bytes)
  | unlockTx (rc : Int)
  /-- `end_audio_priority`. -/
  | endLock (rc : Int)
  | endUpdate (rc : Int)
  | endUnlock (rc : Int)
  deriving DecidableEq, Repr

variable {τ : Type}

/-- The shared part of `app_t`, and the calls of `ws_sendframe` so far. `taken`, `packets` and
`failed` are not in the code: how often `media_seq` was taken, the packets handed to
`ws_sendframe` and its results, and the sequence numbers of the sends that return an error. -/
structure SendApp (τ : Type) where
  sessionNonce : Nonce
  mediaSeq : UInt32 := 0
  cryptoInitSent : Bool := false
  pendingAudioPackets : UInt32 := 0
  priorityLock : Option τ := none
  txLock : Option τ := none
  cryptoLock : Option τ := none
  wire : List Sent := []
  taken : Nat := 0
  packets : List (Packet × Int) := []
  failed : List UInt32 := []

/-- A thread and the arguments of its call. -/
structure SendThread where
  pc : SendPc := .idle
  streamId : UInt8 := 0
  payload : Bytes := []

variable (ks : KeyStream)

/-- A statement of thread `t` in `send_encrypted_media`: `ok` is the outcome of an allocation, `rc`
the result of `ws_sendframe`. `none` while a lock is taken. -/
def sendStmt (t : τ) (streamId : UInt8) (payload : Bytes) (ok : Bool) (rc : Int) (a : SendApp τ) :
    SendPc → Option (SendApp τ × SendPc)
  | .idle => none
  | .beginLock =>
    if a.priorityLock.isSome then none else some ({ a with priorityLock := some t }, .beginUpdate)
  | .beginUpdate =>
    some ({ a with pendingAudioPackets := a.pendingAudioPackets + 1 }, .beginUnlock)
  | .beginUnlock => some ({ a with priorityLock := none }, .malloc)
  | .waitLock =>
    if a.priorityLock.isSome then none else some ({ a with priorityLock := some t }, .waitTest)
  | .waitTest =>
    if a.pendingAudioPackets > 0 then some ({ a with priorityLock := none }, .waitSleep)
    else some (a, .waitUnlock)
  | .waitSleep =>
    if a.priorityLock.isSome then none else some ({ a with priorityLock := some t }, .waitTest)
  | .waitUnlock => some ({ a with priorityLock := none }, .malloc)
  | .malloc =>
    if ok then some (a, .lockTx)
    else some (a, if streamId = streamIdAudio then .endLock (-1) else .idle)
  | .lockTx => if a.txLock.isSome then none else some ({ a with txLock := some t }, .lockCrypto)
  | .lockCrypto =>
    if a.cryptoLock.isSome then none else some ({ a with cryptoLock := some t }, .initTest)
  | .initTest => some (a, if a.cryptoInitSent then .takeSeq 0 else .initEncode)
  | .initEncode =>
    match Base64.base64Encode ok a.sessionNonce.1 with
    | none => some (a, .takeSeq (-1))
    | some encoded => some (a, .initMalloc encoded)
  | .initMalloc encoded =>
    some (a, if ok then .initSend (cryptoInitJson (withoutLineBreaks encoded)) else .takeSeq (-1))
  | .initSend json =>
    some ({ a with wire := a.wire ++ [⟨.text json, rc⟩] },
      if rc < 0 then .takeSeq (-1) else .initMark)
  | .initMark => some ({ a with cryptoInitSent := true }, .takeSeq 0)
  | .takeSeq rc =>
    some ({ a with mediaSeq := a.mediaSeq + 1, taken := a.taken + 1 },
      .unlockCrypto rc a.mediaSeq)
  | .unlockCrypto rc seqNo =>
    if rc ≠ 0 then
      some ({ a with cryptoLock := none, failed := a.failed ++ [seqNo] }, .unlockTx (-1))
    else some ({ a with cryptoLock := none }, .encrypt seqNo)
  | .encrypt seqNo =>
    match cryptoStreamEncryptPacket ks (cryptoStreamPacketSize payload.length) streamId seqNo
      a.sessionNonce payload with
    | none => some ({ a with failed := a.failed ++ [seqNo] }, .unlockTx (-1))
    | some (encodedSize, packet) =>
      if encodedSize < 0 then some ({ a with failed := a.failed ++ [seqNo] }, .unlockTx (-1))
      else some (a, .sendPacket seqNo (packet.take encodedSize.toNat))
  | .sendPacket seqNo packet =>
    some ({ a with
      wire := a.wire ++ [⟨.binary packet, rc⟩]
      packets := a.packets ++ [(⟨streamId, seqNo, payload⟩, rc)]
      failed := if rc < 0 then a.failed ++ [seqNo] else a.failed }, .unlockTx rc)
  | .unlockTx rc =>
    some ({ a with txLock := none }, if streamId = streamIdAudio then .endLock rc else .idle)
  | .endLock rc =>
    if a.priorityLock.isSome then none else some ({ a with priorityLock := some t }, .endUpdate rc)
  | .endUpdate rc =>
    some ({ a with pendingAudioPackets :=
      if a.pendingAudioPackets > 0 then a.pendingAudioPackets - 1 else a.pendingAudioPackets },
      .endUnlock rc)
  | .endUnlock _ => some ({ a with priorityLock := none }, .idle)

/-- A connection and its sending threads. -/
structure Sender (τ : Type) where
  app : SendApp τ
  thread : τ → SendThread := fun _ => {}

inductive SendEvent (τ : Type)
  /-- A thread calls `send_encrypted_media`. -/
  | call (t : τ) (streamId : UInt8) (payload : Bytes)
  /-- A thread goes on. -/
  | go (t : τ) (ok : Bool) (rc : Int)

def senderStep [DecidableEq τ] (s : Sender τ) : SendEvent τ → Option (Sender τ)
  | .call t streamId payload =>
    if (s.thread t).pc ≠ .idle then none
    else some { s with
      thread := Function.update s.thread t
        ⟨if streamId = streamIdAudio then .beginLock else .waitLock, streamId, payload⟩ }
  | .go t ok rc =>
    let th := s.thread t
    (sendStmt ks t th.streamId th.payload ok rc s.app th.pc).map fun (app, pc) =>
      { app := app, thread := Function.update s.thread t { th with pc := pc } }

/-! ## What the sends promise -/

/-- The frame of a packet: the result of the encryption is an `int`. -/
def Packet.bytes (n : Nonce) (p : Packet) : Bytes :=
  (packetBytes ks p.streamId p.seqNo n p.payload).take
    (toInt32 (cryptoStreamPacketSize p.payload.length)).toNat

/-- The nonce a packet is encrypted with. -/
def Packet.nonce (n : Nonce) (p : Packet) : Bytes := cryptoStreamPacketNonce n p.seqNo

/-- A binary frame and the result of sending it. -/
def Sent.binary : Sent → Option (Bytes × Int)
  | ⟨.binary packet, rc⟩ => some (packet, rc)
  | ⟨.text _, _⟩ => none

/-- A `crypto_init` text that was sent. -/
def Sent.isInit (n : Nonce) (f : Sent) : Bool := f.frame == .text (cryptoInitText n) && 0 ≤ f.rc

/-- Every binary frame comes after a `crypto_init` that was sent. -/
def InitFirst (n : Nonce) (wire : List Sent) : Prop :=
  ∀ pre post packet rc, wire = pre ++ ⟨.binary packet, rc⟩ :: post → ∃ f ∈ pre, f.isInit n

structure Serialized (a : SendApp τ) : Prop where
  init_first : InitFirst a.sessionNonce a.wire
  init_once : a.wire.countP (Sent.isInit a.sessionNonce) ≤ 1
  /-- The binary frames are the packets, in order. -/
  packets : a.wire.filterMap Sent.binary =
    a.packets.map fun p => (p.1.bytes ks a.sessionNonce, p.2)
  increasing : a.taken ≤ 2 ^ 32 → a.packets.Pairwise fun p q => p.1.seqNo < q.1.seqNo
  /-- A number below a packet's is that of a packet that was sent, or of a send that failed. -/
  gaps : a.taken ≤ 2 ^ 32 → ∀ p ∈ a.packets, ∀ n < p.1.seqNo,
    (∃ q ∈ a.packets, q.1.seqNo = n ∧ 0 ≤ q.2) ∨ n ∈ a.failed
  nonces : a.taken ≤ 2 ^ 32 → (a.packets.map fun p => p.1.nonce a.sessionNonce).Nodup

/-! ## The section under `tx_lock` -/

namespace SendPc

/-- Between taking and releasing `tx_lock`. -/
def inTx : SendPc → Bool
  | lockCrypto | initTest | initEncode | initMalloc _ | initSend _ | initMark | takeSeq _
  | unlockCrypto _ _ | encrypt _ | sendPacket _ _ | unlockTx _ => true
  | idle | beginLock | beginUpdate | beginUnlock | waitLock | waitTest | waitSleep | waitUnlock
  | malloc | lockTx | endLock _ | endUpdate _ | endUnlock _ => false

/-- The sequence number that is taken and neither sent nor failed. -/
def held : SendPc → Option UInt32
  | unlockCrypto _ seqNo | encrypt seqNo | sendPacket seqNo _ => some seqNo
  | _ => none

end SendPc

/-- How many sequence numbers are sent or failed. -/
def SendApp.settled (a : SendApp τ) (pc : SendPc) : Nat :=
  if pc.held.isSome then a.taken - 1 else a.taken

/-- What holds where the thread is. -/
def Local (a : SendApp τ) (th : SendThread) : Prop :=
  match th.pc with
  | .initEncode | .initMark => a.cryptoInitSent = false
  | .initMalloc encoded =>
    a.cryptoInitSent = false ∧ encoded = Base64.encodeFrom a.sessionNonce.1 0
  | .initSend json => a.cryptoInitSent = false ∧ json = cryptoInitText a.sessionNonce
  | .takeSeq rc | .unlockCrypto rc _ => rc = 0 → a.cryptoInitSent = true
  | .encrypt _ => a.cryptoInitSent = true
  | .sendPacket seqNo packet => a.cryptoInitSent = true ∧
    packet = Packet.bytes ks a.sessionNonce ⟨th.streamId, seqNo, th.payload⟩
  | _ => True

/-- What holds in the section, for the thread in it. -/
structure CoreOk (a : SendApp τ) (th : SendThread) : Prop where
  seq : a.mediaSeq = UInt32.ofNat a.taken
  inits : a.wire.countP (Sent.isInit a.sessionNonce) =
    if a.cryptoInitSent = true ∨ th.pc = .initMark then 1 else 0
  init_first : InitFirst a.sessionNonce a.wire
  packets : a.wire.filterMap Sent.binary =
    a.packets.map fun p => (p.1.bytes ks a.sessionNonce, p.2)
  increasing : a.taken ≤ 2 ^ 32 → a.packets.Pairwise fun p q => p.1.seqNo < q.1.seqNo
  below : a.taken ≤ 2 ^ 32 → ∀ p ∈ a.packets, p.1.seqNo.toNat < a.settled th.pc
  covered : a.taken ≤ 2 ^ 32 → ∀ n : UInt32, n.toNat < a.settled th.pc →
    (∃ q ∈ a.packets, q.1.seqNo = n ∧ 0 ≤ q.2) ∨ n ∈ a.failed
  held : ∀ {q}, th.pc.held = some q → 0 < a.taken ∧ q = UInt32.ofNat (a.taken - 1)
  here : Local ks a th

variable {ks} {a a' : SendApp τ} {th th' : SendThread} {t : τ} {ok : Bool} {rc : Int}

theorem InitFirst.concat {n : Nonce} {wire : List Sent} {f : Sent} (h : InitFirst n wire)
    (hf : ∀ {packet rc}, f = ⟨.binary packet, rc⟩ → ∃ g ∈ wire, g.isInit n) :
    InitFirst n (wire ++ [f]) := by
  intro pre post packet rc hw
  rcases post.eq_nil_or_concat with rfl | ⟨post, g, rfl⟩
  · obtain ⟨rfl, hg⟩ := List.append_inj' hw rfl
    exact hf (List.singleton_inj.1 hg)
  · rw [List.concat_eq_append, ← List.cons_append, ← List.append_assoc] at hw
    exact h pre post packet rc (List.append_inj' hw rfl).1

theorem CoreOk.serialized (h : CoreOk ks a th) : Serialized ks a where
  init_first := h.init_first
  init_once := by rw [h.inits]; split <;> omega
  packets := h.packets
  increasing := h.increasing
  gaps ht p hp n hn := h.covered ht n
    (Nat.lt_trans (UInt32.lt_iff_toNat_lt.1 hn) (h.below ht p hp))
  nonces ht := by
    rw [List.Nodup, List.pairwise_map]
    refine (h.increasing ht).imp fun {p q} hlt heq => ?_
    rw [cryptoStreamPacketNonce_inj heq] at hlt
    exact absurd hlt (UInt32.lt_irrefl _)

/-- What the section is about. -/
def SendApp.core (a : SendApp τ) :=
  (a.sessionNonce, a.mediaSeq, a.cryptoInitSent, a.wire, a.taken, a.packets, a.failed)

theorem CoreOk.congr (h : CoreOk ks a th) (hc : a'.core = a.core) : CoreOk ks a' th := by
  simp only [SendApp.core, Prod.mk.injEq] at hc
  obtain ⟨h1, h2, h3, h4, h5, h6, h7⟩ := hc
  constructor <;> simp only [Local, SendApp.settled, h1, h2, h3, h4, h5, h6, h7]
  exacts [h.seq, h.inits, h.init_first, h.packets, h.increasing, h.below, h.covered, h.held,
    h.here]

/-- The thread moves and nothing else changes. -/
theorem CoreOk.move (h : CoreOk ks a th) (hm : th'.pc = .initMark ↔ th.pc = .initMark)
    (hh : th'.pc.held = th.pc.held) (here : Local ks a th') : CoreOk ks a th' := by
  have hset : a.settled th'.pc = a.settled th.pc := by simp [SendApp.settled, hh]
  exact {
    seq := h.seq
    inits := by simpa only [hm] using h.inits
    init_first := h.init_first
    packets := h.packets
    increasing := h.increasing
    below := hset ▸ h.below
    covered := hset ▸ h.covered
    held hq := h.held (hh ▸ hq)
    here := here }

theorem SendPc.outside {pc : SendPc} (h : pc.inTx = false) :
    pc.held = none ∧ pc ≠ .initMark := by
  cases pc <;> simp_all [SendPc.inTx, SendPc.held]

theorem CoreOk.held_last {q : UInt32} (h : CoreOk ks a th) (hq : th.pc.held = some q)
    (ht : a.taken ≤ 2 ^ 32) :
    q.toNat + 1 = a.taken ∧ a.settled th.pc = q.toNat := by
  obtain ⟨hpos, rfl⟩ := h.held hq
  have hlast : (UInt32.ofNat (a.taken - 1)).toNat = a.taken - 1 := by
    rw [UInt32.toNat_ofNat']
    exact Nat.mod_eq_of_lt (by omega)
  refine ⟨by omega, ?_⟩
  rw [SendApp.settled, hq, hlast]
  rfl

theorem SendPc.held_ne_initMark {pc : SendPc} {q : UInt32} (h : pc.held = some q) :
    pc ≠ .initMark := by
  rintro rfl
  simp [SendPc.held] at h

theorem CoreOk.below_taken {q : UInt32} (h : CoreOk ks a th) (hq : th.pc.held = some q)
    (ht : a.taken ≤ 2 ^ 32) {p : Packet × Int} (hp : p ∈ a.packets) :
    p.1.seqNo.toNat < a.taken := by
  obtain ⟨hlast, hsett⟩ := h.held_last hq ht
  have := h.below ht p hp
  omega

theorem CoreOk.settle {q n : UInt32} (h : CoreOk ks a th) (hq : th.pc.held = some q)
    (ht : a.taken ≤ 2 ^ 32) (hn : n.toNat < a.taken) :
    n = q ∨ (∃ p ∈ a.packets, p.1.seqNo = n ∧ 0 ≤ p.2) ∨ n ∈ a.failed := by
  obtain ⟨hlast, hsett⟩ := h.held_last hq ht
  rcases Nat.lt_or_ge n.toNat q.toNat with hlt | hge
  · exact .inr (h.covered ht n (by omega))
  · exact .inl (UInt32.toNat_inj.1 (by omega))

/-- The send of a held sequence number fails. -/
theorem CoreOk.fail {q : UInt32} (h : CoreOk ks a th) (hq : th.pc.held = some q) (rc : Int) :
    CoreOk ks { a with failed := a.failed ++ [q] } ⟨.unlockTx rc, th.streamId, th.payload⟩ where
  seq := h.seq
  inits := by simpa [SendPc.held_ne_initMark hq] using h.inits
  init_first := h.init_first
  packets := h.packets
  increasing := h.increasing
  below ht _ hmem := h.below_taken hq ht hmem
  covered ht n hn := by
    rcases h.settle hq ht hn with rfl | hs | hf
    · exact .inr (List.mem_append_right _ (List.mem_singleton_self _))
    · exact .inl hs
    · exact .inr (List.mem_append_left _ hf)
  held hq' := by simp [SendPc.held] at hq'
  here := trivial

section
variable {sid : UInt8} {payload : Bytes} {pc pc' : SendPc}

/-- A statement outside of the section. -/
theorem sendStmt_outside (h : sendStmt ks t sid payload ok rc a pc = some (a', pc'))
    (hpc : pc.inTx = false) :
    a'.core = a.core ∧ ((pc'.inTx = false ∧ a'.txLock = a.txLock) ∨
      (pc' = .lockCrypto ∧ a.txLock = none ∧ a'.txLock = some t)) := by
  cases pc with
  | idle => cases h
  | beginLock | waitLock | waitSleep | endLock =>
    simp only [sendStmt, Option.ite_none_left_eq_some] at h
    cases h.2
    exact ⟨rfl, .inl ⟨rfl, rfl⟩⟩
  | beginUpdate | beginUnlock | waitUnlock | endUpdate | endUnlock =>
    cases h
    exact ⟨rfl, .inl ⟨rfl, rfl⟩⟩
  | waitTest =>
    simp only [sendStmt] at h
    split at h <;> cases h <;> exact ⟨rfl, .inl ⟨rfl, rfl⟩⟩
  | malloc =>
    simp only [sendStmt] at h
    split at h <;> cases h
    · exact ⟨rfl, .inl ⟨rfl, rfl⟩⟩
    · exact ⟨rfl, .inl ⟨by split <;> rfl, rfl⟩⟩
  | lockTx =>
    simp only [sendStmt, Option.ite_none_left_eq_some] at h
    obtain ⟨hlock, h⟩ := h
    cases h
    exact ⟨rfl, .inr ⟨rfl, by simpa using hlock, rfl⟩⟩
  | _ => simp [SendPc.inTx] at hpc

/-- A statement in the section keeps the lock, or leaves the section. -/
theorem sendStmt_inTx (h : sendStmt ks t sid payload ok rc a pc = some (a', pc'))
    (hpc : pc.inTx = true) :
    (pc'.inTx = true ∧ a'.txLock = a.txLock) ∨ (pc'.inTx = false ∧ a'.txLock = none) := by
  cases pc with
  | lockCrypto =>
    simp only [sendStmt, Option.ite_none_left_eq_some] at h
    cases h.2
    exact .inl ⟨rfl, rfl⟩
  | initTest | initMalloc | initSend =>
    cases h
    exact .inl ⟨by split <;> rfl, rfl⟩
  | initMark | takeSeq | sendPacket =>
    cases h
    exact .inl ⟨rfl, rfl⟩
  | initEncode | unlockCrypto =>
    simp only [sendStmt] at h
    split at h <;> cases h <;> exact .inl ⟨rfl, rfl⟩
  | encrypt =>
    simp only [sendStmt] at h
    split at h
    · cases h
      exact .inl ⟨rfl, rfl⟩
    · split at h <;> cases h <;> exact .inl ⟨rfl, rfl⟩
  | unlockTx =>
    cases h
    exact .inr ⟨by split <;> rfl, rfl⟩
  | _ => simp [SendPc.inTx] at hpc

/-- The text with the session nonce is sent; it counts as sent exactly if the call succeeds, and
then the flag is still clear. -/
theorem CoreOk.initSend {json : Bytes} (h : CoreOk ks a ⟨.initSend json, sid, payload⟩) (rc : Int) :
    CoreOk ks { a with wire := a.wire ++ [⟨.text json, rc⟩] }
      ⟨if rc < 0 then .takeSeq (-1) else .initMark, sid, payload⟩ := by
  obtain ⟨hunsent, hjson⟩ := h.here
  have hzero : a.wire.countP (Sent.isInit a.sessionNonce) = 0 := by
    simpa [hunsent] using h.inits
  have hfirst : InitFirst a.sessionNonce (a.wire ++ [⟨.text json, rc⟩]) :=
    h.init_first.concat fun hf => by simp at hf
  have hbin : (a.wire ++ [(⟨.text json, rc⟩ : Sent)]).filterMap Sent.binary =
      a.packets.map fun p => (p.1.bytes ks a.sessionNonce, p.2) := by
    simp [h.packets, Sent.binary]
  by_cases hrc : rc < 0
  · rw [if_pos hrc]
    exact {
      seq := h.seq
      inits := by simp [List.countP_append, hzero, Sent.isInit, hjson, hrc, hunsent]
      init_first := hfirst
      packets := hbin
      increasing := h.increasing
      below := h.below
      covered := h.covered
      held hq := by simp [SendPc.held] at hq
      here := by simp [Local] }
  · rw [if_neg hrc]
    exact {
      seq := h.seq
      inits := by simp [List.countP_append, hzero, Sent.isInit, hjson, not_lt.1 hrc]
      init_first := hfirst
      packets := hbin
      increasing := h.increasing
      below := h.below
      covered := h.covered
      held hq := by simp [SendPc.held] at hq
      here := hunsent }

theorem CoreOk.mark (h : CoreOk ks a ⟨.initMark, sid, payload⟩) :
    CoreOk ks { a with cryptoInitSent := true } ⟨.takeSeq 0, sid, payload⟩ where
  seq := h.seq
  inits := by simpa using h.inits
  init_first := h.init_first
  packets := h.packets
  increasing := h.increasing
  below := h.below
  covered := h.covered
  held hq := by simp [SendPc.held] at hq
  here _ := rfl

/-- A sequence number is taken and held. -/
theorem CoreOk.take {rc : Int} (h : CoreOk ks a ⟨.takeSeq rc, sid, payload⟩) :
    CoreOk ks { a with mediaSeq := a.mediaSeq + 1, taken := a.taken + 1 }
      ⟨.unlockCrypto rc a.mediaSeq, sid, payload⟩ where
  seq := by simp [h.seq, UInt32.ofNat_add]
  inits := by simpa using h.inits
  init_first := h.init_first
  packets := h.packets
  increasing ht := h.increasing (Nat.le_of_succ_le ht)
  below ht := h.below (Nat.le_of_succ_le ht)
  covered ht := h.covered (Nat.le_of_succ_le ht)
  held hq := by cases hq; exact ⟨Nat.succ_pos _, h.seq⟩
  here := h.here

/-- The packet with the held sequence number is sent, behind the text. -/
theorem CoreOk.send {q : UInt32} {b : Bytes} (h : CoreOk ks a ⟨.sendPacket q b, sid, payload⟩)
    (rc : Int) :
    CoreOk ks
      { a with
        wire := a.wire ++ [⟨.binary b, rc⟩]
        packets := a.packets ++ [(⟨sid, q, payload⟩, rc)]
        failed := if rc < 0 then a.failed ++ [q] else a.failed }
      ⟨.unlockTx rc, sid, payload⟩ := by
  obtain ⟨hsent, hb⟩ := h.here
  have hone : a.wire.countP (Sent.isInit a.sessionNonce) = 1 := by simpa [hsent] using h.inits
  exact {
    seq := h.seq
    inits := by simpa [Sent.isInit, hsent] using hone
    init_first := h.init_first.concat fun _ => List.countP_pos_iff.1 (hone ▸ Nat.one_pos)
    packets := by simp [h.packets, Sent.binary, hb]
    increasing ht := by
      obtain ⟨-, hsett⟩ := h.held_last rfl ht
      refine List.pairwise_append.2 ⟨h.increasing ht, List.pairwise_singleton _ _, ?_⟩
      intro p hp p' hp'
      rw [List.mem_singleton.1 hp', UInt32.lt_iff_toNat_lt, ← hsett]
      exact h.below ht p hp
    below ht p hmem := by
      rcases List.mem_append.1 hmem with hmem | hmem
      · exact h.below_taken rfl ht hmem
      · rw [List.mem_singleton.1 hmem]
        exact Nat.lt_of_succ_le (h.held_last rfl ht).1.le
    covered ht n hn := by
      rcases h.settle rfl ht hn with rfl | ⟨p, hp, hs⟩ | hf
      · by_cases hrc : rc < 0
        · refine .inr ?_
          rw [if_pos hrc]
          exact List.mem_append_right _ (List.mem_singleton_self _)
        · exact .inl ⟨_, List.mem_append_right _ (List.mem_singleton_self _), rfl, not_lt.1 hrc⟩
      · exact .inl ⟨p, List.mem_append_left _ hp, hs⟩
      · exact .inr (by split; exacts [List.mem_append_left _ hf, hf])
    held hq := by simp [SendPc.held] at hq
    here := trivial }

/-- **A statement in the section keeps its invariant.** -/
theorem sendStmt_core (h : sendStmt ks t sid payload ok rc a pc = some (a', pc'))
    (hpc : pc.inTx = true) (hc : CoreOk ks a ⟨pc, sid, payload⟩) :
    CoreOk ks a' ⟨pc', sid, payload⟩ := by
  cases pc with
  | lockCrypto =>
    simp only [sendStmt, Option.ite_none_left_eq_some] at h
    cases h.2
    have hcore : CoreOk ks { a with cryptoLock := some t } ⟨.lockCrypto, sid, payload⟩ :=
      hc.congr rfl
    exact hcore.move (by simp) rfl trivial
  | initTest =>
    cases h
    by_cases hs : a.cryptoInitSent = true
    · simp only [hs, if_true]
      exact hc.move (by simp) rfl fun _ => hs
    · rw [if_neg hs]
      have hunsent : a.cryptoInitSent = false := by simpa using hs
      exact hc.move (by simp) rfl hunsent
  | initEncode =>
    simp only [sendStmt] at h
    split at h <;> cases h
    · exact hc.move (by simp) rfl (by simp [Local])
    · rename_i encoded henc
      simp only [Base64.base64Encode, Option.ite_none_left_eq_some, Option.some.injEq] at henc
      exact hc.move (by simp) rfl ⟨hc.here, henc.2.2.symm⟩
  | initMalloc encoded =>
    cases h
    obtain ⟨hunsent, henc⟩ := hc.here
    cases ok with
    | false => exact hc.move (by simp) rfl (by simp [Local])
    | true => exact hc.move (by simp) rfl ⟨hunsent, by rw [henc, cryptoInitText]⟩
  | initSend json =>
    cases h
    exact hc.initSend rc
  | initMark =>
    cases h
    exact hc.mark
  | takeSeq rc' =>
    cases h
    exact hc.take
  | unlockCrypto rc' q =>
    have hcore : CoreOk ks { a with cryptoLock := none } ⟨.unlockCrypto rc' q, sid, payload⟩ :=
      hc.congr rfl
    simp only [sendStmt] at h
    split at h <;> cases h
    · exact hcore.fail rfl _
    · rename_i hrc
      exact hcore.move (by simp) rfl (hcore.here (not_not.1 hrc))
  | encrypt q =>
    simp only [sendStmt, cryptoStreamEncryptPacket_eq] at h
    split at h <;> cases h
    · exact hc.fail rfl _
    · exact hc.move (by simp) rfl ⟨hc.here, rfl⟩
  | sendPacket q b =>
    cases h
    exact hc.send rc
  | unlockTx rc' =>
    cases h
    have hcore : CoreOk ks { a with txLock := none } ⟨.unlockTx rc', sid, payload⟩ := hc.congr rfl
    by_cases hsid : sid = streamIdAudio
    · simp only [hsid, if_true] at hcore ⊢
      exact hcore.move (by simp) rfl trivial
    · rw [if_neg hsid]
      exact hcore.move (by simp) rfl trivial
  | _ => simp [SendPc.inTx] at hpc

end

/-! ## Runs of a connection -/

/-- The thread in the section. -/
def Sender.holder (s : Sender τ) : SendThread :=
  match s.app.txLock with
  | none => {}
  | some t => s.thread t

structure SenderInv (ks : KeyStream) (s : Sender τ) : Prop where
  /-- **Mutual exclusion**: a thread is in the section iff it holds `tx_lock`. -/
  lock : ∀ t, (s.thread t).pc.inTx = true ↔ s.app.txLock = some t
  core : CoreOk ks s.app s.holder

variable {s s' : Sender τ}

theorem SenderInv.not_holder (h : SenderInv ks s) {t : τ}
    (ht : (s.thread t).pc.inTx = false) : s.app.txLock ≠ some t := fun hl => by
  simp [(h.lock t).2 hl] at ht

/-- A new connection. -/
def newSender (n : Nonce) : Sender τ := { app := { sessionNonce := n } }

theorem senderInv_newSender (n : Nonce) : SenderInv ks (newSender n : Sender τ) where
  lock t := by simp [newSender, SendPc.inTx]
  core := by
    constructor <;> simp [newSender, Sender.holder, SendApp.settled, SendPc.held, InitFirst, Local]

variable [DecidableEq τ]

theorem Sender.holder_update (s : Sender τ) {t : τ} (ht : s.app.txLock ≠ some t)
    {a : SendApp τ} (ha : a.txLock = s.app.txLock) (th : SendThread) :
    Sender.holder ⟨a, Function.update s.thread t th⟩ = s.holder := by
  simp only [Sender.holder, ha]
  cases hl : s.app.txLock with
  | none => rfl
  | some u =>
    have hu : u ≠ t := by rintro rfl; exact ht hl
    simp [Function.update_of_ne hu]

/-- A thread moves outside of the section. -/
theorem SenderInv.outside (h : SenderInv ks s) (ht : (s.thread t).pc.inTx = false)
    (hth : th.pc.inTx = false) (hc : a.core = s.app.core) (hl : a.txLock = s.app.txLock) :
    SenderInv ks ⟨a, Function.update s.thread t th⟩ where
  lock u := by
    by_cases hu : u = t
    · subst hu
      simp [hth, hl, h.not_holder ht]
    · simp [Function.update_of_ne hu, hl, h.lock u]
  core := by
    rw [s.holder_update (h.not_holder ht) hl]
    exact h.core.congr hc

theorem senderInv_go (h : SenderInv ks s)
    (hs : sendStmt ks t (s.thread t).streamId (s.thread t).payload ok rc s.app (s.thread t).pc =
      some (a', pc')) :
    SenderInv ks ⟨a', Function.update s.thread t { s.thread t with pc := pc' }⟩ := by
  by_cases hin : (s.thread t).pc.inTx = true
  · have hlock : s.app.txLock = some t := (h.lock t).1 hin
    have hholder : s.holder = s.thread t := by simp [Sender.holder, hlock]
    have hcore := sendStmt_core hs hin (hholder ▸ h.core)
    rcases sendStmt_inTx hs hin with ⟨hin', hl'⟩ | ⟨hin', hl'⟩
    · refine ⟨?_, ?_⟩
      · intro u
        by_cases hu : u = t
        · subst hu
          simp [hin', hl', hlock]
        · simp [Function.update_of_ne hu, hl', h.lock u]
      · simpa [Sender.holder, hl', hlock] using hcore
    · refine ⟨?_, ?_⟩
      · intro u
        by_cases hu : u = t
        · subst hu
          simp [hin', hl']
        · have hne : some t ≠ some u := fun he => hu (Option.some.inj he).symm
          simp [Function.update_of_ne hu, hl', h.lock u, hlock, hne]
      · simp only [Sender.holder, hl']
        obtain ⟨hheld, hmark⟩ := SendPc.outside hin'
        exact hcore.move (iff_of_false (by simp) hmark) hheld.symm trivial
  · have hout : (s.thread t).pc.inTx = false := by simpa using hin
    obtain ⟨hc, ⟨hout', hl'⟩ | ⟨rfl, hfree, hl'⟩⟩ := sendStmt_outside hs hout
    · exact h.outside hout hout' hc hl'
    · refine ⟨?_, ?_⟩
      · intro u
        by_cases hu : u = t
        · subst hu
          simp [hl', SendPc.inTx]
        · have hne : some t ≠ some u := fun he => hu (Option.some.inj he).symm
          simp [Function.update_of_ne hu, hl', h.lock u, hfree, hne]
      · have hcore : CoreOk ks a' s.holder := h.core.congr hc
        simp only [Sender.holder, hfree] at hcore
        simp only [Sender.holder, hl', Function.update_self]
        exact hcore.move (by simp) rfl trivial

theorem senderInv_step {e : SendEvent τ} (h : SenderInv ks s)
    (hs : senderStep ks s e = some s') : SenderInv ks s' := by
  cases e with
  | call t sid payload =>
    simp only [senderStep, Option.ite_none_left_eq_some, not_not] at hs
    obtain ⟨hidle, hs⟩ := hs
    cases hs
    refine h.outside (by rw [hidle]; rfl) ?_ rfl rfl
    dsimp only
    split <;> rfl
  | go t ok rc =>
    obtain ⟨⟨a', pc'⟩, hstmt, rfl⟩ := Option.map_eq_some_iff.1 hs
    exact senderInv_go h hstmt

/-- **The sends of a connection are serialised**, whatever its threads send and however they
interleave. -/
theorem run_serialized {n : Nonce} {es : List (SendEvent τ)}
    (h : Run.run (senderStep ks) (newSender n) es = some s) : Serialized ks s.app :=
  (Run.inv senderInv_step h (senderInv_newSender n)).core.serialized

/-! ## The texts of a connection -/

/-- Every text frame is the `crypto_init` of the connection. -/
def Texts (a : SendApp τ) : Prop :=
  ∀ t rc, ⟨.text t, rc⟩ ∈ a.wire → t = cryptoInitText a.sessionNonce

omit [DecidableEq τ] in
theorem sendStmt_texts (h : sendStmt ks t sid payload ok rc a pc = some (a', pc'))
    (hinit : ∀ json, pc = .initSend json → json = cryptoInitText a.sessionNonce) (ha : Texts a) :
    Texts a' ∧ a'.sessionNonce = a.sessionNonce := by
  cases pc with
  | idle => cases h
  | initSend json =>
    cases h
    refine ⟨?_, rfl⟩
    intro t rc ht
    rcases List.mem_append.1 ht with ht | ht
    · exact ha t rc ht
    · cases List.mem_singleton.1 ht
      exact hinit json rfl
  | sendPacket seqNo packet =>
    cases h
    refine ⟨?_, rfl⟩
    intro t rc ht
    rcases List.mem_append.1 ht with ht | ht
    · exact ha t rc ht
    · cases List.mem_singleton.1 ht
  | beginLock | waitLock | waitSleep | lockTx | lockCrypto | endLock =>
    simp only [sendStmt, Option.ite_none_left_eq_some] at h
    cases h.2
    exact ⟨ha, rfl⟩
  | waitTest | malloc | initEncode | unlockCrypto =>
    simp only [sendStmt] at h
    split at h <;> cases h <;> exact ⟨ha, rfl⟩
  | encrypt =>
    simp only [sendStmt] at h
    split at h
    · cases h
      exact ⟨ha, rfl⟩
    · split at h <;> cases h <;> exact ⟨ha, rfl⟩
  | _ =>
    cases h
    exact ⟨ha, rfl⟩

/-- The text frames of a run. -/
theorem run_texts {n : Nonce} {es : List (SendEvent τ)}
    (h : Run.run (senderStep ks) (newSender n) es = some s) :
    Texts s.app ∧ s.app.sessionNonce = n := by
  have hinv : SenderInv ks s ∧ Texts s.app ∧ s.app.sessionNonce = n := by
    refine Run.inv (I := fun s => SenderInv ks s ∧ Texts s.app ∧ s.app.sessionNonce = n) ?_ h
      ⟨senderInv_newSender n, by simp [Texts, newSender], rfl⟩
    rintro s e s' ⟨hs, ht, hn⟩ hstep
    refine ⟨senderInv_step hs hstep, ?_⟩
    cases e with
    | call t sid payload =>
      simp only [senderStep, Option.ite_none_left_eq_some] at hstep
      cases hstep.2
      exact ⟨ht, hn⟩
    | go t ok rc =>
      obtain ⟨⟨a', pc'⟩, hstmt, rfl⟩ := Option.map_eq_some_iff.1 hstep
      have hinit : ∀ json, (s.thread t).pc = .initSend json →
          json = cryptoInitText s.app.sessionNonce := by
        intro json hpc
        have hlock : s.app.txLock = some t := (hs.lock t).1 (by rw [hpc]; rfl)
        have hholder : s.holder = s.thread t := by simp [Sender.holder, hlock]
        have hhere := hs.core.here
        rw [hholder, Local, hpc] at hhere
        exact hhere.2
      obtain ⟨ht', hn'⟩ := sendStmt_texts hstmt hinit ht
      exact ⟨ht', hn'.trans hn⟩
  exact hinv.2

/-- An audio and a video thread: the first `crypto_init` is not sent. -/
def twoThreads : List (SendEvent Bool) :=
  [.call false streamIdVideo [0x65, 1, 2], .call true streamIdAudio [0x41]] ++
    List.replicate 3 (.go false true 0) ++ List.replicate 9 (.go true true 0) ++
    [.go true true (-1)] ++ List.replicate 6 (.go true true 0) ++
    List.replicate 13 (.go false true 11)

theorem run_serialized_twoThreads :
    ∃ s, Run.run (senderStep fun _ _ _ _ => 0) (newSender ⟨List.replicate 12 7, rfl⟩) twoThreads =
      some s ∧ Serialized (fun _ _ _ _ => 0) s.app := by
  have h : (Run.run (senderStep fun _ _ _ _ => 0) (newSender ⟨List.replicate 12 7, rfl⟩)
    twoThreads).isSome := by decide +kernel
  obtain ⟨s, hs⟩ := Option.isSome_iff_exists.1 h
  exact ⟨s, hs, run_serialized hs⟩

end Server
