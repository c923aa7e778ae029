import CarplayRelay.Firmware.TxRing
import CarplayRelay.Lib.Run

/-!
# The TX ring as a bounded queue

`TxFifo` is what the ring is for: a queue of at most `txRingSize` bytes and a count of the packets
dropped. The ring gives the same answers to every sequence of calls.

* `rangesOf_le`: no call touches memory outside the ring array.
* `txRing_refines_fifo`: the invariant, the ranges and the answers, after any calls.

The lengths of a call are those of its lists, so their sum does not overflow.
-/

namespace Firmware

open Ring

/-! ## The queue -/

/-- At most `txRingSize` bytes, and the number of packets dropped. -/
structure TxFifo where
  bytes : Bytes
  dropCount : UInt32
  length_le : bytes.length ≤ txRingSize

/-- The calls of the ring's functions. -/
inductive TxCall
  | reset
  | enqueue (pre payload : Bytes)
  | peek (maxLen : Nat)
  | consume (len : Nat)

/-- What a call returns. -/
inductive TxAnswer
  | done
  | enqueued (ok : Bool)
  | peeked (bytes : Bytes)
  deriving DecidableEq, Repr

namespace TxFifo

def empty : TxFifo := ⟨[], 0, Nat.zero_le _⟩

/-- A packet is appended whole or dropped whole. -/
def enqueue (q : TxFifo) (packet : Bytes) : TxFifo × TxAnswer :=
  if h : q.bytes.length + packet.length ≤ txRingSize then
    (⟨q.bytes ++ packet, q.dropCount, List.length_append ▸ h⟩, .enqueued true)
  else (⟨q.bytes, q.dropCount + 1, q.length_le⟩, .enqueued false)

def step (q : TxFifo) : TxCall → TxFifo × TxAnswer
  | .reset => (⟨[], q.dropCount, Nat.zero_le _⟩, .done)
  | .enqueue pre payload => q.enqueue (pre ++ payload)
  | .peek maxLen => (q, .peeked (q.bytes.take maxLen))
  | .consume len =>
    (⟨q.bytes.drop len, q.dropCount, (List.drop_sublist _ _).length_le.trans q.length_le⟩, .done)

end TxFifo

/-! ## The ring -/

/-- The ring before the first call. -/
def txRingInit : TxRing := ⟨List.replicate txRingSize 0, 0, 0, 0, 0, 0, 0, 0⟩

namespace TxRing

def step (r : TxRing) : TxCall → TxRing × TxAnswer
  | .reset => (r.gatewayUsbTxReset, .done)
  | .enqueue pre payload =>
    let (ok, r') := r.gatewayUsbTxEnqueuePacket pre payload
    (r', .enqueued ok)
  | .peek maxLen => (r, .peeked (r.gatewayUsbTxPeekChunk maxLen))
  | .consume len => (r.gatewayUsbTxConsumeChunk len, .done)

/-- The ranges of the ring array that `gateway_usb_tx_ring_write` copies to. -/
def writeRanges (pos len : Nat) : List (Nat × Nat) :=
  if len = 0 then [] else wrapRanges txRingSize pos len

/-- The ranges of the ring array that a call copies to or from. -/
def rangesOf (r : TxRing) : TxCall → List (Nat × Nat)
  | .reset | .consume _ => []
  | .enqueue pre payload =>
    let totalLen := pre.length + payload.length
    if totalLen = 0 then []
    else if totalLen > r.gatewayUsbTxFreeSpace then []
    else
      (if pre.length > 0 then writeRanges r.head pre.length else []) ++
        if payload.length > 0 then writeRanges (writePart r.ring r.head pre).2 payload.length
        else []
  | .peek maxLen =>
    if maxLen = 0 then []
    else
      let len := if r.count > maxLen then maxLen else r.count
      if len = 0 then [] else wrapRanges txRingSize r.tail len

section
variable {r : TxRing} {q : TxFifo}

theorem writeRanges_le {pos len : Nat} (hp : pos < txRingSize) (hl : len ≤ txRingSize) :
    ∀ range ∈ writeRanges pos len, range.1 + range.2 ≤ txRingSize := by
  unfold writeRanges
  split
  · exact fun _ hrange => absurd hrange List.not_mem_nil
  · exact wrapRanges_le hp.le hl

/-- **No call touches memory outside the ring array.** -/
theorem rangesOf_le (h : r.Ok) (call : TxCall) :
    ∀ range ∈ r.rangesOf call, range.1 + range.2 ≤ txRingSize := by
  have hcount := h.count_le
  cases call with
  | reset | consume _ => exact fun _ hrange => absurd hrange List.not_mem_nil
  | enqueue pre payload =>
    intro range hrange
    simp only [rangesOf] at hrange
    split at hrange
    · cases hrange
    split at hrange
    · cases hrange
    rename_i hfit
    unfold gatewayUsbTxFreeSpace at hfit
    rcases List.mem_append.1 hrange with hrange | hrange
    · split at hrange
      · exact writeRanges_le h.head_lt (by omega) range hrange
      · cases hrange
    · split at hrange
      · have hhead : (writePart r.ring r.head pre).2 < txRingSize := by
          rw [writePart_eq h.head_lt]
          exact Nat.mod_lt _ txRingSize_pos
        exact writeRanges_le hhead (by omega) range hrange
      · cases hrange
  | peek maxLen =>
    intro range hrange
    have hlen : (if r.count > maxLen then maxLen else r.count) ≤ txRingSize := by split <;> omega
    simp only [rangesOf] at hrange
    generalize (if r.count > maxLen then maxLen else r.count) = len at hlen hrange
    split at hrange
    · cases hrange
    split at hrange
    · cases hrange
    · exact wrapRanges_le h.tail_lt.le hlen range hrange

/-! ## Refinement -/

/-- The ring stands for the queue. -/
structure Refines (r : TxRing) (q : TxFifo) : Prop where
  ok : r.Ok
  contents : r.contents = q.bytes
  dropCount : r.dropCount = q.dropCount

theorem refines_init : Refines txRingInit .empty where
  ok := ⟨List.length_replicate, txRingSize_pos, txRingSize_pos, Nat.zero_le _, rfl⟩
  contents := window_zero _
  dropCount := rfl

/-- Other variables of the ring than the drop counter do not change when a packet is dropped. -/
theorem step_full {pre payload : Bytes} (h : Refines r q)
    (hfull : txRingSize < q.bytes.length + (pre ++ payload).length) :
    r.step (.enqueue pre payload) =
      ({ r with dropCount := r.dropCount + 1 }, .enqueued false) := by
  have hlen := h.ok.length_contents
  have hcount := h.ok.count_le
  rw [h.contents] at hlen
  rw [List.length_append] at hfull
  rw [step, enqueuePacket_full (by omega)]

/-- A packet that is appended is not counted as dropped. -/
theorem dropCount_enqueue {r' : TxRing} {pre payload : Bytes}
    (h : r.gatewayUsbTxEnqueuePacket pre payload = (true, r')) : r'.dropCount = r.dropCount := by
  unfold gatewayUsbTxEnqueuePacket at h
  dsimp only at h
  split at h
  · cases h
    rfl
  split at h
  · cases h
  · cases h
    rfl

theorem refines_enqueue (h : Refines r q) (pre payload : Bytes) :
    (r.step (.enqueue pre payload)).2 = (q.step (.enqueue pre payload)).2 ∧
      Refines (r.step (.enqueue pre payload)).1 (q.step (.enqueue pre payload)).1 := by
  have hlen := h.ok.length_contents
  rw [h.contents] at hlen
  have happend : (pre ++ payload).length = pre.length + payload.length := List.length_append
  by_cases hfit : q.bytes.length + (pre ++ payload).length ≤ txRingSize
  · obtain ⟨r', hr, hok, hcontents⟩ := @enqueuePacket_ok r h.ok pre payload (by omega)
    rw [step, hr, TxFifo.step, TxFifo.enqueue, dif_pos hfit]
    exact ⟨rfl, hok, by rw [hcontents, h.contents], (dropCount_enqueue hr).trans h.dropCount⟩
  · rw [step_full h (by omega), TxFifo.step, TxFifo.enqueue, dif_neg hfit]
    exact ⟨rfl, ⟨h.ok.size, h.ok.head_lt, h.ok.tail_lt, h.ok.count_le, h.ok.head_eq⟩, h.contents,
      congrArg (· + 1) h.dropCount⟩

/-- **The step lemma.** -/
theorem refines_step (h : Refines r q) (call : TxCall) :
    (r.step call).2 = (q.step call).2 ∧ Refines (r.step call).1 (q.step call).1 := by
  cases call with
  | reset => exact ⟨rfl, reset_ok h.ok, contents_reset r, h.dropCount⟩
  | enqueue pre payload => exact refines_enqueue h pre payload
  | peek maxLen =>
    have hpeek : r.gatewayUsbTxPeekChunk maxLen = q.bytes.take maxLen := by
      rw [peekChunk_eq h.ok, h.contents]
    exact ⟨congrArg TxAnswer.peeked hpeek, h⟩
  | consume len =>
    refine ⟨rfl, consumeChunk_ok h.ok len, ?_, ?_⟩
    · show (r.gatewayUsbTxConsumeChunk len).contents = q.bytes.drop len
      rw [consumeChunk_contents h.ok, h.contents]
    · show (r.gatewayUsbTxConsumeChunk len).dropCount = q.dropCount
      rw [← h.dropCount, gatewayUsbTxConsumeChunk]
      split <;> rfl

end

end TxRing

/-- **The ring is a bounded queue.** After any calls the invariant holds and no further call leaves
the array; the ring has answered as the queue has, and holds the same bytes; a packet that does not
fit changes nothing but the drop counter. -/
theorem txRing_refines_fifo (calls : List TxCall) :
    let ring := Run.outputs TxRing.step txRingInit calls
    let fifo := Run.outputs TxFifo.step .empty calls
    ring.2 = fifo.2 ∧ ring.1.Ok ∧ ring.1.contents = fifo.1.bytes ∧
      ring.1.dropCount = fifo.1.dropCount ∧
      (∀ call, ∀ range ∈ ring.1.rangesOf call, range.1 + range.2 ≤ txRingSize) ∧
      ∀ pre payload, txRingSize < fifo.1.bytes.length + (pre ++ payload).length →
        ring.1.step (.enqueue pre payload) =
          ({ ring.1 with dropCount := ring.1.dropCount + 1 }, .enqueued false) := by
  intro ring fifo
  obtain ⟨hanswers, hrefines⟩ :=
    @Run.simulation _ _ _ _ TxRing.step TxFifo.step TxRing.Refines
      (fun h => TxRing.refines_step h _) _ _ TxRing.refines_init calls
  exact ⟨hanswers, hrefines.ok, hrefines.contents, hrefines.dropCount,
    TxRing.rangesOf_le hrefines.ok, fun _ _ hfull => TxRing.step_full hrefines hfull⟩

end Firmware
