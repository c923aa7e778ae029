import CarplayRelay.Lib.Bytes
import CarplayRelay.Lib.Ring

/-!
# The firmware's TX ring (`gateway_usb_tx_*`)

The stream to the USB host is queued in a ring of `txRingSize` bytes with a write position
`head`, a read position `tail` and the number `count` of queued bytes. `TxRing.Ok` is the
invariant of the four variables, `TxRing.contents` the queued bytes in order (a `Ring.window`).
The three operations are those of a bounded queue of bytes:

* `enqueuePacket_ok`, `enqueuePacket_full`: a packet is appended whole or dropped whole;
* `peekChunk_eq`: a peek returns the front and changes nothing;
* `consumeChunk_contents`: a consume drops from the front.

A `NULL` buffer is the empty list, so the source's tests for a `NULL` buffer of positive length
have no counterpart.
-/

namespace Firmware

open Ring

/-- `GATEWAY_AMEBA_USB_TX_RING_SIZE`. -/
def txRingSize : Nat := 128 * 1024

/-- The ring and the counters its functions keep (`unsigned long`: 32 bits on the target). -/
structure TxRing where
  ring : Bytes
  head : Nat
  tail : Nat
  count : Nat
  lastRingCount : Nat
  bytesEnqueued : UInt32
  bytesSent : UInt32
  dropCount : UInt32

namespace TxRing

def gatewayUsbTxFreeSpace (r : TxRing) : Nat := txRingSize - r.count

/-- The ring bytes after `gateway_usb_tx_ring_write`. -/
def gatewayUsbTxRingWrite (ring : Bytes) (pos : Nat) (data : Bytes) : Bytes :=
  if data.length = 0 then ring else wrapWrite txRingSize ring pos data

/-- One of the two copies of `gateway_usb_tx_enqueue_packet`: ring bytes and `head` after it. -/
def writePart (ring : Bytes) (head : Nat) (data : Bytes) : Bytes × Nat :=
  if data.length > 0 then
    (gatewayUsbTxRingWrite ring head data, (head + data.length) % txRingSize)
  else (ring, head)

/-- `gateway_usb_tx_enqueue_packet`: the result (`true` for 0) and the ring after it. -/
def gatewayUsbTxEnqueuePacket (r : TxRing) (pre payload : Bytes) : Bool × TxRing :=
  let totalLen := pre.length + payload.length
  if totalLen = 0 then (true, r)
  else if totalLen > r.gatewayUsbTxFreeSpace then
    (false, { r with dropCount := r.dropCount + 1 })
  else
    let p := writePart r.ring r.head pre
    let q := writePart p.1 p.2 payload
    (true, { r with ring := q.1
                    head := q.2
                    count := r.count + totalLen
                    lastRingCount := r.count + totalLen
                    bytesEnqueued := r.bytesEnqueued + UInt32.ofNat totalLen })

/-- `gateway_usb_tx_peek_chunk`: the bytes copied to `dest`, whose number is the result. -/
def gatewayUsbTxPeekChunk (r : TxRing) (maxLen : Nat) : Bytes :=
  if maxLen = 0 then []
  else
    let len := if r.count > maxLen then maxLen else r.count
    if len = 0 then [] else wrapRead txRingSize r.ring r.tail len

/-- `gateway_usb_tx_consume_chunk`. -/
def gatewayUsbTxConsumeChunk (r : TxRing) (len : Nat) : TxRing :=
  if len = 0 then r
  else
    let len := if len > r.count then r.count else len
    { r with tail := (r.tail + len) % txRingSize
             count := r.count - len
             lastRingCount := r.count - len
             bytesSent := r.bytesSent + UInt32.ofNat len }

/-- The ring variables after `gateway_usb_tx_reset`. -/
def gatewayUsbTxReset (r : TxRing) : TxRing :=
  { r with head := 0, tail := 0, count := 0, lastRingCount := 0 }

/-! ## The invariant and the queued bytes -/

/-- The invariant of the ring variables. -/
structure Ok (r : TxRing) : Prop where
  size : r.ring.length = txRingSize
  head_lt : r.head < txRingSize
  tail_lt : r.tail < txRingSize
  count_le : r.count ≤ txRingSize
  head_eq : r.head = (r.tail + r.count) % txRingSize

/-- The queued bytes, oldest first. -/
def contents (r : TxRing) : Bytes := window r.ring r.tail r.count

theorem txRingSize_pos : 0 < txRingSize := by decide

theorem Ok.length_contents {r : TxRing} (h : r.Ok) : r.contents.length = r.count :=
  length_window (by rw [h.size]; exact h.count_le)

theorem reset_ok {r : TxRing} (h : r.Ok) : r.gatewayUsbTxReset.Ok where
  size := h.size
  head_lt := txRingSize_pos
  tail_lt := txRingSize_pos
  count_le := Nat.zero_le _
  head_eq := rfl

@[simp] theorem contents_reset (r : TxRing) : r.gatewayUsbTxReset.contents = [] := window_zero _

/-! ## Enqueue -/

theorem length_ringWrite {ring data : Bytes} {pos : Nat} (hs : ring.length = txRingSize)
    (hp : pos < txRingSize) (hd : data.length ≤ txRingSize) :
    (gatewayUsbTxRingWrite ring pos data).length = txRingSize := by
  unfold gatewayUsbTxRingWrite
  split
  · exact hs
  · exact length_wrapWrite hs hp hd

theorem window_ringWrite {ring data : Bytes} {t c : Nat} (hs : ring.length = txRingSize)
    (ht : t < txRingSize) (hc : c + data.length ≤ txRingSize) :
    window (gatewayUsbTxRingWrite ring ((t + c) % txRingSize) data) t (c + data.length) =
      window ring t c ++ data := by
  unfold gatewayUsbTxRingWrite
  split
  · rename_i h0
    rw [List.eq_nil_of_length_eq_zero h0, List.length_nil, Nat.add_zero, List.append_nil]
  · exact window_wrapWrite hs ht hc

theorem writePart_eq {ring : Bytes} {head : Nat} (h : head < txRingSize) (data : Bytes) :
    writePart ring head data =
      (gatewayUsbTxRingWrite ring head data, (head + data.length) % txRingSize) := by
  unfold writePart
  split
  · rfl
  · have h0 : data.length = 0 := by omega
    simp [gatewayUsbTxRingWrite, h0, Nat.mod_eq_of_lt h]

/-- **A packet that fits is appended whole.** -/
theorem enqueuePacket_ok {r : TxRing} (hr : r.Ok) {pre payload : Bytes}
    (hfit : pre.length + payload.length ≤ txRingSize - r.count) :
    ∃ r', r.gatewayUsbTxEnqueuePacket pre payload = (true, r') ∧ r'.Ok ∧
      r'.contents = r.contents ++ (pre ++ payload) := by
  have hc := hr.count_le
  unfold gatewayUsbTxEnqueuePacket gatewayUsbTxFreeSpace
  by_cases h0 : pre.length + payload.length = 0
  · rw [if_pos h0]
    have h1 : pre = [] := List.eq_nil_of_length_eq_zero (by omega)
    have h2 : payload = [] := List.eq_nil_of_length_eq_zero (by omega)
    exact ⟨r, rfl, hr, by simp [h1, h2]⟩
  have hhead : (r.head + pre.length) % txRingSize =
      (r.tail + (r.count + pre.length)) % txRingSize := by
    rw [hr.head_eq, Nat.mod_add_mod, Nat.add_assoc]
  have hsize : (gatewayUsbTxRingWrite r.ring r.head pre).length = txRingSize :=
    length_ringWrite hr.size hr.head_lt (by omega)
  have hlt : (r.head + pre.length) % txRingSize < txRingSize := Nat.mod_lt _ txRingSize_pos
  rw [if_neg h0, if_neg (by omega)]
  simp only [writePart_eq hr.head_lt, writePart_eq hlt]
  refine ⟨_, rfl, ⟨?size, ?head_lt, ?tail_lt, ?count_le, ?head_eq⟩, ?contents⟩
  case size => exact length_ringWrite hsize hlt (by omega)
  case head_lt => exact Nat.mod_lt _ txRingSize_pos
  case tail_lt => exact hr.tail_lt
  case count_le => dsimp only; omega
  case head_eq =>
    dsimp only
    rw [hhead, Nat.mod_add_mod]
    congr 1; omega
  case contents =>
    unfold contents
    dsimp only
    rw [hhead, ← Nat.add_assoc r.count, window_ringWrite hsize hr.tail_lt (by omega), hr.head_eq,
      window_ringWrite hr.size hr.tail_lt (by omega), List.append_assoc]

/-- **A packet that does not fit is dropped whole**: only the drop counter changes. -/
theorem enqueuePacket_full {r : TxRing} {pre payload : Bytes}
    (hfull : txRingSize - r.count < pre.length + payload.length) :
    r.gatewayUsbTxEnqueuePacket pre payload =
      (false, { r with dropCount := r.dropCount + 1 }) := by
  unfold gatewayUsbTxEnqueuePacket gatewayUsbTxFreeSpace
  rw [if_neg (by omega), if_pos (by omega)]

/-! ## Peek and consume -/

/-- **A peek returns the front of the queue.** -/
theorem peekChunk_eq {r : TxRing} (hr : r.Ok) (maxLen : Nat) :
    r.gatewayUsbTxPeekChunk maxLen = r.contents.take maxLen := by
  have hlen : (if r.count > maxLen then maxLen else r.count) = min maxLen r.count := by
    split <;> omega
  have hc := hr.count_le
  unfold gatewayUsbTxPeekChunk
  rw [hlen]
  dsimp only
  split
  · subst maxLen; rfl
  · split
    · rename_i h0
      rw [contents, window_take, h0, window_zero]
    · rw [contents, window_take, wrapRead_eq hr.size hr.tail_lt (by omega)]

theorem consumeChunk_ok {r : TxRing} (hr : r.Ok) (len : Nat) :
    (r.gatewayUsbTxConsumeChunk len).Ok := by
  unfold gatewayUsbTxConsumeChunk
  split
  · exact hr
  · have hm : (if len > r.count then r.count else len) ≤ r.count := by split <;> omega
    generalize (if len > r.count then r.count else len) = m at hm
    refine ⟨hr.size, hr.head_lt, Nat.mod_lt _ txRingSize_pos, ?_, ?_⟩
    · have := hr.count_le
      show r.count - m ≤ txRingSize
      omega
    · show r.head = ((r.tail + m) % txRingSize + (r.count - m)) % txRingSize
      rw [Nat.mod_add_mod, show r.tail + m + (r.count - m) = r.tail + r.count by omega, hr.head_eq]

/-- **A consume drops from the front.** -/
theorem consumeChunk_contents {r : TxRing} (hr : r.Ok) (len : Nat) :
    (r.gatewayUsbTxConsumeChunk len).contents = r.contents.drop len := by
  unfold gatewayUsbTxConsumeChunk
  split
  · subst len; rfl
  · by_cases hm : len > r.count
    · rw [if_pos hm, List.drop_of_length_le (by rw [hr.length_contents]; omega)]
      show window r.ring ((r.tail + r.count) % txRingSize) (r.count - r.count) = []
      rw [Nat.sub_self, window_zero]
    · rw [if_neg hm]
      exact window_drop hr.size hr.count_le (by omega)

end TxRing

end Firmware
