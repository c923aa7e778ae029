import CarplayRelay.Lib.Bytes
import CarplayRelay.Lib.Ring

/-!
# The client's USB transport (`transport_libusb.c`)

`gateway_client_transport_usb_read_exact` and `gateway_client_transport_usb_write_all` call
`libusb_bulk_transfer` until all bytes are moved. A `Call` is what one iteration of their loops
meets: a call of `libusb_bulk_transfer` moves the bytes it reports, at the front of the buffer it
was given, and a call that times out may have moved some as well.

The loops take a timeout for a call that moved nothing, so the bytes it moved are lost (`lost`).

* `transport_exact_iff`: a run of reads returns the device's bytes without a gap, and a write
  delivers its buffer, exactly if no call that timed out had moved bytes.
-/

namespace Client

open Ring

/-- An iteration of a transfer loop. -/
inductive Call
  /-- `stop_requested` is set. -/
  | stop
  | success (transferred : Nat)
  | timeout (transferred : Nat)
  | interrupted
  | noDevice
  | error
  deriving DecidableEq, Repr

/-- The bytes moved by a call that timed out. -/
def Call.lost : Call → Nat
  | .timeout n => n
  | _ => 0

@[simp] theorem lost_success (n : Nat) : (Call.success n).lost = 0 := rfl
@[simp] theorem lost_timeout (n : Nat) : (Call.timeout n).lost = n := rfl
@[simp] theorem lost_interrupted : Call.interrupted.lost = 0 := rfl

def lost : List Call → Nat
  | [] => 0
  | call :: calls => call.lost + lost calls

@[simp] theorem lost_nil : lost [] = 0 := rfl

@[simp] theorem lost_cons (call : Call) (calls : List Call) :
    lost (call :: calls) = call.lost + lost calls := rfl

@[simp] theorem lost_append (calls calls' : List Call) :
    lost (calls ++ calls') = lost calls + lost calls' := by
  induction calls with
  | nil => simp
  | cons call calls ih => rw [List.cons_append, lost_cons, lost_cons, ih, Nat.add_assoc]

theorem lost_eq_zero_iff (calls : List Call) :
    lost calls = 0 ↔ ∀ n, .timeout n ∈ calls → n = 0 := by
  induction calls with
  | nil => simp
  | cons call calls ih =>
    rw [lost_cons, Nat.add_eq_zero_iff, ih]
    cases call <;> simp [Call.lost]

/-- The size of the next call's buffer, `INT_MAX` at most. -/
def chunkLen (len offset : Nat) : Nat := min (len - offset) (2 ^ 31 - 1)

/-- The `n` bytes of a device's stream from position `pos` on. -/
def streamBytes (dev : Nat → UInt8) (pos n : Nat) : Bytes := (List.range' pos n).map dev

/-! ## Reading -/

/-- What a read returns, with the buffer, the position in the device's stream and the calls that
are left. -/
structure ReadResult where
  rc : Int
  buf : Bytes
  pos : Nat
  rest : List Call
  deriving DecidableEq, Repr

/-- The loop of `gateway_client_transport_usb_read_exact`; `none` when it waits for a call, and
for a call that moves more than it was asked for. -/
def readLoop (dev : Nat → UInt8) (len offset pos : Nat) (buf : Bytes) (script : List Call) :
    Option ReadResult :=
  if len ≤ offset then some ⟨if offset = len then 1 else 0, buf, pos, script⟩
  else
    match script with
    | [] => none
    | .stop :: rest => some ⟨0, buf, pos, rest⟩
    | .success n :: rest =>
      if chunkLen len offset < n then none
      else readLoop dev len (offset + n) (pos + n) (splice buf offset (streamBytes dev pos n)) rest
    | .timeout n :: rest =>
      if chunkLen len offset < n then none
      else readLoop dev len offset (pos + n) (splice buf offset (streamBytes dev pos n)) rest
    | .interrupted :: rest => readLoop dev len offset pos buf rest
    | .noDevice :: rest => some ⟨0, buf, pos, rest⟩
    | .error :: rest => some ⟨-1, buf, pos, rest⟩

/-- `gateway_client_transport_usb_read_exact` into the buffer `buf`. -/
def gatewayClientTransportUsbReadExact (dev : Nat → UInt8) (buf : Bytes) (pos : Nat)
    (script : List Call) : Option ReadResult :=
  readLoop dev buf.length 0 pos buf script

/-- Consecutive reads into the buffers `bufs`, each of which returns 1. -/
def readRun (dev : Nat → UInt8) : List Bytes → Nat → List Call → Option (Bytes × Nat × List Call)
  | [], pos, script => some ([], pos, script)
  | buf :: bufs, pos, script =>
    match gatewayClientTransportUsbReadExact dev buf pos script with
    | some ⟨1, buf, pos, script⟩ =>
      (readRun dev bufs pos script).map fun (bytes, r) => (buf ++ bytes, r)
    | _ => none

section
variable {dev : Nat → UInt8} {len offset pos : Nat} {buf : Bytes} {script : List Call}

@[simp] theorem length_streamBytes (dev : Nat → UInt8) (pos n : Nat) :
    (streamBytes dev pos n).length = n := by simp [streamBytes]

theorem streamBytes_add (dev : Nat → UInt8) (pos m n : Nat) :
    streamBytes dev pos (m + n) = streamBytes dev pos m ++ streamBytes dev (pos + m) n := by
  rw [streamBytes, ← List.range'_append_1, List.map_append]
  rfl

theorem readLoop_done (h : len ≤ offset) :
    readLoop dev len offset pos buf script =
      some ⟨if offset = len then 1 else 0, buf, pos, script⟩ := by
  rw [readLoop.eq_def, if_pos h]

/-- The bytes between `offset` and the end of the buffer were read, behind `used` calls. -/
def ReadsFrom (dev : Nat → UInt8) (len offset pos : Nat) (buf : Bytes) (script : List Call)
    (r : ReadResult) : Prop :=
  ∃ used, script = used ++ r.rest ∧ r.pos = pos + (len - offset) + lost used ∧
    (lost used = 0 → r.buf = buf.take offset ++ streamBytes dev pos (len - offset))

theorem readsFrom_done {r : ReadResult} (h : readLoop dev len offset pos buf script = some r)
    (hle : len ≤ offset) (hbuf : buf.length = len) : ReadsFrom dev len offset pos buf script r := by
  rw [readLoop_done hle, Option.some.injEq] at h
  subst h
  refine ⟨[], rfl, by simp; omega, fun _ => ?_⟩
  rw [Nat.sub_eq_zero_of_le hle, List.take_of_length_le (by omega)]
  exact (List.append_nil _).symm

/-- A transfer in front of the rest of a read. -/
theorem ReadsFrom.success {r : ReadResult} {n : Nat}
    (h : ReadsFrom dev len (offset + n) (pos + n) (splice buf offset (streamBytes dev pos n)) script
      r) (hfit : offset + n ≤ len) (hbuf : buf.length = len) :
    ReadsFrom dev len offset pos buf (.success n :: script) r := by
  obtain ⟨used, hused, hpos, hbytes⟩ := h
  refine ⟨.success n :: used, by rw [hused]; rfl, ?_, ?_⟩
  · rw [hpos, lost_cons, lost_success]
    omega
  · intro h0
    rw [lost_cons, lost_success, Nat.zero_add] at h0
    have htake := take_splice (show offset ≤ buf.length by omega) (streamBytes dev pos n)
    rw [length_streamBytes] at htake
    rw [hbytes h0, htake, List.append_assoc, ← streamBytes_add]
    congr 2
    omega

/-- The bytes of a transfer that timed out are lost, but for none at all. -/
theorem ReadsFrom.timeout {r : ReadResult} {n : Nat}
    (h : ReadsFrom dev len offset (pos + n) (splice buf offset (streamBytes dev pos n)) script r) :
    ReadsFrom dev len offset pos buf (.timeout n :: script) r := by
  obtain ⟨used, hused, hpos, hbytes⟩ := h
  refine ⟨.timeout n :: used, by rw [hused]; rfl, ?_, ?_⟩
  · rw [hpos, lost_cons, lost_timeout]
    omega
  · intro h0
    rw [lost_cons, lost_timeout] at h0
    obtain rfl : n = 0 := by omega
    rw [hbytes (by omega)]
    simp [streamBytes, splice]

/-- The loop from `offset` on, by induction on the calls: the position accounts for the bytes
read and the bytes lost, and the buffer is right if none was lost. -/
theorem readLoop_exact {r : ReadResult} (h : readLoop dev len offset pos buf script = some r)
    (hrc : r.rc = 1) (hoff : offset ≤ len) (hbuf : buf.length = len) :
    ReadsFrom dev len offset pos buf script r := by
  induction script generalizing offset pos buf with
  | nil =>
    by_cases hle : len ≤ offset
    · exact readsFrom_done h hle hbuf
    · simp [readLoop, hle] at h
  | cons call rest ih =>
    by_cases hle : len ≤ offset
    · exact readsFrom_done h hle hbuf
    have hsplice {n : Nat} (hfit : offset + n ≤ len) :
        (splice buf offset (streamBytes dev pos n)).length = len := by
      rw [length_splice (by rw [length_streamBytes]; omega), hbuf]
    rw [readLoop.eq_def, if_neg hle] at h
    cases call with
    | stop | noDevice | error =>
      cases h
      simp at hrc
    | interrupted =>
      obtain ⟨used, hused, hpos, hbytes⟩ := ih h hoff hbuf
      exact ⟨.interrupted :: used, by rw [hused]; rfl, by simpa using hpos, fun h0 =>
        hbytes (by simpa using h0)⟩
    | success n =>
      dsimp only at h
      split at h
      · cases h
      rename_i hn
      have hfit : offset + n ≤ len := by unfold chunkLen at hn; omega
      exact (ih h hfit (hsplice hfit)).success hfit hbuf
    | timeout n =>
      dsimp only at h
      split at h
      · cases h
      rename_i hn
      have hfit : offset + n ≤ len := by unfold chunkLen at hn; omega
      exact (ih h hoff (hsplice hfit)).timeout

theorem usbReadExact_exact {r : ReadResult}
    (h : gatewayClientTransportUsbReadExact dev buf pos script = some r) (hrc : r.rc = 1) :
    ∃ used, script = used ++ r.rest ∧ r.pos = pos + buf.length + lost used ∧
      (lost used = 0 → r.buf = streamBytes dev pos buf.length) := by
  obtain ⟨used, hused, hpos, hbytes⟩ := readLoop_exact h hrc (Nat.zero_le _) rfl
  exact ⟨used, hused, by simpa using hpos, fun h0 => by simpa using hbytes h0⟩

/-- Consecutive reads, by induction on them. -/
theorem readRun_exact {bufs : List Bytes} {bytes : Bytes} {pos' : Nat} {rest : List Call}
    (h : readRun dev bufs pos script = some (bytes, pos', rest)) :
    ∃ used, script = used ++ rest ∧ pos' = pos + bufs.flatten.length + lost used ∧
      (lost used = 0 → bytes = streamBytes dev pos bufs.flatten.length) := by
  induction bufs generalizing pos script bytes with
  | nil =>
    cases h
    exact ⟨[], rfl, by simp, fun _ => rfl⟩
  | cons buf bufs ih =>
    rw [readRun] at h
    split at h
    case h_2 => cases h
    case h_1 hread =>
    rename_i buf' pos₁ script₁
    obtain ⟨⟨bytes', r⟩, hrun, heq⟩ := Option.map_eq_some_iff.1 h
    cases heq
    obtain ⟨used₁, hused₁, hpos₁, hbytes₁⟩ := usbReadExact_exact hread rfl
    obtain ⟨used₂, hused₂, hpos₂, hbytes₂⟩ := ih hrun
    dsimp only at hused₁ hpos₁ hbytes₁
    refine ⟨used₁ ++ used₂, by rw [hused₁, hused₂, List.append_assoc], ?_, ?_⟩
    · rw [hpos₂, hpos₁, List.flatten_cons, List.length_append, lost_append]
      omega
    · intro h0
      rw [lost_append] at h0
      have hpos : pos₁ = pos + buf.length := by omega
      rw [hbytes₁ (by omega), hbytes₂ (by omega), List.flatten_cons, List.length_append,
        streamBytes_add, hpos]

end

/-! ## Writing -/

/-- What a write returns, with all the bytes the device has received and the calls that are
left. -/
structure WriteResult where
  rc : Int
  received : Bytes
  rest : List Call
  deriving DecidableEq, Repr

/-- The loop of `gateway_client_transport_usb_write_all`. -/
def writeLoop (buf : Bytes) (offset : Nat) (received : Bytes) (script : List Call) :
    Option WriteResult :=
  if buf.length ≤ offset then some ⟨if offset = buf.length then 0 else -1, received, script⟩
  else
    match script with
    | [] => none
    | .stop :: rest => some ⟨-1, received, rest⟩
    | .success n :: rest =>
      if chunkLen buf.length offset < n then none
      else
        let received := received ++ (buf.drop offset).take n
        if n = 0 then some ⟨-1, received, rest⟩
        else writeLoop buf (offset + n) received rest
    | .timeout n :: rest =>
      if chunkLen buf.length offset < n then none
      else writeLoop buf offset (received ++ (buf.drop offset).take n) rest
    | .interrupted :: rest => writeLoop buf offset received rest
    | .noDevice :: rest | .error :: rest => some ⟨-1, received, rest⟩

/-- `gateway_client_transport_usb_write_all`. -/
def gatewayClientTransportUsbWriteAll (buf received : Bytes) (script : List Call) :
    Option WriteResult := writeLoop buf 0 received script

section
variable {buf received : Bytes} {offset : Nat} {script : List Call} {w : WriteResult}

/-- The bytes of the buffer from `offset` on were sent, behind `used` calls. -/
def WritesFrom (buf : Bytes) (offset : Nat) (received : Bytes) (script : List Call)
    (w : WriteResult) : Prop :=
  ∃ used, script = used ++ w.rest ∧
    w.received.length = received.length + (buf.length - offset) + lost used ∧
    (lost used = 0 → w.received = received ++ buf.drop offset)

theorem writesFrom_done (h : writeLoop buf offset received script = some w)
    (hle : buf.length ≤ offset) : WritesFrom buf offset received script w := by
  rw [writeLoop.eq_def, if_pos hle, Option.some.injEq] at h
  subst h
  refine ⟨[], rfl, by simp; omega, fun _ => ?_⟩
  rw [List.drop_of_length_le hle, List.append_nil]

theorem WritesFrom.success {n : Nat}
    (h : WritesFrom buf (offset + n) (received ++ (buf.drop offset).take n) script w)
    (hfit : offset + n ≤ buf.length) : WritesFrom buf offset received (.success n :: script) w := by
  obtain ⟨used, hused, hlen, hbytes⟩ := h
  refine ⟨.success n :: used, by rw [hused]; rfl, ?_, ?_⟩
  · rw [hlen, lost_cons, lost_success, List.length_append, List.length_take, List.length_drop]
    omega
  · intro h0
    rw [lost_cons, lost_success, Nat.zero_add] at h0
    rw [hbytes h0, List.append_assoc, ← List.drop_drop, List.take_append_drop]

/-- The bytes of a transfer that timed out are sent again. -/
theorem WritesFrom.timeout {n : Nat}
    (h : WritesFrom buf offset (received ++ (buf.drop offset).take n) script w)
    (hfit : offset + n ≤ buf.length) : WritesFrom buf offset received (.timeout n :: script) w := by
  obtain ⟨used, hused, hlen, hbytes⟩ := h
  refine ⟨.timeout n :: used, by rw [hused]; rfl, ?_, ?_⟩
  · rw [hlen, lost_cons, lost_timeout, List.length_append, List.length_take, List.length_drop]
    omega
  · intro h0
    rw [lost_cons, lost_timeout] at h0
    obtain rfl : n = 0 := by omega
    rw [hbytes (by omega)]
    simp

/-- The loop from `offset` on, by induction on the calls: what the device received accounts for
the bytes written and the bytes sent twice, and is right if none was. -/
theorem writeLoop_exact (h : writeLoop buf offset received script = some w) (hrc : w.rc = 0)
    (hoff : offset ≤ buf.length) : WritesFrom buf offset received script w := by
  induction script generalizing offset received with
  | nil =>
    by_cases hle : buf.length ≤ offset
    · exact writesFrom_done h hle
    · simp [writeLoop, hle] at h
  | cons call rest ih =>
    by_cases hle : buf.length ≤ offset
    · exact writesFrom_done h hle
    rw [writeLoop.eq_def, if_neg hle] at h
    cases call with
    | stop | noDevice | error =>
      cases h
      simp at hrc
    | interrupted =>
      obtain ⟨used, hused, hlen, hbytes⟩ := ih h hoff
      exact ⟨.interrupted :: used, by rw [hused]; rfl, by simpa using hlen, fun h0 =>
        hbytes (by simpa using h0)⟩
    | success n =>
      dsimp only at h
      split at h
      · cases h
      split at h
      · cases h
        simp at hrc
      rename_i hn _
      have hfit : offset + n ≤ buf.length := by unfold chunkLen at hn; omega
      exact (ih h hfit).success hfit
    | timeout n =>
      dsimp only at h
      split at h
      · cases h
      rename_i hn
      have hfit : offset + n ≤ buf.length := by unfold chunkLen at hn; omega
      exact (ih h hoff).timeout hfit

theorem usbWriteAll_exact (h : gatewayClientTransportUsbWriteAll buf received script = some w)
    (hrc : w.rc = 0) :
    ∃ used, script = used ++ w.rest ∧
      w.received.length = received.length + buf.length + lost used ∧
      (lost used = 0 → w.received = received ++ buf) := by
  obtain ⟨used, hused, hlen, hbytes⟩ := writeLoop_exact h hrc (Nat.zero_le _)
  exact ⟨used, hused, by simpa using hlen, fun h0 => by simpa using hbytes h0⟩

end

/-! ## When the transport is exact -/

/-- **The transport is exact exactly if no call that timed out had moved bytes.** Consecutive reads
that return 1 yield the next bytes of the device's stream and stop right behind them, and a write
that returns 0 delivers its buffer once, if and only if every timeout among the calls they made
came without bytes. -/
theorem transport_exact_iff (dev : Nat → UInt8) (used rest : List Call) :
    (∀ (bufs : List Bytes) (pos : Nat) (bytes : Bytes) (pos' : Nat),
      readRun dev bufs pos (used ++ rest) = some (bytes, pos', rest) →
      ((bytes = streamBytes dev pos bufs.flatten.length ∧ pos' = pos + bufs.flatten.length) ↔
        ∀ n, .timeout n ∈ used → n = 0)) ∧
    (∀ buf received received' : Bytes,
      gatewayClientTransportUsbWriteAll buf received (used ++ rest) = some ⟨0, received', rest⟩ →
      (received' = received ++ buf ↔ ∀ n, .timeout n ∈ used → n = 0)) := by
  refine ⟨?_, ?_⟩
  · intro bufs pos bytes pos' h
    obtain ⟨used', hused, hpos, hbytes⟩ := readRun_exact h
    obtain rfl := List.append_cancel_right hused
    rw [← lost_eq_zero_iff]
    refine ⟨fun hexact => by omega, fun h0 => ⟨hbytes h0, by omega⟩⟩
  · intro buf received received' h
    obtain ⟨used', hused, hlen, hbytes⟩ := usbWriteAll_exact h rfl
    obtain rfl := List.append_cancel_right hused
    rw [← lost_eq_zero_iff]
    refine ⟨?_, hbytes⟩
    intro hexact
    have := congrArg List.length hexact
    rw [List.length_append] at this
    dsimp only at hlen
    omega

theorem transport_exact_iff_retry :
    (readRun (fun i => UInt8.ofNat i) [[0, 0], [0, 0, 0]] 0 [.success 2, .timeout 0, .success 3] =
        some (streamBytes (fun i => UInt8.ofNat i) 0 5, 5, []) ∧
      gatewayClientTransportUsbWriteAll [1, 2, 3] [] [.success 1, .timeout 0, .success 2] =
        some ⟨0, [1, 2, 3], []⟩) ∧
    ((∀ n, .timeout n ∈ [Call.success 2, .timeout 0, .success 3] → n = 0) ∧
      ∀ n, .timeout n ∈ [Call.success 1, .timeout 0, .success 2] → n = 0) := by
  have hr : readRun (fun i => UInt8.ofNat i) [[0, 0], [0, 0, 0]] 0
      ([.success 2, .timeout 0, .success 3] ++ []) =
      some (streamBytes (fun i => UInt8.ofNat i) 0 5, 5, []) := by decide
  have hw : gatewayClientTransportUsbWriteAll [1, 2, 3] []
      ([.success 1, .timeout 0, .success 2] ++ []) = some ⟨0, [1, 2, 3], []⟩ := by decide
  exact ⟨⟨hr, hw⟩, ((transport_exact_iff _ _ _).1 _ _ _ _ hr).1 ⟨rfl, rfl⟩,
    ((transport_exact_iff (fun _ => 0) _ _).2 _ _ _ hw).1 rfl⟩

/-- Two bytes that arrive with a timeout are overwritten by the bytes after them. -/
theorem usbReadExact_timeout_inexact :
    ¬ ∀ (dev : Nat → UInt8) (buf : Bytes) (pos : Nat) (script : List Call) (r : ReadResult),
      gatewayClientTransportUsbReadExact dev buf pos script = some r → r.rc = 1 →
        r.buf = streamBytes dev pos buf.length := by
  intro h
  have := h (fun i => UInt8.ofNat i) [0, 0, 0, 0] 0 [.timeout 2, .success 4]
    ⟨1, [2, 3, 4, 5], 6, []⟩ (by decide) rfl
  exact absurd this (by decide)

end Client
