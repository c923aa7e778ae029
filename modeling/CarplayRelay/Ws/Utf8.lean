import CarplayRelay.CryptoInit
import CarplayRelay.Lib.Utf8

/-!
# The UTF-8 validator

`decode` goes from state to state by a table: the class of a byte, then the next state of a state
and a class. Over any bytes the states are those of a UTF-8 scan (`decode_next`), so the validator
accepts exactly the texts (`isUtf8Len_iff`, `isUtf8_iff`), and a text that comes in fragments is
accepted at its end and rejected as soon as no text starts with it (`isUtf8LenState_fragments`).
No build compiles this `utf8.c`; the one in use is that of `3rd_party/wsfs`.
-/

namespace Ws

open Utf8

def utf8Accept : UInt32 := 0
def utf8Reject : UInt32 := 1

def utf8d : List UInt8 :=
  [0, 0, 0, 0, 0, 0, 0, 0, 0, 0, 0, 0, 0, 0, 0, 0, 0, 0, 0, 0, 0, 0, 0, 0, 0, 0, 0, 0, 0, 0, 0, 0,
   0, 0, 0, 0, 0, 0, 0, 0, 0, 0, 0, 0, 0, 0, 0, 0, 0, 0, 0, 0, 0, 0, 0, 0, 0, 0, 0, 0, 0, 0, 0, 0,
   0, 0, 0, 0, 0, 0, 0, 0, 0, 0, 0, 0, 0, 0, 0, 0, 0, 0, 0, 0, 0, 0, 0, 0, 0, 0, 0, 0, 0, 0, 0, 0,
   0, 0, 0, 0, 0, 0, 0, 0, 0, 0, 0, 0, 0, 0, 0, 0, 0, 0, 0, 0, 0, 0, 0, 0, 0, 0, 0, 0, 0, 0, 0, 0,
   1, 1, 1, 1, 1, 1, 1, 1, 1, 1, 1, 1, 1, 1, 1, 1, 9, 9, 9, 9, 9, 9, 9, 9, 9, 9, 9, 9, 9, 9, 9, 9,
   7, 7, 7, 7, 7, 7, 7, 7, 7, 7, 7, 7, 7, 7, 7, 7, 7, 7, 7, 7, 7, 7, 7, 7, 7, 7, 7, 7, 7, 7, 7, 7,
   8, 8, 2, 2, 2, 2, 2, 2, 2, 2, 2, 2, 2, 2, 2, 2, 2, 2, 2, 2, 2, 2, 2, 2, 2, 2, 2, 2, 2, 2, 2, 2,
   0xa, 0x3, 0x3, 0x3, 0x3, 0x3, 0x3, 0x3, 0x3, 0x3, 0x3, 0x3, 0x3, 0x4, 0x3, 0x3,
   0xb, 0x6, 0x6, 0x6, 0x5, 0x8, 0x8, 0x8, 0x8, 0x8, 0x8, 0x8, 0x8, 0x8, 0x8, 0x8,
   -- the next state, 16 entries for each state
   0x0, 0x1, 0x2, 0x3, 0x5, 0x8, 0x7, 0x1, 0x1, 0x1, 0x4, 0x6, 0x1, 0x1, 0x1, 0x1,
   1, 1, 1, 1, 1, 1, 1, 1, 1, 1, 1, 1, 1, 1, 1, 1, 1, 0, 1, 1, 1, 1, 1, 0, 1, 0, 1, 1, 1, 1, 1, 1,
   1, 2, 1, 1, 1, 1, 1, 2, 1, 2, 1, 1, 1, 1, 1, 1, 1, 1, 1, 1, 1, 1, 1, 2, 1, 1, 1, 1, 1, 1, 1, 1,
   1, 2, 1, 1, 1, 1, 1, 1, 1, 2, 1, 1, 1, 1, 1, 1, 1, 1, 1, 1, 1, 1, 1, 3, 1, 3, 1, 1, 1, 1, 1, 1,
   1, 3, 1, 1, 1, 1, 1, 3, 1, 3, 1, 1, 1, 1, 1, 1, 1, 3, 1, 1, 1, 1, 1, 1, 1, 1, 1, 1, 1, 1, 1, 1]

/-- `none` is a read outside of the table. -/
def decode (state : UInt32) (byte : UInt8) : Option UInt32 := do
  let type ← utf8d[byte.toNat]?
  let state ← utf8d[(256 + state * 16 + type.toUInt32).toNat]?
  some state.toUInt32

/-- `is_utf8_len_state`. -/
def isUtf8LenState (s : Bytes) (state : UInt32) : Option UInt32 :=
  s.foldlM decode state

def isUtf8Len (s : Bytes) : Option Bool :=
  (isUtf8LenState s utf8Accept).map (· = utf8Accept)

/-- `is_utf8`, of the string at `s`. -/
def isUtf8 (s : Bytes) : Option Bool := isUtf8Len (Crypto.cString s)

/-! ## The states -/

/-- Where a scan is in a state of the table. -/
def scanOf (state : UInt32) : Scan :=
  match state.toNat with
  | 0 => .start
  | 2 => .tail 0x80 0xbf 0
  | 3 => .tail 0x80 0xbf 1
  | 4 => .tail 0xa0 0xbf 1
  | 5 => .tail 0x80 0x9f 1
  | 6 => .tail 0x90 0xbf 2
  | 7 => .tail 0x80 0xbf 2
  | 8 => .tail 0x80 0x8f 2
  | _ => .invalid

/-- The states of the table. -/
def stateCount : Nat := 9

theorem decode_table : ∀ state : Fin stateCount, ∀ byte : Fin 256,
    ((decode (UInt32.ofNat state) (UInt8.ofNat byte)).any fun state' =>
      state'.toNat < stateCount ∧
        scanOf state' = (scanOf (UInt32.ofNat state)).next (UInt8.ofNat byte)) = true := by
  decide +kernel

section
variable {state : UInt32} (h : state.toNat < stateCount)
include h

/-- **A step of the table is a step of the scan.** -/
theorem decode_next (byte : UInt8) : ∃ state', decode state byte = some state' ∧
    state'.toNat < stateCount ∧ scanOf state' = (scanOf state).next byte := by
  have htable := decode_table ⟨state.toNat, h⟩ ⟨byte.toNat, byte.toNat_lt⟩
  rw [Option.any_eq_true] at htable
  obtain ⟨state', hdecode, hstate⟩ := htable
  simp only [UInt32.ofNat_toNat, UInt8.ofNat_toNat] at hdecode hstate
  obtain ⟨hlt, hscan⟩ := of_decide_eq_true hstate
  exact ⟨state', hdecode, hlt, hscan⟩

theorem isUtf8LenState_after (s : Bytes) : ∃ state', isUtf8LenState s state = some state' ∧
    state'.toNat < stateCount ∧ scanOf state' = (scanOf state).after s := by
  induction s generalizing state with
  | nil => exact ⟨state, rfl, h, rfl⟩
  | cons byte s ih =>
    obtain ⟨mid, hmid, hlt, hscan⟩ := decode_next h byte
    obtain ⟨state', hrest, hlt', hscan'⟩ := ih hlt
    refine ⟨state', ?_, hlt', ?_⟩
    · rw [isUtf8LenState, List.foldlM_cons, hmid]
      exact hrest
    · rw [hscan', hscan, Scan.after_cons]

theorem scanOf_start : scanOf state = .start ↔ state = utf8Accept := by
  have hstates : ∀ s : Fin stateCount, scanOf (UInt32.ofNat s) = .start ↔
      UInt32.ofNat s = utf8Accept := by decide
  simpa only [UInt32.ofNat_toNat] using hstates ⟨state.toNat, h⟩

theorem scanOf_invalid : scanOf state = .invalid ↔ state = utf8Reject := by
  have hstates : ∀ s : Fin stateCount, scanOf (UInt32.ofNat s) = .invalid ↔
      UInt32.ofNat s = utf8Reject := by decide
  simpa only [UInt32.ofNat_toNat] using hstates ⟨state.toNat, h⟩

end

theorem isUtf8LenState_append (s t : Bytes) (state : UInt32) :
    isUtf8LenState (s ++ t) state = (isUtf8LenState s state).bind (isUtf8LenState t) :=
  List.foldlM_append

/-! ## What is accepted -/

/-- A text that comes in fragments. -/
def isUtf8Fragments (fragments : List Bytes) : Option UInt32 :=
  fragments.foldlM (fun state s => isUtf8LenState s state) utf8Accept

theorem isUtf8Fragments_eq (fragments : List Bytes) :
    isUtf8Fragments fragments = isUtf8LenState fragments.flatten utf8Accept := by
  unfold isUtf8Fragments
  generalize utf8Accept = state
  induction fragments generalizing state with
  | nil => rfl
  | cons s fragments ih =>
    rw [List.foldlM_cons, List.flatten_cons, isUtf8LenState_append]
    exact congrArg _ (funext ih)

theorem isUtf8LenState_accept (s : Bytes) : ∃ state, isUtf8LenState s utf8Accept = some state ∧
    (state = utf8Accept ↔ IsText s) ∧ (state = utf8Reject ↔ ∀ t, ¬ IsText (s ++ t)) := by
  obtain ⟨state, hrun, hlt, hscan⟩ := @isUtf8LenState_after utf8Accept (by decide) s
  rw [show scanOf utf8Accept = .start from rfl] at hscan
  refine ⟨state, hrun, ?_, ?_⟩
  · rw [← scanOf_start hlt, hscan, Scan.after_start]
  · rw [← scanOf_invalid hlt, hscan, Scan.after_invalid]

/-- **A text in fragments**, however it is cut: the state is ACCEPT exactly where the bytes so far
are a text, and REJECT exactly where no text starts with them. -/
theorem isUtf8LenState_fragments (fragments : List Bytes) :
    ∃ state, isUtf8Fragments fragments = some state ∧
      (state = utf8Accept ↔ IsText fragments.flatten) ∧
      (state = utf8Reject ↔ ∀ t, ¬ IsText (fragments.flatten ++ t)) := by
  rw [isUtf8Fragments_eq]
  exact isUtf8LenState_accept fragments.flatten

theorem isUtf8Len_text (s : Bytes) :
    ∃ valid, isUtf8Len s = some valid ∧ (valid = true ↔ IsText s) := by
  obtain ⟨state, hrun, haccept, -⟩ := isUtf8LenState_accept s
  exact ⟨_, by rw [isUtf8Len, hrun]; rfl, by rw [decide_eq_true_iff, haccept]⟩

/-- **A string is accepted exactly if it is UTF-8**; no byte leads out of the table. -/
theorem isUtf8_iff (s : Bytes) :
    ∃ valid, isUtf8 s = some valid ∧ (valid = true ↔ IsText (Crypto.cString s)) :=
  isUtf8Len_text (Crypto.cString s)

end Ws
