import CarplayRelay.Lib.Sha1
import Mathlib.Data.List.GetD
import Mathlib.Tactic.SplitIfs

/-!
# SHA-1 of the WebSocket server

`sha1.c` takes a message in any pieces, byte by byte, and keeps the block that is not full yet. A
`Hasher` is what it is for: it has the message so far, or its digest has been asked for, or it has
failed. Every sequence of calls gives what a hasher gives (`sha1_refines`). No build compiles this
`sha1.c`; the one in use is that of `3rd_party/wsfs`.
-/

namespace Ws

open Bytes Sha1 BlockHash

def shaSuccess : Nat := 0
def shaStateError : Nat := 3

structure SHA1Context where
  intermediateHash : Words
  lengthLow : UInt32
  lengthHigh : UInt32
  messageBlockIndex : Nat
  messageBlock : Bytes
  computed : Bool
  corrupted : Nat
  deriving DecidableEq, Repr

def sha1Reset (context : SHA1Context) : SHA1Context :=
  { context with
    lengthLow := 0
    lengthHigh := 0
    messageBlockIndex := 0
    intermediateHash := ⟨0x67452301, 0xEFCDAB89, 0x98BADCFE, 0x10325476, 0xC3D2E1F0⟩
    computed := false
    corrupted := 0 }

def sha1CircularShift (bits word : UInt32) : UInt32 := word <<< bits ||| word >>> (32 - bits)

/-! ## A block -/

/-- `W`, the 80 words. -/
def wordSequence (block : Bytes) : List UInt32 :=
  let w := (List.range 16).map fun t =>
    (block.byteAt (t * 4)).toUInt32 <<< 24 ||| (block.byteAt (t * 4 + 1)).toUInt32 <<< 16 |||
      (block.byteAt (t * 4 + 2)).toUInt32 <<< 8 ||| (block.byteAt (t * 4 + 3)).toUInt32
  (List.range' 16 64).foldl (fun w t => w ++ [sha1CircularShift 1
    (w.getD (t - 3) 0 ^^^ w.getD (t - 8) 0 ^^^ w.getD (t - 14) 0 ^^^ w.getD (t - 16) 0)]) w

/-- One of the four loops over `t`, with the function and the constant of its rounds. -/
def rounds (w : List UInt32) (ts : List Nat) (fn : UInt32 → UInt32 → UInt32 → UInt32) (k : UInt32)
    (v : Words) : Words :=
  ts.foldl (fun v t =>
    let temp := sha1CircularShift 5 v.a + fn v.b v.c v.d + v.e + w.getD t 0 + k
    ⟨temp, v.a, sha1CircularShift 30 v.b, v.c, v.d⟩) v

def sha1ProcessMessageBlock (context : SHA1Context) : SHA1Context :=
  let w := wordSequence context.messageBlock
  let v := context.intermediateHash
  let v := rounds w (List.range' 0 20) (fun b c d => b &&& c ||| ~~~b &&& d) 0x5A827999 v
  let v := rounds w (List.range' 20 20) (fun b c d => b ^^^ c ^^^ d) 0x6ED9EBA1 v
  let v := rounds w (List.range' 40 20) (fun b c d => b &&& c ||| b &&& d ||| c &&& d) 0x8F1BBCDC v
  let v := rounds w (List.range' 60 20) (fun b c d => b ^^^ c ^^^ d) 0xCA62C1D6 v
  { context with
    intermediateHash := ⟨context.intermediateHash.a + v.a, context.intermediateHash.b + v.b,
      context.intermediateHash.c + v.c, context.intermediateHash.d + v.d,
      context.intermediateHash.e + v.e⟩
    messageBlockIndex := 0 }

/-! ## Input -/

/-- `context->Message_Block[context->Message_Block_Index++] = b`. -/
def SHA1Context.put (context : SHA1Context) (b : UInt8) : SHA1Context :=
  { context with messageBlock := context.messageBlock.set context.messageBlockIndex b
                 messageBlockIndex := context.messageBlockIndex + 1 }

@[simp] theorem put_lengthHigh (context : SHA1Context) (b : UInt8) :
    (context.put b).lengthHigh = context.lengthHigh := rfl

@[simp] theorem put_lengthLow (context : SHA1Context) (b : UInt8) :
    (context.put b).lengthLow = context.lengthLow := rfl

/-- `Length_Low` and `Length_High` behind a byte. -/
def SHA1Context.count (context : SHA1Context) : SHA1Context :=
  let context := { context with lengthLow := context.lengthLow + 8 }
  if context.lengthLow = 0 then
    let context := { context with lengthHigh := context.lengthHigh + 1 }
    if context.lengthHigh = 0 then { context with corrupted := 1 } else context
  else context

/-- The body of the loop of `SHA1Input`. -/
def inputByte (context : SHA1Context) (b : UInt8) : SHA1Context :=
  let context := (context.put b).count
  if context.messageBlockIndex = 64 then sha1ProcessMessageBlock context else context

def inputLoop : Bytes → SHA1Context → SHA1Context
  | [], context => context
  | b :: message, context =>
    if context.corrupted ≠ 0 then context else inputLoop message (inputByte context b)

def sha1Input (context : SHA1Context) (message : Bytes) : Nat × SHA1Context :=
  if message = [] then (shaSuccess, context)
  else if context.computed then (shaStateError, { context with corrupted := shaStateError })
  else if context.corrupted ≠ 0 then (context.corrupted, context)
  else (shaSuccess, inputLoop message context)

/-! ## The digest -/

/-- The loop that puts zeros up to an index. -/
def SHA1Context.putZeros (context : SHA1Context) (upTo : Nat) : SHA1Context :=
  (List.range (upTo - context.messageBlockIndex)).foldl (fun context _ => context.put 0) context

/-- The eight bytes of `Length_High` and `Length_Low` at the end of the block. -/
def SHA1Context.putLength (context : SHA1Context) : SHA1Context :=
  let high := context.lengthHigh
  let low := context.lengthLow
  let block := context.messageBlock
  let block := block.set 56 (high >>> 24).toUInt8
  let block := block.set 57 (high >>> 16).toUInt8
  let block := block.set 58 (high >>> 8).toUInt8
  let block := block.set 59 high.toUInt8
  let block := block.set 60 (low >>> 24).toUInt8
  let block := block.set 61 (low >>> 16).toUInt8
  let block := block.set 62 (low >>> 8).toUInt8
  let block := block.set 63 low.toUInt8
  { context with messageBlock := block }

def sha1PadMessage (context : SHA1Context) : SHA1Context :=
  let context : SHA1Context :=
    if context.messageBlockIndex > 55 then
      (sha1ProcessMessageBlock ((context.put 0x80).putZeros 64)).putZeros 56
    else (context.put 0x80).putZeros 56
  sha1ProcessMessageBlock context.putLength

/-- Word `i` of the hash. -/
def hashWord (v : Words) : Nat → UInt32
  | 0 => v.a
  | 1 => v.b
  | 2 => v.c
  | 3 => v.d
  | _ => v.e

/-- `SHA1Result`: the error code and `Message_Digest`. -/
def sha1Result (context : SHA1Context) : Nat × Option Bytes × SHA1Context :=
  if context.corrupted ≠ 0 then (context.corrupted, none, context)
  else
    let context : SHA1Context :=
      if context.computed then context
      else { sha1PadMessage context with messageBlock := List.replicate 64 0, lengthLow := 0,
                                         lengthHigh := 0, computed := true }
    (shaSuccess, some ((List.range 20).map fun i =>
      (hashWord context.intermediateHash (i / 4) >>> (8 * (3 - UInt32.ofNat (i % 4)))).toUInt8),
      context)

/-! ## What a block does -/

theorem byteAt_drop (p : Bytes) (n i : Nat) : byteAt (p.drop n) i = p.byteAt (n + i) := by
  simp only [byteAt, List.getD_eq_getElem?_getD, List.getElem?_drop]

/-- The word sequence up to word `16 + n`. -/
theorem wordSequence_part (block : Bytes) (n : Nat) :
    let w := (List.range' 16 n).foldl (fun w t => w ++ [sha1CircularShift 1
      (w.getD (t - 3) 0 ^^^ w.getD (t - 8) 0 ^^^ w.getD (t - 14) 0 ^^^ w.getD (t - 16) 0)])
      ((List.range 16).map fun t => ofBe32 (block.drop (4 * t)))
    w.length = 16 + n ∧ ∀ t < 16 + n, w.getD t 0 = schedule block t := by
  induction n with
  | zero =>
    refine ⟨by simp, fun t ht => ?_⟩
    have ht' : t < 16 := ht
    rw [schedule_lt ht']
    simp [List.getD_eq_getElem?_getD, ht']
  | succ n ih =>
    obtain ⟨hlen, hwords⟩ := ih
    rw [List.range'_concat, List.foldl_append, List.foldl_cons, List.foldl_nil, Nat.one_mul]
    generalize (List.range' 16 n).foldl _ _ = w at hlen hwords
    dsimp only at hlen hwords ⊢
    refine ⟨by simp [hlen, Nat.add_assoc], fun t ht => ?_⟩
    rcases Nat.lt_or_ge t (16 + n) with hlt | hge
    · rw [List.getD_append _ _ _ _ (by omega), hwords t hlt]
    · obtain rfl : t = 16 + n := by omega
      rw [List.getD_append_right _ _ _ _ (by omega), hlen, Nat.sub_self, List.getD_cons_zero,
        schedule_ge (Nat.le_add_right 16 n), hwords _ (by omega), hwords _ (by omega),
        hwords _ (by omega), hwords _ (by omega)]
      rfl

theorem wordSequence_getD {block : Bytes} {t : Nat} (h : t < 80) :
    (wordSequence block).getD t 0 = schedule block t := by
  have hwords : ((List.range 16).map fun t =>
      (block.byteAt (t * 4)).toUInt32 <<< 24 ||| (block.byteAt (t * 4 + 1)).toUInt32 <<< 16 |||
        (block.byteAt (t * 4 + 2)).toUInt32 <<< 8 ||| (block.byteAt (t * 4 + 3)).toUInt32) =
      (List.range 16).map fun t => ofBe32 (block.drop (4 * t)) := by
    refine List.map_congr_left fun t _ => ?_
    simp only [ofBe32, byteAt_drop, Nat.mul_comm 4 t, Nat.add_zero]
  rw [wordSequence, hwords]
  exact (wordSequence_part block 64).2 t h

/-- A loop over some rounds. -/
theorem rounds_eq {block : Bytes} {ts : List Nat} {fn : UInt32 → UInt32 → UInt32 → UInt32}
    {c : UInt32} (h : ∀ t ∈ ts, t < 80 ∧ f t = fn ∧ k t = c) (v : Words) :
    rounds (wordSequence block) ts fn c v = ts.foldl (Sha1.round (schedule block)) v := by
  induction ts generalizing v with
  | nil => rw [rounds, List.foldl_nil, List.foldl_nil]
  | cons t ts ih =>
    obtain ⟨hlt, hf, hk⟩ := h t List.mem_cons_self
    have hround : (⟨sha1CircularShift 5 v.a + fn v.b v.c v.d + v.e +
        (wordSequence block).getD t 0 + c, v.a, sha1CircularShift 30 v.b, v.c, v.d⟩ : Words) =
        Sha1.round (schedule block) v t := by
      rw [wordSequence_getD hlt, Sha1.round, hf, hk, UInt32.add_assoc _ c, UInt32.add_assoc _ _ c,
        UInt32.add_comm c]
      rfl
    rw [rounds, List.foldl_cons, List.foldl_cons, hround]
    exact ih (fun t ht => h t (List.mem_cons_of_mem _ ht)) _

theorem f_k_bounds {t : Nat} :
    (t ∈ List.range' 0 20 → t < 80 ∧ (f t = fun b c d => b &&& c ||| ~~~b &&& d) ∧
      k t = 0x5A827999) ∧
    (t ∈ List.range' 20 20 → t < 80 ∧ (f t = fun b c d => b ^^^ c ^^^ d) ∧ k t = 0x6ED9EBA1) ∧
    (t ∈ List.range' 40 20 → t < 80 ∧ (f t = fun b c d => b &&& c ||| b &&& d ||| c &&& d) ∧
      k t = 0x8F1BBCDC) ∧
    (t ∈ List.range' 60 20 → t < 80 ∧ (f t = fun b c d => b ^^^ c ^^^ d) ∧ k t = 0xCA62C1D6) := by
  simp only [List.mem_range'_1]
  refine ⟨fun h => ?_, fun h => ?_, fun h => ?_, fun h => ?_⟩
  · exact ⟨by omega, by funext b c d; rw [f, if_pos (by omega)], by rw [k, if_pos (by omega)]⟩
  · exact ⟨by omega, by funext b c d; rw [f, if_neg (by omega), if_pos (by omega)],
      by rw [k, if_neg (by omega), if_pos (by omega)]⟩
  · exact ⟨by omega,
      by funext b c d; rw [f, if_neg (by omega), if_neg (by omega), if_pos (by omega)],
      by rw [k, if_neg (by omega), if_neg (by omega), if_pos (by omega)]⟩
  · exact ⟨by omega,
      by funext b c d; rw [f, if_neg (by omega), if_neg (by omega), if_neg (by omega)],
      by rw [k, if_neg (by omega), if_neg (by omega), if_neg (by omega)]⟩

/-- **A block is compressed.** -/
theorem sha1ProcessMessageBlock_eq (context : SHA1Context) :
    sha1ProcessMessageBlock context = { context with
      intermediateHash := compress context.intermediateHash context.messageBlock
      messageBlockIndex := 0 } := by
  have hrange : List.range 80 = List.range' 0 20 ++ (List.range' 20 20 ++
      (List.range' 40 20 ++ List.range' 60 20)) := by decide
  rw [sha1ProcessMessageBlock, compress, hrange, List.foldl_append, List.foldl_append,
    List.foldl_append]
  rw [rounds_eq fun t ht => f_k_bounds.1 ht, rounds_eq fun t ht => f_k_bounds.2.1 ht,
    rounds_eq fun t ht => f_k_bounds.2.2.1 ht, rounds_eq fun t ht => f_k_bounds.2.2.2 ht]
  rfl

/-! ## What the context is for -/

/-- A message that is hashed. -/
inductive Hasher
  | absorbing (m : Bytes)
  | done (m : Bytes)
  | failed (code : Nat)

def Hasher.input : Hasher → Bytes → Nat × Hasher
  | h, [] => (shaSuccess, h)
  | .absorbing m, b :: message => (shaSuccess,
      if 8 * (m ++ b :: message).length < 2 ^ 64 then .absorbing (m ++ b :: message) else .failed 1)
  | .done _, _ :: _ => (shaStateError, .failed shaStateError)
  | .failed code, _ :: _ => (code, .failed code)

def Hasher.result : Hasher → Nat × Option Bytes × Hasher
  | .absorbing m => (shaSuccess, some (digest m), .done m)
  | .done m => (shaSuccess, some (digest m), .done m)
  | .failed code => (code, none, .failed code)

/-- The context has taken a message: the hash has its full blocks, the block what is behind
them. -/
structure Absorbs (context : SHA1Context) (m : Bytes) : Prop where
  computed : context.computed = false
  corrupted : context.corrupted = 0
  block : context.messageBlock.length = 64
  index : context.messageBlockIndex = (leftover 64 m).length
  filled : context.messageBlock.take context.messageBlockIndex = leftover 64 m
  hash : context.intermediateHash = run 64 compress initial m
  length : context.lengthHigh.toNat * 2 ^ 32 + context.lengthLow.toNat = 8 * m.length

section
variable {context : SHA1Context} {m : Bytes}

theorem Absorbs.index_lt (h : Absorbs context m) : context.messageBlockIndex < 64 := by
  rw [h.index, length_leftover]
  exact Nat.mod_lt _ (by decide)

theorem Absorbs.length_lt (h : Absorbs context m) : 8 * m.length < 2 ^ 64 := by
  have hlow := context.lengthLow.toNat_lt
  have hhigh := context.lengthHigh.toNat_lt
  rw [← h.length]
  omega

theorem absorbs_reset (h : context.messageBlock.length = 64) : Absorbs (sha1Reset context) [] where
  computed := rfl
  corrupted := rfl
  block := h
  index := rfl
  filled := List.take_zero
  hash := (run_short (by decide)).symm
  length := by simp [sha1Reset]

theorem put_filled {buf : Bytes} (b : UInt8)
    (hlt : context.messageBlockIndex < context.messageBlock.length)
    (h : context.messageBlock.take context.messageBlockIndex = buf) :
    (context.put b).messageBlock.take (context.put b).messageBlockIndex = buf ++ [b] := by
  show (context.messageBlock.set _ _).take (context.messageBlockIndex + 1) = _
  rw [List.take_add_one, List.take_set_of_le (Nat.le_refl _), h, List.getElem?_set_self hlt]
  rfl

theorem uint32_zero (x : UInt32) : x = 0 ↔ x.toNat = 0 := by
  rw [← UInt32.toNat_inj]
  rfl

theorem carry {low high n : Nat} (hlow : low < 2 ^ 32) (h : high * 2 ^ 32 + low = 8 * n)
    (hwrap : (low + 8) % 2 ^ 32 = 0) : (high + 1) * 2 ^ 32 = 8 * (n + 1) := by
  have hfull : low + 8 = 2 ^ 32 := by omega
  calc (high + 1) * 2 ^ 32 = high * 2 ^ 32 + (low + 8) := by rw [Nat.succ_mul, hfull]
    _ = 8 * (n + 1) := by rw [← Nat.add_assoc, h, Nat.mul_succ]

/-- **The bits are counted** in two words, up to 2^64. -/
theorem count_length {n : Nat}
    (h : context.lengthHigh.toNat * 2 ^ 32 + context.lengthLow.toNat = 8 * n) :
    ∃ high low corrupted, context.count = { context with
        lengthHigh := high, lengthLow := low, corrupted := corrupted } ∧
      (8 * (n + 1) < 2 ^ 64 → corrupted = context.corrupted ∧
        high.toNat * 2 ^ 32 + low.toNat = 8 * (n + 1)) ∧
      (2 ^ 64 ≤ 8 * (n + 1) → corrupted = 1) := by
  have hlow := context.lengthLow.toNat_lt
  have hhigh := context.lengthHigh.toNat_lt
  have hlow8 : (context.lengthLow + 8).toNat = (context.lengthLow.toNat + 8) % 2 ^ 32 :=
    UInt32.toNat_add context.lengthLow 8
  have hhigh1 : (context.lengthHigh + 1).toNat = (context.lengthHigh.toNat + 1) % 2 ^ 32 :=
    UInt32.toNat_add context.lengthHigh 1
  unfold SHA1Context.count
  dsimp only
  by_cases hwrap : context.lengthLow + 8 = 0
  · have hwrap' := (uint32_zero _).1 hwrap
    rw [if_pos hwrap]
    by_cases hfull : context.lengthHigh + 1 = 0
    · have hfull' := (uint32_zero _).1 hfull
      rw [if_pos hfull]
      exact ⟨_, _, _, rfl, fun _ => by omega, fun _ => rfl⟩
    · have hfull' := mt (uint32_zero _).2 hfull
      rw [if_neg hfull]
      refine ⟨_, _, _, rfl, fun _ => ⟨rfl, ?_⟩, fun _ => ?_⟩
      · have hnext : (context.lengthHigh.toNat + 1) % 2 ^ 32 = context.lengthHigh.toNat + 1 := by
          omega
        rw [hhigh1, hnext, hwrap', Nat.add_zero]
        exact carry hlow h (hlow8 ▸ hwrap')
      · omega
  · have hwrap' := mt (uint32_zero _).2 hwrap
    rw [if_neg hwrap]
    refine ⟨_, _, _, rfl, fun _ => ⟨rfl, ?_⟩, fun _ => ?_⟩
    · rw [hlow8]
      omega
    · omega

/-- **A byte** goes into the block, which is compressed when it is full. -/
theorem inputByte_absorbs (h : Absorbs context m) (b : UInt8) :
    (8 * (m.length + 1) < 2 ^ 64 → Absorbs (inputByte context b) (m ++ [b])) ∧
    (2 ^ 64 ≤ 8 * (m.length + 1) →
      (inputByte context b).corrupted = 1 ∧ (inputByte context b).computed = false) := by
  have hlt := h.index_lt
  have hfilled := put_filled b (by rw [h.block]; exact hlt) h.filled
  obtain ⟨high, low, corrupted, hcount, hfits, hlong⟩ :=
    @count_length (context.put b) m.length (by
      rw [put_lengthHigh, put_lengthLow]
      exact h.length)
  have hsnoc := @run_snoc Words 64 compress (by decide) initial m b
  unfold inputByte
  rw [hcount]
  dsimp only
  have hindex : (context.put b).messageBlockIndex = (leftover 64 m).length + 1 := by
    rw [← h.index]
    rfl
  have hblock : (context.put b).messageBlock.length = 64 := by
    rw [← h.block]
    exact List.length_set
  by_cases hfull : (context.put b).messageBlockIndex = 64
  · rw [if_pos (hindex.symm.trans hfull)] at hsnoc
    rw [if_pos hfull, sha1ProcessMessageBlock_eq]
    refine ⟨fun hlen => ?_, fun hlen => ⟨hlong hlen, h.computed⟩⟩
    obtain ⟨hcorrupted, hlength⟩ := hfits hlen
    rw [hfull, List.take_of_length_le (Nat.le_of_eq hblock)] at hfilled
    refine ⟨h.computed, hcorrupted.trans h.corrupted, hblock, ?_, ?_, ?_, ?_⟩
    · rw [hsnoc.2]
      rfl
    · rw [hsnoc.2]
      exact List.take_zero
    · show compress context.intermediateHash (context.put b).messageBlock = _
      rw [hsnoc.1, h.hash, hfilled]
    · rw [List.length_append, List.length_singleton]
      exact hlength
  · rw [if_neg fun heq => hfull (hindex.trans heq)] at hsnoc
    rw [if_neg hfull]
    refine ⟨fun hlen => ?_, fun hlen => ⟨hlong hlen, h.computed⟩⟩
    obtain ⟨hcorrupted, hlength⟩ := hfits hlen
    refine ⟨h.computed, hcorrupted.trans h.corrupted, hblock, ?_, ?_, ?_, ?_⟩
    · rw [hsnoc.2, List.length_append, List.length_singleton]
      exact hindex
    · rw [hsnoc.2]
      exact hfilled
    · rw [hsnoc.1]
      exact h.hash
    · rw [List.length_append, List.length_singleton]
      exact hlength

/-- **A message** is taken byte by byte, up to 2^61 bytes. -/
theorem inputLoop_absorbs (h : Absorbs context m) (message : Bytes) :
    (8 * (m ++ message).length < 2 ^ 64 → Absorbs (inputLoop message context) (m ++ message)) ∧
    (2 ^ 64 ≤ 8 * (m ++ message).length → 8 * m.length < 2 ^ 64 →
      (inputLoop message context).corrupted = 1 ∧
        (inputLoop message context).computed = false) := by
  induction message generalizing context m with
  | nil =>
    rw [List.append_nil]
    exact ⟨fun _ => h, fun hlen hfits => absurd hlen (Nat.not_le.2 hfits)⟩
  | cons b message ih =>
    obtain ⟨hfits, hlong⟩ := inputByte_absorbs h b
    have hassoc : m ++ b :: message = (m ++ [b]) ++ message := by simp
    have hlen : (m ++ [b]).length = m.length + 1 := by simp
    have hle : (m ++ [b]).length ≤ (m ++ b :: message).length := by simp
    rw [inputLoop, if_neg (not_not.2 h.corrupted), hassoc]
    rw [hassoc] at hle
    rcases Nat.lt_or_ge (8 * (m.length + 1)) (2 ^ 64) with hlt | hge
    · obtain ⟨hrest, hover⟩ := ih (hfits hlt)
      exact ⟨hrest, fun hlen' _ => hover hlen' (by omega)⟩
    · obtain ⟨hcorrupted, hcomputed⟩ := hlong hge
      refine ⟨fun hlt => absurd hlt (by omega), fun _ _ => ?_⟩
      cases message with
      | nil => exact ⟨hcorrupted, hcomputed⟩
      | cons c message =>
        rw [inputLoop, if_pos (by rw [hcorrupted]; decide)]
        exact ⟨hcorrupted, hcomputed⟩

/-! ## The padding -/

/-- Zeros up to an index. -/
theorem putZeros_eq {upTo : Nat} (hindex : context.messageBlockIndex ≤ upTo)
    (hle : upTo ≤ context.messageBlock.length) {buf : Bytes}
    (h : context.messageBlock.take context.messageBlockIndex = buf) :
    ∃ block, context.putZeros upTo = { context with
        messageBlock := block, messageBlockIndex := upTo } ∧
      block.length = context.messageBlock.length ∧
      block.take upTo = buf ++ List.replicate (upTo - context.messageBlockIndex) 0 := by
  obtain ⟨n, rfl⟩ := Nat.exists_eq_add_of_le hindex
  rw [SHA1Context.putZeros, Nat.add_sub_cancel_left]
  clear hindex
  induction n with
  | zero => exact ⟨context.messageBlock, rfl, rfl, by rw [Nat.add_zero, h]; simp⟩
  | succ n ih =>
    obtain ⟨block, hput, hlen, htake⟩ := ih (by omega)
    rw [List.range_succ, List.foldl_append, hput]
    refine ⟨block.set (context.messageBlockIndex + n) 0, rfl, ?_, ?_⟩
    · rw [List.length_set, hlen]
    · have hfilled := @put_filled { context with
          messageBlock := block, messageBlockIndex := context.messageBlockIndex + n }
        (buf ++ List.replicate n 0) 0 (by dsimp only; omega) htake
      rw [List.replicate_succ', ← List.append_assoc]
      exact hfilled

theorem putZeros_corrupted (context : SHA1Context) (upTo : Nat) :
    (context.putZeros upTo).corrupted = context.corrupted := by
  rw [SHA1Context.putZeros]
  generalize List.range _ = zeros
  induction zeros generalizing context with
  | nil => rfl
  | cons _ zeros ih => exact ih (context.put 0)

theorem padMessage_corrupted (context : SHA1Context) :
    (sha1PadMessage context).corrupted = context.corrupted := by
  rw [sha1PadMessage, sha1ProcessMessageBlock_eq]
  refine Eq.trans (b := (ite _ _ _ : SHA1Context).corrupted) rfl ?_
  split
  · rw [putZeros_corrupted, sha1ProcessMessageBlock_eq]
    exact putZeros_corrupted _ 64
  · exact putZeros_corrupted _ 56

/-- The eight bytes at the end of a block. -/
theorem set_length (block : Bytes) (h : block.length = 64) (a₀ a₁ a₂ a₃ a₄ a₅ a₆ a₇ : UInt8) :
    (((((((block.set 56 a₀).set 57 a₁).set 58 a₂).set 59 a₃).set 60 a₄).set 61 a₅).set 62 a₆).set
      63 a₇ = block.take 56 ++ [a₀, a₁, a₂, a₃, a₄, a₅, a₆, a₇] := by
  have htake : (block.take 56).length = 56 := by
    rw [List.length_take, h]
    rfl
  have hdrop : (block.drop 56).length = 8 := by rw [List.length_drop, h]
  obtain ⟨x₀, x₁, x₂, x₃, x₄, x₅, x₆, x₇, hx⟩ : ∃ x₀ x₁ x₂ x₃ x₄ x₅ x₆ x₇,
      block.drop 56 = [x₀, x₁, x₂, x₃, x₄, x₅, x₆, x₇] := by
    match block.drop 56, hdrop with
    | [x₀, x₁, x₂, x₃, x₄, x₅, x₆, x₇], _ => exact ⟨x₀, x₁, x₂, x₃, x₄, x₅, x₆, x₇, rfl⟩
  conv_lhs => rw [← List.take_append_drop 56 block, hx]
  simp [List.set_append_right, htake]

/-- The length of the message. -/
theorem Absorbs.lengthBytes (h : Absorbs context m) :
    lengthBytes m = be32 context.lengthHigh ++ be32 context.lengthLow := by
  have hlow := context.lengthLow.toNat_lt
  have hlen := h.length
  have hhigh : UInt32.ofNat (8 * m.length / 2 ^ 32) = context.lengthHigh := by
    rw [← hlen, Nat.add_comm, Nat.add_mul_div_right _ _ (by decide), Nat.div_eq_of_lt hlow,
      Nat.zero_add, UInt32.ofNat_toNat]
  have hlow' : UInt32.ofNat (8 * m.length) = context.lengthLow := by
    rw [← hlen, ← UInt32.toNat_inj, UInt32.toNat_ofNat', Nat.add_comm, Nat.add_mul_mod_self_right,
      Nat.mod_eq_of_lt hlow]
  rw [Sha1.lengthBytes, hhigh, hlow']

theorem lastBlock_hash {last : SHA1Context} {buf : Bytes} (h : Absorbs context m)
    (hblock : last.messageBlock.length = 64) (hindex : last.messageBlockIndex ≤ 56)
    (hfilled : last.messageBlock.take last.messageBlockIndex = buf)
    (hlow : last.lengthLow = context.lengthLow) (hhigh : last.lengthHigh = context.lengthHigh) :
    (sha1ProcessMessageBlock (last.putZeros 56).putLength).intermediateHash =
      compress last.intermediateHash
        (buf ++ List.replicate (56 - last.messageBlockIndex) 0 ++ lengthBytes m) := by
  obtain ⟨block, hzeros, hlen, htake⟩ := putZeros_eq hindex (by omega) hfilled
  rw [sha1ProcessMessageBlock_eq, hzeros, h.lengthBytes, ← hlow, ← hhigh, ← htake]
  exact congrArg (compress _) (set_length block (hlen.trans hblock) _ _ _ _ _ _ _ _)

/-- **The padding** is compressed with what is left over, in one block or in two. -/
theorem padMessage_hash (h : Absorbs context m) :
    (sha1PadMessage context).intermediateHash = run 64 compress initial (m ++ padding m) := by
  have hlt := h.index_lt
  have hmod : m.length % 64 = context.messageBlockIndex := by rw [h.index, length_leftover]
  have hleft : (leftover 64 m).length = context.messageBlockIndex := h.index.symm
  have hput : (context.put 0x80).messageBlock.length = 64 := by
    rw [← h.block]
    exact List.length_set
  have hindex : (context.put 0x80).messageBlockIndex = context.messageBlockIndex + 1 := rfl
  have hbuf := put_filled 0x80 (by rw [h.block]; exact hlt) h.filled
  have hlength : (lengthBytes m).length = 8 := by
    rw [Sha1.lengthBytes, List.length_append, length_be32, length_be32]
  rw [run_leftover (by decide), ← h.hash, padding, hmod, sha1PadMessage]
  by_cases hlate : context.messageBlockIndex > 55
  · -- no room for the length: zeros fill this block, and the next one has only zeros before it
    have hzero : (119 - context.messageBlockIndex) % 64 =
        (64 - (context.put 0x80).messageBlockIndex) + 56 := by omega
    obtain ⟨block, hzeros, hlen, htake⟩ :=
      @putZeros_eq _ 64 (by omega) (Nat.le_of_eq hput.symm) _ hbuf
    have hblock : block.length = 64 := hlen.trans hput
    rw [List.take_of_length_le (Nat.le_of_eq hblock)] at htake
    rw [if_pos hlate, hzeros, hzero, List.replicate_add]
    refine (lastBlock_hash h ?_ ?_ List.take_zero ?_ ?_).trans ?_
    all_goals rw [sha1ProcessMessageBlock_eq]
    · exact hblock
    · exact Nat.zero_le _
    · rfl
    · rfl
    · have hfull : block.length % 64 = 0 := by rw [hblock]
      have hsplit : leftover 64 m ++ 0x80 :: (List.replicate
          (64 - (context.put 0x80).messageBlockIndex) 0 ++ List.replicate 56 0 ++
            lengthBytes m) = block ++ (List.replicate 56 0 ++ lengthBytes m) := by
        rw [htake]
        simp
      rw [hsplit, run_append (by decide) hfull, run_block (by decide) hblock, run_block (by decide)]
      · rfl
      · rw [List.length_append, List.length_replicate, hlength]
  · have hzero : (119 - context.messageBlockIndex) % 64 =
        56 - (context.put 0x80).messageBlockIndex := by omega
    rw [if_neg hlate, lastBlock_hash h hput (by omega) hbuf rfl rfl, hzero, run_block (by decide)]
    · simp
      rfl
    · simp only [List.length_append, List.length_cons, List.length_replicate, hlength]
      omega

theorem result_bytes (v : Words) : ((List.range 20).map fun i =>
    (hashWord v (i / 4) >>> (8 * (3 - UInt32.ofNat (i % 4)))).toUInt8) = v.bytes := by
  rfl

/-! ## Calls -/

/-- What the context says of its message. -/
def Represents (context : SHA1Context) : Hasher → Prop
  | .absorbing m => Absorbs context m
  | .done m => context.computed = true ∧ context.corrupted = 0 ∧
      context.intermediateHash = run 64 compress initial (m ++ padding m)
  | .failed code => context.corrupted = code ∧ code ≠ 0 ∧
      (context.computed = true → code = shaStateError)

theorem sha1Input_represents {hasher : Hasher} (h : Represents context hasher) (message : Bytes) :
    (sha1Input context message).1 = (hasher.input message).1 ∧
      Represents (sha1Input context message).2 (hasher.input message).2 := by
  cases message with
  | nil =>
    rw [Hasher.input]
    exact ⟨rfl, h⟩
  | cons b message =>
    rw [sha1Input, if_neg (List.cons_ne_nil b message)]
    cases hasher with
    | absorbing m =>
      have habsorbs : Absorbs context m := h
      rw [if_neg (by rw [habsorbs.computed]; decide), if_neg (not_not.2 habsorbs.corrupted),
        Hasher.input]
      obtain ⟨hfits, hlong⟩ := inputLoop_absorbs habsorbs (b :: message)
      refine ⟨rfl, ?_⟩
      dsimp only
      split
      · rename_i hlen
        exact hfits hlen
      · rename_i hlen
        obtain ⟨hcorrupted, hcomputed⟩ := hlong (Nat.le_of_not_lt hlen) habsorbs.length_lt
        exact ⟨hcorrupted, by decide, fun hdone => by simp [hcomputed] at hdone⟩
    | done m =>
      rw [if_pos h.1]
      exact ⟨rfl, rfl, by decide, fun _ => rfl⟩
    | failed code =>
      obtain ⟨hcorrupted, hcode, hcomputed⟩ := h
      split
      · rename_i hdone
        obtain rfl := hcomputed hdone
        exact ⟨rfl, rfl, by decide, fun _ => rfl⟩
      · rw [if_pos (hcorrupted ▸ hcode)]
        exact ⟨hcorrupted, hcorrupted, hcode, hcomputed⟩

theorem sha1Result_represents {hasher : Hasher} (h : Represents context hasher) :
    (sha1Result context).1 = hasher.result.1 ∧ (sha1Result context).2.1 = hasher.result.2.1 ∧
      Represents (sha1Result context).2.2 hasher.result.2.2 := by
  unfold sha1Result
  cases hasher with
  | absorbing m =>
    have habsorbs : Absorbs context m := h
    rw [if_neg (not_not.2 habsorbs.corrupted), if_neg (by rw [habsorbs.computed]; decide)]
    dsimp only
    rw [result_bytes, padMessage_hash habsorbs]
    exact ⟨rfl, rfl, rfl, (padMessage_corrupted context).trans habsorbs.corrupted, rfl⟩
  | done m =>
    obtain ⟨hcomputed, hcorrupted, hhash⟩ := h
    rw [if_neg (not_not.2 hcorrupted), if_pos hcomputed]
    dsimp only
    rw [result_bytes, hhash]
    exact ⟨rfl, rfl, hcomputed, hcorrupted, hhash⟩
  | failed code =>
    obtain ⟨hcorrupted, hcode, hcomputed⟩ := h
    rw [if_pos (hcorrupted ▸ hcode)]
    exact ⟨hcorrupted, rfl, hcorrupted, hcode, hcomputed⟩

end

inductive Call
  | input (message : Bytes)
  | result
  deriving DecidableEq, Repr

def sha1Call (context : SHA1Context) : Call → (Nat × Option Bytes) × SHA1Context
  | .input message => (((sha1Input context message).1, none), (sha1Input context message).2)
  | .result => (((sha1Result context).1, (sha1Result context).2.1), (sha1Result context).2.2)

/-- What the calls return, one after the other. -/
def sha1Calls (context : SHA1Context) : List Call → List (Nat × Option Bytes)
  | [] => []
  | call :: calls => (sha1Call context call).1 :: sha1Calls (sha1Call context call).2 calls

def Hasher.call (hasher : Hasher) : Call → (Nat × Option Bytes) × Hasher
  | .input message => (((hasher.input message).1, none), (hasher.input message).2)
  | .result => ((hasher.result.1, hasher.result.2.1), hasher.result.2.2)

def Hasher.calls (hasher : Hasher) : List Call → List (Nat × Option Bytes)
  | [] => []
  | call :: calls => (hasher.call call).1 :: (hasher.call call).2.calls calls

theorem sha1Call_represents {context : SHA1Context} {hasher : Hasher}
    (h : Represents context hasher) (call : Call) :
    (sha1Call context call).1 = (hasher.call call).1 ∧
      Represents (sha1Call context call).2 (hasher.call call).2 := by
  cases call with
  | input message =>
    obtain ⟨hcode, hnext⟩ := sha1Input_represents h message
    exact ⟨congrArg (·, none) hcode, hnext⟩
  | result =>
    obtain ⟨hcode, hdigest, hnext⟩ := sha1Result_represents h
    exact ⟨Prod.ext hcode hdigest, hnext⟩

theorem sha1Calls_represents {context : SHA1Context} {hasher : Hasher}
    (h : Represents context hasher) (calls : List Call) :
    sha1Calls context calls = hasher.calls calls := by
  induction calls generalizing context hasher with
  | nil => rfl
  | cons call calls ih =>
    obtain ⟨hcall, hnext⟩ := sha1Call_represents h call
    rw [sha1Calls, Hasher.calls, hcall, ih hnext]

/-- **The context refines a hasher.** However a message is cut into calls of `SHA1Input`, the
digest is that of SHA-1, and an input behind it or a message of 2^61 bytes fails from then on. -/
theorem sha1_refines (context : SHA1Context) (h : context.messageBlock.length = 64)
    (calls : List Call) :
    sha1Calls (sha1Reset context) calls = (Hasher.absorbing []).calls calls :=
  @sha1Calls_represents _ (.absorbing []) (absorbs_reset h) calls

/-- Two inputs, the digest, and an input behind it. -/
theorem sha1_refines_abc :
    sha1Calls (sha1Reset ⟨initial, 0, 0, 0, List.replicate 64 0, false, 0⟩)
        [.input [0x61], .input [0x62, 0x63], .result, .input [0x64], .result] =
      [(0, none), (0, none), (0, some (digest [0x61, 0x62, 0x63])), (3, none), (3, none)] :=
  sha1_refines _ rfl _

/-- The digest of "abc". -/
example : (sha1Calls (sha1Reset ⟨initial, 0, 0, 0, List.replicate 64 0, false, 0⟩)
    [.input [0x61, 0x62, 0x63], .result]).getLast? = some (0, some
      [0xA9, 0x99, 0x3E, 0x36, 0x47, 0x06, 0x81, 0x6A, 0xBA, 0x3E,
        0x25, 0x71, 0x78, 0x50, 0xC2, 0x6C, 0x9C, 0xD0, 0xD8, 0x9D]) := by
  decide +kernel

end Ws
