import CarplayRelay.Lib.Bytes
import CarplayRelay.Lib.Reader
import CarplayRelay.Lib.Ring
import CarplayRelay.Lib.Run

/-!
# The byte queue and its chunks

The camera's encoder pushes its stream byte by byte through a `char_queue_t`; the other thread
calls `char_start_chunk` once and then `char_next_chunk` again and again, each of which pops until
its recogniser has seen a start code. `step` is one push or one turn of the popping loop, in any
order. The allocations succeed; `fresh` is what new memory holds.

* `conserved`: the bytes pushed are those popped and those in the queue, in order;
* `chunked_iff`: the calls return at the start codes, each with a chunk of its bytes, exactly for
  a stream whose pieces are `Clean` and fit in one block. The recogniser does not go back to its
  first state at a byte between zeros, nor does it count a fourth zero (`nextState`), and a full
  block is written again from its end (`charChunkPutc`).
-/

namespace ByteQueue

open Reader

/-! ## The queue -/

/-- `SZ_QUEUE`. -/
def szQueue : Nat := 65535

/-- `char_queue_t`. -/
structure CharQueue where
  buffer : Bytes
  head : Nat
  tail : Nat
  length_buffer : buffer.length = szQueue
  head_lt : head < szQueue
  tail_lt : tail < szQueue

theorem szQueue_pos : 0 < szQueue := by decide

/-- `char_queue_init`. -/
def charQueueInit : CharQueue where
  buffer := List.replicate szQueue 0
  head := 0
  tail := 0
  length_buffer := List.length_replicate
  head_lt := szQueue_pos
  tail_lt := szQueue_pos

/-- `char_queue_push`. -/
def charQueuePush (q : CharQueue) (c : UInt8) : CharQueue where
  buffer := q.buffer.set q.tail c
  head := q.head
  tail := (q.tail + 1) % szQueue
  length_buffer := by rw [List.length_set, q.length_buffer]
  head_lt := q.head_lt
  tail_lt := Nat.mod_lt _ szQueue_pos

/-- `char_queue_pop`. -/
def charQueuePop (q : CharQueue) : UInt8 × CharQueue :=
  (q.buffer.get ⟨q.head, q.length_buffer ▸ q.head_lt⟩,
    { q with head := (q.head + 1) % szQueue, head_lt := Nat.mod_lt _ szQueue_pos })

/-- `char_queue_empty`. -/
def charQueueEmpty (q : CharQueue) : Bool := q.head = q.tail

/-- `char_queue_full`. -/
def charQueueFull (q : CharQueue) : Bool := (q.tail + 1) % szQueue = q.head

namespace CharQueue

variable {q : CharQueue}

/-- The number of bytes from `head` to `tail`. -/
def count (q : CharQueue) : Nat := (q.tail + szQueue - q.head) % szQueue

/-- The bytes in the queue. -/
def contents (q : CharQueue) : Bytes := Ring.window q.buffer q.head q.count

theorem count_lt : q.count < szQueue := Nat.mod_lt _ szQueue_pos

theorem count_eq : q.count = if q.head ≤ q.tail then q.tail - q.head
    else q.tail + szQueue - q.head := by
  have h1 := q.head_lt
  have h2 := q.tail_lt
  unfold count
  split
  · rw [show q.tail + szQueue - q.head = q.tail - q.head + szQueue by omega, Nat.add_mod_right,
      Nat.mod_eq_of_lt (by omega)]
  · rw [Nat.mod_eq_of_lt (by omega)]

theorem head_add_count : (q.head + q.count) % szQueue = q.tail := by
  have h1 := q.head_lt
  have h2 := q.tail_lt
  rw [count_eq]
  split
  · rw [Nat.mod_eq_of_lt (by omega)]; omega
  · rw [show q.head + (q.tail + szQueue - q.head) = q.tail + szQueue by omega, Nat.add_mod_right,
      Nat.mod_eq_of_lt h2]

theorem length_contents : q.contents.length = q.count :=
  Ring.length_window (by rw [q.length_buffer]; exact count_lt.le)

theorem empty_iff : charQueueEmpty q = true ↔ q.contents = [] := by
  have h1 := q.head_lt
  have h2 := q.tail_lt
  rw [← List.length_eq_zero_iff, length_contents, count_eq, charQueueEmpty, decide_eq_true_iff]
  split <;> omega

theorem full_iff : charQueueFull q = true ↔ q.contents.length + 1 = szQueue := by
  have h1 := q.head_lt
  have h2 := q.tail_lt
  rw [length_contents, count_eq, charQueueFull, decide_eq_true_iff,
    Ring.add_mod_of_lt h2 (show 1 ≤ szQueue from szQueue_pos)]
  split <;> split <;> omega

@[simp] theorem contents_init : charQueueInit.contents = [] := empty_iff.1 rfl

/-- **A push appends**, when the queue is not full. -/
theorem contents_push (hfull : charQueueFull q = false) (c : UInt8) :
    (charQueuePush q c).contents = q.contents ++ [c] := by
  have hcount : q.count + 1 < szQueue := by
    have hne : ¬ q.contents.length + 1 = szQueue := fun h => by simp [full_iff.2 h] at hfull
    have hlt := q.count_lt
    rw [length_contents] at hne
    omega
  have hpush : (charQueuePush q c).count = q.count + 1 := by
    have h1 := q.head_lt
    have h2 := q.tail_lt
    have htail := Ring.add_mod_of_lt h2 (show 1 ≤ szQueue from szQueue_pos)
    rw [count_eq] at hcount
    rw [count_eq, count_eq]
    simp only [charQueuePush, htail]
    split at hcount <;> split <;> split <;> omega
  have hset : (charQueuePush q c).buffer =
      Ring.wrapWrite szQueue q.buffer ((q.head + q.count) % szQueue) [c] := by
    rw [head_add_count, Ring.wrapWrite_singleton q.length_buffer q.tail_lt]
    rfl
  rw [contents, hpush, hset]
  exact Ring.window_wrapWrite q.length_buffer q.head_lt hcount.le

/-- **A pop takes the first byte.** -/
theorem contents_pop (hempty : charQueueEmpty q = false) :
    q.contents = (charQueuePop q).1 :: (charQueuePop q).2.contents := by
  have hcount : 0 < q.count := by
    have hne : q.contents ≠ [] := fun h => by simp [empty_iff.2 h] at hempty
    rw [← length_contents]
    exact List.length_pos_of_ne_nil hne
  have hpop : (charQueuePop q).2.count = q.count - 1 := by
    have h1 := q.head_lt
    have h2 := q.tail_lt
    have hhead := Ring.add_mod_of_lt h1 (show 1 ≤ szQueue from szQueue_pos)
    rw [count_eq] at hcount
    rw [count_eq, count_eq]
    simp only [charQueuePop, hhead]
    split at hcount <;> split <;> split <;> omega
  have hdrop : (charQueuePop q).2.contents = q.contents.drop 1 := by
    rw [contents, hpop]
    exact Ring.window_drop q.length_buffer count_lt.le hcount
  have hfirst : q.contents[0]? = some (charQueuePop q).1 := by
    rw [contents, Ring.getElem?_window q.length_buffer count_lt.le, if_pos hcount, Nat.add_zero,
      Nat.mod_eq_of_lt q.head_lt, List.getElem?_eq_getElem (q.length_buffer ▸ q.head_lt)]
    rfl
  cases hq : q.contents with
  | nil => rw [hq] at hfirst; cases hfirst
  | cons c l =>
    rw [hq] at hfirst hdrop
    rw [hdrop, ← Option.some.inj hfirst]
    rfl

end CharQueue

/-! ## A chunk -/

/-- `DEFAULT_CHUNK_SIZE`. -/
def defaultChunkSize : Nat := 16384

/-- `char_chunk_t`; the bytes stand from the end of the block down to index `size`. -/
structure CharChunk where
  pbuf : Bytes
  size : Nat

/-- A chunk after `memset`. -/
def CharChunk.zero : CharChunk := ⟨[], 0⟩

/-- `realloc` of a block to `size` bytes. -/
def realloc (fresh : Nat → UInt8) (pbuf : Bytes) (size : Nat) : Bytes :=
  pbuf.take size ++ (List.range' pbuf.length (size - pbuf.length)).map fresh

/-- `char_chunk_putc`. -/
def charChunkPutc (fresh : Nat → UInt8) (pc : CharChunk) (c : UInt8) : CharChunk :=
  let pc := if pc.size = 0 then
      { pbuf := realloc fresh pc.pbuf (pc.size + defaultChunkSize)
        size := pc.size + defaultChunkSize : CharChunk }
    else pc
  { pbuf := pc.pbuf.set (pc.size - 1) c, size := pc.size - 1 }

/-- What can be read from a chunk, in the order of its bytes. -/
def CharChunk.contents (pc : CharChunk) : Bytes := (pc.pbuf.drop pc.size).reverse

section
variable {fresh : Nat → UInt8} {pc : CharChunk} {l : Bytes} {c : UInt8}

theorem defaultChunkSize_pos : 0 < defaultChunkSize := by decide

theorem length_realloc (h : pc.pbuf.length ≤ defaultChunkSize) :
    (realloc fresh pc.pbuf defaultChunkSize).length = defaultChunkSize := by
  simp only [realloc, List.length_append, List.length_take, List.length_map, List.length_range']
  omega

/-- **A block never grows past its first size.** -/
theorem length_pbuf_putc (h : pc.pbuf.length ≤ defaultChunkSize) :
    (charChunkPutc fresh pc c).pbuf.length ≤ defaultChunkSize := by
  simp only [charChunkPutc, List.length_set]
  split
  · rename_i hsize
    rw [hsize, Nat.zero_add, length_realloc h]
  · exact h

theorem length_contents_putAll (l : Bytes) :
    (l.foldl (charChunkPutc fresh) .zero).contents.length ≤ defaultChunkSize := by
  have hpbuf : (l.foldl (charChunkPutc fresh) .zero).pbuf.length ≤ defaultChunkSize := by
    induction l using List.reverseRecOn with
    | nil => exact Nat.zero_le _
    | append_singleton l c ih =>
      rw [List.foldl_append]
      exact length_pbuf_putc ih
  rw [CharChunk.contents, List.length_reverse, List.length_drop]
  omega

/-- The chunk has at most one block, filled with `l` from its end. -/
structure CharChunk.Holds (pc : CharChunk) (l : Bytes) : Prop where
  block : pc.pbuf = [] ∨ pc.pbuf.length = defaultChunkSize
  size_add : pc.size + l.length = pc.pbuf.length
  contents : pc.contents = l

theorem holds_zero : CharChunk.zero.Holds [] := ⟨.inl rfl, rfl, rfl⟩

theorem contents_set {pbuf : Bytes} {size : Nat} (hpos : 0 < size) (hsize : size ≤ pbuf.length) :
    (⟨pbuf.set (size - 1) c, size - 1⟩ : CharChunk).contents =
      (⟨pbuf, size⟩ : CharChunk).contents ++ [c] := by
  have hlt : size - 1 < (pbuf.set (size - 1) c).length := by rw [List.length_set]; omega
  show ((pbuf.set (size - 1) c).drop (size - 1)).reverse = (pbuf.drop size).reverse ++ [c]
  rw [List.drop_eq_getElem_cons hlt, List.getElem_set_self, List.reverse_cons,
    List.drop_set_of_lt (by omega), Nat.sub_add_cancel hpos]

theorem CharChunk.Holds.putc (h : pc.Holds l) (hroom : l.length < defaultChunkSize) :
    (charChunkPutc fresh pc c).Holds (l ++ [c]) := by
  obtain ⟨hblock, hadd, hcontents⟩ := h
  by_cases hsize : pc.size = 0
  · -- the first byte: the block is new
    have hnew : pc.pbuf = [] := by
      rcases hblock with hnil | hlen
      · exact hnil
      · omega
    have hl : l = [] := List.length_eq_zero_iff.1 (by rw [hnew, List.length_nil] at hadd; omega)
    have hlen : (realloc fresh pc.pbuf defaultChunkSize).length = defaultChunkSize :=
      length_realloc (by rw [hnew]; exact Nat.zero_le _)
    have hput : charChunkPutc fresh pc c =
        ⟨(realloc fresh pc.pbuf defaultChunkSize).set (defaultChunkSize - 1) c,
          defaultChunkSize - 1⟩ := by
      simp only [charChunkPutc, hsize, if_true, Nat.zero_add]
    rw [hput, hl]
    refine ⟨.inr (by rw [List.length_set, hlen]), ?_, ?_⟩
    · rw [List.length_set, hlen, List.nil_append, List.length_singleton]
      exact Nat.sub_add_cancel defaultChunkSize_pos
    · rw [contents_set defaultChunkSize_pos hlen.ge, CharChunk.contents,
        List.drop_of_length_le hlen.le]
      rfl
  · have hlen : pc.pbuf.length = defaultChunkSize := by
      rcases hblock with hnil | hlen
      · rw [hnil, List.length_nil] at hadd; omega
      · exact hlen
    have hput : charChunkPutc fresh pc c = ⟨pc.pbuf.set (pc.size - 1) c, pc.size - 1⟩ := by
      simp only [charChunkPutc, hsize, if_false]
    rw [hput]
    refine ⟨.inr (by rw [List.length_set, hlen]), ?_, ?_⟩
    · rw [List.length_set, List.length_append, List.length_singleton]
      show pc.size - 1 + (l.length + 1) = pc.pbuf.length
      omega
    · rw [contents_set (Nat.pos_of_ne_zero hsize) (by omega)]
      exact congrArg (· ++ [c]) hcontents

theorem holds_putAll (h : l.length ≤ defaultChunkSize) :
    (l.foldl (charChunkPutc fresh) .zero).Holds l := by
  induction l using List.reverseRecOn with
  | nil => exact holds_zero
  | append_singleton l c ih =>
    rw [List.length_append, List.length_singleton] at h
    rw [List.foldl_append]
    exact (ih (by omega)).putc (by omega)

/-- **When a chunk has all of its bytes.** -/
theorem contents_putAll_iff :
    (l.foldl (charChunkPutc fresh) .zero).contents = l ↔ l.length ≤ defaultChunkSize := by
  refine ⟨fun h => ?_, fun h => (holds_putAll h).contents⟩
  rw [← h]
  exact length_contents_putAll l

end

/-! ## The recogniser -/

def startCode : Bytes := [0, 0, 0, 1]

/-- The `switch` of both loops. -/
def nextState (state : Nat) (c : UInt8) : Nat :=
  match state with
  | 0 | 1 | 2 => if c = 0 then state + 1 else state
  | 3 => if c = 1 then state + 1 else 0
  | _ => state

/-- The state after `l`, `none` once it has been 4. -/
def track : Nat → Bytes → Option Nat
  | state, [] => some state
  | state, c :: l =>
    if nextState state c = 4 then none else track (nextState state c) l

/-- The zeros come in groups of three, and right after the third is a byte other than 1. -/
inductive Clean : Bytes → Prop
  | nil : Clean []
  | skip {b l} (hb : b ≠ 0) (hl : Clean l) : Clean (b :: l)
  | group {u v x l} (hu : 0 ∉ u) (hv : 0 ∉ v) (hx : x ≠ 1) (hl : Clean l) :
      Clean (0 :: (u ++ 0 :: (v ++ 0 :: x :: l)))

section
variable {st st' : Nat} {l u : Bytes} {c x : UInt8}

theorem nextState_zero (hst : st < 3) : nextState st 0 = st + 1 := by
  match st, hst with
  | 0, _ | 1, _ | 2, _ => rfl

theorem nextState_of_ne (hst : st < 3) (hc : c ≠ 0) : nextState st c = st := by
  match st, hst with
  | 0, _ | 1, _ | 2, _ => exact if_neg hc

theorem nextState_lt (hst : st < 4) (h : nextState st c ≠ 4) : nextState st c < 4 := by
  by_cases hthree : st < 3
  · by_cases hc : c = 0
    · subst hc
      rw [nextState_zero hthree]
      omega
    · rw [nextState_of_ne hthree hc]
      exact hst
  · obtain rfl : st = 3 := by omega
    by_cases hc : c = 1
    · subst hc
      exact absurd rfl h
    · rw [show nextState 3 c = 0 from if_neg hc]
      omega

theorem track_cons_zero (hst : st < 3) : track st (0 :: l) = track (st + 1) l := by
  rw [track, nextState_zero hst, if_neg (by omega)]

theorem track_cons_of_ne (hst : st < 3) (hc : c ≠ 0) : track st (c :: l) = track st l := by
  rw [track, nextState_of_ne hst hc, if_neg (by omega)]

theorem track_three : track 3 (x :: l) = if x = 1 then none else track 0 l := by
  by_cases hx : x = 1 <;> simp [track, nextState, hx]

theorem track_lt (hst : st < 4) (h : track st l = some st') : st' < 4 := by
  induction l generalizing st with
  | nil => cases h; exact hst
  | cons c l ih =>
    rw [track] at h
    split at h
    · cases h
    · rename_i hne
      exact ih (nextState_lt hst hne) h

theorem track_append_of_not_mem (hst : st < 3) (hu : 0 ∉ u) : track st (u ++ l) = track st l := by
  induction u with
  | nil => rfl
  | cons c u ih =>
    rw [List.mem_cons, not_or] at hu
    rw [List.cons_append, track_cons_of_ne hst (Ne.symm hu.1), ih hu.2]

/-- Only a zero leaves the first states. -/
theorem exists_zero_of_track (hst : st < 3) (h : track st l = some 0) (hpos : 0 < st) :
    ∃ u l', l = u ++ 0 :: l' ∧ 0 ∉ u ∧ track (st + 1) l' = some 0 := by
  induction l with
  | nil => cases h; omega
  | cons c l ih =>
    by_cases hc : c = 0
    · subst hc
      rw [track_cons_zero hst] at h
      exact ⟨[], l, rfl, List.not_mem_nil, h⟩
    · rw [track_cons_of_ne hst hc] at h
      obtain ⟨u, l', rfl, hu, hl'⟩ := ih h
      exact ⟨c :: u, l', rfl, by simp [hu, Ne.symm hc], hl'⟩

/-- **The recogniser is back in its first state** after clean bytes only. -/
theorem clean_iff_track : Clean l ↔ track 0 l = some 0 := by
  constructor
  · intro h
    induction h with
    | nil => rfl
    | skip hb _ ih => rw [track_cons_of_ne (by omega) hb, ih]
    | group hu hv hx _ ih =>
      rw [track_cons_zero (by omega), track_append_of_not_mem (by omega) hu,
        track_cons_zero (by omega), track_append_of_not_mem (by omega) hv,
        track_cons_zero (by omega), track_three, if_neg hx, ih]
  · intro h
    -- on the length: a group is taken off as a whole
    induction hlen : l.length using Nat.strong_induction_on generalizing l with
    | h n ih =>
      subst hlen
      cases l with
      | nil => exact .nil
      | cons c l =>
        by_cases hc : c = 0
        · subst hc
          rw [track_cons_zero (by omega)] at h
          obtain ⟨u, l, rfl, hu, h⟩ := exists_zero_of_track (by omega) h (by omega)
          obtain ⟨v, l, rfl, hv, h⟩ := exists_zero_of_track (by omega) h (by omega)
          cases l with
          | nil => cases h
          | cons x l =>
            rw [track_three] at h
            split at h
            · cases h
            · rename_i hx
              exact .group hu hv hx (ih l.length (by simp; omega) h rfl)
        · rw [track_cons_of_ne (by omega) hc] at h
          exact .skip hc (ih l.length (by simp) h rfl)

instance : DecidablePred Clean := fun _ => decidable_of_iff _ clean_iff_track.symm

example : Clean [0x65, 0, 0, 0x80, 0, 0x80] ∧ ¬ Clean [0x65, 0, 0x80] := by decide

end

/-! ## A call -/

/-- A call on its way: `char_start_chunk` keeps no bytes, `char_next_chunk` has its chunk. -/
structure Call where
  pc : Option CharChunk
  state : Nat

/-- `char_start_chunk` at its loop. -/
def charStartChunk : Call := ⟨none, 0⟩

/-- `char_next_chunk` at its loop. -/
def charNextChunk : Call := ⟨some .zero, 0⟩

/-- What a loop does with a byte it has popped; it ends in state 4. -/
def Call.onPop (fresh : Nat → UInt8) (call : Call) (c : UInt8) : Call ⊕ Option CharChunk :=
  let pc := call.pc.map (charChunkPutc fresh · c)
  let state := nextState call.state c
  if state = 4 then .inr pc else .inl ⟨pc, state⟩

/-- The calls one after the other. -/
def calls (fresh : Nat → UInt8) : Reader Call UInt8 (Option CharChunk) where
  step := Call.onPop fresh
  restart := charNextChunk

section
variable {fresh : Nat → UInt8} {pc pc' : Option CharChunk} {l : Bytes} {st st' : Nat}

/-- The chunk after the bytes `l`. -/
def putAll (fresh : Nat → UInt8) (pc : Option CharChunk) (l : Bytes) : Option CharChunk :=
  pc.map fun pc => l.foldl (charChunkPutc fresh) pc

theorem putAll_cons {c : UInt8} :
    putAll fresh pc (c :: l) = putAll fresh (pc.map (charChunkPutc fresh · c)) l := by
  cases pc <;> rfl

theorem feed_of_track (h : track st l = some st') :
    (calls fresh).feed ⟨pc, st⟩ l = .inl ⟨putAll fresh pc l, st'⟩ := by
  induction l generalizing pc st with
  | nil =>
    cases h
    cases pc <;> rfl
  | cons c l ih =>
    rw [track] at h
    split at h
    · cases h
    · rename_i hne
      have hstep : (calls fresh).step ⟨pc, st⟩ c =
          .inl ⟨pc.map (charChunkPutc fresh · c), nextState st c⟩ := if_neg hne
      rw [feed, hstep, putAll_cons]
      exact ih h

theorem feed_of_track_none (h : track st l = none) :
    ∃ p, (calls fresh).feed ⟨pc, st⟩ l = .inr p := by
  induction l generalizing pc st with
  | nil => cases h
  | cons c l ih =>
    rw [track] at h
    rw [feed]
    split at h
    · rename_i heq
      have hstep : (calls fresh).step ⟨pc, st⟩ c = .inr (pc.map (charChunkPutc fresh · c)) :=
        if_pos heq
      exact ⟨_, by rw [hstep]⟩
    · rename_i hne
      have hstep : (calls fresh).step ⟨pc, st⟩ c =
          .inl ⟨pc.map (charChunkPutc fresh · c), nextState st c⟩ := if_neg hne
      rw [hstep]
      exact ih h

theorem feed_startCode : (calls fresh).feed ⟨pc, 0⟩ startCode =
    .inr (putAll fresh pc startCode, []) := by
  cases pc <;> rfl

theorem track_startCode (hst : st < 4) (hne : st ≠ 0) : ∃ st', track st startCode = some st' := by
  match st, hst, hne with
  | 1, _, _ | 2, _, _ | 3, _, _ => exact ⟨_, rfl⟩

/-- **When a call returns at the end of `l` and a start code.** -/
theorem feed_iff : (calls fresh).feed ⟨pc, 0⟩ (l ++ startCode) = .inr (pc', []) ↔
    Clean l ∧ pc' = putAll fresh pc (l ++ startCode) := by
  rw [clean_iff_track]
  cases htrack : track 0 l with
  | none =>
    obtain ⟨⟨pc₀, rest⟩, hp⟩ := @feed_of_track_none fresh pc l 0 htrack
    rw [feed_append_inr hp]
    simp [startCode]
  | some st =>
    rw [feed_append_inl (feed_of_track htrack)]
    have hst : st < 4 := track_lt (by omega) htrack
    by_cases hzero : st = 0
    · subst hzero
      rw [feed_startCode]
      have hput : putAll fresh (putAll fresh pc l) startCode =
          putAll fresh pc (l ++ startCode) := by
        cases pc with
        | none => rfl
        | some pc => simp [putAll]
      rw [hput]
      simp [eq_comm]
    · obtain ⟨st', hst'⟩ := track_startCode hst hzero
      rw [feed_of_track hst']
      simp [hzero]

end

/-! ## The two threads -/

/-- A push of the encoder, or a turn of the loop of the present call. -/
inductive Event
  | push (c : UInt8)
  | poll

/-- The queue, the calls and the bytes pushed so far. -/
structure World where
  queue : CharQueue
  session : Session Call UInt8 (Option CharChunk)
  pushed : Bytes

def World.init : World := ⟨charQueueInit, Reader.session charStartChunk, []⟩

/-- The encoder does not push into a full queue; a loop sleeps when the queue is empty. -/
def step (fresh : Nat → UInt8) (w : World) : Event → Option World
  | .push c =>
    if charQueueFull w.queue then none
    else some { w with queue := charQueuePush w.queue c, pushed := w.pushed ++ [c] }
  | .poll =>
    if charQueueEmpty w.queue then some w
    else some { w with
      queue := (charQueuePop w.queue).2
      session := (calls fresh).read w.session (charQueuePop w.queue).1 }

/-- What holds in every state of a run. -/
structure Inv (fresh : Nat → UInt8) (w : World) : Prop where
  conserved : w.session.all ++ w.queue.contents = w.pushed
  calls : w.session = (calls fresh).readAll (session charStartChunk) w.session.all

section
variable {fresh : Nat → UInt8} {w w' : World} {e : Event} {es : List Event}

theorem inv_init : Inv fresh .init :=
  ⟨CharQueue.contents_init, rfl⟩

theorem step_push {c : UInt8} : step fresh w (.push c) = some w' ↔
    charQueueFull w.queue = false ∧
      w' = { w with queue := charQueuePush w.queue c, pushed := w.pushed ++ [c] } := by
  cases hfull : charQueueFull w.queue <;> simp [step, hfull, eq_comm]

/-- A turn with an empty queue changes nothing, another one reads the first byte. -/
theorem step_poll (h : step fresh w .poll = some w') :
    charQueueEmpty w.queue = true ∧ w' = w ∨
      ∃ c, w.queue.contents = c :: w'.queue.contents ∧
        w'.session = (calls fresh).read w.session c ∧ w'.pushed = w.pushed := by
  rw [step] at h
  split at h
  · rename_i hempty
    exact .inl ⟨hempty, (Option.some.inj h).symm⟩
  · rename_i hempty
    cases h
    exact .inr ⟨_, CharQueue.contents_pop (by simpa using hempty), rfl, rfl⟩

theorem all_read {t : Session Call UInt8 (Option CharChunk)} {c : UInt8} :
    ((calls fresh).read t c).all = t.all ++ [c] :=
  conserve (l := [c])

theorem inv_step (h : Inv fresh w) (hstep : step fresh w e = some w') : Inv fresh w' := by
  obtain ⟨hconserved, hcalls⟩ := h
  cases e with
  | push c =>
    obtain ⟨hfull, rfl⟩ := step_push.1 hstep
    refine ⟨?_, hcalls⟩
    rw [CharQueue.contents_push hfull, ← List.append_assoc, hconserved]
  | poll =>
    rcases step_poll hstep with ⟨-, rfl⟩ | ⟨c, hcontents, hsession, hpushed⟩
    · exact ⟨hconserved, hcalls⟩
    · have hall : w'.session.all = w.session.all ++ [c] := by rw [hsession, all_read]
      refine ⟨?_, ?_⟩
      · rw [hall, hpushed, ← hconserved, hcontents, List.append_assoc, List.singleton_append]
      · rw [hall, readAll_append, ← hcalls, hsession]
        rfl

theorem inv_run (h : Run.run (step fresh) .init es = some w) : Inv fresh w :=
  Run.inv inv_step h inv_init

/-- **The bytes pushed are those popped and those in the queue**, in order. -/
theorem conserved (h : Run.run (step fresh) .init es = some w) :
    w.session.all ++ w.queue.contents = w.pushed := (inv_run h).conserved

/-- Turns of the loop empty the queue. -/
theorem exists_drain (fresh : Nat → UInt8) (w : World) :
    ∃ n w', Run.run (step fresh) w (List.replicate n .poll) = some w' ∧
      w'.queue.contents = [] ∧ w'.pushed = w.pushed := by
  induction hl : w.queue.contents generalizing w with
  | nil => exact ⟨0, w, rfl, hl, rfl⟩
  | cons c l ih =>
    have hempty : charQueueEmpty w.queue = false := by
      rw [Bool.eq_false_iff]
      intro hempty
      rw [CharQueue.empty_iff.1 hempty] at hl
      cases hl
    have hpop := CharQueue.contents_pop hempty
    rw [hl] at hpop
    have hstep : step fresh w .poll = some { w with
        queue := (charQueuePop w.queue).2
        session := (calls fresh).read w.session (charQueuePop w.queue).1 } :=
      if_neg (by simp [hempty])
    obtain ⟨n, w', hrun, hcontents, hpushed⟩ := ih { w with
      queue := (charQueuePop w.queue).2
      session := (calls fresh).read w.session (charQueuePop w.queue).1 }
      (List.cons.inj hpop).2.symm
    exact ⟨n + 1, w', (Run.run_cons _).2 ⟨_, hstep, hrun⟩, hcontents, hpushed⟩

/-- A run in which every byte of `l` is pushed and popped. -/
theorem exists_run (l : Bytes) : ∃ es w, Run.run (step fresh) .init es = some w ∧
    w.pushed = l ∧ w.session = (calls fresh).readAll (session charStartChunk) l := by
  have hrun : ∃ es w, Run.run (step fresh) .init es = some w ∧ w.pushed = l ∧
      w.queue.contents = [] := by
    induction l using List.reverseRecOn with
    | nil => exact ⟨[], .init, rfl, rfl, CharQueue.contents_init⟩
    | append_singleton l c ih =>
      obtain ⟨es, w, hes, hpushed, hcontents⟩ := ih
      have hfull : charQueueFull w.queue = false := by
        rw [Bool.eq_false_iff]
        intro hfull
        have hlen := CharQueue.full_iff.1 hfull
        rw [hcontents] at hlen
        exact absurd hlen (by decide)
      obtain ⟨m, hpush⟩ : ∃ m, step fresh w (.push c) = some m := ⟨_, step_push.2 ⟨hfull, rfl⟩⟩
      obtain ⟨n, w', hdrain, hcontents', hpushed'⟩ := exists_drain fresh m
      refine ⟨es ++ .push c :: List.replicate n .poll, w', ?_, ?_, hcontents'⟩
      · exact (Run.run_append _).2 ⟨w, hes, (Run.run_cons _).2 ⟨_, hpush, hdrain⟩⟩
      · rw [hpushed', (step_push.1 hpush).2, hpushed]
  obtain ⟨es, w, hes, hpushed, hcontents⟩ := hrun
  obtain ⟨hconserved, hcalls⟩ := inv_run hes
  rw [hcontents, List.append_nil, hpushed] at hconserved
  rw [hconserved] at hcalls
  exact ⟨es, w, hes, hpushed, hcalls⟩

end

/-! ## Chunks of a stream -/

/-- What the calls have to take and to return: `char_start_chunk` the bytes `pre` and a start
code, each `char_next_chunk` the next of `ds` and a start code, with a chunk of all of them. -/
def words (pre : Bytes) (ds : List Bytes) : List (Bytes × (Option CharChunk → Prop)) :=
  (pre ++ startCode, fun pc => pc = none) ::
    ds.map fun d => (d ++ startCode, fun pc => ∃ chunk, pc = some chunk ∧
      chunk.contents = d ++ startCode)

/-- `pre` and the `ds`, a start code behind each. -/
def stream (pre : Bytes) (ds : List Bytes) : Bytes := ((words pre ds).map Prod.fst).flatten

/-- No start code begins in `seg` before the one behind it. -/
def FirstAtEnd (seg : Bytes) : Prop :=
  ∀ n < seg.length, ¬ startCode <+: (seg ++ startCode).drop n

instance : DecidablePred FirstAtEnd := fun seg =>
  inferInstanceAs (Decidable (∀ n < seg.length, ¬ startCode <+: (seg ++ startCode).drop n))

/-- Each call so far has taken its word and no more; once the whole stream has been pushed, turns
of the loops alone make every call return. -/
structure Chunked (fresh : Nat → UInt8) (pre : Bytes) (ds : List Bytes) (w : World) : Prop where
  conserved : w.session.all ++ w.queue.contents = w.pushed
  served : Served (words pre ds) w.session.done w.session.taken
  finishes : w.pushed = stream pre ds →
    ∃ n w', Run.run (step fresh) w (List.replicate n .poll) = some w' ∧
      w'.session.done.map Prod.fst = (words pre ds).map Prod.fst ∧ w'.session.taken = []

section
variable {fresh : Nat → UInt8} {pre : Bytes} {ds : List Bytes}

theorem fits_iff : (calls fresh).Fits charStartChunk (words pre ds) ↔
    Clean pre ∧ ∀ d ∈ ds, Clean d ∧ d.length + 4 ≤ defaultChunkSize := by
  have hstart : (∃ pc, (calls fresh).feed charStartChunk (pre ++ startCode) = .inr (pc, []) ∧
      pc = none) ↔ Clean pre := by
    simp [charStartChunk, feed_iff, putAll]
  have hnext (d : Bytes) : (∃ pc, (calls fresh).feed charNextChunk (d ++ startCode) =
      .inr (pc, []) ∧ ∃ chunk, pc = some chunk ∧ chunk.contents = d ++ startCode) ↔
      Clean d ∧ d.length + 4 ≤ defaultChunkSize := by
    have hlen : (d ++ startCode).length = d.length + 4 := List.length_append
    rw [← hlen, ← @contents_putAll_iff fresh]
    simp only [charNextChunk, feed_iff, putAll, Option.map_some]
    constructor
    · rintro ⟨_, ⟨hclean, rfl⟩, chunk, hchunk, hcontents⟩
      rw [Option.some.inj hchunk]
      exact ⟨hclean, hcontents⟩
    · rintro ⟨hclean, hcontents⟩
      exact ⟨_, ⟨hclean, rfl⟩, _, rfl, hcontents⟩
  rw [words, Reader.Fits, fits_restart, hstart]
  exact and_congr_right fun _ => forall₂_congr fun d _ => hnext d

/-- The condition is enough. -/
theorem chunked_of_fits (h : (calls fresh).Fits charStartChunk (words pre ds)) {es : List Event}
    {w : World} (hrun : Run.run (step fresh) .init es = some w) (hw : w.pushed <+: stream pre ds) :
    Chunked fresh pre ds w := by
  have hserved {es : List Event} {w : World} (hrun : Run.run (step fresh) .init es = some w)
      (hw : w.pushed <+: stream pre ds) : Served (words pre ds) w.session.done w.session.taken := by
    obtain ⟨hconserved, hcalls⟩ := inv_run hrun
    rw [hcalls]
    apply served_of_fits h
    rw [← hconserved] at hw
    exact (List.prefix_append _ _).trans hw
  refine ⟨ByteQueue.conserved hrun, hserved hrun hw, fun hall => ?_⟩
  obtain ⟨n, w', hdrain, hcontents, hpushed⟩ := exists_drain fresh w
  have hrun' : Run.run (step fresh) .init (es ++ List.replicate n .poll) = some w' :=
    (Run.run_append _).2 ⟨w, hrun, hdrain⟩
  have hconserved := ByteQueue.conserved hrun'
  rw [hcontents, List.append_nil, hpushed, hall] at hconserved
  exact ⟨n, w', hdrain, (hserved hrun' (by rw [hpushed]; exact hw)).finish hconserved⟩

theorem fits_of_chunked (h : ∀ es w, Run.run (step fresh) .init es = some w →
    w.pushed <+: stream pre ds → Chunked fresh pre ds w) :
    (calls fresh).Fits charStartChunk (words pre ds) := by
  apply fits_of_served
  intro l hl
  obtain ⟨es, w, hrun, hpushed, hsession⟩ := exists_run l
  rw [← hsession]
  exact (h es w hrun (by rw [hpushed]; exact hl)).served

/-- **When every call returns a chunk of its own piece**, in any order of the pushes and the
turns of the loops. -/
theorem chunked_iff (fresh : Nat → UInt8) (pre : Bytes) (ds : List Bytes) :
    (∀ es w, Run.run (step fresh) .init es = some w → w.pushed <+: stream pre ds →
      Chunked fresh pre ds w) ↔
    Clean pre ∧ ∀ d ∈ ds, Clean d ∧ d.length + 4 ≤ defaultChunkSize := by
  rw [← @fits_iff fresh]
  exact ⟨fits_of_chunked, fun h _ _ => chunked_of_fits h⟩

/-- A zero inside a piece is counted into the start code behind it. -/
theorem chunked_zeroInside : ¬ ∀ (fresh : Nat → UInt8) (pre : Bytes) (ds : List Bytes),
    (∀ seg ∈ pre :: ds, FirstAtEnd seg) → ∀ es w, Run.run (step fresh) .init es = some w →
      w.pushed <+: stream pre ds → Chunked fresh pre ds w := by
  intro h
  have hform : ∀ seg ∈ [[], [0x65, 0, 0x80]], FirstAtEnd seg := by decide
  have hfits := fits_of_chunked (h (fun _ => 0) [] [[0x65, 0, 0x80]] hform)
  have hclean := (fits_iff.1 hfits).2 [0x65, 0, 0x80] (List.mem_singleton.2 rfl)
  exact absurd hclean.1 (by decide)

end

end ByteQueue
