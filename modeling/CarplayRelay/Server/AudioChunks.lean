import CarplayRelay.Media

/-!
# The chunks of the audio file (`audio_streaming`)

The audio thread sends its file in chunks of `AUDIO_CHUNK_SIZE` bytes, over and over: when the next
chunk would not fit in what is left of the file it starts again. A chunk is announced with its
number, which goes on over the runs of the thread, and with its offset in the file.

* `audioOffset_le`, `audioOffset_succ`: a chunk lies inside the file, and its offset is 0 or the end
  of the one before.
-/

namespace Server

open Bytes Media

/-- `AUDIO_CHUNK_SIZE`. -/
def audioChunkSize : Nat := 8 * 1024

/-- `cursor` of `audio_streaming` and `audio_chunk_index` of the connection. -/
structure AudioCursor where
  cursor : Nat
  audioChunkIndex : UInt32
  deriving DecidableEq, Repr

/-- The `chunk_size` of a file. -/
def chunkSize (start : Bytes) : Nat :=
  if start.length < audioChunkSize then start.length else audioChunkSize

/-- Where the next chunk starts. -/
def chunkOffset (start : Bytes) (s : AudioCursor) : Nat :=
  if start.length < s.cursor + chunkSize start then 0 else s.cursor

/-- An iteration of `audio_streaming` on the file `start`: the packet it hands to
`send_encrypted_media`. -/
def audioIteration (start : Bytes) (s : AudioCursor) : Bytes × AudioCursor :=
  let cursor := chunkOffset start s
  (audioPacket s.audioChunkIndex (UInt32.ofNat cursor) ((start.drop cursor).take (chunkSize start)),
    ⟨cursor + chunkSize start, s.audioChunkIndex + 1⟩)

/-- The variables before chunk `i` of a run of `audio_streaming` that starts with the chunk number
`index`. -/
def chunkRun (start : Bytes) (index : UInt32) : Nat → AudioCursor
  | 0 => ⟨0, index⟩
  | i + 1 => (audioIteration start (chunkRun start index i)).2

/-- The packet of chunk `i`. -/
def audioChunk (start : Bytes) (index : UInt32) (i : Nat) : Bytes :=
  (audioIteration start (chunkRun start index i)).1

/-- The offset of chunk `i`. -/
def audioOffset (start : Bytes) (index : UInt32) (i : Nat) : Nat :=
  chunkOffset start (chunkRun start index i)

/-- The PCM of chunk `i`. -/
def audioPcm (start : Bytes) (index : UInt32) (i : Nat) : Bytes :=
  (start.drop (audioOffset start index i)).take (chunkSize start)

section
variable {start : Bytes} {index : UInt32}

theorem chunkSize_le (start : Bytes) : chunkSize start ≤ start.length := by
  unfold chunkSize
  split <;> omega

theorem chunkSize_lt (start : Bytes) : chunkSize start ≤ audioChunkSize := by
  unfold chunkSize
  split <;> omega

theorem chunkSize_pos (h : 0 < start.length) : 0 < chunkSize start := by
  unfold chunkSize
  split
  · exact h
  · decide

/-- A chunk lies inside the file. -/
theorem audioOffset_le (start : Bytes) (index : UInt32) (i : Nat) :
    audioOffset start index i + chunkSize start ≤ start.length := by
  have hle := chunkSize_le start
  unfold audioOffset chunkOffset
  split <;> omega

theorem length_audioPcm (start : Bytes) (index : UInt32) (i : Nat) :
    (audioPcm start index i).length = chunkSize start := by
  have hle := audioOffset_le start index i
  rw [audioPcm, List.length_take, List.length_drop]
  omega

@[simp] theorem chunkRun_index (start : Bytes) (index : UInt32) (i : Nat) :
    (chunkRun start index i).audioChunkIndex = index + UInt32.ofNat i := by
  induction i with
  | zero => simp [chunkRun]
  | succ i ih =>
    show (chunkRun start index i).audioChunkIndex + 1 = _
    rw [ih, UInt32.add_assoc, UInt32.ofNat_add]
    rfl

/-- A chunk is announced with its number and its offset. -/
theorem audioChunk_eq (start : Bytes) (index : UInt32) (i : Nat) :
    audioChunk start index i = audioPacket (index + UInt32.ofNat i)
      (UInt32.ofNat (audioOffset start index i)) (audioPcm start index i) := by
  rw [← chunkRun_index start index i]
  rfl

/-- The first chunk starts the file; a later one starts where the one before ended, or starts the
file again. -/
theorem audioOffset_zero (start : Bytes) (index : UInt32) : audioOffset start index 0 = 0 := by
  unfold audioOffset chunkOffset
  split <;> rfl

theorem audioOffset_succ (start : Bytes) (index : UInt32) (i : Nat) :
    audioOffset start index (i + 1) = 0 ∨
      audioOffset start index (i + 1) = audioOffset start index i + chunkSize start := by
  have hnext : audioOffset start index (i + 1) =
      if start.length < audioOffset start index i + chunkSize start + chunkSize start then 0
      else audioOffset start index i + chunkSize start := rfl
  rw [hnext]
  split
  · exact .inl rfl
  · exact .inr rfl

/-- The cursor stays in the file, so the sums of `audio_streaming` are below the range of an
`int`. -/
theorem chunkRun_cursor (start : Bytes) (index : UInt32) (i : Nat) :
    (chunkRun start index i).cursor ≤ start.length := by
  cases i with
  | zero => exact Nat.zero_le _
  | succ i => exact audioOffset_le start index i

end

end Server
