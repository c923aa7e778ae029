import Mathlib.Data.List.Basic
import Mathlib.Data.List.Flatten

/-!
# Cutting a list into pieces of a fixed size

`chunk k l i` is the `i`-th piece of `k` elements of `l`. The first `n` pieces are the first
`n * k` elements (`flatten_chunks`), so `chunkCount k l` pieces, the size divided by `k` rounded
up, are all of `l` (`flatten_chunkCount`), and each of them is non-empty (`chunk_ne_nil`).
-/

namespace Chunks

variable {α : Type*}

def chunk (k : Nat) (l : List α) (i : Nat) : List α := (l.drop (i * k)).take k

theorem length_chunk (k : Nat) (l : List α) (i : Nat) :
    (chunk k l i).length = min k (l.length - i * k) := by
  simp [chunk]

theorem flatten_chunks (k : Nat) (l : List α) (n : Nat) :
    ((List.range n).map (chunk k l)).flatten = l.take (n * k) := by
  induction n with
  | zero => simp
  | succ n ih =>
    rw [List.range_succ, List.map_append, List.flatten_append, ih, Nat.succ_mul, List.take_add]
    simp [chunk]

/-- The number of pieces of `l`. -/
def chunkCount (k : Nat) (l : List α) : Nat := (l.length + k - 1) / k

theorem length_le_chunkCount {k : Nat} (hk : 0 < k) (l : List α) :
    l.length ≤ chunkCount k l * k := by
  unfold chunkCount
  have h1 := Nat.div_add_mod (l.length + k - 1) k
  have h2 := Nat.mod_lt (l.length + k - 1) hk
  rw [Nat.mul_comm] at h1
  omega

theorem mul_lt_length {k : Nat} (hk : 0 < k) {l : List α} {i : Nat} (hi : i < chunkCount k l) :
    i * k < l.length := by
  have h := (Nat.le_div_iff_mul_le hk).1 (Nat.succ_le_of_lt hi)
  rw [Nat.succ_mul] at h
  omega

theorem chunk_ne_nil {k : Nat} (hk : 0 < k) {l : List α} {i : Nat} (hi : i < chunkCount k l) :
    chunk k l i ≠ [] := by
  have h := mul_lt_length hk hi
  intro h0
  have := congrArg List.length h0
  rw [length_chunk, List.length_nil] at this
  omega

/-- **The pieces of a list are the list.** -/
theorem flatten_chunkCount {k : Nat} (hk : 0 < k) (l : List α) :
    ((List.range (chunkCount k l)).map (chunk k l)).flatten = l := by
  rw [flatten_chunks, List.take_of_length_le (length_le_chunkCount hk l)]

theorem length_flatten_le {k : Nat} {pieces : List (List α)} (h : ∀ l ∈ pieces, l.length ≤ k) :
    pieces.flatten.length ≤ pieces.length * k := by
  induction pieces with
  | nil => simp
  | cons l pieces ih =>
    have hl := h l List.mem_cons_self
    have hpieces := ih fun l hl => h l (List.mem_cons_of_mem _ hl)
    rw [List.flatten_cons, List.length_append, List.length_cons, Nat.succ_mul]
    omega

end Chunks
