import CarplayRelay.Lib.Bytes

/-!
# Hashes over blocks

A state that takes a message in blocks of `size` bytes. `run` takes the full blocks of a message,
and `leftover` is what is behind them.

* `run_snoc`: a byte completes a block, or it is left over.
* `run_append`: what is behind full blocks is taken from their state on.
-/

namespace BlockHash

variable {σ : Type*} (size : Nat) (compress : σ → Bytes → σ)

/-- The first `n` blocks. -/
def runBlocks : Nat → σ → Bytes → σ
  | 0, h, _ => h
  | n + 1, h, m => runBlocks n (compress h (m.take size)) (m.drop size)

/-- All full blocks. -/
def run (h : σ) (m : Bytes) : σ := runBlocks size compress (m.length / size) h m

/-- What is behind the full blocks. -/
def leftover (m : Bytes) : Bytes := m.drop (m.length / size * size)

theorem length_leftover (m : Bytes) : (leftover size m).length = m.length % size := by
  rw [leftover, List.length_drop]
  have := Nat.div_add_mod' m.length size
  omega

section
variable {size compress} {h : σ} {m t : Bytes}

theorem runBlocks_append {n : Nat} (hlen : n * size ≤ m.length) :
    runBlocks size compress n h (m ++ t) = runBlocks size compress n h m := by
  induction n generalizing h m with
  | zero => rfl
  | succ n ih =>
    rw [Nat.succ_mul] at hlen
    rw [runBlocks, runBlocks, List.take_append_of_le_length (by omega),
      List.drop_append_of_le_length (by omega)]
    exact ih (by rw [List.length_drop]; omega)

theorem runBlocks_add (n k : Nat) : runBlocks size compress (n + k) h m =
    runBlocks size compress k (runBlocks size compress n h m) (m.drop (n * size)) := by
  induction n generalizing h m with
  | zero => simp [runBlocks]
  | succ n ih =>
    rw [Nat.add_right_comm, runBlocks, runBlocks, ih, List.drop_drop]
    congr 2
    rw [Nat.succ_mul, Nat.add_comm]

/-- **Full blocks first**, and then what is behind them. -/
theorem run_append (hsize : 0 < size) (hm : m.length % size = 0) :
    run size compress h (m ++ t) = run size compress (run size compress h m) t := by
  obtain ⟨k, hk⟩ := Nat.dvd_of_mod_eq_zero hm
  have hdiv : m.length / size = k := by rw [hk, Nat.mul_div_cancel_left _ hsize]
  have htotal : (m ++ t).length / size = k + t.length / size := by
    rw [List.length_append, hk, Nat.mul_add_div hsize]
  have hlen : k * size = m.length := by rw [hk, Nat.mul_comm]
  rw [run, htotal, runBlocks_add, runBlocks_append (Nat.le_of_eq hlen), hlen, List.drop_left, run,
    run, hdiv]

theorem run_block (hsize : 0 < size) (hm : m.length = size) :
    run size compress h m = compress h m := by
  rw [run, hm, Nat.div_self hsize, runBlocks, runBlocks, List.take_of_length_le (Nat.le_of_eq hm)]

theorem run_short (hm : m.length < size) : run size compress h m = h := by
  rw [run, Nat.div_eq_of_lt hm, runBlocks]

/-- The full blocks and what is behind them. -/
theorem run_leftover (hsize : 0 < size) (h : σ) (m t : Bytes) :
    run size compress h (m ++ t) =
      run size compress (run size compress h m) (leftover size m ++ t) := by
  have hle : m.length / size * size ≤ m.length := Nat.div_mul_le_self _ _
  have hfull : (m.take (m.length / size * size)).length % size = 0 := by
    rw [List.length_take, Nat.min_eq_left hle, Nat.mul_mod_left]
  have hsplit : m = m.take (m.length / size * size) ++ leftover size m :=
    (List.take_append_drop _ _).symm
  have hblocks : run size compress h m = run size compress h (m.take (m.length / size * size)) := by
    conv_lhs => rw [hsplit, run_append hsize hfull]
    rw [run_short]
    rw [length_leftover]
    exact Nat.mod_lt _ hsize
  rw [hblocks]
  conv_lhs => rw [hsplit, List.append_assoc, run_append hsize hfull]

theorem leftover_append (hsize : 0 < size) (m t : Bytes) :
    leftover size (m ++ t) = leftover size (leftover size m ++ t) := by
  have hle : m.length / size * size ≤ m.length := Nat.div_mul_le_self _ _
  have hlen := length_leftover size m
  have hdiv : (m ++ t).length / size =
      m.length / size + (leftover size m ++ t).length / size := by
    rw [List.length_append, List.length_append, hlen, ← Nat.mul_add_div hsize]
    congr 1
    have := Nat.div_add_mod m.length size
    omega
  unfold leftover at hdiv ⊢
  rw [hdiv, Nat.add_mul, ← List.drop_drop, List.drop_append_of_le_length hle]

/-- **A byte** completes a block, or it is left over. -/
theorem run_snoc (hsize : 0 < size) (h : σ) (m : Bytes) (b : UInt8) :
    if (leftover size m).length + 1 = size then
      run size compress h (m ++ [b]) = compress (run size compress h m) (leftover size m ++ [b]) ∧
        leftover size (m ++ [b]) = []
    else run size compress h (m ++ [b]) = run size compress h m ∧
        leftover size (m ++ [b]) = leftover size m ++ [b] := by
  have hlt : (leftover size m).length < size := by
    rw [length_leftover]
    exact Nat.mod_lt _ hsize
  have hlen : (leftover size m ++ [b]).length = (leftover size m).length + 1 := by simp
  rw [run_leftover hsize, leftover_append hsize]
  split
  · rename_i hfull
    rw [run_block hsize (hlen.trans hfull)]
    refine ⟨rfl, List.eq_nil_of_length_eq_zero ?_⟩
    rw [length_leftover, hlen, hfull, Nat.mod_self]
  · rename_i hpart
    rw [run_short (by omega)]
    refine ⟨rfl, ?_⟩
    rw [leftover, Nat.div_eq_of_lt (by omega), Nat.zero_mul, List.drop_zero]

end

end BlockHash
