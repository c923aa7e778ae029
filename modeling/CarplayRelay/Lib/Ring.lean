import Mathlib.Data.List.Rotate

/-!
# A ring buffer as a window on an array

An array `buf` of `N` cells is written and read from a position with one wrap at its end:
`wrapWrite` splits the data into the part before the end and the part at the front, `wrapRead`
splits the range in the same way. `window buf pos len` is the content of the `len` cells from
`pos` on. Its rules make the array a queue:

* `wrapRead_eq`: reading returns the window;
* `window_wrapWrite`: writing behind a window appends to it, when it fits in the array;
* `window_drop`: moving the start drops from the front;
* `rotate_overwrite`: in a full array, writing over the first element appends behind the others;
* `wrapRanges_le`: a write or read touches cells of the array only.
-/

namespace Ring

variable {α : Type*}

/-! ## Positions -/

theorem add_mod_of_lt {N a b : Nat} (ha : a < N) (hb : b ≤ N) :
    (a + b) % N = if a + b < N then a + b else a + b - N := by
  split
  · exact Nat.mod_eq_of_lt ‹_›
  · rw [Nat.mod_eq_sub_mod (by omega), Nat.mod_eq_of_lt (by omega)]

/-- Cell `i` of a window is cell `i + N - c` from the end of its first `c` cells. -/
theorem pos_shift {N t c i : Nat} (hc : c ≤ N) :
    ((t + c) % N + (i + N - c)) % N = (t + i) % N := by
  rw [Nat.mod_add_mod, show t + c + (i + N - c) = t + i + N by omega, Nat.add_mod_right]

/-- Cell `i ≥ c` of a window is cell `i - c` from the end of its first `c` cells. -/
theorem pos_after {N t c i : Nat} (hi : c ≤ i) :
    ((t + c) % N + (i - c)) % N = (t + i) % N := by
  rw [Nat.mod_add_mod, show t + c + (i - c) = t + i by omega]

/-! ## Copies into and out of the array -/

/-- The array after copying `data` to position `pos`. -/
def splice (buf : List α) (pos : Nat) (data : List α) : List α :=
  buf.take pos ++ data ++ buf.drop (pos + data.length)

theorem length_splice {buf data : List α} {pos : Nat} (h : pos + data.length ≤ buf.length) :
    (splice buf pos data).length = buf.length := by
  simp only [splice, List.length_append, List.length_take, List.length_drop]; omega

theorem take_splice {buf : List α} {pos : Nat} (h : pos ≤ buf.length) (data : List α) :
    (splice buf pos data).take (pos + data.length) = buf.take pos ++ data := by
  have hlen : (buf.take pos ++ data).length = pos + data.length := by
    rw [List.length_append, List.length_take, Nat.min_eq_left h]
  rw [splice, ← hlen, List.take_left]

theorem getElem?_splice {buf data : List α} {pos : Nat} (h : pos + data.length ≤ buf.length)
    (j : Nat) : (splice buf pos data)[j]? =
      if pos ≤ j ∧ j < pos + data.length then data[j - pos]? else buf[j]? := by
  have hp : (buf.take pos).length = pos := by rw [List.length_take]; omega
  unfold splice
  by_cases h1 : j < pos
  · rw [List.append_assoc, List.getElem?_append_left (by omega), List.getElem?_take_of_lt h1,
      if_neg (by omega)]
  · by_cases h2 : j < pos + data.length
    · rw [if_pos ⟨by omega, h2⟩, List.append_assoc, List.getElem?_append_right (by omega), hp,
        List.getElem?_append_left (by omega)]
    · rw [if_neg (by omega), List.getElem?_append_right (by simp [hp]; omega), List.getElem?_drop]
      congr 1
      simp only [List.length_append, hp]; omega

/-- The array after writing `data` from `pos` on, wrapping at cell `N`. -/
def wrapWrite (N : Nat) (buf : List α) (pos : Nat) (data : List α) : List α :=
  let first := min data.length (N - pos)
  let buf' := splice buf pos (data.take first)
  if data.length - first > 0 then splice buf' 0 (data.drop first) else buf'

/-- The `len` cells from `pos` on, wrapping at cell `N`. -/
def wrapRead (N : Nat) (buf : List α) (pos len : Nat) : List α :=
  let first := min len (N - pos)
  (buf.drop pos).take first ++ buf.take (len - first)

/-- The ranges of cells, a position and a length each, that such a write or read of `len` cells
touches. -/
def wrapRanges (N pos len : Nat) : List (Nat × Nat) :=
  let first := min len (N - pos)
  (pos, first) :: if len - first > 0 then [(0, len - first)] else []

/-- The ranges lie in the array. -/
theorem wrapRanges_le {N pos len : Nat} (hp : pos ≤ N) (hl : len ≤ N) :
    ∀ range ∈ wrapRanges N pos len, range.1 + range.2 ≤ N := by
  intro range hrange
  unfold wrapRanges at hrange
  dsimp only at hrange
  rcases List.mem_cons.1 hrange with rfl | hrange
  · show pos + min len (N - pos) ≤ N
    omega
  · split at hrange
    · rw [List.mem_singleton.1 hrange]
      show 0 + (len - min len (N - pos)) ≤ N
      omega
    · cases hrange

/-- The content of `len` cells from `pos` on. -/
def window (buf : List α) (pos len : Nat) : List α := (buf.rotate pos).take len

variable {N : Nat} {buf : List α}

theorem length_wrapWrite {data : List α} {pos : Nat} (hb : buf.length = N) (hp : pos < N)
    (hd : data.length ≤ N) : (wrapWrite N buf pos data).length = N := by
  unfold wrapWrite
  have h1 : (splice buf pos (data.take (min data.length (N - pos)))).length = N := by
    rw [length_splice (by simp only [List.length_take]; omega), hb]
  dsimp only
  split
  · rw [length_splice (by rw [h1, List.length_drop]; omega), h1]
  · exact h1

/-- The cell at offset `k` from the start of a write. -/
theorem getElem?_wrapWrite {data : List α} {pos k : Nat} (hb : buf.length = N) (hp : pos < N)
    (hd : data.length ≤ N) (hk : k < N) : (wrapWrite N buf pos data)[(pos + k) % N]? =
      if k < data.length then data[k]? else buf[(pos + k) % N]? := by
  have hf : (data.take (min data.length (N - pos))).length = min data.length (N - pos) := by
    rw [List.length_take]; omega
  have h1 : (splice buf pos (data.take (min data.length (N - pos)))).length = N := by
    rw [length_splice (by rw [hf]; omega), hb]
  have hbuf (j : Nat) := getElem?_splice (j := j)
    (show pos + (data.take (min data.length (N - pos))).length ≤ buf.length by rw [hf]; omega)
  unfold wrapWrite
  rw [add_mod_of_lt hp hk.le]
  dsimp only
  by_cases hw : pos + k < N
  · -- before the end of the array: the first copy
    rw [if_pos hw]
    have key : (splice buf pos (data.take (min data.length (N - pos))))[pos + k]? =
        if k < data.length then data[k]? else buf[pos + k]? := by
      rw [hbuf, hf]
      by_cases hkd : k < data.length
      · rw [if_pos ⟨by omega, by omega⟩, if_pos hkd, Nat.add_sub_cancel_left,
          List.getElem?_take_of_lt (by omega)]
      · rw [if_neg (by omega), if_neg hkd]
    split
    · rw [getElem?_splice (by rw [h1, List.length_drop]; omega), if_neg, key]
      rw [List.length_drop]; omega
    · exact key
  · -- past the end: the second copy, at the front
    rw [if_neg hw]
    split
    · rw [getElem?_splice (by rw [h1, List.length_drop]; omega), List.length_drop]
      by_cases hkd : k < data.length
      · rw [if_pos ⟨by omega, by omega⟩, if_pos hkd, List.getElem?_drop]
        congr 1; omega
      · rw [if_neg (by omega), if_neg hkd, hbuf, hf, if_neg (by omega)]
    · rw [if_neg (by omega), hbuf, hf, if_neg (by omega)]

theorem wrapWrite_singleton {pos : Nat} (hb : buf.length = N) (hp : pos < N) (a : α) :
    wrapWrite N buf pos [a] = buf.set pos a := by
  have hfirst : min 1 (N - pos) = 1 := by omega
  unfold wrapWrite
  simp only [List.length_singleton, hfirst, List.take_succ_cons, List.take_zero, Nat.sub_self,
    gt_iff_lt, Nat.lt_irrefl, if_false]
  rw [splice, List.length_singleton, List.set_eq_take_append_cons_drop, if_pos (by omega),
    List.append_assoc, List.singleton_append]

/-! ## The window -/

theorem length_window {pos len : Nat} (h : len ≤ buf.length) :
    (window buf pos len).length = len := by
  simp [window, h]

theorem getElem?_window {pos len i : Nat} (hb : buf.length = N) (hl : len ≤ N) :
    (window buf pos len)[i]? = if i < len then buf[(pos + i) % N]? else none := by
  unfold window
  rw [List.getElem?_take]
  split
  · rw [List.getElem?_rotate (by omega), hb, Nat.add_comm]
  · rfl

@[simp] theorem window_zero (pos : Nat) : window buf pos 0 = [] := by simp [window]

/-- **Reading returns the window.** -/
theorem wrapRead_eq {pos len : Nat} (hb : buf.length = N) (hp : pos < N) (hl : len ≤ N) :
    wrapRead N buf pos len = window buf pos len := by
  unfold wrapRead window
  dsimp only
  rw [List.rotate_eq_drop_append_take (by omega), List.take_append, List.take_take,
    List.length_drop, hb]
  congr 1
  · by_cases h : len ≤ N - pos
    · rw [Nat.min_eq_left h]
    · rw [Nat.min_eq_right (by omega), List.take_of_length_le (by rw [List.length_drop]; omega),
        List.take_of_length_le (by rw [List.length_drop]; omega)]
  · congr 1; omega

theorem window_take {pos len n : Nat} :
    (window buf pos len).take n = window buf pos (min n len) := by
  rw [window, window, List.take_take]

/-- **Writing behind a window appends to it.** -/
theorem window_wrapWrite {data : List α} {t c : Nat} (hb : buf.length = N) (ht : t < N)
    (hc : c + data.length ≤ N) :
    window (wrapWrite N buf ((t + c) % N) data) t (c + data.length) = window buf t c ++ data := by
  have hp : (t + c) % N < N := Nat.mod_lt _ (by omega)
  have hlen : (wrapWrite N buf ((t + c) % N) data).length = N :=
    length_wrapWrite hb hp (by omega)
  apply List.ext_getElem?
  intro i
  rw [getElem?_window hlen hc]
  by_cases h1 : i < c
  · -- the cells of the window are not written
    rw [if_pos (by omega), ← pos_shift (i := i) (by omega : c ≤ N),
      getElem?_wrapWrite hb hp (by omega) (by omega), if_neg (by omega),
      pos_shift (by omega), List.getElem?_append_left (by rw [length_window (by omega)]; omega),
      getElem?_window hb (by omega), if_pos h1]
  · rw [List.getElem?_append_right (by rw [length_window (by omega)]; omega),
      length_window (by omega)]
    by_cases h2 : i < c + data.length
    · rw [if_pos h2, ← pos_after (N := N) (t := t) (c := c) (i := i) (by omega),
        getElem?_wrapWrite hb hp (by omega) (by omega), if_pos (by omega)]
    · rw [if_neg h2, List.getElem?_eq_none (by omega)]

/-- **Moving the start of a window drops from its front.** -/
theorem window_drop {t c n : Nat} (hb : buf.length = N) (hc : c ≤ N) (hn : n ≤ c) :
    window buf ((t + n) % N) (c - n) = (window buf t c).drop n := by
  apply List.ext_getElem?
  intro i
  rw [getElem?_window hb (by omega), List.getElem?_drop, getElem?_window hb hc, Nat.mod_add_mod,
    show t + n + i = t + (n + i) by omega]
  by_cases h : i < c - n
  · rw [if_pos h, if_pos (by omega)]
  · rw [if_neg h, if_neg (by omega)]

/-- **Writing over the first element of a full array.** -/
theorem rotate_overwrite {pos : Nat} (hb : buf.length = N) (hp : pos < N) (a : α) :
    (buf.set pos a).rotate ((pos + 1) % N) = (buf.rotate pos).drop 1 ++ [a] := by
  have hnext : (pos + 1) % N < N := Nat.mod_lt _ (by omega)
  have hpos : ((pos + 1) % N + (N - 1)) % N = pos := by
    rw [Nat.mod_add_mod, show pos + 1 + (N - 1) = pos + N by omega, Nat.add_mod_right,
      Nat.mod_eq_of_lt hp]
  have hfit : N - 1 + [a].length ≤ N := by
    rw [List.length_singleton]
    omega
  have hwrite := window_wrapWrite hb hnext hfit
  rw [hpos, wrapWrite_singleton hb hp, window_drop hb le_rfl (by omega : 1 ≤ N)] at hwrite
  have hlen : (buf.rotate pos).take N = buf.rotate pos :=
    List.take_of_length_le (by rw [List.length_rotate, hb])
  have hlen' : ((buf.set pos a).rotate ((pos + 1) % N)).take N =
      (buf.set pos a).rotate ((pos + 1) % N) :=
    List.take_of_length_le (by rw [List.length_rotate, List.length_set, hb])
  rw [List.length_singleton, Nat.sub_add_cancel (by omega : 1 ≤ N), window, window, hlen,
    hlen'] at hwrite
  exact hwrite

end Ring
