import CarplayRelay.Lib.Bytes

/-!
# Reading from a stream socket

A socket is the list of what its calls of `recv` give. However a stream is cut into them
(`Delivers`), reading `len` bytes takes the next `len` bytes of the stream.

`retry` tells whether a reader calls `recv` again after `EINTR`.

* `readExact_delivers`: a read takes the next bytes, whatever the cut.
* `strstr_append`: the first occurrence of a string is found at its end.
-/

namespace Recv

/-- What is there for a call of `recv`; a call with a smaller buffer leaves the rest to the
next one. After the last one the peer has closed the connection. -/
inductive Result
  | data (bytes : Bytes)
  /-- -1 with `EINTR`. -/
  | interrupted
  | failed
  deriving DecidableEq, Repr

/-- What is left of a result when `n` bytes of it are taken. -/
def leave (bytes : Bytes) (n : Nat) (rest : List Result) : List Result :=
  if bytes.length ≤ n then rest else .data (bytes.drop n) :: rest

/-- The loop that reads exactly `len` bytes, `none` if a call fails or the stream ends. -/
def readExact (retry : Bool) : List Result → Nat → Option (Bytes × List Result)
  | rs, 0 => some ([], rs)
  | [], _ + 1 | .failed :: _, _ + 1 => none
  | .interrupted :: rs, len + 1 => if retry then readExact retry rs (len + 1) else none
  | .data bytes :: rs, len + 1 =>
    if bytes = [] then none
    else if bytes.length ≤ len + 1 then
      (readExact retry rs (len + 1 - bytes.length)).map fun (b, rs) => (bytes ++ b, rs)
    else some (bytes.take (len + 1), .data (bytes.drop (len + 1)) :: rs)

/-- The results carry the stream, cut in some way. -/
def Delivers (retry : Bool) : List Result → Bytes → Prop
  | [], stream => stream = []
  | .data bytes :: rs, stream =>
    bytes ≠ [] ∧ ∃ rest, stream = bytes ++ rest ∧ Delivers retry rs rest
  | .interrupted :: rs, stream => retry = true ∧ Delivers retry rs stream
  | .failed :: _, _ => False

theorem delivers_chunks (retry : Bool) {chunks : List Bytes} (h : ∀ c ∈ chunks, c ≠ []) :
    Delivers retry (chunks.map .data) chunks.flatten := by
  induction chunks with
  | nil => rfl
  | cons c chunks ih =>
    exact ⟨h c (by simp), chunks.flatten, rfl, ih fun c hc => h c (by simp [hc])⟩

section
variable {retry : Bool} {rs : List Result} {b rest : Bytes}

theorem readExact_zero : readExact retry rs 0 = some ([], rs) := by
  cases rs with
  | nil => rfl
  | cons r rs => cases r <;> rfl

/-- **A read takes the next bytes of the stream**, by induction on the results. -/
theorem readExact_delivers (h : Delivers retry rs (b ++ rest)) :
    ∃ rs', readExact retry rs b.length = some (b, rs') ∧ Delivers retry rs' rest := by
  induction rs generalizing b with
  | nil =>
    obtain ⟨rfl, rfl⟩ := List.append_eq_nil_iff.1 h
    exact ⟨[], rfl, rfl⟩
  | cons r rs ih =>
    rcases Nat.eq_zero_or_pos b.length with hb | hb
    · rw [List.length_eq_zero_iff.1 hb] at h ⊢
      exact ⟨r :: rs, readExact_zero, h⟩
    obtain ⟨len, hlen⟩ := Nat.exists_eq_succ_of_ne_zero (Nat.pos_iff_ne_zero.1 hb)
    cases r with
    | failed => exact h.elim
    | interrupted =>
      obtain ⟨hretry, h⟩ := h
      obtain ⟨rs', hread, hrest⟩ := ih h
      refine ⟨rs', ?_, hrest⟩
      rw [hlen] at hread ⊢
      rw [readExact, if_pos hretry, hread]
    | data bytes =>
      obtain ⟨hne, tail, hcut, h⟩ := h
      rw [hlen, readExact, if_neg hne, ← Nat.succ_eq_add_one, ← hlen]
      by_cases hle : bytes.length ≤ b.length
      · obtain ⟨b', rfl, htail⟩ : ∃ b', b = bytes ++ b' ∧ tail = b' ++ rest := by
          rcases List.append_eq_append_iff.1 hcut with ⟨as, rfl, rfl⟩ | ⟨bs, rfl, rfl⟩
          · rw [List.length_append] at hle
            obtain rfl := List.eq_nil_of_length_eq_zero (show as.length = 0 by omega)
            exact ⟨[], by simp, by simp⟩
          · exact ⟨bs, rfl, rfl⟩
        obtain ⟨rs', hread, hrest⟩ := ih (htail ▸ h)
        refine ⟨rs', ?_, hrest⟩
        rw [if_pos hle, List.length_append, Nat.add_sub_cancel_left, hread]
        rfl
      · obtain ⟨c, rfl, hrest⟩ : ∃ c, bytes = b ++ c ∧ rest = c ++ tail := by
          rcases List.append_eq_append_iff.1 hcut with ⟨as, rfl, rfl⟩ | ⟨bs, rfl, rfl⟩
          · exact ⟨as, rfl, rfl⟩
          · rw [List.length_append] at hle
            omega
        refine ⟨_, by rw [if_neg hle, List.take_left, List.drop_left], ?_⟩
        refine ⟨?_, tail, hrest, h⟩
        rintro rfl
        simp at hle

end

/-! ## Searching a string -/

/-- `strstr`: the position of the first occurrence. -/
def strstr (needle : Bytes) : Bytes → Option Nat
  | [] => if needle = [] then some 0 else none
  | b :: hay => if needle.isPrefixOf (b :: hay) then some 0 else (strstr needle hay).map (· + 1)

section
variable {needle hay : Bytes}

theorem strstr_of_prefix (h : needle <+: hay) : strstr needle hay = some 0 := by
  cases hay with
  | nil => rw [List.prefix_nil.1 h]; rfl
  | cons b hay => rw [strstr, if_pos (List.isPrefixOf_iff_prefix.2 h)]

/-- A string is found where it stands first. -/
theorem strstr_some {i : Nat} (h : strstr needle hay = some i) : needle <+: hay.drop i := by
  induction hay generalizing i with
  | nil =>
    unfold strstr at h
    split at h <;> cases h
    rename_i hn
    rw [hn]
    exact List.nil_prefix
  | cons b hay ih =>
    unfold strstr at h
    split at h
    · cases h
      exact List.isPrefixOf_iff_prefix.1 ‹_›
    · obtain ⟨j, hj, rfl⟩ := Option.map_eq_some_iff.1 h
      exact ih hj

/-- A string is found if it occurs. -/
theorem strstr_isSome : (strstr needle hay).isSome ↔ needle <:+: hay := by
  constructor
  · intro h
    obtain ⟨i, hi⟩ := Option.isSome_iff_exists.1 h
    exact (strstr_some hi).isInfix.trans (List.drop_suffix i hay).isInfix
  · intro h
    induction hay with
    | nil =>
      rw [List.infix_nil.1 h]
      rfl
    | cons b hay ih =>
      rw [strstr]
      split
      · rfl
      · rename_i hb
        rw [Option.isSome_map]
        apply ih
        exact (List.infix_cons_iff.1 h).resolve_left fun hp => hb (List.isPrefixOf_iff_prefix.2 hp)

/-- What follows an occurrence does not matter: it is found in any longer string. -/
theorem strstr_append {i : Nat} (h : strstr needle hay = some i) (tail : Bytes) :
    strstr needle (hay ++ tail) = some i := by
  induction hay generalizing i with
  | nil =>
    unfold strstr at h
    split at h <;> cases h
    rename_i hn
    rw [hn]
    exact strstr_of_prefix List.nil_prefix
  | cons b hay ih =>
    unfold strstr at h
    rw [List.cons_append, strstr]
    split at h
    · cases h
      rename_i hb
      rw [if_pos]
      exact List.isPrefixOf_iff_prefix.2
        ((List.isPrefixOf_iff_prefix.1 hb).trans (List.prefix_append _ _))
    · obtain ⟨j, hj, rfl⟩ := Option.map_eq_some_iff.1 h
      rename_i hb
      have hno : ¬ needle.isPrefixOf (b :: (hay ++ tail)) := by
        intro hpre
        have hlen := (strstr_some hj).length_le
        have hle : needle.length ≤ (b :: hay).length := by
          rw [List.length_drop] at hlen
          rw [List.length_cons]
          omega
        refine hb (List.isPrefixOf_iff_prefix.2 ?_)
        exact List.prefix_of_prefix_length_le (List.isPrefixOf_iff_prefix.1 hpre)
          (List.prefix_append (b :: hay) tail) hle
      rw [if_neg hno, ih hj]
      rfl

/-- A string is not found before its first occurrence has ended. -/
theorem strstr_prefix {i : Nat} {p : Bytes} (h : strstr needle hay = some i) (hn : needle ≠ [])
    (hp : p <+: hay) (hlt : p.length < i + needle.length) : strstr needle p = none := by
  obtain ⟨tail, rfl⟩ := hp
  cases hs : strstr needle p with
  | none => rfl
  | some j =>
    have hj := strstr_append hs tail
    rw [h, Option.some.injEq] at hj
    subst hj
    have hlen := (strstr_some hs).length_le
    have hpos := List.length_pos_of_ne_nil hn
    rw [List.length_drop] at hlen
    omega

end

end Recv
