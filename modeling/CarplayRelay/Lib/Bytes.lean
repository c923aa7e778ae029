import Mathlib.Algebra.Group.Nat.Defs
import Mathlib.Data.List.Basic

/-!
# Byte strings and fixed-width integers

Buffers are lists of bytes. `be16`/`be32` and `le16`/`le32` lay an integer out in network and in
little-endian order, `ofBe16` … `ofLe32` read one from the front of a buffer. Reading inverts
writing whatever follows (`ofBe32_be32`, …), and writing inverts reading on a full word
(`be32_ofBe32`, …), so each layout is injective.

`toInt32` is the conversion of a size to a 32-bit `int`.
-/

/-- A buffer. -/
abbrev Bytes := List UInt8

namespace Bytes

/-! ## Layouts -/

def be16 (v : UInt16) : Bytes := [(v >>> 8).toUInt8, v.toUInt8]

def be32 (v : UInt32) : Bytes :=
  [(v >>> 24).toUInt8, (v >>> 16).toUInt8, (v >>> 8).toUInt8, v.toUInt8]

def le16 (v : UInt16) : Bytes := [v.toUInt8, (v >>> 8).toUInt8]

def le32 (v : UInt32) : Bytes :=
  [v.toUInt8, (v >>> 8).toUInt8, (v >>> 16).toUInt8, (v >>> 24).toUInt8]

/-- The bytes of an ASCII string literal. -/
def ascii (s : String) : Bytes := s.toList.map fun c => c.toNat.toUInt8

/-- The byte at offset `i` (zero past the end). -/
def byteAt (p : Bytes) (i : Nat) : UInt8 := p.getD i 0

def ofBe16 (p : Bytes) : UInt16 := ((p.byteAt 0).toUInt16 <<< 8) ||| (p.byteAt 1).toUInt16

def ofBe32 (p : Bytes) : UInt32 :=
  ((p.byteAt 0).toUInt32 <<< 24) ||| ((p.byteAt 1).toUInt32 <<< 16) |||
    ((p.byteAt 2).toUInt32 <<< 8) ||| (p.byteAt 3).toUInt32

def ofLe16 (p : Bytes) : UInt16 := (p.byteAt 0).toUInt16 ||| ((p.byteAt 1).toUInt16 <<< 8)

def ofLe32 (p : Bytes) : UInt32 :=
  (p.byteAt 0).toUInt32 ||| ((p.byteAt 1).toUInt32 <<< 8) |||
    ((p.byteAt 2).toUInt32 <<< 16) ||| ((p.byteAt 3).toUInt32 <<< 24)

@[simp] theorem length_be16 (v : UInt16) : (be16 v).length = 2 := rfl
@[simp] theorem length_be32 (v : UInt32) : (be32 v).length = 4 := rfl
@[simp] theorem length_le16 (v : UInt16) : (le16 v).length = 2 := rfl
@[simp] theorem length_le32 (v : UInt32) : (le32 v).length = 4 := rfl

@[simp] theorem byteAt_cons_zero (b : UInt8) (p : Bytes) : byteAt (b :: p) 0 = b := rfl
@[simp] theorem byteAt_cons_succ (b : UInt8) (p : Bytes) (i : Nat) :
    byteAt (b :: p) (i + 1) = byteAt p i := rfl

/-- What holds of each of the 256 bytes. -/
theorem forall_byte {P : UInt8 → Prop} (h : ∀ j : Fin 256, P j.val.toUInt8) (b : UInt8) : P b := by
  have hb := h ⟨b.toNat, b.toNat_lt⟩
  rwa [Nat.toUInt8_eq, UInt8.ofNat_toNat] at hb

theorem byteAt_append_right (p q : Bytes) (i : Nat) :
    byteAt (p ++ q) (p.length + i) = byteAt q i := by
  rw [byteAt, byteAt, List.getD_eq_getElem?_getD, List.getD_eq_getElem?_getD,
    List.getElem?_append_right (Nat.le_add_right _ _), Nat.add_sub_cancel_left]

/-- The bytes of a literal from its characters, which spares the kernel its UTF-8 encoding. -/
theorem ascii_ofList (l : List Char) :
    ascii (String.ofList l) = l.map fun c => c.toNat.toUInt8 := by
  simp [ascii]

/-! ## Round trips -/

@[simp] theorem ofBe16_be16 (v : UInt16) (r : Bytes) : ofBe16 (be16 v ++ r) = v := by
  simp only [ofBe16, be16, List.cons_append, byteAt_cons_zero, byteAt_cons_succ]
  apply UInt16.toBitVec_inj.1
  apply BitVec.eq_of_getLsbD_eq
  intro i hi
  simp [-UInt16.toUInt16_toUInt8]
  grind

@[simp] theorem ofBe32_be32 (v : UInt32) (r : Bytes) : ofBe32 (be32 v ++ r) = v := by
  simp only [ofBe32, be32, List.cons_append, byteAt_cons_zero, byteAt_cons_succ]
  apply UInt32.toBitVec_inj.1
  apply BitVec.eq_of_getLsbD_eq
  intro i hi
  simp [-UInt32.toUInt32_toUInt8]
  grind

@[simp] theorem ofLe16_le16 (v : UInt16) (r : Bytes) : ofLe16 (le16 v ++ r) = v := by
  simp only [ofLe16, le16, List.cons_append, byteAt_cons_zero, byteAt_cons_succ]
  apply UInt16.toBitVec_inj.1
  apply BitVec.eq_of_getLsbD_eq
  intro i hi
  simp [-UInt16.toUInt16_toUInt8]
  grind

@[simp] theorem ofLe32_le32 (v : UInt32) (r : Bytes) : ofLe32 (le32 v ++ r) = v := by
  simp only [ofLe32, le32, List.cons_append, byteAt_cons_zero, byteAt_cons_succ]
  apply UInt32.toBitVec_inj.1
  apply BitVec.eq_of_getLsbD_eq
  intro i hi
  simp [-UInt32.toUInt32_toUInt8]
  grind

theorem be16_ofNat (n : Nat) : be16 (UInt16.ofNat n) = [UInt8.ofNat (n >>> 8), UInt8.ofNat n] := by
  simp only [be16, List.cons.injEq, and_true]
  refine ⟨?_, ?_⟩ <;> apply UInt8.toNat_inj.1
  · simp [Nat.shiftRight_eq_div_pow]
    omega
  · simp

theorem be32_ofNat (n : Nat) :
    be32 (UInt32.ofNat n) =
      [UInt8.ofNat (n >>> 24), UInt8.ofNat (n >>> 16), UInt8.ofNat (n >>> 8), UInt8.ofNat n] := by
  simp only [be32, List.cons.injEq, and_true]
  refine ⟨?_, ?_, ?_, ?_⟩ <;> apply UInt8.toNat_inj.1 <;> simp [Nat.shiftRight_eq_div_pow] <;>
    omega

theorem be32_ofBe32 (a b c d : UInt8) (r : Bytes) :
    be32 (ofBe32 (a :: b :: c :: d :: r)) = [a, b, c, d] := by
  simp only [ofBe32, be32, byteAt_cons_zero, byteAt_cons_succ, List.cons.injEq, and_true]
  refine ⟨?_, ?_, ?_, ?_⟩ <;> apply UInt8.toBitVec_inj.1 <;>
    apply BitVec.eq_of_getLsbD_eq <;> intro i hi <;> simp <;> grind

theorem le32_inj {v w : UInt32} (h : le32 v = le32 w) : v = w := by
  rw [← ofLe32_le32 v [], ← ofLe32_le32 w [], h]

/-! ## Sizes as C integers -/

/-- The conversion `(int)n` of a size. -/
def toInt32 (n : Nat) : Int := (BitVec.ofNat 32 n).toInt

theorem toInt32_of_lt {n : Nat} (h : n < 2 ^ 31) : toInt32 n = n := by
  unfold toInt32
  rw [BitVec.toInt_eq_toNat_cond, BitVec.toNat_ofNat, Nat.mod_eq_of_lt (by omega)]
  simp; omega

end Bytes
