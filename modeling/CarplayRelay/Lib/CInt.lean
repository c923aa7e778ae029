import Mathlib.Algebra.Order.Ring.Int
import Mathlib.Data.Int.Init

/-!
# C integers

Values of `int32_t` and `size_t` are integers; an operation computes exactly and `wrap32` or
`wrapSize` reduces its result to the range of the type. `cDiv` is the division, which traps on
zero.
-/

namespace CInt

/-- The value of 32 signed bits. -/
def wrap32 (x : Int) : Int := x.bmod (2 ^ 32)

/-- The value of a 64-bit `size_t`. -/
def wrapSize (x : Int) : Int := x % 2 ^ 64

/-- A division of two `int32_t`, rounded toward zero. -/
def cDiv (x y : Int) : Option Int := if y = 0 then none else some (wrap32 (x.tdiv y))

theorem wrap32_of_range {x : Int} (hl : -2 ^ 31 ≤ x) (hu : x < 2 ^ 31) : wrap32 x = x :=
  Int.bmod_eq_of_le (by omega) (by omega)

theorem wrap32_range (x : Int) : -2 ^ 31 ≤ wrap32 x ∧ wrap32 x < 2 ^ 31 := by
  have hl := Int.le_bmod (x := x) (m := 2 ^ 32) (by decide)
  have hu := Int.bmod_lt (x := x) (m := 2 ^ 32) (by decide)
  unfold wrap32
  omega

/-- The reduced value differs by a multiple of the word. -/
theorem wrap32_eq (x : Int) : ∃ k : Int, wrap32 x = x - 2 ^ 32 * k :=
  ⟨x.bdiv (2 ^ 32), Int.bmod_eq_self_sub_mul_bdiv x (2 ^ 32)⟩

theorem wrapSize_of_range {x : Int} (hl : 0 ≤ x) (hu : x < 2 ^ 64) : wrapSize x = x :=
  Int.emod_eq_of_lt hl hu

theorem cDiv_isSome {x y : Int} : (cDiv x y).isSome ↔ y ≠ 0 := by
  unfold cDiv
  split <;> simp_all

theorem tdiv_bounds (x : Int) {y : Int} (hy : 0 < y) :
    y * x.tdiv y - y < x ∧ x < y * x.tdiv y + y := by
  have hmul := Int.tmod_add_mul_tdiv x y
  have hlt := Int.tmod_lt_of_pos x hy
  have hgt := Int.lt_tmod_of_pos x hy
  omega

/-- An interval around zero that holds the dividend holds the quotient. -/
theorem tdiv_between {x y l u : Int} (hy : 0 ≤ y) (hl : l ≤ 0) (hu : 0 ≤ u) (hlx : l ≤ x)
    (hxu : x ≤ u) : l ≤ x.tdiv y ∧ x.tdiv y ≤ u := by
  rcases le_total 0 x with hx | hx
  · have hpos := Int.tdiv_nonneg hx hy
    have hle := Int.tdiv_le_self y hx
    omega
  · have hneg := Int.neg_tdiv x y
    have hpos := Int.tdiv_nonneg (Int.neg_nonneg_of_nonpos hx) hy
    have hle := Int.tdiv_le_self y (Int.neg_nonneg_of_nonpos hx)
    omega

end CInt
