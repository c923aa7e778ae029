import CarplayRelay.Server.BitrateCtrl
import Mathlib.Order.Bounds.Basic
import Mathlib.Tactic.Linarith

/-!
# The integer square root of the rate controller (`int_sqrt`)

A binary search between 1 and half of the argument squares the middle in an `int`. The first
middle is about a quarter of the argument, so the square fits only for an argument up to 185361:
`46340 * 46340` is the last square below `2 ^ 31`.

* `turns_sum`: the sums of the search never overflow.
* `intSqrt_iff`: for which arguments the squares do not either, and the result is the root.
-/

namespace Server

open CInt

/-- The products that `int_sqrt` computes, exactly. -/
def intSqrtProducts (ans x : Int) : List Int :=
  if x = 0 ∨ x = 1 then []
  else (intSqrtLoop x 1 (x.tdiv 2) ans).2.map fun t => (t.1 + t.2) / 2 * ((t.1 + t.2) / 2)

section
variable {x start stop mid ans r : Int} {t : Int × Int}

/-! ## The search stays between its ends -/

theorem mem_turns (ht : t ∈ (intSqrtLoop x start stop ans).2) :
    start ≤ t.1 ∧ t.1 ≤ t.2 ∧ t.2 ≤ stop := by
  fun_induction intSqrtLoop x start stop ans with
  | case1 start stop ans hle mid sqr heq =>
    rw [List.mem_singleton.1 ht]
    exact ⟨le_rfl, hle, le_rfl⟩
  | case2 start stop ans hle mid sqr hne hsqr ih =>
    rcases List.mem_cons.1 ht with rfl | ht
    · exact ⟨le_rfl, hle, le_rfl⟩
    · have hbetween := ih ht
      omega
  | case3 start stop ans hle mid sqr hne hsqr ih =>
    rcases List.mem_cons.1 ht with rfl | ht
    · exact ⟨le_rfl, hle, le_rfl⟩
    · have hbetween := ih ht
      omega
  | case4 start stop ans hle => cases ht

/-- **No sum overflows**, whatever the products do. -/
theorem turns_sum (h0 : 0 ≤ x) (ht : t ∈ (intSqrtLoop x 1 (x.tdiv 2) ans).2) :
    0 ≤ t.1 + t.2 ∧ t.1 + t.2 ≤ x := by
  have hbetween := mem_turns ht
  have hhalf : x.tdiv 2 = x / 2 := Int.tdiv_eq_ediv_of_nonneg h0
  omega

/-! ## The root is between them -/

theorem isGreatest_root (h0 : 0 ≤ r) (hle : r * r ≤ x) (hlt : x < (r + 1) * (r + 1)) :
    IsGreatest {s : Int | s * s ≤ x} r := by
  refine ⟨hle, fun s hs => ?_⟩
  have hsq : s * s < (r + 1) * (r + 1) := lt_of_le_of_lt hs hlt
  by_contra hrs
  have hmul := mul_self_le_mul_self (by omega : 0 ≤ r + 1) (by omega : r + 1 ≤ s)
  omega

/-- The largest argument whose products fit. -/
def maxExact : Int := 185361

/-- The invariant of the loop for an argument whose products fit: the root is at least `start - 1`
and at most `end`. -/
structure Bracket (x start stop : Int) : Prop where
  le_max : x ≤ maxExact
  two_le : 2 ≤ x
  start_pos : 1 ≤ start
  sum_le : start + stop ≤ 92681
  ordered : start ≤ stop + 1
  below : (start - 1) * (start - 1) ≤ x
  above : x < (stop + 1) * (stop + 1)

namespace Bracket

theorem init (hx : 2 ≤ x) (hmax : x ≤ maxExact) : Bracket x 1 (x.tdiv 2) := by
  have hhalf : x.tdiv 2 = x / 2 := Int.tdiv_eq_ediv_of_nonneg (by omega)
  have hlt : x < (x / 2 + 1) * (x / 2 + 1) := by
    have htwo : x < 2 * (x / 2 + 1) := by omega
    nlinarith
  rw [hhalf]
  have hmax' : x ≤ 185361 := hmax
  exact ⟨hmax, hx, le_rfl, by omega, by omega, by omega, hlt⟩

theorem product_lt (h : Bracket x start stop) (hle : start ≤ stop)
    (hmid : mid = (start + stop) / 2) : mid * mid < 2 ^ 31 := by
  have hpos := h.start_pos
  have hsum := h.sum_le
  have hmul := mul_self_le_mul_self (by omega : 0 ≤ mid) (by omega : mid ≤ 46340)
  omega

theorem wrap32_product (h : Bracket x start stop) (hle : start ≤ stop)
    (hmid : mid = (start + stop) / 2) : wrap32 (mid * mid) = mid * mid := by
  have hnonneg := mul_self_nonneg mid
  exact wrap32_of_range (by omega) (h.product_lt hle hmid)

/-- A middle whose square is not too large is small, and so `end` was no more than twice that. -/
theorem up (h : Bracket x start stop) (hle : start ≤ stop) (hmid : mid = (start + stop) / 2)
    (hsqr : mid * mid ≤ x) : Bracket x (mid + 1) stop := by
  have hpos := h.start_pos
  have hmax : x ≤ 185361 := h.le_max
  have hsmall : mid ≤ 430 := by
    by_contra hlarge
    have hmul := mul_self_le_mul_self (by omega : (0 : Int) ≤ 431) (by omega : 431 ≤ mid)
    omega
  refine ⟨h.le_max, h.two_le, by omega, by omega, by omega, ?_, h.above⟩
  rw [Int.add_sub_cancel]
  exact hsqr

theorem down (h : Bracket x start stop) (hle : start ≤ stop) (hmid : mid = (start + stop) / 2)
    (hsqr : x < mid * mid) : Bracket x start (mid - 1) := by
  have hsum := h.sum_le
  refine ⟨h.le_max, h.two_le, h.start_pos, by omega, by omega, h.below, ?_⟩
  rw [Int.sub_add_cancel]
  exact hsqr

theorem done (h : Bracket x start stop) (hlt : ¬ start ≤ stop)
    (hans : start = 1 ∨ ans = start - 1) : IsGreatest {s : Int | s * s ≤ x} ans := by
  have hpos := h.start_pos
  have hordered := h.ordered
  obtain rfl : stop = start - 1 := by omega
  rcases hans with rfl | rfl
  · have habove := h.above
    have htwo := h.two_le
    omega
  · exact isGreatest_root (by omega) h.below h.above

end Bracket

/-- **The loop finds the root**, by induction on its turns: from the second on `ans` is
`start - 1`. -/
theorem intSqrtLoop_isGreatest (h : Bracket x start stop) (hans : start = 1 ∨ ans = start - 1) :
    IsGreatest {s : Int | s * s ≤ x} (intSqrtLoop x start stop ans).1 := by
  fun_induction intSqrtLoop x start stop ans with
  | case1 start stop ans hle mid sqr heq =>
    have hsqr : sqr = mid * mid := h.wrap32_product hle rfl
    have hpos := h.start_pos
    have hmid : 0 ≤ mid := by omega
    show IsGreatest {s : Int | s * s ≤ x} mid
    refine isGreatest_root hmid (by omega) ?_
    rw [← heq, hsqr]
    nlinarith
  | case2 start stop ans hle mid sqr hne hsqr ih =>
    have heq : sqr = mid * mid := h.wrap32_product hle rfl
    exact ih (h.up hle rfl (by omega)) (.inr (by omega))
  | case3 start stop ans hle mid sqr hne hsqr ih =>
    have heq : sqr = mid * mid := h.wrap32_product hle rfl
    exact ih (h.down hle rfl (by omega)) hans
  | case4 start stop ans hlt => exact h.done hlt hans

/-- **No product overflows**, by the same induction. -/
theorem turns_product_lt (h : Bracket x start stop) (ht : t ∈ (intSqrtLoop x start stop ans).2) :
    (t.1 + t.2) / 2 * ((t.1 + t.2) / 2) < 2 ^ 31 := by
  fun_induction intSqrtLoop x start stop ans with
  | case1 start stop ans hle mid sqr heq =>
    rw [List.mem_singleton.1 ht]
    exact h.product_lt hle rfl
  | case2 start stop ans hle mid sqr hne hsqr ih =>
    have heq : sqr = mid * mid := h.wrap32_product hle rfl
    rcases List.mem_cons.1 ht with rfl | ht
    · exact h.product_lt hle rfl
    · exact ih (h.up hle rfl (by omega)) ht
  | case3 start stop ans hle mid sqr hne hsqr ih =>
    have heq : sqr = mid * mid := h.wrap32_product hle rfl
    rcases List.mem_cons.1 ht with rfl | ht
    · exact h.product_lt hle rfl
    · exact ih (h.down hle rfl (by omega)) ht
  | case4 start stop ans hle => cases ht

/-! ## The function -/

/-- The first product of a larger argument overflows. -/
theorem exists_product_ge (h : maxExact < x) (ans : Int) :
    ∃ p ∈ intSqrtProducts ans x, 2 ^ 31 ≤ p := by
  have hmax : 185361 < x := h
  have hhalf : x.tdiv 2 = x / 2 := Int.tdiv_eq_ediv_of_nonneg (by omega)
  have hmul := mul_self_le_mul_self (by omega : (0 : Int) ≤ 46341)
    (by omega : 46341 ≤ (1 + x / 2) / 2)
  have hfirst : (1, x / 2) ∈ (intSqrtLoop x 1 (x / 2) ans).2 := by
    rw [intSqrtLoop, if_pos (by omega)]
    dsimp only
    split
    · exact List.mem_singleton_self _
    · split <;> exact List.mem_cons_self
  refine ⟨(1 + x / 2) / 2 * ((1 + x / 2) / 2), ?_, by omega⟩
  rw [intSqrtProducts, if_neg (by omega), hhalf]
  exact List.mem_map_of_mem hfirst

theorem intSqrt_exact (h0 : 0 ≤ x) (hmax : x ≤ maxExact) (ans : Int) :
    (∀ p ∈ intSqrtProducts ans x, p < 2 ^ 31) ∧
      IsGreatest {s : Int | s * s ≤ x} (intSqrt ans x) := by
  by_cases hsmall : x = 0 ∨ x = 1
  · rw [intSqrtProducts, if_pos hsmall, intSqrt, if_pos hsmall]
    refine ⟨fun p hp => absurd hp List.not_mem_nil, ?_⟩
    rcases hsmall with rfl | rfl
    · exact isGreatest_root le_rfl le_rfl (by decide)
    · exact isGreatest_root (by decide) le_rfl (by decide)
  · have hbracket : Bracket x 1 (x.tdiv 2) := .init (by omega) hmax
    rw [intSqrtProducts, if_neg hsmall, intSqrt, if_neg hsmall]
    refine ⟨?_, intSqrtLoop_isGreatest hbracket (.inl rfl)⟩
    intro p hp
    obtain ⟨t, ht, rfl⟩ := List.mem_map.1 hp
    exact turns_product_lt hbracket ht

end

/-- **When `int_sqrt` is the integer square root**: no product overflows and the result is the
largest integer whose square is at most `x`, whatever `ans` holds before. -/
theorem intSqrt_iff {x : Int} (h0 : 0 ≤ x) :
    (∀ ans, (∀ p ∈ intSqrtProducts ans x, p < 2 ^ 31) ∧
      IsGreatest {s : Int | s * s ≤ x} (intSqrt ans x)) ↔ x ≤ maxExact := by
  constructor
  · intro h
    by_contra hmax
    obtain ⟨p, hp, hge⟩ := exists_product_ge (not_le.1 hmax) 0
    exact absurd ((h 0).1 p hp) (not_lt.2 hge)
  · intro hmax ans
    exact intSqrt_exact h0 hmax ans

theorem intSqrt_iff_ten :
    (∀ ans, (∀ p ∈ intSqrtProducts ans 10, p < 2 ^ 31) ∧
      IsGreatest {s : Int | s * s ≤ 10} (intSqrt ans 10)) ↔ 10 ≤ maxExact :=
  intSqrt_iff (by decide)

/-- One more than the largest argument. -/
theorem intSqrt_overflow : ¬ ∀ x : Int, 0 ≤ x → x < 2 ^ 31 → ∀ ans,
    (∀ p ∈ intSqrtProducts ans x, p < 2 ^ 31) ∧
      IsGreatest {s : Int | s * s ≤ x} (intSqrt ans x) := by
  intro h
  obtain ⟨p, hp, hge⟩ := @exists_product_ge 185362 (by decide) 0
  exact absurd ((h 185362 (by decide) (by decide) 0).1 p hp) (not_lt.2 hge)

end Server
