import CarplayRelay.Lib.CInt
import CarplayRelay.Lib.Run
import Mathlib.Tactic.SplitIfs

/-!
# The rate controller (`bitrate_ctrl.c`)

The controller keeps a running average of the slice sizes in 24.8 fixed point and moves the QP
toward the target. Fields are `int32_t`, the sum of the average is a `size_t`.

* `run_divisors`: no call divides by zero as long as no slice past the warm-up meets an average
  of zero; `divides_by_zero`: nine IDR slices do.
* `run_qp_range`: a QP handed out is in range, except for a NAL unit that is no coded slice during
  the warm-up; `qp_below_range`: the first parameter set gets QP 0.
* `run_exact`: the fixed-point arithmetic is exact as long as the sum of the average is not negative
  and the average of a slice past the warm-up is below `2 ^ 23`; `average_wraps`: the sum gets
  negative.
-/

namespace Server

open CInt

/-! ## The code -/

/-- `FIXED_POINT_SHIFT`, `QP_SHIFT`, `AVERAGE_STEP`. -/
def fixedPointShift : Nat := 8
def qpShift : Nat := 4
def averageStep : Int := 8

/-- `bitrate_ctrl_t`. -/
structure BitrateCtrl where
  targetBitrate : Int
  minQp : Int
  maxQp : Int
  calQp : Int
  averageSize : Int
  targetFrameSize : Int
  iCost : Int
  frameCount : Int
  gop : Int
  fps : Int
  maxQpStep : Int
  deriving DecidableEq, Repr

/-- `bitrate_ctrl_init`. -/
def bitrateCtrlInit (targetBitrate fps : Int) : Option BitrateCtrl := do
  let targetFrameSize ← cDiv (wrap32 (targetBitrate * 2 ^ (fixedPointShift - 3))) fps
  some ⟨targetBitrate, 26, 35, 0, 0, targetFrameSize, 0, 0, 0, fps, 4⟩

/-- `bitrate_ctrl_setup_qp_range`. -/
def bitrateCtrlSetupQpRange (c : BitrateCtrl) (minQp maxQp : Int) : BitrateCtrl :=
  { c with minQp := minQp, maxQp := maxQp }

/-- The loop of `int_sqrt`: its result, and beside it `start` and `end` at each turn. -/
def intSqrtLoop (x start stop ans : Int) : Int × List (Int × Int) :=
  if start ≤ stop then
    let mid := (start + stop) / 2
    let sqr := wrap32 (mid * mid)
    if sqr = x then (mid, [(start, stop)])
    else if sqr ≤ x then (intSqrtLoop x (mid + 1) stop mid).map id ((start, stop) :: ·)
    else (intSqrtLoop x start (mid - 1) ans).map id ((start, stop) :: ·)
  else (ans, [])
termination_by (stop + 1 - start).toNat

/-- `int_sqrt`; `ans` is what its variable of this name happens to hold. -/
def intSqrt (ans x : Int) : Int :=
  if x = 0 ∨ x = 1 then x else (intSqrtLoop x 1 (x.tdiv 2) ans).1

/-- A call: the first byte and the size of the NAL unit, and the `ans` of its `int_sqrt`. -/
structure Nal where
  header : UInt8
  size : Nat
  ans : Int := 0

/-- `nal_type`. -/
def Nal.nalType (n : Nal) : UInt8 := n.header &&& 0x1f

namespace BitrateCtrl

/-- `size_diff`. -/
def sizeDiff (c : BitrateCtrl) (size : Nat) : Int :=
  wrap32 (wrap32 (wrapSize (size * 2 ^ fixedPointShift)) - c.averageSize)

/-- `bitrate_ctrl_update_frame`, an IDR slice. -/
def idrSlice (c : BitrateCtrl) (size : Nat) : Option BitrateCtrl := do
  let iCost ← if 0 < c.gop then cDiv (c.sizeDiff size) c.gop else cDiv (c.sizeDiff size) 30
  some { c with iCost := iCost, gop := 0 }

/-- `average_size` after a P slice. -/
def newAverage (c : BitrateCtrl) (size : Nat) : Int :=
  wrap32 (wrapSize (wrap32 (c.averageSize * averageStep) +
    wrapSize (wrapSize (size * 2 ^ fixedPointShift) + c.iCost)) / (averageStep + 1))

/-- `bitrate_ctrl_update_frame`, a P slice. -/
def pSlice (c : BitrateCtrl) (size : Nat) : BitrateCtrl :=
  { c with averageSize := c.newAverage size, gop := wrap32 (c.gop + 1) }

/-- `slope`. -/
def slope (c : BitrateCtrl) : Option Int :=
  if c.targetFrameSize < c.averageSize then
    cDiv (wrap32 (c.averageSize * 2 ^ fixedPointShift)) c.targetFrameSize
  else cDiv (wrap32 (c.targetFrameSize * 2 ^ fixedPointShift)) c.averageSize

/-- `bitrate_ctrl_update_frame`, the control of `cal_qp`. -/
def controlQp (c : BitrateCtrl) (ans : Int) : Option BitrateCtrl := do
  let slope ← c.slope
  let qpStep := (intSqrt ans slope).tdiv 9
  let calQp :=
    if c.targetFrameSize < c.averageSize then wrap32 (c.calQp + qpStep)
    else wrap32 (c.calQp - qpStep)
  let low := wrap32 (c.minQp * 2 ^ qpShift)
  let calQp := if calQp < low then low else calQp
  let high := wrap32 (c.maxQp * 2 ^ qpShift)
  let calQp := if high < calQp then high else calQp
  some { c with calQp := calQp }

/-- `bitrate_ctrl_update_frame`, the check of the boundary. -/
def clampQp (c : BitrateCtrl) (retQp : Int) : Int :=
  if retQp < c.minQp then c.minQp else if c.maxQp < retQp then c.maxQp else retQp

/-- `bitrate_ctrl_update_frame`, the QP of a coded slice. -/
def sliceQp (c : BitrateCtrl) (ans : Int) : Option (Int × BitrateCtrl) :=
  let c := { c with frameCount := wrap32 (c.frameCount + 1) }
  if averageStep < c.frameCount then
    (c.controlQp ans).map fun c => (c.clampQp (c.calQp / 2 ^ qpShift), c)
  else some (c.clampQp ((wrap32 (c.minQp + c.maxQp)).tdiv 2), c)

/-- `bitrate_ctrl_update_frame`: the QP and the new state, `none` if it divides by zero. -/
def bitrateCtrlUpdateFrame (c : BitrateCtrl) (n : Nal) : Option (Int × BitrateCtrl) :=
  if n.nalType = 5 then (c.idrSlice n.size).bind fun c => c.sliceQp n.ans
  else if n.nalType = 1 then (c.pSlice n.size).sliceQp n.ans
  else some (c.calQp / 2 ^ qpShift, c)

end BitrateCtrl

/-- A call of `bitrate_ctrl_update_frame`. -/
def rateStep (c : BitrateCtrl) (n : Nal) : Option BitrateCtrl :=
  (c.bitrateCtrlUpdateFrame n).map (·.2)

/-- `h264_streaming` calls with NAL units of at least one byte; one is at most 64 KiB. -/
def Nal.Sized (n : Nal) : Prop := 1 ≤ n.size ∧ n.size ≤ 65536

instance (n : Nal) : Decidable n.Sized := inferInstanceAs (Decidable (_ ∧ _))

/-- An IDR or a P slice. -/
def Nal.Coded (n : Nal) : Prop := n.nalType = 5 ∨ n.nalType = 1

instance (n : Nal) : Decidable n.Coded := inferInstanceAs (Decidable (_ ∨ _))

/-! ## The average -/

/-- What the average of a P slice is a ninth of. -/
def averageSum (c : BitrateCtrl) (size : Nat) : Int :=
  wrap32 (c.averageSize * averageStep) + size * 2 ^ fixedPointShift + c.iCost

/-- The state of `bitrate_ctrl_init(&ctrl, 1500000, 30)` and of the calls after it. -/
structure RateInv (c : BitrateCtrl) : Prop where
  target : c.targetFrameSize = 1600000
  average : -2 ^ 31 ≤ c.averageSize ∧ c.averageSize < 2 ^ 31
  cost : -2 ^ 31 ≤ c.iCost ∧ c.iCost < 2 ^ 31

section
variable {c c' : BitrateCtrl} {n : Nal} {size : Nat}

theorem averageSum_bounds (h : RateInv c) (hsize : size ≤ 65536) :
    -2 ^ 33 < averageSum c size ∧ averageSum c size < 2 ^ 33 := by
  have hwrap := wrap32_range (c.averageSize * averageStep)
  have hcost := h.cost
  unfold averageSum fixedPointShift
  omega

theorem newAverage_eq (c : BitrateCtrl) (size : Nat) :
    c.newAverage size = wrap32 (wrapSize (averageSum c size) / 9) := by
  have hmod : (wrap32 (c.averageSize * averageStep) +
      ((size * 2 ^ fixedPointShift : Int) % 2 ^ 64 + c.iCost) % 2 ^ 64) % 2 ^ 64 =
        averageSum c size % 2 ^ 64 := by
    unfold averageSum
    omega
  unfold BitrateCtrl.newAverage wrapSize
  rw [hmod]
  rfl

theorem newAverage_exact (h : RateInv c) (hsize : size ≤ 65536) (hsum : 0 ≤ averageSum c size) :
    c.newAverage size = averageSum c size / 9 := by
  have hbound := averageSum_bounds h hsize
  rw [newAverage_eq, wrapSize_of_range hsum (by omega), wrap32_of_range (by omega) (by omega)]

/-- A negative sum wraps to a large average. -/
theorem newAverage_neg (h : RateInv c) (hsize : size ≤ 65536) (hsum : averageSum c size < 0) :
    2 ^ 29 < c.newAverage size := by
  have hbound := averageSum_bounds h hsize
  have hwrap : wrapSize (averageSum c size) = averageSum c size + 2 ^ 64 := by
    unfold wrapSize
    omega
  rw [newAverage_eq, hwrap]
  obtain ⟨k, hk⟩ := wrap32_eq ((averageSum c size + 2 ^ 64) / 9)
  have hrange := wrap32_range ((averageSum c size + 2 ^ 64) / 9)
  rw [hk] at hrange ⊢
  omega

theorem newAverage_zero (h : RateInv c) (hsize : size ≤ 65536) :
    c.newAverage size = 0 ↔ 0 ≤ averageSum c size ∧ averageSum c size < 9 := by
  rcases lt_or_ge (averageSum c size) 0 with hneg | hpos
  · have hlarge := newAverage_neg h hsize hneg
    omega
  · rw [newAverage_exact h hsize hpos]
    omega

/-! ## Divisors -/

/-- A call that divides by zero: for a slice past the warm-up, and an average that is zero. -/
def DividesByZero (c : BitrateCtrl) (n : Nal) : Prop :=
  averageStep < wrap32 (c.frameCount + 1) ∧
    ((n.nalType = 5 ∧ c.averageSize = 0) ∨
      (n.nalType = 1 ∧ 0 ≤ averageSum c n.size ∧ averageSum c n.size < 9))

instance (c : BitrateCtrl) (n : Nal) : Decidable (DividesByZero c n) :=
  inferInstanceAs (Decidable (_ ∧ _))

theorem slope_isSome (htarget : c.targetFrameSize = 1600000) :
    c.slope.isSome ↔ c.averageSize ≠ 0 := by
  unfold BitrateCtrl.slope
  split
  · rw [cDiv_isSome]
    omega
  · rw [cDiv_isSome]

theorem controlQp_some {ans : Int} (h : c.controlQp ans = some c') :
    c.slope.isSome ∧ ∃ q, c' = { c with calQp := q } ∧
      (wrap32 (c.minQp * 2 ^ qpShift) ≤ wrap32 (c.maxQp * 2 ^ qpShift) →
        wrap32 (c.minQp * 2 ^ qpShift) ≤ q ∧ q ≤ wrap32 (c.maxQp * 2 ^ qpShift)) := by
  obtain ⟨s, hs, h⟩ := Option.bind_eq_some_iff.1 h
  cases h
  refine ⟨by rw [hs]; rfl, _, rfl, ?_⟩
  intro hle
  split_ifs <;> omega

theorem controlQp_isSome (ans : Int) : (c.controlQp ans).isSome = c.slope.isSome := by
  unfold BitrateCtrl.controlQp
  cases c.slope <;> rfl

theorem sliceQp_isSome (htarget : c.targetFrameSize = 1600000) (ans : Int) :
    (c.sliceQp ans).isSome ↔ ¬ (averageStep < wrap32 (c.frameCount + 1) ∧ c.averageSize = 0) := by
  have hcontrol := controlQp_isSome (c := { c with frameCount := wrap32 (c.frameCount + 1) }) ans
  have hslope := slope_isSome (c := { c with frameCount := wrap32 (c.frameCount + 1) }) htarget
  rw [← hcontrol] at hslope
  unfold BitrateCtrl.sliceQp
  dsimp only
  by_cases hlate : averageStep < wrap32 (c.frameCount + 1)
  · rw [if_pos hlate]
    generalize BitrateCtrl.controlQp _ ans = r at hslope
    cases r <;> simp_all
  · rw [if_neg hlate]
    simp [hlate]

theorem clampQp_range (hle : c.minQp ≤ c.maxQp) (qp : Int) :
    c.minQp ≤ c.clampQp qp ∧ c.clampQp qp ≤ c.maxQp := by
  unfold BitrateCtrl.clampQp
  split_ifs <;> omega

/-- What a coded slice leaves: the QP handed out is in range, and past the warm-up the state's. -/
theorem sliceQp_some {ans qp : Int} (h : c.sliceQp ans = some (qp, c')) :
    ∃ q, c' = { c with frameCount := wrap32 (c.frameCount + 1), calQp := q } ∧
      (c.minQp ≤ c.maxQp → c.minQp ≤ qp ∧ qp ≤ c.maxQp) ∧
      (averageStep < wrap32 (c.frameCount + 1) →
        wrap32 (c.minQp * 2 ^ qpShift) ≤ wrap32 (c.maxQp * 2 ^ qpShift) →
          wrap32 (c.minQp * 2 ^ qpShift) ≤ q ∧ q ≤ wrap32 (c.maxQp * 2 ^ qpShift)) ∧
      (¬ averageStep < wrap32 (c.frameCount + 1) → q = c.calQp) := by
  unfold BitrateCtrl.sliceQp at h
  dsimp only at h
  split at h
  · rename_i hlate
    obtain ⟨c₁, hcontrol, heq⟩ := Option.map_eq_some_iff.1 h
    cases heq
    obtain ⟨-, q, rfl, hq⟩ := controlQp_some hcontrol
    exact ⟨q, rfl, fun hle => clampQp_range hle _, fun _ hle => hq hle,
      fun hno => absurd hlate hno⟩
  · rename_i hearly
    cases h
    exact ⟨c.calQp, rfl, fun hle => clampQp_range hle _, fun hlate => absurd hlate hearly,
      fun _ => rfl⟩

theorem idrSlice_some (c : BitrateCtrl) (size : Nat) :
    ∃ cost, c.idrSlice size = some { c with iCost := cost, gop := 0 } ∧
      cost = wrap32 ((c.sizeDiff size).tdiv (if 0 < c.gop then c.gop else 30)) := by
  unfold BitrateCtrl.idrSlice cDiv
  split
  · rename_i hgop
    rw [if_neg hgop.ne']
    exact ⟨_, rfl, rfl⟩
  · exact ⟨_, rfl, rfl⟩

/-- A call divides by zero, or it returns. -/
theorem rateStep_isSome (h : RateInv c) (hsize : n.Sized) :
    (rateStep c n).isSome ↔ ¬ DividesByZero c n := by
  unfold rateStep BitrateCtrl.bitrateCtrlUpdateFrame DividesByZero
  rw [Option.isSome_map]
  by_cases h5 : n.nalType = 5
  · obtain ⟨cost, heq, -⟩ := idrSlice_some c n.size
    have htarget : ({ c with iCost := cost, gop := 0 } : BitrateCtrl).targetFrameSize = 1600000 :=
      h.target
    rw [if_pos h5, heq, Option.bind_some, sliceQp_isSome htarget]
    simp [h5]
  rw [if_neg h5]
  by_cases h1 : n.nalType = 1
  · have hzero := newAverage_zero h hsize.2
    have htarget : (c.pSlice n.size).targetFrameSize = 1600000 := h.target
    rw [if_pos h1, sliceQp_isSome htarget]
    simp [BitrateCtrl.pSlice, hzero, h1]
  · rw [if_neg h1]
    simp [h5, h1]

theorem rateInv_step (h : RateInv c) (hs : rateStep c n = some c') : RateInv c' := by
  obtain ⟨⟨qp, c₁⟩, hcall, rfl⟩ := Option.map_eq_some_iff.1 hs
  unfold BitrateCtrl.bitrateCtrlUpdateFrame at hcall
  split at hcall
  · obtain ⟨cost, heq, hcost⟩ := idrSlice_some c n.size
    rw [heq, Option.bind_some] at hcall
    obtain ⟨q, heq, -⟩ := sliceQp_some hcall
    have hrange := wrap32_range ((c.sizeDiff n.size).tdiv (if 0 < c.gop then c.gop else 30))
    rw [← hcost] at hrange
    rw [heq]
    exact ⟨h.target, h.average, hrange⟩
  split at hcall
  · obtain ⟨q, heq, -⟩ := sliceQp_some hcall
    rw [heq]
    exact ⟨h.target, wrap32_range _, h.cost⟩
  · cases hcall
    exact h

theorem bitrateCtrlInit_eq : bitrateCtrlInit 1500000 30 =
    some ⟨1500000, 26, 35, 0, 0, 1600000, 0, 0, 0, 30, 4⟩ := rfl

theorem rateInv_init (h : bitrateCtrlInit 1500000 30 = some c) : RateInv c := by
  rw [bitrateCtrlInit_eq] at h
  cases h
  exact ⟨rfl, by constructor <;> simp, by constructor <;> simp⟩

/-- **No call divides by zero exactly if none is for a slice past the warm-up whose average is
zero**: an IDR slice before the first P slice, or a P slice whose sum is below 9. -/
theorem run_divisors (hinit : bitrateCtrlInit 1500000 30 = some c) {es : List Nal}
    (hsize : ∀ n ∈ es, n.Sized) :
    (Run.run rateStep c es).isSome ↔ Run.Meets rateStep (fun c n => ¬ DividesByZero c n) c es := by
  exact Run.isSome_iff_meets (I := RateInv) (E := Nal.Sized) rateStep_isSome
    (fun h _ => rateInv_step h) hsize (rateInv_init hinit)

end

/-- Nine IDR slices: no P slice has set the average when the warm-up is over. -/
theorem divides_by_zero :
    (∀ n ∈ List.replicate 9 (⟨0x65, 4000, 0⟩ : Nal), n.Sized) ∧
      (bitrateCtrlInit 1500000 30).bind (fun c =>
        Run.run rateStep c (List.replicate 9 ⟨0x65, 4000, 0⟩)) = none :=
  ⟨by decide, rfl⟩

/-- An IDR slice, nine P slices, and an IDR slice past the warm-up. -/
def groupOfSlices : List Nal :=
  ⟨0x65, 30000, 0⟩ :: (List.replicate 9 ⟨0x61, 4000, 0⟩ ++ [⟨0x65, 30000, 0⟩])

theorem run_divisors_groupOfSlices :
    (Run.run rateStep ⟨1500000, 26, 35, 0, 0, 1600000, 0, 0, 0, 30, 4⟩ groupOfSlices).isSome :=
  (run_divisors bitrateCtrlInit_eq (by decide)).2 (by decide +kernel)

/-! ## The range of the QP -/

/-- How many slices are coded. -/
def codedCount (es : List Nal) : Nat := es.countP fun n => n.Coded

/-- The state of a controller set up with a QP range, after `k` coded slices. -/
structure QpInv (minQp maxQp : Int) (k : Nat) (c : BitrateCtrl) : Prop where
  min : c.minQp = minQp
  max : c.maxQp = maxQp
  warmUp : k < 9 → c.calQp = 0 ∧ c.frameCount = k
  range : 9 ≤ k → minQp * 16 ≤ c.calQp ∧ c.calQp ≤ maxQp * 16

section
variable {c c' : BitrateCtrl} {n : Nal} {qp minQp maxQp : Int} {k : Nat}

theorem qpInv_slice (hmin : 0 ≤ minQp) (hle : minQp ≤ maxQp) (hmax : maxQp ≤ 51)
    (h : QpInv minQp maxQp k c) {ans : Int} (hs : c.sliceQp ans = some (qp, c')) :
    QpInv minQp maxQp (k + 1) c' ∧ minQp ≤ qp ∧ qp ≤ maxQp := by
  obtain ⟨q, rfl, hqp, hlate, hearly⟩ := sliceQp_some hs
  have hlow : wrap32 (c.minQp * 2 ^ qpShift) = minQp * 16 := by
    rw [h.min]
    exact wrap32_of_range (by unfold qpShift; omega) (by unfold qpShift; omega)
  have hhigh : wrap32 (c.maxQp * 2 ^ qpShift) = maxQp * 16 := by
    rw [h.max]
    exact wrap32_of_range (by unfold qpShift; omega) (by unfold qpShift; omega)
  rw [hlow, hhigh] at hlate
  rw [h.min, h.max] at hqp
  have hwarm := h.warmUp
  have hrange := h.range
  refine ⟨⟨h.min, h.max, ?_, ?_⟩, hqp hle⟩
  · intro hk
    obtain ⟨hcal, hcount⟩ := hwarm (by omega)
    have hwrap : wrap32 (c.frameCount + 1) = k + 1 := by
      rw [hcount]
      exact wrap32_of_range (by omega) (by omega)
    refine ⟨(hearly ?_).trans hcal, by rw [hwrap]; rfl⟩
    rw [hwrap]
    unfold averageStep
    omega
  · intro hk
    by_cases hwrap : averageStep < wrap32 (c.frameCount + 1)
    · exact hlate hwrap (by omega)
    -- the slice is past the ninth and the frame counter has wrapped
    · by_cases hlast : k = 8
      · rw [(hwarm (by omega)).2, hlast] at hwrap
        exact absurd (by decide) hwrap
      · have hcal := hrange (by omega)
        rwa [← hearly hwrap] at hcal

theorem qpInv_call (hmin : 0 ≤ minQp) (hle : minQp ≤ maxQp) (hmax : maxQp ≤ 51)
    (h : QpInv minQp maxQp k c) (hs : c.bitrateCtrlUpdateFrame n = some (qp, c')) :
    QpInv minQp maxQp (k + if n.Coded then 1 else 0) c' ∧
      (minQp ≤ qp ∧ qp ≤ maxQp ↔ n.Coded ∨ 9 ≤ k ∨ minQp = 0) := by
  unfold BitrateCtrl.bitrateCtrlUpdateFrame at hs
  split at hs
  · rename_i h5
    obtain ⟨cost, heq, -⟩ := idrSlice_some c n.size
    rw [heq, Option.bind_some] at hs
    obtain ⟨hinv, hqp⟩ := qpInv_slice hmin hle hmax
      (c := { c with iCost := cost, gop := 0 }) ⟨h.min, h.max, h.warmUp, h.range⟩ hs
    have hcoded : n.Coded := .inl h5
    rw [if_pos hcoded]
    exact ⟨hinv, iff_of_true hqp (.inl hcoded)⟩
  split at hs
  · rename_i h1
    obtain ⟨hinv, hqp⟩ := qpInv_slice hmin hle hmax
      (c := c.pSlice n.size) ⟨h.min, h.max, h.warmUp, h.range⟩ hs
    have hcoded : n.Coded := .inr h1
    rw [if_pos hcoded]
    exact ⟨hinv, iff_of_true hqp (.inl hcoded)⟩
  · rename_i h5 h1
    have hcoded : ¬ n.Coded := by
      unfold Nal.Coded
      tauto
    cases hs
    rw [if_neg hcoded]
    refine ⟨h, ?_⟩
    have hwarm := h.warmUp
    have hrange := h.range
    simp only [hcoded, false_or, qpShift]
    rcases lt_or_ge k 9 with hk | hk
    · have hcal := (hwarm hk).1
      omega
    · have hcal := hrange hk
      omega

theorem qpInv_run (hmin : 0 ≤ minQp) (hle : minQp ≤ maxQp) (hmax : maxQp ≤ 51)
    (h : QpInv minQp maxQp k c) {es : List Nal} (hrun : Run.run rateStep c es = some c') :
    QpInv minQp maxQp (k + codedCount es) c' := by
  induction es generalizing c k with
  | nil =>
    cases hrun
    exact h
  | cons n es ih =>
    obtain ⟨c₁, hs, hrun⟩ := (Run.run_cons rateStep).1 hrun
    obtain ⟨⟨qp, c₁⟩, hcall, rfl⟩ := Option.map_eq_some_iff.1 hs
    have hinv := ih (qpInv_call hmin hle hmax h hcall).1 hrun
    unfold codedCount at hinv ⊢
    rw [List.countP_cons]
    convert hinv using 1
    simp only [decide_eq_true_eq]
    omega

/-- **A call returns a QP in range exactly if it is for a coded slice, or nine coded slices came
before, or the minimum is 0**; `cal_qp` is in range from the ninth coded slice on. -/
theorem run_qp_range {targetBitrate fps : Int} {c₀ : BitrateCtrl} {es : List Nal}
    (hmin : 0 ≤ minQp) (hle : minQp ≤ maxQp) (hmax : maxQp ≤ 51)
    (hinit : bitrateCtrlInit targetBitrate fps = some c₀)
    (hrun : Run.run rateStep (bitrateCtrlSetupQpRange c₀ minQp maxQp) es = some c)
    (hcall : c.bitrateCtrlUpdateFrame n = some (qp, c')) :
    (minQp ≤ qp ∧ qp ≤ maxQp ↔ n.Coded ∨ 9 ≤ codedCount es ∨ minQp = 0) ∧
      (9 ≤ codedCount (es ++ [n]) → minQp * 16 ≤ c'.calQp ∧ c'.calQp ≤ maxQp * 16) := by
  have hstart : QpInv minQp maxQp 0 (bitrateCtrlSetupQpRange c₀ minQp maxQp) := by
    obtain ⟨size, -, heq⟩ := Option.bind_eq_some_iff.1 hinit
    cases heq
    exact ⟨rfl, rfl, fun _ => ⟨rfl, rfl⟩, nofun⟩
  have hinv := qpInv_run hmin hle hmax hstart hrun
  rw [Nat.zero_add] at hinv
  obtain ⟨hnext, hqp⟩ := qpInv_call hmin hle hmax hinv hcall
  refine ⟨hqp, fun hcount => hnext.range ?_⟩
  unfold codedCount at hcount ⊢
  rw [List.countP_append, List.countP_singleton] at hcount
  simpa using hcount

/-- The first NAL unit is a sequence parameter set: it gets QP 0, below the minimum of 26. -/
theorem qp_below_range :
    ∃ qp, ((bitrateCtrlInit 1500000 30).bind fun c =>
        (bitrateCtrlSetupQpRange c 26 35).bitrateCtrlUpdateFrame ⟨0x67, 20, 0⟩).map (·.1) =
      some qp ∧ ¬ 26 ≤ qp :=
  ⟨0, rfl, by decide⟩

/-- Behind eleven coded slices a sequence parameter set gets a QP in range. -/
theorem run_qp_range_groupOfSlices :
    ∃ c qp c', Run.run rateStep ⟨1500000, 20, 40, 0, 0, 1600000, 0, 0, 0, 30, 4⟩ groupOfSlices =
        some c ∧
      c.bitrateCtrlUpdateFrame ⟨0x67, 20, 0⟩ = some (qp, c') ∧ (20 ≤ qp ∧ qp ≤ 40) ∧
      20 * 16 ≤ c'.calQp ∧ c'.calQp ≤ 40 * 16 := by
  have hrun : (Run.run rateStep ⟨1500000, 20, 40, 0, 0, 1600000, 0, 0, 0, 30, 4⟩
    groupOfSlices).isSome := by decide +kernel
  obtain ⟨c, hc⟩ := Option.isSome_iff_exists.1 hrun
  have hcall : c.bitrateCtrlUpdateFrame ⟨0x67, 20, 0⟩ = some (c.calQp / 2 ^ qpShift, c) := rfl
  have hcount : 9 ≤ codedCount groupOfSlices := by decide
  have hrange := @run_qp_range c c ⟨0x67, 20, 0⟩ (c.calQp / 2 ^ qpShift) 20 40 1500000 30 _
    groupOfSlices (by decide) (by decide) (by decide) bitrateCtrlInit_eq hc hcall
  refine ⟨c, _, c, hc, hcall, hrange.1.2 (.inr (.inl hcount)), hrange.2 ?_⟩
  decide

end

/-! ## Exact arithmetic -/

section
variable {c c' : BitrateCtrl} {n : Nal} {size : Nat}

/-- The slope as an integer expression. -/
def exactSlope (c : BitrateCtrl) : Int :=
  if c.targetFrameSize < c.averageSize then
    (c.averageSize * 2 ^ fixedPointShift).tdiv c.targetFrameSize
  else (c.targetFrameSize * 2 ^ fixedPointShift).tdiv c.averageSize

/-- Past the warm-up a slope is the exact one, and `int_sqrt` gets no negative number. -/
def SlopeExact (c : BitrateCtrl) : Prop :=
  averageStep < wrap32 (c.frameCount + 1) → ∀ s, c.slope = some s → s = exactSlope c ∧ 0 ≤ s

/-- What a call computes is the integer expression of the source. -/
structure Exact (c : BitrateCtrl) (n : Nal) : Prop where
  sizeDiff : n.nalType = 5 →
    c.sizeDiff n.size = n.size * 2 ^ fixedPointShift - c.averageSize
  iCost : n.nalType = 5 → ∀ c', c.idrSlice n.size = some c' →
    c'.iCost = (n.size * 2 ^ fixedPointShift - c.averageSize).tdiv
      (if 0 < c.gop then c.gop else 30) ∧ SlopeExact c'
  average : n.nalType = 1 → c.newAverage n.size =
    (c.averageSize * averageStep + n.size * 2 ^ fixedPointShift + c.iCost).tdiv (averageStep + 1)
  slope : n.nalType = 1 → SlopeExact (c.pSlice n.size)

/-- The sum of the average is not negative, and past the warm-up the average is below `2 ^ 23`. -/
def NoWrap (c : BitrateCtrl) (n : Nal) : Prop :=
  (n.nalType = 5 → averageStep < wrap32 (c.frameCount + 1) → c.averageSize < 2 ^ 23) ∧
    (n.nalType = 1 → 0 ≤ c.averageSize * 8 + n.size * 256 + c.iCost ∧
      (averageStep < wrap32 (c.frameCount + 1) →
        c.averageSize * 8 + n.size * 256 + c.iCost < 9 * 2 ^ 23))

instance (c : BitrateCtrl) (n : Nal) : Decidable (NoWrap c n) :=
  inferInstanceAs (Decidable (_ ∧ _))

/-- What holds while nothing wraps. -/
structure SmallInv (c : BitrateCtrl) : Prop where
  target : c.targetFrameSize = 1600000
  average : 0 ≤ c.averageSize ∧ c.averageSize ≤ 2 ^ 25
  cost : -2 ^ 25 ≤ c.iCost ∧ c.iCost ≤ 2 ^ 24

theorem SmallInv.rateInv (h : SmallInv c) : RateInv c := by
  have haverage := h.average
  have hcost := h.cost
  exact ⟨h.target, by omega, by omega⟩

theorem slopeExact_iff (htarget : c.targetFrameSize = 1600000)
    (haverage : 0 ≤ c.averageSize ∧ c.averageSize ≤ 2 ^ 25) :
    SlopeExact c ↔ (averageStep < wrap32 (c.frameCount + 1) → c.averageSize < 2 ^ 23) := by
  refine imp_congr_right fun _ => ?_
  unfold BitrateCtrl.slope exactSlope fixedPointShift
  rw [htarget]
  split
  · rename_i hlarge
    obtain ⟨k, hk⟩ := wrap32_eq (c.averageSize * 2 ^ 8)
    have hrange := wrap32_range (c.averageSize * 2 ^ 8)
    have hexact := tdiv_bounds (c.averageSize * 2 ^ 8) (y := 1600000) (by decide)
    have hcode := tdiv_bounds (wrap32 (c.averageSize * 2 ^ 8)) (y := 1600000) (by decide)
    have hquot : wrap32 ((wrap32 (c.averageSize * 2 ^ 8)).tdiv 1600000) =
        (wrap32 (c.averageSize * 2 ^ 8)).tdiv 1600000 :=
      wrap32_of_range (by omega) (by omega)
    simp only [cDiv, OfNat.ofNat_ne_zero, if_false, Option.some.injEq, forall_eq', hquot]
    constructor
    · rintro ⟨hs, -⟩
      omega
    · intro hlt
      have hwrap : wrap32 (c.averageSize * 2 ^ 8) = c.averageSize * 2 ^ 8 := by omega
      rw [hwrap]
      exact ⟨rfl, Int.tdiv_nonneg (by omega) (by decide)⟩
  · rename_i hsmall
    refine iff_of_true ?_ (by omega)
    intro s hs
    have hwrap : wrap32 (1600000 * 2 ^ 8) = 1600000 * 2 ^ 8 := rfl
    have hbound := tdiv_between haverage.1 (le_refl 0) (by decide)
      (by decide : (0 : Int) ≤ 1600000 * 2 ^ 8) le_rfl
    unfold cDiv at hs
    split at hs
    · cases hs
    · rw [hwrap, Option.some.injEq, wrap32_of_range (by omega) (by omega)] at hs
      exact ⟨hs.symm, by omega⟩

theorem averageSum_eq (h : SmallInv c) (size : Nat) :
    averageSum c size = c.averageSize * 8 + size * 256 + c.iCost := by
  have haverage := h.average
  unfold averageSum
  rw [wrap32_of_range (by unfold averageStep; omega) (by unfold averageStep; omega)]
  rfl

theorem sizeDiff_eq (h : SmallInv c) (hsize : size ≤ 65536) :
    c.sizeDiff size = size * 2 ^ fixedPointShift - c.averageSize := by
  have haverage := h.average
  unfold BitrateCtrl.sizeDiff fixedPointShift
  rw [wrapSize_of_range (by omega) (by omega), wrap32_of_range (x := size * 2 ^ 8) (by omega)
    (by omega), wrap32_of_range (by omega) (by omega)]

theorem iCost_eq (h : SmallInv c) (hsize : size ≤ 65536) {cost : Int}
    (hcost : cost = wrap32 ((c.sizeDiff size).tdiv (if 0 < c.gop then c.gop else 30))) :
    cost = (size * 2 ^ fixedPointShift - c.averageSize).tdiv (if 0 < c.gop then c.gop else 30) ∧
      -2 ^ 25 ≤ cost ∧ cost ≤ 2 ^ 24 := by
  have haverage := h.average
  have hpos : 0 ≤ if 0 < c.gop then c.gop else 30 := by split_ifs <;> omega
  have hbound := tdiv_between (x := size * 2 ^ fixedPointShift - c.averageSize) (l := -2 ^ 25)
    (u := 2 ^ 24) hpos (by decide) (by decide) (by unfold fixedPointShift; omega)
    (by unfold fixedPointShift; omega)
  rw [sizeDiff_eq h hsize, wrap32_of_range (by omega) (by omega)] at hcost
  exact ⟨hcost, hcost ▸ hbound⟩

/-- **While nothing has wrapped a call is exact exactly if it does not wrap.** -/
theorem exact_iff (h : SmallInv c) (hsize : n.Sized) : Exact c n ↔ NoWrap c n := by
  have haverage := h.average
  have hcost := h.cost
  have hsum := averageSum_eq h n.size
  have htotal : c.averageSize * averageStep + n.size * 2 ^ fixedPointShift + c.iCost =
      averageSum c n.size := hsum.symm
  have hpslice (hpos : 0 ≤ averageSum c n.size) :
      SlopeExact (c.pSlice n.size) ↔ (averageStep < wrap32 (c.frameCount + 1) →
        averageSum c n.size / 9 < 2 ^ 23) := by
    have hnew := newAverage_exact h.rateInv hsize.2 hpos
    rw [← hnew]
    refine slopeExact_iff h.target ?_
    show 0 ≤ c.newAverage n.size ∧ c.newAverage n.size ≤ 2 ^ 25
    have hle := hsize.2
    omega
  constructor
  · intro hexact
    refine ⟨?_, ?_⟩
    · intro h5 hlate
      obtain ⟨cost, heq, -⟩ := idrSlice_some c n.size
      exact (slopeExact_iff h.target haverage).1 (hexact.iCost h5 _ heq).2 hlate
    · intro h1
      have haverage := hexact.average h1
      rw [htotal] at haverage
      have hpos : 0 ≤ averageSum c n.size := by
        by_contra hneg
        have hlarge := newAverage_neg h.rateInv hsize.2 (by omega)
        have hbound := tdiv_bounds (averageSum c n.size) (y := averageStep + 1) (by decide)
        unfold averageStep at haverage hbound
        omega
      rw [← hsum]
      refine ⟨hpos, ?_⟩
      intro hlate
      have hlt := (hpslice hpos).1 (hexact.slope h1) hlate
      omega
  · intro hwrap
    refine ⟨fun _ => sizeDiff_eq h hsize.2, ?_, ?_, ?_⟩
    · intro h5 c' hs
      obtain ⟨cost, heq, hcost⟩ := idrSlice_some c n.size
      rw [heq, Option.some.injEq] at hs
      subst hs
      exact ⟨(iCost_eq h hsize.2 hcost).1, (slopeExact_iff h.target haverage).2 (hwrap.1 h5)⟩
    · intro h1
      have hpos := (hwrap.2 h1).1
      rw [← hsum] at hpos
      rw [htotal, newAverage_exact h.rateInv hsize.2 hpos]
      exact (Int.tdiv_eq_ediv_of_nonneg hpos).symm
    · intro h1
      obtain ⟨hpos, hlt⟩ := hwrap.2 h1
      rw [← hsum] at hpos hlt
      exact (hpslice hpos).2 fun hlate => by
        have hlt := hlt hlate
        omega

theorem smallInv_step (h : SmallInv c) (hsize : n.Sized) (hwrap : NoWrap c n)
    (hs : rateStep c n = some c') : SmallInv c' := by
  obtain ⟨⟨qp, c₁⟩, hcall, rfl⟩ := Option.map_eq_some_iff.1 hs
  unfold BitrateCtrl.bitrateCtrlUpdateFrame at hcall
  split at hcall
  · obtain ⟨cost, heq, hcost⟩ := idrSlice_some c n.size
    rw [heq, Option.bind_some] at hcall
    obtain ⟨q, heq, -⟩ := sliceQp_some hcall
    rw [heq]
    exact ⟨h.target, h.average, (iCost_eq h hsize.2 hcost).2⟩
  split at hcall
  · rename_i h1
    have hpos := (hwrap.2 h1).1
    have hsum := averageSum_eq h n.size
    have hnew := newAverage_exact h.rateInv hsize.2 (hsum ▸ hpos)
    have haverage : 0 ≤ c.newAverage n.size ∧ c.newAverage n.size ≤ 2 ^ 25 := by
      have hle := hsize.2
      have haverage := h.average
      have hcost := h.cost
      omega
    obtain ⟨q, heq, -⟩ := sliceQp_some hcall
    rw [heq]
    exact ⟨h.target, haverage, h.cost⟩
  · cases hcall
    exact h

/-- **Every call of a run is exact exactly if none wraps.** -/
theorem run_exact (hinit : bitrateCtrlInit 1500000 30 = some c) {es : List Nal}
    (hsize : ∀ n ∈ es, n.Sized) :
    Run.Meets rateStep Exact c es ↔ Run.Meets rateStep NoWrap c es := by
  have h : SmallInv c := by
    rw [bitrateCtrlInit_eq] at hinit
    cases hinit
    exact ⟨rfl, by constructor <;> simp, by constructor <;> simp⟩
  exact Run.meets_congr (I := SmallInv) (E := Nal.Sized) exact_iff smallInv_step hsize h

/-- A large P slice, an IDR slice and six small P slices: `i_cost` stays at minus the old average,
and the sum of the eighth slice is negative. -/
theorem average_wraps :
    (∀ n ∈ (⟨0x61, 65536, 0⟩ : Nal) :: ⟨0x65, 1, 0⟩ :: List.replicate 6 ⟨0x61, 1, 0⟩, n.Sized) ∧
      ∃ c, (bitrateCtrlInit 1500000 30).bind (fun c =>
          Run.run rateStep c (⟨0x61, 65536, 0⟩ :: ⟨0x65, 1, 0⟩ :: List.replicate 5 ⟨0x61, 1, 0⟩)) =
        some c ∧ (rateStep c ⟨0x61, 1, 0⟩).isSome ∧ ¬ Exact c ⟨0x61, 1, 0⟩ := by
  refine ⟨by decide, ⟨1500000, 26, 35, 0, 205016, 1600000, -1863879, 7, 5, 30, 4⟩,
    by decide +kernel, rfl, ?_⟩
  intro h
  have haverage := h.average rfl
  have hcode : BitrateCtrl.newAverage
      ⟨1500000, 26, 35, 0, 205016, 1600000, -1863879, 7, 5, 30, 4⟩ 1 = 1908849521 := rfl
  rw [hcode] at haverage
  exact absurd haverage (by decide)

/-- Slices of both kinds, also past the warm-up, where each call computes a slope. -/
theorem run_exact_groupOfSlices :
    Run.Meets rateStep Exact ⟨1500000, 26, 35, 0, 0, 1600000, 0, 0, 0, 30, 4⟩ groupOfSlices :=
  (run_exact bitrateCtrlInit_eq (by decide)).2 (by decide +kernel)

end

end Server
