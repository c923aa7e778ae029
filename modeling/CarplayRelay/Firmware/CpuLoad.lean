import CarplayRelay.Lib.Ring
import Mathlib.Algebra.BigOperators.Group.List.Basic
import Mathlib.Algebra.Order.BigOperators.Group.List
import Mathlib.Algebra.Order.Floor.Semifield
import Mathlib.Data.Rat.Floor
import Mathlib.Tactic.FieldSimp

/-!
# The CPU load (`gateway_cpu_update_sample`)

Two tick counters are read now and then. The load of the interval between two readings goes into a
history of ten slots, with their sum beside it, and the load shown is the mean of the slots in use.
An `unsigned long` has 32 bits.

* `rotate_history`: from the next slot on, the history is the loads of the last ten intervals that
  were not empty.
* `cpu_load_window`: the sum, the count and the mean are those of these loads.
-/

namespace Firmware

open Ring

/-! ## The code -/

/-- The variables of the module and the statics of `gateway_cpu_update_sample`. -/
structure CpuLoad where
  busyPct : UInt32 := 0
  idlePct : UInt32 := 0
  sampleTicks : UInt32 := 0
  busyHistory : List UInt32 := List.replicate 10 0
  historySum : UInt32 := 0
  historyIndex : UInt32 := 0
  historyCount : UInt32 := 0
  lastTotal : UInt32 := 0
  lastBusy : UInt32 := 0

/-- The load of an interval in percent. -/
def busyPercent (deltaTotal deltaBusy : UInt32) : UInt32 :=
  let deltaBusy := if deltaBusy > deltaTotal then deltaTotal else deltaBusy
  let busyPct := (deltaBusy * 100 + deltaTotal / 2) / deltaTotal
  if busyPct > 100 then 100 else busyPct

namespace CpuLoad

/-- The slot that the next load goes to. -/
def slot (s : CpuLoad) : UInt32 := s.busyHistory.getD s.historyIndex.toNat 0

/-- `gateway_cpu_update_sample`, a load and its way into the history. -/
def pushLoad (s : CpuLoad) (busyPct : UInt32) : CpuLoad :=
  let historySum := s.historySum - s.slot + busyPct
  let historyCount := if s.historyCount < 10 then s.historyCount + 1 else s.historyCount
  { s with
    busyHistory := s.busyHistory.set s.historyIndex.toNat busyPct
    historySum := historySum
    historyIndex := (s.historyIndex + 1) % 10
    historyCount := historyCount
    busyPct := historySum / historyCount
    idlePct := 100 - historySum / historyCount }

/-- `gateway_cpu_update_sample` with what it reads from the tick counters. -/
def gatewayCpuUpdateSample (s : CpuLoad) (reading : UInt32 × UInt32) : CpuLoad :=
  let deltaTotal := reading.1 - s.lastTotal
  let deltaBusy := reading.2 - s.lastBusy
  let s := { s with lastTotal := reading.1, lastBusy := reading.2, sampleTicks := deltaTotal }
  if deltaTotal = 0 then { s with busyPct := 0, idlePct := 0 }
  else s.pushLoad (busyPercent deltaTotal deltaBusy)

end CpuLoad

/-- The variables after the readings `rs`. -/
def cpuRun (rs : List (UInt32 × UInt32)) : CpuLoad :=
  rs.foldl CpuLoad.gatewayCpuUpdateSample {}

/-! ## The loads -/

/-- The ticks between each reading and the one before, all and busy, from `last` on. -/
def intervals : UInt32 × UInt32 → List (UInt32 × UInt32) → List (Nat × Nat)
  | _, [] => []
  | last, r :: rs => ((r.1 - last.1).toNat, (r.2 - last.2).toNat) :: intervals r rs

/-- The load of an interval in percent, rounded half up; no more ticks are busy than there are. -/
def load (i : Nat × Nat) : Nat := ⌊100 * (min i.2 i.1 : ℕ) / (i.1 : ℚ) + 1 / 2⌋₊

/-- The loads of the intervals that are not empty. -/
def loads (is : List (Nat × Nat)) : List Nat := (is.filter fun i => i.1 ≠ 0).map load

/-- The last ten of them, or all. -/
def lastLoads (is : List (Nat × Nat)) : List Nat := (loads is).drop ((loads is).length - 10)

section
variable {is : List (Nat × Nat)} {t b : Nat} {dt db : UInt32}

/-- Half of the divisor added before the division rounds half up, also for an odd divisor. -/
theorem load_eq (ht : 0 < t) : load (t, b) = (min b t * 100 + t / 2) / t := by
  have htq : (t : ℚ) ≠ 0 := by exact_mod_cast ht.ne'
  have hfrac : 100 * (min b t : ℕ) / (t : ℚ) + 1 / 2 =
      ((200 * min b t + t : ℕ) : ℚ) / ((2 * t : ℕ) : ℚ) := by
    push_cast
    field_simp
    ring
  have hhalf : (200 * min b t + t) / 2 = min b t * 100 + t / 2 := by omega
  show ⌊100 * (min b t : ℕ) / (t : ℚ) + 1 / 2⌋₊ = _
  rw [hfrac, Nat.floor_div_eq_div, ← Nat.div_div_eq_div_mul, hhalf]

theorem load_le (i : Nat × Nat) : load i ≤ 100 := by
  obtain ⟨t, b⟩ := i
  rcases Nat.eq_zero_or_pos t with rfl | ht
  · have hzero : load (0, b) = 0 := by
      show ⌊100 * (min b 0 : ℕ) / ((0 : ℕ) : ℚ) + 1 / 2⌋₊ = 0
      norm_num
    rw [hzero]
    exact Nat.zero_le _
  · have hmin := Nat.min_le_right b t
    rw [load_eq ht]
    apply Nat.le_of_lt_succ
    apply Nat.div_lt_of_lt_mul
    omega

/-- **The arithmetic of 32 bits computes the load** of an interval of at most 42000000 ticks. -/
theorem toNat_busyPercent (h0 : dt ≠ 0) (hle : dt.toNat ≤ 42000000) :
    (busyPercent dt db).toNat = load (dt.toNat, db.toNat) := by
  have hpos : 0 < dt.toNat := Nat.pos_of_ne_zero fun h => h0 (UInt32.toNat_inj.1 h)
  have hbusy : (if db > dt then dt else db).toNat = min db.toNat dt.toNat := by
    split
    · rename_i hlt
      rw [gt_iff_lt, UInt32.lt_iff_toNat_lt] at hlt
      omega
    · rename_i hnot
      rw [gt_iff_lt, UInt32.lt_iff_toNat_lt] at hnot
      omega
  have hmin := Nat.min_le_right db.toNat dt.toNat
  have hdiv : (((if db > dt then dt else db) * 100 + dt / 2) / dt).toNat =
      load (dt.toNat, db.toNat) := by
    rw [load_eq hpos, UInt32.toNat_div, UInt32.toNat_add, UInt32.toNat_mul, UInt32.toNat_div, hbusy,
      show (100 : UInt32).toNat = 100 from rfl, show (2 : UInt32).toNat = 2 from rfl,
      Nat.mod_eq_of_lt (by omega : min db.toNat dt.toNat * 100 < 2 ^ 32),
      Nat.mod_eq_of_lt (by omega)]
  have hload := load_le (dt.toNat, db.toNat)
  unfold busyPercent
  dsimp only
  rw [if_neg]
  · exact hdiv
  · rw [gt_iff_lt, UInt32.lt_iff_toNat_lt, hdiv]
    exact Nat.not_lt.2 hload

theorem loads_append_zero {i : Nat × Nat} (hi : i.1 = 0) : loads (is ++ [i]) = loads is := by
  simp [loads, hi]

theorem loads_append {i : Nat × Nat} (hi : i.1 ≠ 0) : loads (is ++ [i]) = loads is ++ [load i] := by
  simp [loads, hi]

theorem length_lastLoads : (lastLoads is).length = min 10 (loads is).length := by
  rw [lastLoads, List.length_drop]
  omega

theorem sum_lastLoads_le : (lastLoads is).sum ≤ (lastLoads is).length * 100 := by
  have hle : ∀ p ∈ lastLoads is, p ≤ 100 := by
    intro p hp
    obtain ⟨i, -, rfl⟩ := List.mem_map.1 (List.mem_of_mem_drop hp)
    exact load_le i
  exact List.sum_le_card_nsmul _ _ hle

theorem sum_drop_loads :
    ((List.replicate 10 0 ++ loads is).drop (loads is).length).sum = (lastLoads is).sum := by
  rw [List.drop_append, List.sum_append, List.drop_replicate, List.sum_replicate_nat,
    List.length_replicate, Nat.mul_zero, Nat.zero_add, lastLoads]

/-! ## The history -/

/-- The load shown is the mean of the last loads, rounded down, and idle is the rest. -/
structure Shown (s : CpuLoad) (is : List (Nat × Nat)) : Prop where
  busyPct_eq : s.busyPct.toNat = ⌊((lastLoads is).sum : ℚ) / (lastLoads is).length⌋₊
  busyPct_le : s.busyPct.toNat ≤ 100
  idlePct_eq : s.idlePct.toNat = 100 - s.busyPct.toNat

/-- What holds after readings that are `is` apart. -/
structure CpuInv (s : CpuLoad) (is : List (Nat × Nat)) : Prop where
  length_history : s.busyHistory.length = 10
  index_lt : s.historyIndex.toNat < 10
  /-- From the next slot on, the oldest load first. -/
  history : (s.busyHistory.map UInt32.toNat).rotate s.historyIndex.toNat =
    (List.replicate 10 0 ++ loads is).drop (loads is).length
  sum_eq : s.historySum.toNat = (s.busyHistory.map UInt32.toNat).sum
  count_eq : s.historyCount.toNat = min 10 (loads is).length
  shown : ∀ i, is.getLast? = some i → i.1 ≠ 0 → Shown s is

variable {s : CpuLoad} {i : Nat × Nat} {p : UInt32}

theorem cpuInv_init : CpuInv {} [] where
  length_history := List.length_replicate
  index_lt := by decide
  history := rfl
  sum_eq := rfl
  count_eq := rfl
  shown := fun _ h => by cases h

namespace CpuInv

theorem sum_lastLoads (h : CpuInv s is) : s.historySum.toNat = (lastLoads is).sum := by
  rw [h.sum_eq, ← (List.rotate_perm _ s.historyIndex.toNat).sum_eq, h.history, sum_drop_loads]

/-- The slot that is written over is the first of the history. -/
theorem exists_slot (h : CpuInv s is) : ∃ rest : List Nat,
    (s.busyHistory.map UInt32.toNat).rotate s.historyIndex.toNat = s.slot.toNat :: rest := by
  have hlt : s.historyIndex.toNat < s.busyHistory.length := by
    rw [h.length_history]
    exact h.index_lt
  have hslot : s.slot = s.busyHistory[s.historyIndex.toNat] := by
    rw [CpuLoad.slot, List.getD_eq_getElem?_getD, List.getElem?_eq_getElem hlt, Option.getD_some]
  have hlt' : s.historyIndex.toNat < (s.busyHistory.map UInt32.toNat).length := by
    rw [List.length_map]
    exact hlt
  rw [List.rotate_eq_drop_append_take hlt'.le, List.drop_eq_getElem_cons hlt', List.getElem_map,
    hslot]
  exact ⟨_, rfl⟩

/-- **The subtraction does not underflow.** -/
theorem slot_le (h : CpuInv s is) : s.slot.toNat ≤ s.historySum.toNat := by
  obtain ⟨rest, hrest⟩ := h.exists_slot
  rw [h.sum_eq, ← (List.rotate_perm _ s.historyIndex.toNat).sum_eq, hrest, List.sum_cons]
  exact Nat.le_add_right _ _

/-- A new load takes the place of the oldest one. -/
theorem history_push (h : CpuInv s is) (hp : p.toNat = load i) (hi : i.1 ≠ 0) :
    ((s.pushLoad p).busyHistory.map UInt32.toNat).rotate (s.pushLoad p).historyIndex.toNat =
      (List.replicate 10 0 ++ loads (is ++ [i])).drop (loads (is ++ [i])).length := by
  have hindex : ((s.historyIndex + 1) % 10).toNat = (s.historyIndex.toNat + 1) % 10 := by
    have hlt := h.index_lt
    rw [UInt32.toNat_mod, UInt32.toNat_add, show (1 : UInt32).toNat = 1 from rfl,
      show (10 : UInt32).toNat = 10 from rfl,
      Nat.mod_eq_of_lt (by omega : s.historyIndex.toNat + 1 < 2 ^ 32)]
  have hlen : (s.busyHistory.map UInt32.toNat).length = 10 := by
    rw [List.length_map, h.length_history]
  have hdrop : (List.replicate 10 0 ++ loads is ++ [load i]).drop ((loads is).length + 1) =
      (List.replicate 10 0 ++ loads is).drop ((loads is).length + 1) ++ [load i] := by
    apply List.drop_append_of_le_length
    rw [List.length_append, List.length_replicate]
    omega
  show ((s.busyHistory.set s.historyIndex.toNat p).map UInt32.toNat).rotate
    ((s.historyIndex + 1) % 10).toNat = _
  rw [hindex, List.map_set, rotate_overwrite hlen h.index_lt, h.history, hp, loads_append hi,
    List.drop_drop, List.length_append, List.length_singleton, ← List.append_assoc, hdrop]

/-- The sum goes along. -/
theorem sum_push (h : CpuInv s is) (hp : p.toNat = load i) (hi : i.1 ≠ 0) :
    (s.historySum - s.slot + p).toNat =
      ((s.pushLoad p).busyHistory.map UInt32.toNat).sum ∧
      (s.historySum - s.slot + p).toNat = (lastLoads (is ++ [i])).sum := by
  obtain ⟨rest, hrest⟩ := h.exists_slot
  have hsum : s.historySum.toNat = s.slot.toNat + rest.sum := by
    rw [h.sum_eq, ← (List.rotate_perm _ s.historyIndex.toNat).sum_eq, hrest, List.sum_cons]
  have hold := h.sum_lastLoads
  have hle := @sum_lastLoads_le is
  have hten := @length_lastLoads is
  have hload := load_le i
  have hsub : (s.historySum - s.slot).toNat = rest.sum := by
    rw [UInt32.toNat_sub_of_le _ _ (UInt32.le_iff_toNat_le.2 h.slot_le)]
    omega
  have hnew : (s.historySum - s.slot + p).toNat = rest.sum + p.toNat := by
    rw [UInt32.toNat_add, hsub, Nat.mod_eq_of_lt (by omega)]
  have hlen : (s.busyHistory.map UInt32.toNat).length = 10 := by
    rw [List.length_map, h.length_history]
  have hslots : ((s.pushLoad p).busyHistory.map UInt32.toNat).sum = rest.sum + p.toNat := by
    show ((s.busyHistory.set s.historyIndex.toNat p).map UInt32.toNat).sum = _
    rw [List.map_set, ← (List.rotate_perm _ ((s.historyIndex.toNat + 1) % 10)).sum_eq,
      rotate_overwrite hlen h.index_lt, hrest, List.drop_one, List.tail_cons, List.sum_append,
      List.sum_singleton]
  refine ⟨hnew.trans hslots.symm, ?_⟩
  rw [hnew, ← hslots, ← (List.rotate_perm _ (s.pushLoad p).historyIndex.toNat).sum_eq,
    h.history_push hp hi, sum_drop_loads]

theorem count_push (h : CpuInv s is) (hi : i.1 ≠ 0) :
    (if s.historyCount < 10 then s.historyCount + 1 else s.historyCount).toNat =
      min 10 (loads (is ++ [i])).length := by
  have hcount := h.count_eq
  have hlen : (loads (is ++ [i])).length = (loads is).length + 1 := by
    rw [loads_append hi, List.length_append, List.length_singleton]
  rw [hlen]
  split
  · rename_i hlt
    rw [UInt32.lt_iff_toNat_lt, show (10 : UInt32).toNat = 10 from rfl] at hlt
    rw [UInt32.toNat_add, show (1 : UInt32).toNat = 1 from rfl,
      Nat.mod_eq_of_lt (by omega : s.historyCount.toNat + 1 < 2 ^ 32)]
    omega
  · rename_i hnot
    rw [UInt32.lt_iff_toNat_lt, show (10 : UInt32).toNat = 10 from rfl] at hnot
    omega

/-- What is shown after a load. -/
theorem shown_push (h : CpuInv s is) (hp : p.toNat = load i) (hi : i.1 ≠ 0) :
    Shown (s.pushLoad p) (is ++ [i]) := by
  have hsum := (h.sum_push hp hi).2
  have hcount := h.count_push hi
  rw [← length_lastLoads] at hcount
  have hbusy : (s.pushLoad p).busyPct.toNat =
      (lastLoads (is ++ [i])).sum / (lastLoads (is ++ [i])).length := by
    show ((s.historySum - s.slot + p) /
      if s.historyCount < 10 then s.historyCount + 1 else s.historyCount).toNat = _
    rw [UInt32.toNat_div, hsum, hcount]
  have hle : (s.pushLoad p).busyPct.toNat ≤ 100 := by
    rw [hbusy]
    exact Nat.div_le_of_le_mul sum_lastLoads_le
  refine ⟨?_, hle, ?_⟩
  · rw [hbusy, Nat.floor_div_eq_div]
  · show (100 - (s.pushLoad p).busyPct).toNat = _
    rw [UInt32.toNat_sub_of_le _ _ (UInt32.le_iff_toNat_le.2 hle)]
    rfl

/-- An interval with ticks. -/
theorem pushLoad (h : CpuInv s is) (hp : p.toNat = load i) (hi : i.1 ≠ 0) :
    CpuInv (s.pushLoad p) (is ++ [i]) where
  length_history := by
    show (s.busyHistory.set s.historyIndex.toNat p).length = 10
    rw [List.length_set, h.length_history]
  index_lt := by
    show ((s.historyIndex + 1) % 10).toNat < 10
    rw [UInt32.toNat_mod]
    exact Nat.mod_lt _ (by decide)
  history := h.history_push hp hi
  sum_eq := (h.sum_push hp hi).1
  count_eq := h.count_push hi
  shown := fun _ _ _ => h.shown_push hp hi

/-- An interval without ticks. -/
theorem empty (h : CpuInv s is) (hi : i.1 = 0) :
    CpuInv { s with busyPct := 0, idlePct := 0 } (is ++ [i]) where
  length_history := h.length_history
  index_lt := h.index_lt
  history := by
    rw [loads_append_zero hi]
    exact h.history
  sum_eq := h.sum_eq
  count_eq := by
    rw [loads_append_zero hi]
    exact h.count_eq
  shown := by
    intro i' hlast hne
    rw [List.getLast?_concat, Option.some.injEq] at hlast
    exact absurd (hlast ▸ hi) hne

theorem withReading (h : CpuInv s is) (total busy ticks : UInt32) :
    CpuInv { s with lastTotal := total, lastBusy := busy, sampleTicks := ticks } is :=
  ⟨h.length_history, h.index_lt, h.history, h.sum_eq, h.count_eq, fun i hlast hne =>
    have hshown := h.shown i hlast hne
    ⟨hshown.busyPct_eq, hshown.busyPct_le, hshown.idlePct_eq⟩⟩

/-- The step lemma. -/
theorem step (h : CpuInv s is) (r : UInt32 × UInt32)
    (hle : (r.1 - s.lastTotal).toNat ≤ 42000000) :
    CpuInv (s.gatewayCpuUpdateSample r)
      (is ++ [((r.1 - s.lastTotal).toNat, (r.2 - s.lastBusy).toNat)]) := by
  unfold CpuLoad.gatewayCpuUpdateSample
  dsimp only
  split
  · rename_i hzero
    apply (h.withReading r.1 r.2 (r.1 - s.lastTotal)).empty
    show (r.1 - s.lastTotal).toNat = 0
    rw [hzero]
    rfl
  · rename_i hne
    apply (h.withReading r.1 r.2 (r.1 - s.lastTotal)).pushLoad (toNat_busyPercent hne hle)
    exact fun hzero => hne (UInt32.toNat_inj.1 hzero)

/-- The run lemma. -/
theorem run (h : CpuInv s is) (rs : List (UInt32 × UInt32))
    (hle : ∀ i ∈ intervals (s.lastTotal, s.lastBusy) rs, i.1 ≤ 42000000) :
    CpuInv (rs.foldl CpuLoad.gatewayCpuUpdateSample s)
      (is ++ intervals (s.lastTotal, s.lastBusy) rs) := by
  induction rs generalizing s is with
  | nil =>
    rw [intervals, List.append_nil]
    exact h
  | cons r rs ih =>
    have hlast : ((s.gatewayCpuUpdateSample r).lastTotal, (s.gatewayCpuUpdateSample r).lastBusy) =
        r := by
      unfold CpuLoad.gatewayCpuUpdateSample
      dsimp only
      split <;> rfl
    have hnext := ih (h.step r (hle _ List.mem_cons_self))
    rw [hlast, List.append_assoc, List.singleton_append] at hnext
    exact hnext fun i hi => hle i (List.mem_cons_of_mem _ hi)

end CpuInv

end

/-! ## The window -/

/-- The history is a window on the loads: the sum is that of its slots and has every slot in it,
so that none is subtracted from less, and the count is that of the loads in it. -/
structure LoadWindow (s : CpuLoad) (is : List (Nat × Nat)) : Prop where
  length_history : s.busyHistory.length = 10
  sum_eq : s.historySum.toNat = (s.busyHistory.map UInt32.toNat).sum
  slot_le : s.slot.toNat ≤ s.historySum.toNat
  count_eq : s.historyCount.toNat = min 10 (is.filter fun i => i.1 ≠ 0).length
  count_last : s.historyCount.toNat = (lastLoads is).length
  shown : ∀ i, is.getLast? = some i → i.1 ≠ 0 → Shown s is

/-- **The load shown is that of the last ten intervals**, over all readings at most 42000000 ticks
apart. -/
theorem cpu_load_window (rs : List (UInt32 × UInt32))
    (hle : ∀ i ∈ intervals (0, 0) rs, i.1 ≤ 42000000) :
    LoadWindow (cpuRun rs) (intervals (0, 0) rs) := by
  have h : CpuInv (cpuRun rs) (intervals (0, 0) rs) := cpuInv_init.run rs hle
  have hlen : (loads (intervals (0, 0) rs)).length =
      ((intervals (0, 0) rs).filter fun i => i.1 ≠ 0).length := List.length_map _
  have hcount := h.count_eq
  exact ⟨h.length_history, h.sum_eq, h.slot_le, hcount.trans (by rw [hlen]),
    hcount.trans length_lastLoads.symm, h.shown⟩

/-- Readings with an interval without ticks and one with more busy ticks than ticks. -/
theorem cpu_load_window_threeReadings :
    LoadWindow (cpuRun [(1000, 255), (1000, 300), (3000, 5000)])
      (intervals (0, 0) [(1000, 255), (1000, 300), (3000, 5000)]) :=
  cpu_load_window _ (by decide)

example : loads (intervals (0, 0) [(1000, 255), (1000, 300), (3000, 5000)]) = [26, 100] := by
  decide +kernel

end Firmware
