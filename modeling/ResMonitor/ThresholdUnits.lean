import ResMonitor.Activation
import Mathlib.Algebra.Field.Rat
import Mathlib.Algebra.Order.Field.Basic
import Mathlib.Algebra.Order.Ring.Rat
import Mathlib.Tactic.Ring
import Mathlib.Tactic.Tauto

/-! # Thresholds in megabytes and gigabytes

A threshold of `V` GB is one of `1000 * V` MB in every comparison. For the
memory, though, both are compared with the total, and only the percentage with
what is in use: a threshold between the two is answered wrongly. -/

namespace ResMonitor

/-- `a` is on the trigger's side of `v`. -/
def FluctuationType.Beyond (f : FluctuationType) (a v : Rat) : Prop :=
  match f with
  | .over => v < a
  | .under => a < v

/-- `v` lies between `a` and `b`, so that one of them only is beyond it. -/
def FluctuationType.Separates (f : FluctuationType) (v a b : Rat) : Prop :=
  match f with
  | .over => a ≤ v ∧ v < b ∨ b ≤ v ∧ v < a
  | .under => a < v ∧ v ≤ b ∨ b < v ∧ v ≤ a

theorem not_separates_iff (f : FluctuationType) (v a b : Rat) :
    ¬ f.Separates v a b ↔ (f.Beyond a v ↔ f.Beyond b v) := by
  match f with
  | .over =>
    change ¬ (a ≤ v ∧ v < b ∨ b ≤ v ∧ v < a) ↔ (v < a ↔ v < b)
    rw [← not_lt, ← not_lt]
    tauto
  | .under =>
    change ¬ (a < v ∧ v ≤ b ∨ b < v ∧ v ≤ a) ↔ (a < v ↔ b < v)
    rw [← not_lt, ← not_lt]
    tauto

/-- The trigger with another threshold. -/
def TriggerType.withValue (t : TriggerType) (unitType : ResourceUnit) (value : Int) : TriggerType :=
  { t with triggerValue := ⟨unitType, value⟩ }

/-! ## What the comparisons compare -/

theorem beyond_div {c : Rat} (hc : 0 < c) (f : FluctuationType) (a v : Rat) :
    f.Beyond (a / c) v ↔ f.Beyond a (c * v) := by
  match f with
  | .over => exact lt_div_iff₀' hc
  | .under => exact div_lt_iff₀' hc

theorem RamState.gt_mb (s : RamState Rat) (t : TriggerType) (V : Int) :
    s.gt (t.withValue .mb V) = true ↔ t.fluctuationType.Beyond s.totalRamMB V := by
  unfold RamState.gt TriggerType.withValue
  cases h : t.fluctuationType <;> simp [FluctuationType.Beyond]

theorem RamState.gt_gb (s : RamState Rat) (t : TriggerType) (V : Int) :
    s.gt (t.withValue .gb V) = true ↔
      t.fluctuationType.Beyond s.totalRamMB ((1000 * V : Int) : Rat) := by
  have h : s.gt (t.withValue .gb V) = true ↔
      t.fluctuationType.Beyond (s.totalRamMB / ((1000 : Int) : Rat)) V := by
    unfold RamState.gt TriggerType.withValue
    cases h : t.fluctuationType <;> simp [FluctuationType.Beyond]
  rw [h, beyond_div (by decide), Int.cast_mul]

theorem HddState.gt_mb (h : HddState Rat) (t : TriggerType) (V : Int) :
    ∃ b, h.gt (t.withValue .mb V) = .ok b ∧ (b = true ↔ t.fluctuationType.Beyond
      (Double.max h.hddInUseKBsRead h.hddInUseKBsWrite) ((1000 * V : Int) : Rat)) := by
  refine ⟨_, rfl, ?_⟩
  rw [Int.cast_mul, ← beyond_div (by decide)]
  unfold TriggerType.withValue
  cases t.fluctuationType <;> simp [FluctuationType.Beyond]

theorem HddState.gt_gb (h : HddState Rat) (t : TriggerType) (V : Int) :
    ∃ b, h.gt (t.withValue .gb V) = .ok b ∧ (b = true ↔ t.fluctuationType.Beyond
      (Double.max h.hddInUseKBsRead h.hddInUseKBsWrite) ((1000000 * V : Int) : Rat)) := by
  refine ⟨_, rfl, ?_⟩
  rw [Int.cast_mul, ← beyond_div (by decide)]
  unfold TriggerType.withValue
  cases t.fluctuationType <;> simp [FluctuationType.Beyond]

/-- The percentage is to `100 * V / total` as what is in use is to `V`. -/
theorem RamState.beyond_percentage {s : RamState Rat} (hs : 0 < s.totalRamMB)
    (f : FluctuationType) (V : Int) :
    f.Beyond s.currPercentageUsed (100 * V / s.totalRamMB) ↔ f.Beyond s.ramInUseMB V := by
  have hscale : (0 : Rat) < 100 / s.totalRamMB := div_pos (by decide) hs
  have hpercent : s.currPercentageUsed = 100 / s.totalRamMB * s.ramInUseMB := by
    unfold RamState.currPercentageUsed
    rw [if_pos (by simpa using hs.ne')]
    change s.ramInUseMB / s.totalRamMB * 100 = _
    ring
  have hbound : 100 * (V : Rat) / s.totalRamMB = 100 / s.totalRamMB * V := by ring
  rw [hpercent, hbound]
  match f with
  | .over => exact mul_lt_mul_iff_right₀ hscale
  | .under => exact mul_lt_mul_iff_right₀ hscale

/-! ## Agreement -/

/-- What a threshold of `V`, with the fluctuation type of `t`, is to mean: in
MB, that the memory in use, or its percentage, is beyond it; in GB, the same as
`1000 * V` in MB, for memory and disk; and in both, nothing of the total. -/
structure UnitsAgree (s : RamState Rat) (total' : Rat) (h : HddState Rat) (t : TriggerType)
    (V : Int) : Prop where
  inUse : s.gt (t.withValue .mb V) = true ↔ t.fluctuationType.Beyond s.ramInUseMB V
  percentage : s.gt (t.withValue .mb V) = true ↔
    t.fluctuationType.Beyond s.currPercentageUsed (100 * V / s.totalRamMB)
  ramGB : s.gt (t.withValue .gb V) = s.gt (t.withValue .mb (1000 * V))
  hddGB : h.gt (t.withValue .gb V) = h.gt (t.withValue .mb (1000 * V))
  alikeMB : s.gt (t.withValue .mb V) = { s with totalRamMB := total' }.gt (t.withValue .mb V)
  alikeGB : s.gt (t.withValue .gb V) = { s with totalRamMB := total' }.gt (t.withValue .gb V)

theorem RamState.gt_gb_eq (s : RamState Rat) (t : TriggerType) (V : Int) :
    s.gt (t.withValue .gb V) = s.gt (t.withValue .mb (1000 * V)) := by
  rw [Bool.eq_iff_iff, RamState.gt_gb, RamState.gt_mb]

theorem HddState.gt_gb_eq (h : HddState Rat) (t : TriggerType) (V : Int) :
    h.gt (t.withValue .gb V) = h.gt (t.withValue .mb (1000 * V)) := by
  obtain ⟨b, hb, hiff⟩ := h.gt_gb t V
  obtain ⟨b', hb', hiff'⟩ := h.gt_mb t (1000 * V)
  have hscale : 1000 * (1000 * V) = 1000000 * V := by omega
  rw [hscale] at hiff'
  rw [hb, hb', Bool.eq_iff_iff.mpr (hiff.trans hiff'.symm)]

/-- **Where the units agree.** Exactly where the threshold, in MB, does not
come between the memory in use and the total, nor between the two totals. -/
theorem unitsAgree_iff {s : RamState Rat} {total' : Rat} (hs : 0 < s.totalRamMB)
    (h : HddState Rat) (t : TriggerType) (V : Int) :
    UnitsAgree s total' h t V ↔
      ¬ t.fluctuationType.Separates V s.totalRamMB s.ramInUseMB ∧
      ¬ t.fluctuationType.Separates V s.totalRamMB total' ∧
      ¬ t.fluctuationType.Separates ((1000 * V : Int) : Rat) s.totalRamMB total' := by
  rw [not_separates_iff, not_separates_iff, not_separates_iff]
  constructor
  · intro hagree
    refine ⟨(s.gt_mb t V).symm.trans hagree.inUse, ?_, ?_⟩
    · have := hagree.alikeMB
      rwa [Bool.eq_iff_iff, RamState.gt_mb, RamState.gt_mb] at this
    · have := hagree.alikeGB
      rwa [Bool.eq_iff_iff, RamState.gt_gb, RamState.gt_gb] at this
  · intro ⟨hused, hmb, hgb⟩
    have hinUse := (s.gt_mb t V).trans hused
    refine ⟨hinUse, hinUse.trans (RamState.beyond_percentage hs _ V).symm, s.gt_gb_eq t V,
      h.gt_gb_eq t V, ?_, ?_⟩
    · rwa [Bool.eq_iff_iff, RamState.gt_mb, RamState.gt_mb]
    · rwa [Bool.eq_iff_iff, RamState.gt_gb, RamState.gt_gb]

/-- `memory over 200MB` of the tests: below what the mock uses and below its totals. -/
def memoryOver200MB : TriggerType := ⟨.memory, .over, ⟨.mb, 200⟩, 2⟩

theorem unitsAgree_iff_mock :
    UnitsAgree (mockSample 85).ram 2000 (mockSample 85).hdd memoryOver200MB 200 := by
  have hs : 0 < (mockSample 85).ram.totalRamMB := by decide +kernel
  refine (unitsAgree_iff hs _ memoryOver200MB 200).mpr ⟨?_, ?_, ?_⟩
  · change ¬ ((1000 : Rat) ≤ 200 ∧ (200 : Rat) < 500 ∨ (500 : Rat) ≤ 200 ∧ (200 : Rat) < 1000)
    decide +kernel
  · change ¬ ((1000 : Rat) ≤ 200 ∧ (200 : Rat) < 2000 ∨ (2000 : Rat) ≤ 200 ∧ (200 : Rat) < 1000)
    decide +kernel
  · change ¬ ((1000 : Rat) ≤ 200000 ∧ (200000 : Rat) < 2000 ∨
      (2000 : Rat) ≤ 200000 ∧ (200000 : Rat) < 1000)
    decide +kernel

/-- Of 1000 MB, 500 are in use: more than 700, says the comparison, and half of
the total is more than 70 percent. -/
theorem total_compared :
    (mockSample 85).ram.gt (memoryOver200MB.withValue .mb 700) = true ∧
    ¬ (700 : Rat) < (mockSample 85).ram.ramInUseMB ∧
    (mockSample 85).ram.gt (memoryOver200MB.withValue .percent 70) = false ∧
    ¬ UnitsAgree (mockSample 85).ram 2000 (mockSample 85).hdd memoryOver200MB 700 := by
  have hgt : (mockSample 85).ram.gt (memoryOver200MB.withValue .mb 700) = true := by
    decide +kernel
  have hused : ¬ (700 : Rat) < (mockSample 85).ram.ramInUseMB := by decide +kernel
  refine ⟨hgt, hused, by decide +kernel, fun h => ?_⟩
  exact hused (h.inUse.mp hgt)

end ResMonitor
