import ResMonitor.Config
import Mathlib.Data.Rat.Cast.Defs

/-! # Resource states

One reading of the CPU, the memory and the disk, and the comparison of a
reading with a trigger. The source computes in `double`; nothing here depends
on how that arithmetic rounds, so the number type is a parameter, and the
exact rationals are one instance. -/

namespace ResMonitor

/-- The operations of `double` the monitor uses. -/
class Double (F : Type) extends Add F, Mul F, Div F, LT F, BEq F, IntCast F where
  decLt : DecidableLT F

attribute [reducible, instance] Double.decLt

instance : Double Rat where
  decLt := inferInstance

/-- The assertions of the comparison operators and of `circular_buffer`. A
failing one aborts the process. -/
inductive AssertFailure where
  /-- `triggerType.triggerValue.unitType == ResourceValue::ResourceUnit::PERCENT` -/
  | cpuUnit
  /-- `triggerType.triggerValue.unitType != ResourceValue::ResourceUnit::PERCENT` -/
  | hddUnit
  /-- `!empty()`, of `circular_buffer` -/
  | emptyBuffer
  deriving DecidableEq, Repr

variable {F : Type}

structure CpuState (F : Type) where
  cpuInUsePercentage : F
  monitorCpuInUsePercentage : F
  deriving Repr, DecidableEq

structure RamState (F : Type) where
  totalRamMB : F
  ramInUseMB : F
  monitorRamInUseMB : F
  deriving Repr, DecidableEq

structure HddState (F : Type) where
  hddInUseKBsRead : F
  hddInUseKBsWrite : F
  monitorHddInUseKBsRead : F
  monitorHddInUseKBsWrite : F
  deriving Repr, DecidableEq

section Arithmetic
variable [Double F]

/-- `CpuState::operator>` -/
def CpuState.gt (s : CpuState F) (triggerType : TriggerType) : Except AssertFailure Bool :=
  if triggerType.triggerValue.unitType = .percent then
    .ok (match triggerType.fluctuationType with
      | .over => decide ((triggerType.triggerValue.value : F) < s.cpuInUsePercentage)
      | .under => decide (s.cpuInUsePercentage < (triggerType.triggerValue.value : F)))
  else .error .cpuUnit

def RamState.currPercentageUsed (s : RamState F) : F :=
  if s.totalRamMB != ((0 : Int) : F) then s.ramInUseMB / s.totalRamMB * ((100 : Int) : F)
  else ((-1 : Int) : F)

/-- `RamState::operator>`. The MB and GB branches compare the total. -/
def RamState.gt (s : RamState F) (triggerType : TriggerType) : Bool :=
  match triggerType.triggerValue.unitType with
  | .percent => match triggerType.fluctuationType with
    | .over => decide ((triggerType.triggerValue.value : F) < s.currPercentageUsed)
    | .under => decide (s.currPercentageUsed < (triggerType.triggerValue.value : F))
  | .mb => match triggerType.fluctuationType with
    | .over => decide ((triggerType.triggerValue.value : F) < s.totalRamMB)
    | .under => decide (s.totalRamMB < (triggerType.triggerValue.value : F))
  | .gb => match triggerType.fluctuationType with
    | .over => decide ((triggerType.triggerValue.value : F) < s.totalRamMB / ((1000 : Int) : F))
    | .under => decide (s.totalRamMB / ((1000 : Int) : F) < (triggerType.triggerValue.value : F))

/-- `std::max` -/
def Double.max (a b : F) : F := if a < b then b else a

/-- `HddState::operator>` -/
def HddState.gt (s : HddState F) (triggerType : TriggerType) : Except AssertFailure Bool :=
  let maxInUse := Double.max s.hddInUseKBsRead s.hddInUseKBsWrite
  match triggerType.triggerValue.unitType with
  | .percent => .error .hddUnit
  | .mb => .ok (match triggerType.fluctuationType with
    | .over => decide ((triggerType.triggerValue.value : F) < maxInUse / ((1000 : Int) : F))
    | .under => decide (maxInUse / ((1000 : Int) : F) < (triggerType.triggerValue.value : F)))
  | .gb => .ok (match triggerType.fluctuationType with
    | .over => decide ((triggerType.triggerValue.value : F) < maxInUse / ((1000000 : Int) : F))
    | .under => decide (maxInUse / ((1000000 : Int) : F) < (triggerType.triggerValue.value : F)))

/-- `operator+=` of the states: a `RamState` keeps its own total. -/
def CpuState.add (s other : CpuState F) : CpuState F :=
  ⟨s.cpuInUsePercentage + other.cpuInUsePercentage,
   s.monitorCpuInUsePercentage + other.monitorCpuInUsePercentage⟩

def CpuState.divide (s : CpuState F) (val : F) : CpuState F :=
  ⟨s.cpuInUsePercentage / val, s.monitorCpuInUsePercentage / val⟩

def RamState.add (s other : RamState F) : RamState F :=
  { s with ramInUseMB := s.ramInUseMB + other.ramInUseMB,
           monitorRamInUseMB := s.monitorRamInUseMB + other.monitorRamInUseMB }

def RamState.divide (s : RamState F) (val : F) : RamState F :=
  { s with ramInUseMB := s.ramInUseMB / val, monitorRamInUseMB := s.monitorRamInUseMB / val }

def HddState.add (s other : HddState F) : HddState F :=
  ⟨s.hddInUseKBsRead + other.hddInUseKBsRead,
   s.hddInUseKBsWrite + other.hddInUseKBsWrite,
   s.monitorHddInUseKBsRead + other.monitorHddInUseKBsRead,
   s.monitorHddInUseKBsWrite + other.monitorHddInUseKBsWrite⟩

def HddState.divide (s : HddState F) (val : F) : HddState F :=
  ⟨s.hddInUseKBsRead / val, s.hddInUseKBsWrite / val,
   s.monitorHddInUseKBsRead / val, s.monitorHddInUseKBsWrite / val⟩

end Arithmetic

/-- What the resource provider answers in one poll. -/
structure Sample (F : Type) where
  cpu : CpuState F
  ram : RamState F
  hdd : HddState F
  deriving Repr, DecidableEq

section Comparison
variable [Double F]

/-- The comparison of one poll's readings with a trigger, by the trigger's resource. -/
def Sample.exceeds (x : Sample F) (t : TriggerType) : Except AssertFailure Bool :=
  match t.resource with
  | .cpu => x.cpu.gt t
  | .memory => .ok (x.ram.gt t)
  | .disk => x.hdd.gt t

/-- The sample satisfies the trigger's comparison. -/
def Sample.satisfies (x : Sample F) (t : TriggerType) : Bool :=
  match x.exceeds t with
  | .ok b => b
  | .error _ => false

theorem Sample.exceeds_of_unitFits (x : Sample F) {t : TriggerType} (h : t.UnitFits) :
    x.exceeds t = .ok (x.satisfies t) := by
  unfold Sample.satisfies
  cases he : x.exceeds t with
  | ok b => rfl
  | error a =>
    -- the failing comparisons are those of a unit that does not fit
    exfalso
    unfold Sample.exceeds at he
    unfold TriggerType.UnitFits at h
    split at he
    · rename_i hr
      rw [hr] at h
      simp only [CpuState.gt, if_pos h] at he
      cases he
    · cases he
    · rename_i hr
      simp only [hr] at h
      unfold HddState.gt at he
      cases hu : t.triggerValue.unitType with
      | percent => exact h hu
      | mb => rw [hu] at he; cases he
      | gb => rw [hu] at he; cases he

theorem Sample.exceeds_of_not_unitFits (x : Sample F) {t : TriggerType} (h : ¬ t.UnitFits) :
    ∃ a, x.exceeds t = .error a := by
  unfold TriggerType.UnitFits at h
  unfold Sample.exceeds
  cases hr : t.resource with
  | cpu =>
    rw [hr] at h
    exact ⟨.cpuUnit, if_neg h⟩
  | memory =>
    rw [hr] at h
    exact absurd trivial h
  | disk =>
    rw [hr] at h
    refine ⟨.hddUnit, ?_⟩
    simp only [HddState.gt, not_not.mp h]

end Comparison

end ResMonitor
