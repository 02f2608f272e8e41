import Mathlib.Data.List.Basic

/-! # Configuration data

The values the configuration file is parsed into and the sampler is built
from. A trigger is one key of the sampler's table, compared field by field. A
log is compared by resource and resolution only: its duration takes no part in
the equality nor in the hash of the log tables. -/

namespace ResMonitor

inductive ResourceUnit where
  | percent | mb | gb
  deriving DecidableEq, Repr

/-- A threshold. For the disk the units are rates, per second. -/
structure ResourceValue where
  unitType : ResourceUnit
  value : Int
  deriving DecidableEq, Repr

/-- The resource of a trigger or of a log: the source has one enumeration for
each, with the same members. -/
inductive Resource where
  | cpu | memory | disk
  deriving DecidableEq, Repr

inductive FluctuationType where
  | under | over
  deriving DecidableEq, Repr

/-- `duration` is in seconds, one sample a second. -/
structure TriggerType where
  resource : Resource
  fluctuationType : FluctuationType
  triggerValue : ResourceValue
  duration : Int
  deriving DecidableEq, Repr

/-- `duration` and `resolution` are in seconds. -/
structure LogType where
  resource : Resource
  duration : Int
  resolution : Int
  deriving DecidableEq, Repr

/-- `LogType::operator==`, which `std::hash<LogType>` agrees with. -/
instance LogType.keyEq : BEq LogType :=
  ⟨fun a b => decide (a.resource = b.resource) && decide (a.resolution = b.resolution)⟩

theorem LogType.beq_iff {a b : LogType} :
    (a == b) = true ↔ a.resource = b.resource ∧ a.resolution = b.resolution := by
  change (decide _ && decide _) = true ↔ _
  rw [Bool.and_eq_true, decide_eq_true_iff, decide_eq_true_iff]

instance : EquivBEq LogType where
  rfl := LogType.beq_iff.mpr ⟨rfl, rfl⟩
  symm h := by
    obtain ⟨hr, hs⟩ := LogType.beq_iff.mp h
    exact LogType.beq_iff.mpr ⟨hr.symm, hs.symm⟩
  trans h h' := by
    obtain ⟨hr, hs⟩ := LogType.beq_iff.mp h
    obtain ⟨hr', hs'⟩ := LogType.beq_iff.mp h'
    exact LogType.beq_iff.mpr ⟨hr.trans hr', hs.trans hs'⟩

/-- The unit is one the comparison of the trigger's resource asserts: percent
for the CPU, anything but percent for the disk. -/
def TriggerType.UnitFits (t : TriggerType) : Prop :=
  match t.resource with
  | .cpu => t.triggerValue.unitType = .percent
  | .memory => True
  | .disk => t.triggerValue.unitType ≠ .percent

instance (t : TriggerType) : Decidable t.UnitFits := by
  unfold TriggerType.UnitFits
  split <;> infer_instance

end ResMonitor
