import ResMonitor.Activation
import ResMonitor.Lib.RunningMean
import Mathlib.Algebra.Field.Rat
import Mathlib.Algebra.Order.Ring.Rat

/-! # The means of the logs

`getCpuSamplesMean` and its two copies divide the state after each addition
instead of once at the end. In each averaged field that is the running
division of the library, on the newest samples. -/

namespace ResMonitor

/-- A field that addition and division of the states act on. -/
structure AveragedField {α : Type} (add : α → α → α) (divide : α → Rat → α) where
  get : α → Rat
  get_add : ∀ s other, get (add s other) = get s + get other
  get_divide : ∀ s val, get (divide s val) = get s / val

def cpuFields : List (AveragedField CpuState.add CpuState.divide) :=
  [⟨CpuState.cpuInUsePercentage, fun _ _ => rfl, fun _ _ => rfl⟩,
   ⟨CpuState.monitorCpuInUsePercentage, fun _ _ => rfl, fun _ _ => rfl⟩]

/-- The total is the newest sample's, it is not averaged. -/
def ramFields : List (AveragedField RamState.add RamState.divide) :=
  [⟨RamState.ramInUseMB, fun _ _ => rfl, fun _ _ => rfl⟩,
   ⟨RamState.monitorRamInUseMB, fun _ _ => rfl, fun _ _ => rfl⟩]

def hddFields : List (AveragedField HddState.add HddState.divide) :=
  [⟨HddState.hddInUseKBsRead, fun _ _ => rfl, fun _ _ => rfl⟩,
   ⟨HddState.hddInUseKBsWrite, fun _ _ => rfl, fun _ _ => rfl⟩,
   ⟨HddState.monitorHddInUseKBsRead, fun _ _ => rfl, fun _ _ => rfl⟩,
   ⟨HddState.monitorHddInUseKBsWrite, fun _ _ => rfl, fun _ _ => rfl⟩]

section Field
variable {α : Type} {add : α → α → α} {divide : α → Rat → α}

/-- The values of a field in the `r` newest samples, newest first. -/
def AveragedField.newest (field : AveragedField add divide) (samples : CircularBuffer α)
    (r : Int) : List Rat := (samples.items.reverse.take r.toNat).map field.get

/-- `answer` holds the mean of the `r` newest samples in every averaged field. -/
def ReturnsMean (fields : List (AveragedField add divide)) (samples : CircularBuffer α) (r : Int)
    (answer : Except AssertFailure α) : Prop :=
  ∃ s, answer = .ok s ∧ ∀ field ∈ fields,
    field.get s = RunningMean.mean (r : Rat) (field.newest samples r)

/-- The `r` newest samples, newest first, each times what one division leaves
of it and the divisions made do not, add up to nothing. -/
def LosesNothing (fields : List (AveragedField add divide)) (samples : CircularBuffer α)
    (r : Int) : Prop :=
  ∀ field ∈ fields, RunningMean.lost (r : Rat) (field.newest samples r) = 0

def NonNegative (fields : List (AveragedField add divide)) (samples : CircularBuffer α)
    (r : Int) : Prop :=
  ∀ field ∈ fields, ∀ v ∈ field.newest samples r, 0 ≤ v

/-- All but the oldest of the `r` newest samples are 0. -/
def OnlyOldest (fields : List (AveragedField add divide)) (samples : CircularBuffer α)
    (r : Int) : Prop :=
  ∀ field ∈ fields, ∀ v ∈ (field.newest samples r).dropLast, v = 0

theorem get_meanLoop (field : AveragedField add divide) (r : Int) (older : List α) (i : Int)
    (state : α) : field.get (SamplingManager.meanLoop add divide r i state older) =
      RunningMean.run (r : Rat) (field.get state) ((older.take (r - i).toNat).map field.get) := by
  induction older generalizing i state with
  | nil => simp [SamplingManager.meanLoop, RunningMean.run]
  | cons x older ih =>
    rw [SamplingManager.meanLoop]
    split
    · rename_i hi
      obtain ⟨n, hn⟩ : ∃ n, (r - i).toNat = n + 1 := ⟨(r - i).toNat - 1, by omega⟩
      have hn' : (r - (i + 1)).toNat = n := by omega
      rw [ih, hn, hn', List.take_succ_cons, List.map_cons, RunningMean.run, field.get_divide,
        field.get_add]
    · rename_i hi
      have h0 : (r - i).toNat = 0 := by omega
      rw [h0]
      rfl

/-- One sample manager function: it returns the mean where nothing is lost. -/
theorem returnsMean_samplesMean_iff (fields : List (AveragedField add divide))
    (samples : CircularBuffer α) {r : Int} (hr : 1 ≤ r) (hsize : r ≤ samples.size) :
    ReturnsMean fields samples r (SamplingManager.samplesMean add divide samples r) ↔
      LosesNothing fields samples r := by
  unfold ReturnsMean LosesNothing SamplingManager.samplesMean AveragedField.newest
  cases hrev : samples.items.reverse with
  | nil =>
    have hlen := congrArg List.length hrev
    rw [List.length_reverse, List.length_nil] at hlen
    unfold CircularBuffer.size at hsize
    omega
  | cons newest older =>
    obtain ⟨n, hn⟩ : ∃ n, r.toNat = n + 1 := ⟨r.toNat - 1, by omega⟩
    have hn' : (r - 1).toNat = n := by omega
    rw [hn, List.take_succ_cons, ← hn']
    -- field by field, the loop is a running division
    have hfield : ∀ field : AveragedField add divide,
        field.get (SamplingManager.meanLoop add divide r 1 newest older) =
          RunningMean.mean (r : Rat) ((newest :: older.take (r - 1).toNat).map field.get) ↔
        RunningMean.lost (r : Rat) ((newest :: older.take (r - 1).toNat).map field.get) = 0 := by
      intro field
      rw [get_meanLoop, List.map_cons, RunningMean.run_eq_mean_iff]
    constructor
    · intro ⟨s, hs, hmean⟩ field hf
      cases hs
      exact (hfield field).mp (hmean field hf)
    · intro hlost
      exact ⟨_, rfl, fun field hf => (hfield field).mpr (hlost field hf)⟩

/-! ## When nothing is lost -/

theorem length_newest (field : AveragedField add divide) {samples : CircularBuffer α} {r : Int}
    (hsize : r ≤ samples.size) : (field.newest samples r).length = r.toNat := by
  unfold AveragedField.newest
  unfold CircularBuffer.size at hsize
  rw [List.length_map, List.length_take, List.length_reverse]
  omega

theorem losesNothing_of_le_two (fields : List (AveragedField add divide))
    {samples : CircularBuffer α} {r : Int} (hr : 1 ≤ r) (hsize : r ≤ samples.size) (h2 : r ≤ 2) :
    LosesNothing fields samples r := by
  intro field _
  have hlen := length_newest field hsize
  have hcast : (r : Rat) = ((field.newest samples r).length : Rat) := by
    rw [hlen]
    exact_mod_cast congrArg (Int.cast (R := Rat)) (Int.toNat_of_nonneg (by omega : 0 ≤ r)).symm
  rw [hcast]
  exact RunningMean.lost_of_length_le_two (by omega)

/-- From three samples on, of readings that are not negative. -/
theorem losesNothing_iff_of_nonneg {fields : List (AveragedField add divide)}
    {samples : CircularBuffer α} {r : Int} (hr : 3 ≤ r) (hsize : r ≤ samples.size)
    (hnonneg : NonNegative fields samples r) :
    LosesNothing fields samples r ↔ OnlyOldest fields samples r := by
  have hc : (1 : Rat) < (r : Rat) := by exact_mod_cast (by omega : 1 < r)
  refine forall_congr' fun field => forall_congr' fun hf => ?_
  refine RunningMean.lost_eq_zero_iff hc ?_ (hnonneg field hf)
  rw [length_newest field hsize]
  omega

/-- One ring: the mean is returned up to two samples, and otherwise exactly
where nothing is lost. -/
theorem returnsMean_iff (fields : List (AveragedField add divide)) (samples : CircularBuffer α)
    {r : Int} (hr : 1 ≤ r) (hsize : r ≤ samples.size) :
    let answer := SamplingManager.samplesMean add divide samples r
    (ReturnsMean fields samples r answer ↔ r ≤ 2 ∨ LosesNothing fields samples r) ∧
    (NonNegative fields samples r →
      (ReturnsMean fields samples r answer ↔ r ≤ 2 ∨ OnlyOldest fields samples r)) := by
  have hiff : ReturnsMean fields samples r (SamplingManager.samplesMean add divide samples r) ↔
      r ≤ 2 ∨ LosesNothing fields samples r :=
    (returnsMean_samplesMean_iff fields samples hr hsize).trans
      (or_iff_right_of_imp (losesNothing_of_le_two fields hr hsize)).symm
  refine ⟨hiff, fun hnonneg => hiff.trans ?_⟩
  by_cases h2 : r ≤ 2
  · exact iff_of_true (Or.inl h2) (Or.inl h2)
  · rw [losesNothing_iff_of_nonneg (by omega) hsize hnonneg]

end Field

/-- **Where the logged means are means.** Up to two samples, always; otherwise
exactly where, in every averaged field, the divisions lose nothing. Of readings
that are not negative that asks all but the oldest to be 0. -/
theorem loggedMeans_iff (m : SamplingManager Rat) {r : Int} (hr : 1 ≤ r) :
    (r ≤ m.cpuSamples.size →
      (ReturnsMean cpuFields m.cpuSamples r (m.getCpuSamplesMean r) ↔
        r ≤ 2 ∨ LosesNothing cpuFields m.cpuSamples r) ∧
      (NonNegative cpuFields m.cpuSamples r →
        (ReturnsMean cpuFields m.cpuSamples r (m.getCpuSamplesMean r) ↔
          r ≤ 2 ∨ OnlyOldest cpuFields m.cpuSamples r))) ∧
    (r ≤ m.ramSamples.size →
      (ReturnsMean ramFields m.ramSamples r (m.getRamSamplesMean r) ↔
        r ≤ 2 ∨ LosesNothing ramFields m.ramSamples r) ∧
      (NonNegative ramFields m.ramSamples r →
        (ReturnsMean ramFields m.ramSamples r (m.getRamSamplesMean r) ↔
          r ≤ 2 ∨ OnlyOldest ramFields m.ramSamples r))) ∧
    (r ≤ m.hddSamples.size →
      (ReturnsMean hddFields m.hddSamples r (m.getHddSamplesMean r) ↔
        r ≤ 2 ∨ LosesNothing hddFields m.hddSamples r) ∧
      (NonNegative hddFields m.hddSamples r →
        (ReturnsMean hddFields m.hddSamples r (m.getHddSamplesMean r) ↔
          r ≤ 2 ∨ OnlyOldest hddFields m.hddSamples r))) :=
  ⟨returnsMean_iff cpuFields m.cpuSamples hr, returnsMean_iff ramFields m.ramSamples hr,
    returnsMean_iff hddFields m.hddSamples hr⟩

/-- A new sampler with a CPU log of three seconds' resolution. -/
def threeSecondLogs : SamplingManager Rat :=
  { SamplingManager.unlogged [] with
    cpuSamples := SamplingManager.sampleRing .cpu [⟨.cpu, 9, 3⟩]
    cpuLog := UnorderedMap.empty.insert ⟨.cpu, 9, 3⟩ (.ofCapacity 3, 0)
    cpuSamples_pos := SamplingManager.sampleRing_pos _ _ }

theorem threeSecondLogs_constructed : threeSecondLogs.ConstructedFrom [⟨.cpu, 9, 3⟩] [] :=
  SamplingManager.constructedFrom_construct rfl

/-- The mean of two of three equal samples. -/
theorem loggedMeans_iff_two :
    ∃ m, threeSecondLogs.polls Callbacks.default (fun _ => mockSample 9) 0 3 () = .ok (m, ()) ∧
      ReturnsMean cpuFields m.cpuSamples 2 (m.getCpuSamplesMean 2) := by
  refine ⟨_, rfl, ?_⟩
  exact ((loggedMeans_iff _ (by decide)).1 (by decide)).1.mpr (Or.inl (by decide))

/-- Three samples at 9% are logged as a mean of 5%. -/
theorem mean_of_equal_samples :
    threeSecondLogs.ConstructedFrom [⟨.cpu, 9, 3⟩] [] ∧
    ∃ m, threeSecondLogs.polls Callbacks.default (fun _ => mockSample 9) 0 3 () = .ok (m, ()) ∧
      m.cpuSamples.items = [⟨9, 10⟩, ⟨9, 10⟩, ⟨9, 10⟩] ∧
      m.getCpuSamplesMean 3 = .ok ⟨5, 50 / 9⟩ ∧
      (m.getCpuLog ⟨.cpu, 9, 3⟩).map CircularBuffer.items = some [⟨5, 50 / 9⟩] ∧
      ¬ ReturnsMean cpuFields m.cpuSamples 3 (m.getCpuSamplesMean 3) := by
  have notMean : ∀ m : SamplingManager Rat, m.cpuSamples.items = [⟨9, 10⟩, ⟨9, 10⟩, ⟨9, 10⟩] →
      m.getCpuSamplesMean 3 = .ok ⟨5, 50 / 9⟩ →
      ¬ ReturnsMean cpuFields m.cpuSamples 3 (m.getCpuSamplesMean 3) := by
    intro m hitems hanswer ⟨s, hs, hmean⟩
    rw [hanswer] at hs
    cases hs
    have hcpu := hmean _ List.mem_cons_self
    unfold AveragedField.newest at hcpu
    rw [hitems] at hcpu
    revert hcpu
    decide +kernel
  refine ⟨threeSecondLogs_constructed, _, rfl, by decide +kernel, by decide +kernel,
    by decide +kernel, ?_⟩
  exact notMean _ (by decide +kernel) (by decide +kernel)

end ResMonitor
