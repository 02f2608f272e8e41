import ResMonitor.FalseAlarm
import ResMonitor.LinuxResProvider
import ResMonitor.OwnPoll

/-! # Unreadable samples

A percentage that cannot be read is reported as -1, to be skipped. The
comparisons take it for a number: below every threshold, so an "under" trigger
counts it and an "over" trigger starts over. The turns that really skip it are
those with nothing to lose. -/

namespace ResMonitor
variable {F : Type} [Double F]

/-- The percentage that `t` compares is the error value. -/
def Sample.Unreadable (x : Sample F) (t : TriggerType) : Prop :=
  match t.resource with
  | .cpu => x.cpu.cpuInUsePercentage = ((-1 : Int) : F)
  | .memory => t.triggerValue.unitType = .percent ∧ x.ram.currPercentageUsed = ((-1 : Int) : F)
  | .disk => False

/-- The error value, taken for a percentage, is on the trigger's side of its threshold. -/
def TriggerType.CountsError (F : Type) [Double F] (t : TriggerType) : Prop :=
  match t.fluctuationType with
  | .over => (t.triggerValue.value : F) < ((-1 : Int) : F)
  | .under => ((-1 : Int) : F) < (t.triggerValue.value : F)

theorem countsError_rat {t : TriggerType} : t.CountsError Rat ↔ match t.fluctuationType with
    | .over => t.triggerValue.value < -1
    | .under => -1 < t.triggerValue.value := by
  unfold TriggerType.CountsError
  match t.fluctuationType with
  | .over => exact Rat.intCast_lt_intCast
  | .under => exact Rat.intCast_lt_intCast

theorem satisfies_of_unreadable {x : Sample F} {t : TriggerType} (hx : x.Unreadable t)
    (hfits : t.UnitFits) : x.satisfies t = true ↔ t.CountsError F := by
  unfold Sample.Unreadable at hx
  unfold TriggerType.UnitFits at hfits
  unfold Sample.satisfies Sample.exceeds TriggerType.CountsError
  cases hr : t.resource with
  | cpu =>
    rw [hr] at hx hfits
    simp only [CpuState.gt, if_pos hfits, hx]
    cases t.fluctuationType <;> simp
  | memory =>
    rw [hr] at hx
    simp only [RamState.gt, hx.1, hx.2]
    cases t.fluctuationType <;> simp
  | disk => rw [hr] at hx; exact hx.elim

/-- The sample leaves the counter of `t` at `c` and makes no call about it, in
its turn and in the whole poll if that gets to its end. -/
structure Skipped (m : SamplingManager F) (x : Sample F) (t : TriggerType) (c : Int) : Prop where
  turn : SamplingManager.turn x t c = .ok (c, [])
  poll : ∀ m' calls, m.poll Callbacks.record x [] = .ok (m', calls) →
    m'.triggerStates.find? t = some c ∧ .activate t ∉ calls ∧ .deactivate t ∉ calls

theorem skipped_iff_turn {m : SamplingManager F} {x : Sample F} {t : TriggerType} {c : Int}
    (hc : m.triggerStates.find? t = some c) :
    Skipped m x t c ↔ SamplingManager.turn x t c = .ok (c, []) := by
  refine ⟨Skipped.turn, fun hturn => ⟨hturn, fun m' calls hpoll => ?_⟩⟩
  obtain ⟨c', own, hown, hnext, hcalls⟩ := SamplingManager.turn_of_poll hpoll hc
  rw [hturn] at hown
  cases hown
  exact ⟨hnext, (hcalls (.activate t) rfl).not.mpr List.not_mem_nil,
    (hcalls (.deactivate t) rfl).not.mpr List.not_mem_nil⟩

/-- A turn that changes nothing: an unsatisfying sample, at a counter of 0 that
is short of the duration. -/
theorem idle_turn_iff (t : TriggerType) (sat : Bool) (c : Int) :
    (t.nextCounter sat c = c ∧ t.callsOf sat c = []) ↔
      sat = false ∧ c = 0 ∧ 1 ≤ t.duration := by
  unfold TriggerType.nextCounter TriggerType.callsOf TriggerType.counted
  cases sat with
  | true =>
    -- the counter moves on, or reaches the duration and the trigger fires
    by_cases h : c + 1 = t.duration <;> simp [h]
  | false =>
    by_cases h0 : (0 : Int) = t.duration
    · simp [← h0]
    · by_cases hle : t.duration ≤ c
      · simp [hle]
        omega
      · simp [h0, hle]
        omega

/-- **Where an unreadable sample is skipped.** Exactly at counter 0 of a
trigger of positive duration, of a unit its comparison admits, that the error
value does not satisfy. -/
theorem skipped_iff {m : SamplingManager F} {x : Sample F} {t : TriggerType} {c : Int}
    (hc : m.triggerStates.find? t = some c) (hx : x.Unreadable t) :
    Skipped m x t c ↔ t.UnitFits ∧ ¬ t.CountsError F ∧ c = 0 ∧ 1 ≤ t.duration := by
  rw [skipped_iff_turn hc]
  constructor
  · intro hturn
    have hfits := SamplingManager.unitFits_of_turn hturn
    rw [SamplingManager.turn_of_unitFits x hfits] at hturn
    obtain ⟨hnext, hcalls⟩ := Prod.mk.inj (Except.ok.inj hturn)
    obtain ⟨hsat, hzero, hd⟩ := (idle_turn_iff t _ c).mp ⟨hnext, hcalls⟩
    refine ⟨hfits, fun herr => ?_, hzero, hd⟩
    rw [(satisfies_of_unreadable hx hfits).mpr herr] at hsat
    cases hsat
  · intro ⟨hfits, herr, hzero, hd⟩
    have hsat : x.satisfies t = false :=
      Bool.eq_false_iff.mpr fun h => herr ((satisfies_of_unreadable hx hfits).mp h)
    obtain ⟨hnext, hcalls⟩ := (idle_turn_iff t _ c).mpr ⟨hsat, hzero, hd⟩
    rw [SamplingManager.turn_of_unitFits x hfits, hnext, hcalls]

/-- A provider whose last reading of `/proc/stat` is later than the next one. -/
def provider : LinuxResProvider := ⟨⟨500, 20, 300, 9000⟩, ⟨4000, 10, 30⟩, 4⟩

/-- The sample it answers: the user counter went from 500 to 499. -/
def backwards : Sample Rat :=
  { mockSample 10 with
    cpu := (provider.getCpuState ⟨499, 20, 301, 9100⟩ ⟨4100, 11, 32⟩).1 }

/-- An "over" trigger whose counter is 0 has nothing to lose. -/
theorem skipped_iff_mock :
    Skipped (SamplingManager.unlogged [cpuOver80]) backwards cpuOver80 0 := by
  have hx : backwards.Unreadable cpuOver80 :=
    LinuxResProvider.getCpuState_of_wentBackwards (by decide) _
  have herr : ¬ cpuOver80.CountsError Rat := fun h =>
    absurd (countsError_rat.mp h) (show ¬ (80 : Int) < -1 by decide)
  exact (skipped_iff (by decide) hx).mpr ⟨by decide, herr, rfl, by decide⟩

/-- The unreadable sample activates an "under" trigger of one second, and
breaks a run of an "over" trigger that had counted one sample at 85%. -/
theorem unreadable_counted :
    backwards.Unreadable cpuUnder20 ∧ backwards.Unreadable cpuOver80 ∧
    (SamplingManager.unlogged [cpuUnder20]).callsDuring (fun _ => backwards) 0 =
      .ok [.activate cpuUnder20] ∧
    (∃ m', (SamplingManager.unlogged [cpuOver80]).polls Callbacks.default
        (fun _ => mockSample 85) 0 1 () = .ok (m', ()) ∧
      m'.triggerStates.find? cpuOver80 = some 1 ∧ ¬ Skipped m' backwards cpuOver80 1) ∧
    ¬ Skipped (SamplingManager.unlogged [cpuUnder20]) backwards cpuUnder20 0 := by
  have hback : provider.lastTotal.WentBackwards ⟨499, 20, 301, 9100⟩ := by decide
  have hx : backwards.cpu.cpuInUsePercentage = ((-1 : Int) : Rat) :=
    LinuxResProvider.getCpuState_of_wentBackwards hback _
  refine ⟨hx, hx, by decide +kernel, ?_, fun h => ?_⟩
  · refine ⟨_, rfl, by decide +kernel, fun h => ?_⟩
    have hturn : SamplingManager.turn backwards cpuOver80 1 = .ok (0, []) := by decide +kernel
    have := h.turn
    rw [hturn] at this
    cases this
  · have hturn : SamplingManager.turn backwards cpuUnder20 0 =
        .ok (0, [.activate cpuUnder20]) := by decide +kernel
    have := h.turn
    rw [hturn] at this
    cases this

end ResMonitor
