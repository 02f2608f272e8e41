import ResMonitor.Lib.Calls
import ResMonitor.LinuxResProvider
import Mathlib.Algebra.Order.Field.Basic
import Mathlib.Algebra.Field.Rat
import Mathlib.Algebra.Order.Ring.Rat
import Mathlib.Tactic.Linarith
import Mathlib.Tactic.Positivity

/-! # The CPU percentage along a run

The percentage of the system divides by the sum of the four differences, which
nothing keeps from being 0: two readings of the same counters are enough, and
the constructor takes two in a row. Apart from that the percentage is the one
that the counters define. -/

namespace ResMonitor

/-! ## The differences -/

namespace CpuTimes

/-- `total` before the idle time is added. -/
def busy (last now : CpuTimes) : UInt64 :=
  (now.totalUser - last.totalUser) + (now.totalNiced - last.totalNiced) +
    (now.totalSys - last.totalSys)

/-- `total`, by which the percentage is divided. -/
def total (last now : CpuTimes) : UInt64 :=
  last.busy now + (now.totalIdle - last.totalIdle)

/-- The sum of the first three differences, without overflow. -/
def exactBusy (last now : CpuTimes) : Nat :=
  (now.totalUser.toNat - last.totalUser.toNat) + (now.totalNiced.toNat - last.totalNiced.toNat) +
    (now.totalSys.toNat - last.totalSys.toNat)

/-- The sum of the four differences, without overflow. -/
def exactTotal (last now : CpuTimes) : Nat :=
  last.exactBusy now + (now.totalIdle.toNat - last.totalIdle.toNat)

/-- The differences do not sum past `2 ^ 64`. -/
def DeltasFit (last now : CpuTimes) : Prop :=
  ¬ last.WentBackwards now → last.exactTotal now ≤ 2 ^ 64

/-- Some counter went backwards, or some counter moved and the differences do
not sum to `2 ^ 64` exactly. -/
def Measurable (last now : CpuTimes) : Prop :=
  last.WentBackwards now ∨ last ≠ now ∧ last.exactTotal now ≠ 2 ^ 64

instance (last now : CpuTimes) : Decidable (last.DeltasFit now) := by
  unfold DeltasFit
  infer_instance

instance (last now : CpuTimes) : Decidable (last.Measurable now) := by
  unfold Measurable
  infer_instance

theorem le_of_not_wentBackwards {last now : CpuTimes} (h : ¬ last.WentBackwards now) :
    last.totalUser ≤ now.totalUser ∧ last.totalNiced ≤ now.totalNiced ∧
      last.totalSys ≤ now.totalSys ∧ last.totalIdle ≤ now.totalIdle := by
  unfold WentBackwards at h
  simpa only [not_or, UInt64.not_lt] using h

theorem toNat_busy {last now : CpuTimes} (h : ¬ last.WentBackwards now) :
    (last.busy now).toNat = last.exactBusy now % 2 ^ 64 := by
  obtain ⟨hu, hn, hs, -⟩ := le_of_not_wentBackwards h
  unfold busy exactBusy
  rw [UInt64.toNat_add, UInt64.toNat_add, UInt64.toNat_sub_of_le _ _ hu,
    UInt64.toNat_sub_of_le _ _ hn, UInt64.toNat_sub_of_le _ _ hs, Nat.mod_add_mod]

theorem toNat_total {last now : CpuTimes} (h : ¬ last.WentBackwards now) :
    (last.total now).toNat = last.exactTotal now % 2 ^ 64 := by
  obtain ⟨-, -, -, hi⟩ := le_of_not_wentBackwards h
  unfold total exactTotal
  rw [UInt64.toNat_add, toNat_busy h, UInt64.toNat_sub_of_le _ _ hi, Nat.mod_add_mod]

/-- Nothing moved exactly if the readings are equal. -/
theorem exactTotal_eq_zero_iff {last now : CpuTimes} (h : ¬ last.WentBackwards now) :
    last.exactTotal now = 0 ↔ last = now := by
  obtain ⟨hu, hn, hs, hi⟩ := le_of_not_wentBackwards h
  simp only [UInt64.le_iff_toNat_le] at hu hn hs hi
  constructor
  · intro hzero
    unfold exactTotal exactBusy at hzero
    have hu' : last.totalUser = now.totalUser := UInt64.toNat_inj.mp (by omega)
    have hn' : last.totalNiced = now.totalNiced := UInt64.toNat_inj.mp (by omega)
    have hs' : last.totalSys = now.totalSys := UInt64.toNat_inj.mp (by omega)
    have hi' : last.totalIdle = now.totalIdle := UInt64.toNat_inj.mp (by omega)
    cases last
    cases now
    rw [CpuTimes.mk.injEq]
    exact ⟨hu', hn', hs', hi'⟩
  · rintro rfl
    simp [exactTotal, exactBusy]

end CpuTimes

/-! ## One call -/

namespace LinuxResProvider

def initSystemCpuUsage (p : LinuxResProvider) (now : CpuTimes) : LinuxResProvider :=
  { p with lastTotal := now }

/-- `numProcessors` is counted in `/proc/cpuinfo`. -/
def initSelfCpuUsage (p : LinuxResProvider) (now : ProcessTimes) (numProcessors : Int) :
    LinuxResProvider :=
  { p with last := now, numProcessors }

theorem getSystemCpuUsage_of_wentBackwards {p : LinuxResProvider} {now : CpuTimes}
    (h : p.lastTotal.WentBackwards now) : (p.getSystemCpuUsage now).1 = (-1 : Rat) := by
  simp only [getSystemCpuUsage, if_pos h]
  rfl

theorem getSystemCpuUsage_of_not_wentBackwards {p : LinuxResProvider} {now : CpuTimes}
    (h : ¬ p.lastTotal.WentBackwards now) :
    (p.getSystemCpuUsage now).1 =
      ((p.lastTotal.busy now).toNat : Rat) / ((p.lastTotal.total now).toNat : Rat) * 100 := by
  simp only [getSystemCpuUsage, if_neg h]
  rfl

/-- The call with the reading `now`, when `last` was the reading before: it
skips exactly what went backwards, and otherwise returns the percentage of the
exact differences, by a divisor that is not 0. The next call measures from `now`. -/
structure UsageDefined (last : CpuTimes) (p : LinuxResProvider) (now : CpuTimes) : Prop where
  skipped : (p.getSystemCpuUsage now).1 = (-1 : Rat) ↔ last.WentBackwards now
  divisor : ¬ last.WentBackwards now → last.total now ≠ 0
  value : ¬ last.WentBackwards now →
    (p.getSystemCpuUsage now).1 = 100 * (last.exactBusy now : Rat) / (last.exactTotal now : Rat)
  bounds : ¬ last.WentBackwards now →
    0 ≤ ((p.getSystemCpuUsage now).1 : Rat) ∧ ((p.getSystemCpuUsage now).1 : Rat) ≤ 100
  next : (p.getSystemCpuUsage now : Rat × LinuxResProvider).2.lastTotal = now

theorem usageDefined_iff {last now : CpuTimes} {p : LinuxResProvider} (hp : p.lastTotal = last)
    (hfit : last.DeltasFit now) : UsageDefined last p now ↔ last.Measurable now := by
  subst hp
  by_cases hback : p.lastTotal.WentBackwards now
  · refine iff_of_true ⟨?_, fun h => absurd hback h, fun h => absurd hback h,
      fun h => absurd hback h, rfl⟩ (Or.inl hback)
    exact iff_of_true (getSystemCpuUsage_of_wentBackwards hback) hback
  · have hle := hfit hback
    have htotal := CpuTimes.toNat_total hback
    have hzero := CpuTimes.exactTotal_eq_zero_iff hback
    have hdivisor : p.lastTotal.total now ≠ 0 ↔
        p.lastTotal ≠ now ∧ p.lastTotal.exactTotal now ≠ 2 ^ 64 := by
      rw [ne_eq, ← UInt64.toNat_inj, htotal, ne_eq, ne_eq, ← hzero, UInt64.toNat_zero]
      omega
    constructor
    · exact fun h => Or.inr (hdivisor.mp (h.divisor hback))
    · intro h
      obtain ⟨hne, hmax⟩ := h.resolve_left hback
      have hpos : 0 < p.lastTotal.exactTotal now :=
        Nat.pos_of_ne_zero fun h0 => hne (hzero.mp h0)
      have hbusy : p.lastTotal.exactBusy now ≤ p.lastTotal.exactTotal now := Nat.le_add_right _ _
      have hvalue : ((p.getSystemCpuUsage now).1 : Rat) =
          100 * (p.lastTotal.exactBusy now : Rat) / (p.lastTotal.exactTotal now : Rat) := by
        rw [getSystemCpuUsage_of_not_wentBackwards hback, CpuTimes.toNat_busy hback, htotal,
          Nat.mod_eq_of_lt (by omega), Nat.mod_eq_of_lt (by omega), mul_comm 100,
          mul_div_right_comm]
      have hnonneg : (0 : Rat) ≤ 100 * (p.lastTotal.exactBusy now : Rat) /
          (p.lastTotal.exactTotal now : Rat) := by positivity
      have hbound : 100 * (p.lastTotal.exactBusy now : Rat) /
          (p.lastTotal.exactTotal now : Rat) ≤ 100 := by
        rw [div_le_iff₀ (by exact_mod_cast hpos)]
        exact mul_le_mul_of_nonneg_left (by exact_mod_cast hbusy) (by norm_num)
      refine ⟨iff_of_false ?_ hback, fun _ => hdivisor.mpr ⟨hne, hmax⟩, fun _ => hvalue,
        fun _ => ?_, rfl⟩
      · rw [hvalue]
        intro heq
        linarith
      · rw [hvalue]
        exact ⟨hnonneg, hbound⟩

/-! ## Runs -/

/-- What one call of `getCpuState` reads. -/
structure CpuReading where
  total : CpuTimes
  now : ProcessTimes

/-- The provider after `getCpuState`. -/
def afterCpuState (p : LinuxResProvider) (r : CpuReading) : LinuxResProvider :=
  (p.getCpuState r.total r.now : CpuState Rat × LinuxResProvider).2

/-- The calls of `getCpuState` after the initialisation with the reading `first`. The
constructor itself makes the first of them. -/
def cpuCalls (p : LinuxResProvider) (first : CpuReading) (numProcessors : Int)
    (readings : List CpuReading) : List (Calls.Call LinuxResProvider CpuReading) :=
  Calls.calls afterCpuState first
    ((p.initSystemCpuUsage first.total).initSelfCpuUsage first.now numProcessors) readings

theorem lastTotal_of_mem_cpuCalls (p : LinuxResProvider) (first : CpuReading)
    (numProcessors : Int) (readings : List CpuReading) :
    ∀ c ∈ p.cpuCalls first numProcessors readings, c.state.lastTotal = c.previous.total :=
  Calls.stored_of_mem_calls afterCpuState (fun r p => p.lastTotal = r.total)
    (fun _ _ _ _ => rfl) rfl readings

/-- **Where the CPU percentage is defined.** In every call of a run, exactly if
between any two consecutive readings a counter went backwards, or one moved and
the differences do not fill the 64 bits exactly. -/
theorem cpuUsage_defined_iff (p : LinuxResProvider) (first : CpuReading) (numProcessors : Int)
    (readings : List CpuReading)
    (hfit : (first :: readings).IsChain fun a b => a.total.DeltasFit b.total) :
    (∀ c ∈ p.cpuCalls first numProcessors readings,
      UsageDefined c.previous.total c.state c.reading.total) ↔
      (first :: readings).IsChain fun a b => a.total.Measurable b.total := by
  have hlast := lastTotal_of_mem_cpuCalls p first numProcessors readings
  have hfit' : ∀ c ∈ p.cpuCalls first numProcessors readings,
      c.previous.total.DeltasFit c.reading.total :=
    (Calls.forall_calls_iff_isChain afterCpuState _ first _ readings).mpr hfit
  refine Iff.trans (forall₂_congr fun c hc => usageDefined_iff (hlast c hc) (hfit' c hc)) ?_
  exact Calls.forall_calls_iff_isChain afterCpuState (fun a b => a.total.Measurable b.total) first
    _ readings

/-- A provider whose fields are all 0, before the constructor's body. -/
def blank : LinuxResProvider := ⟨⟨0, 0, 0, 0⟩, ⟨0, 0, 0⟩, 0⟩

def firstReading : CpuReading := ⟨⟨4705, 150, 1120, 16250⟩, ⟨100, 1, 2⟩⟩

def ticksLater : CpuReading := ⟨⟨4706, 150, 1120, 16253⟩, ⟨104, 1, 3⟩⟩

/-- Some ticks later the percentage is defined. -/
theorem cpuUsage_defined_iff_ticks :
    UsageDefined firstReading.total
      ((blank.initSystemCpuUsage firstReading.total).initSelfCpuUsage firstReading.now 4)
      ticksLater.total :=
  (cpuUsage_defined_iff blank firstReading 4 [ticksLater] (List.isChain_pair.mpr (by decide))).mpr
    (List.isChain_pair.mpr (by decide)) _ List.mem_cons_self

/-- The constructor's two readings within one tick: the second divides by 0. -/
theorem two_readings_in_one_tick :
    [firstReading, firstReading].IsChain (fun a b => a.total.DeltasFit b.total) ∧
    firstReading.total.total firstReading.total = 0 ∧
    ¬ ∀ c ∈ blank.cpuCalls firstReading 4 [firstReading],
      UsageDefined c.previous.total c.state c.reading.total := by
  have hzero : firstReading.total.total firstReading.total = 0 := by decide
  refine ⟨List.isChain_pair.mpr (by decide), hzero, fun h => ?_⟩
  exact (h _ List.mem_cons_self).divisor (by decide) hzero

end LinuxResProvider
end ResMonitor
