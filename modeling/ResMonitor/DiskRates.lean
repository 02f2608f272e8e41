import ResMonitor.Lib.Calls
import ResMonitor.ResStates
import Mathlib.Algebra.Order.Field.Basic
import Mathlib.Algebra.Field.Rat
import Mathlib.Algebra.Order.Ring.Rat
import Mathlib.Tactic.Positivity

/-! # Disk rates on Linux

The provider divides the bytes since its last reading by the milliseconds since
then. It keeps the counters and the time of the last reading twice, for the
system and for its own process. Nothing keeps two readings from falling into the
same millisecond. -/

namespace ResMonitor

/-- The counters and the time of the last reading: `lastHddSystemRead`,
`lastHddSystemWrite` and `hddSystemLastMeasureTime`, or the same of `Self`. -/
structure HddMeter where
  lastRead : UInt64
  lastWrite : UInt64
  lastMeasureTime : Int
  deriving DecidableEq

/-- The counters and the clock, when a rate is computed. -/
structure HddCounters where
  readBytes : UInt64
  writeBytes : UInt64
  currMs : Int
  deriving DecidableEq

/-- What one call of `getHddState` reads: sectors of the disk and the time, then
the bytes of the process and the time. The counters are results of `stoll`. -/
structure HddReading where
  sectorsRead : Int64
  sectorsWritten : Int64
  systemMs : Int
  bytesRead : Int64
  bytesWritten : Int64
  selfMs : Int

/-- The part of `LinuxResProvider` that the disk is measured with. -/
structure HddProvider where
  hddSystem : HddMeter
  hddSelf : HddMeter
  hddSectorSize : UInt32

namespace HddMeter
variable {F : Type} [Double F]

/-- The second half of `getHddSystemUsage` and of `getHddSelfUsage`: the two
rates, and the meter afterwards. -/
def measure (meter : HddMeter) (counters : HddCounters) : (F × F) × HddMeter :=
  let elapsed : F := ((counters.currMs - meter.lastMeasureTime : Int) : F)
  let readKBs := (((counters.readBytes - meter.lastRead).toNat : Int) : F) / elapsed
  let writeKBs := (((counters.writeBytes - meter.lastWrite).toNat : Int) : F) / elapsed
  ((readKBs, writeKBs), ⟨counters.readBytes, counters.writeBytes, counters.currMs⟩)

end HddMeter

namespace HddProvider
variable {F : Type} [Double F]

/-- The counters that `getHddSystemUsage` makes of a reading. -/
def systemCounters (hddSectorSize : UInt32) (r : HddReading) : HddCounters :=
  ⟨r.sectorsRead.toUInt64 * hddSectorSize.toUInt64,
    r.sectorsWritten.toUInt64 * hddSectorSize.toUInt64, r.systemMs⟩

/-- The counters that `getHddSelfUsage` makes of a reading. -/
def selfCounters (r : HddReading) : HddCounters :=
  ⟨r.bytesRead.toUInt64, r.bytesWritten.toUInt64, r.selfMs⟩

def getHddSystemUsage (p : HddProvider) (r : HddReading) : (F × F) × HddProvider :=
  let (rates, hddSystem) := p.hddSystem.measure (systemCounters p.hddSectorSize r)
  (rates, { p with hddSystem })

def getHddSelfUsage (p : HddProvider) (r : HddReading) : (F × F) × HddProvider :=
  let (rates, hddSelf) := p.hddSelf.measure (selfCounters r)
  (rates, { p with hddSelf })

def getHddState (p : HddProvider) (r : HddReading) : HddState F × HddProvider :=
  let (systemHddUsage, p) := p.getHddSystemUsage r
  let (selfHddUsage, p) := p.getHddSelfUsage r
  (⟨systemHddUsage.1, systemHddUsage.2, selfHddUsage.1, selfHddUsage.2⟩, p)

/-- `initHddUsage`: two calls whose results are dropped. -/
def initHddUsage (F : Type) [Double F] (p : HddProvider) (hddSectorSize : UInt32)
    (r : HddReading) : HddProvider :=
  let p := { p with hddSectorSize }
  let p := (p.getHddSystemUsage r : (F × F) × HddProvider).2
  (p.getHddSelfUsage r : (F × F) × HddProvider).2

end HddProvider

/-! ## One copy along a run -/

namespace HddCounters

/-- Neither the clock nor a counter goes backwards. -/
def NonDecreasing (last now : HddCounters) : Prop :=
  last.currMs ≤ now.currMs ∧ last.readBytes ≤ now.readBytes ∧ last.writeBytes ≤ now.writeBytes

/-- The meter that a measurement leaves. -/
def stored (c : HddCounters) : HddMeter := ⟨c.readBytes, c.writeBytes, c.currMs⟩

/-- The time from one reading to the next, in milliseconds. -/
def elapsed (last now : HddCounters) : Rat := ((now.currMs - last.currMs : Int) : Rat)

end HddCounters

/-- A rate over a positive time is the rise of the counter over that time. -/
theorem rate_mul_elapsed {last now : UInt64} (h : last ≤ now) {ms : Rat} (hms : 0 < ms) :
    let rate : Rat := (((now - last).toNat : Int) : Rat) / ms
    0 ≤ rate ∧ rate * ms = (now.toNat : Rat) - (last.toNat : Rat) := by
  have hle : last.toNat ≤ now.toNat := UInt64.le_iff_toNat_le.mp h
  refine ⟨div_nonneg (by positivity) hms.le, ?_⟩
  rw [div_mul_cancel₀ _ hms.ne', UInt64.toNat_sub_of_le _ _ h, Int.cast_natCast, Nat.cast_sub hle]

section Copy
variable {σ : Type}

/-- One of the two copies of the measurement: its rates in a call, the meter it
reads them off and the counters it makes of a reading. -/
structure HddCopy (σ : Type) where
  meter : σ → HddMeter
  counters : HddReading → HddCounters
  rates : σ → HddReading → Rat × Rat

/-- Every rate is defined and not negative, and over the calls the rates times
their intervals add up to what the counters rose. -/
structure AccountsForBytes (copy : HddCopy σ) (first : HddReading) (readings : List HddReading)
    (calls : List (Calls.Call σ HddReading)) : Prop where
  divisor : ∀ c ∈ calls,
    (copy.counters c.reading).currMs - (copy.meter c.state).lastMeasureTime ≠ 0
  nonneg : ∀ c ∈ calls, 0 ≤ (copy.rates c.state c.reading).1 ∧ 0 ≤ (copy.rates c.state c.reading).2
  reads : (calls.map fun c => (copy.rates c.state c.reading).1 *
      (copy.counters c.previous).elapsed (copy.counters c.reading)).sum =
    ((copy.counters (readings.getLastD first)).readBytes.toNat : Rat) -
      ((copy.counters first).readBytes.toNat : Rat)
  writes : (calls.map fun c => (copy.rates c.state c.reading).2 *
      (copy.counters c.previous).elapsed (copy.counters c.reading)).sum =
    ((copy.counters (readings.getLastD first)).writeBytes.toNat : Rat) -
      ((copy.counters first).writeBytes.toNat : Rat)

/-- In this call the copy measures from the reading before. -/
structure HddCopy.Measures (copy : HddCopy σ) (c : Calls.Call σ HddReading) : Prop where
  meter : copy.meter c.state = (copy.counters c.previous).stored
  rates : copy.rates c.state c.reading = ((copy.meter c.state).measure (copy.counters c.reading)).1

theorem HddCopy.Measures.rates_eq {copy : HddCopy σ} {c : Calls.Call σ HddReading}
    (h : copy.Measures c)
    (hle : (copy.counters c.previous).NonDecreasing (copy.counters c.reading))
    (hne : (copy.counters c.previous).currMs ≠ (copy.counters c.reading).currMs) :
    (0 ≤ (copy.rates c.state c.reading).1 ∧ 0 ≤ (copy.rates c.state c.reading).2) ∧
    (copy.rates c.state c.reading).1 *
        (copy.counters c.previous).elapsed (copy.counters c.reading) =
      ((copy.counters c.reading).readBytes.toNat : Rat) -
        ((copy.counters c.previous).readBytes.toNat : Rat) ∧
    (copy.rates c.state c.reading).2 *
        (copy.counters c.previous).elapsed (copy.counters c.reading) =
      ((copy.counters c.reading).writeBytes.toNat : Rat) -
        ((copy.counters c.previous).writeBytes.toNat : Rat) := by
  obtain ⟨htime, hread, hwrite⟩ := hle
  have hpos : 0 < (copy.counters c.previous).elapsed (copy.counters c.reading) := by
    unfold HddCounters.elapsed
    exact_mod_cast (by omega : 0 < (copy.counters c.reading).currMs -
      (copy.counters c.previous).currMs)
  obtain ⟨hr, hr'⟩ := rate_mul_elapsed hread hpos
  obtain ⟨hw, hw'⟩ := rate_mul_elapsed hwrite hpos
  rw [h.rates, h.meter]
  exact ⟨⟨hr, hw⟩, hr', hw'⟩

/-- A run of a copy accounts for every byte exactly if no two consecutive
readings were taken at the same time. -/
theorem accountsForBytes_iff {copy : HddCopy σ} (next : σ → HddReading → σ) {first : HddReading}
    {s : σ} {readings : List HddReading}
    (hmeasures : ∀ c ∈ Calls.calls next first s readings, copy.Measures c)
    (hle : (first :: readings).IsChain fun a b =>
      (copy.counters a).NonDecreasing (copy.counters b)) :
    AccountsForBytes copy first readings (Calls.calls next first s readings) ↔
      (first :: readings).IsChain fun a b =>
        (copy.counters a).currMs ≠ (copy.counters b).currMs := by
  have hle' := (Calls.forall_calls_iff_isChain next _ first s readings).mpr hle
  rw [← Calls.forall_calls_iff_isChain next _ first s readings]
  constructor
  · intro h c hc
    have hdivisor := h.divisor c hc
    rw [(hmeasures c hc).meter] at hdivisor
    exact fun heq => hdivisor (sub_eq_zero.mpr heq.symm)
  · intro hne
    have hcall := fun c hc => (hmeasures c hc).rates_eq (hle' c hc) (hne c hc)
    refine ⟨fun c hc => ?_, fun c hc => (hcall c hc).1, ?_, ?_⟩
    · rw [(hmeasures c hc).meter]
      exact sub_ne_zero.mpr (hne c hc).symm
    · rw [List.map_congr_left fun c hc => (hcall c hc).2.1]
      exact Calls.sum_calls next (fun r => ((copy.counters r).readBytes.toNat : Rat)) first s
        readings
    · rw [List.map_congr_left fun c hc => (hcall c hc).2.2]
      exact Calls.sum_calls next (fun r => ((copy.counters r).writeBytes.toNat : Rat)) first s
        readings

end Copy

/-! ## The provider -/

namespace HddProvider

def afterHddState (p : HddProvider) (r : HddReading) : HddProvider :=
  (p.getHddState r : HddState Rat × HddProvider).2

/-- The calls of `getHddState` after the initialisation with the reading `first`. -/
def hddCalls (p : HddProvider) (hddSectorSize : UInt32) (first : HddReading)
    (readings : List HddReading) : List (Calls.Call HddProvider HddReading) :=
  Calls.calls afterHddState first (p.initHddUsage Rat hddSectorSize first) readings

/-- The rates of the system that `getHddState` reports. -/
def systemCopy (hddSectorSize : UInt32) : HddCopy HddProvider where
  meter := hddSystem
  counters := systemCounters hddSectorSize
  rates p r :=
    let state : HddState Rat := (p.getHddState r).1
    (state.hddInUseKBsRead, state.hddInUseKBsWrite)

/-- The rates of the own process that `getHddState` reports. -/
def selfCopy : HddCopy HddProvider where
  meter := hddSelf
  counters := selfCounters
  rates p r :=
    let state : HddState Rat := (p.getHddState r).1
    (state.monitorHddInUseKBsRead, state.monitorHddInUseKBsWrite)

/-- Both copies measure from the last reading, in every call. -/
theorem measures_of_mem_hddCalls (p : HddProvider) (hddSectorSize : UInt32) (first : HddReading)
    (readings : List HddReading) : ∀ c ∈ p.hddCalls hddSectorSize first readings,
      (systemCopy hddSectorSize).Measures c ∧ selfCopy.Measures c := by
  have hstored : ∀ c ∈ p.hddCalls hddSectorSize first readings,
      c.state.hddSectorSize = hddSectorSize ∧
      c.state.hddSystem = (systemCounters hddSectorSize c.previous).stored ∧
      c.state.hddSelf = (selfCounters c.previous).stored :=
    Calls.stored_of_mem_calls afterHddState
      (fun r p => p.hddSectorSize = hddSectorSize ∧
        p.hddSystem = (systemCounters hddSectorSize r).stored ∧
        p.hddSelf = (selfCounters r).stored)
      (fun previous s r h => ⟨h.1, by rw [← h.1]; rfl, rfl⟩) ⟨rfl, rfl, rfl⟩ readings
  intro c hc
  obtain ⟨hsize, hsystem, hself⟩ := hstored c hc
  refine ⟨⟨hsystem, ?_⟩, ⟨hself, rfl⟩⟩
  rw [← hsize]
  rfl

/-- **Where the disk rates account for every byte.** For the system and for the
own process: exactly if no two consecutive readings fall into the same millisecond. -/
theorem diskRates_account_iff (p : HddProvider) (hddSectorSize : UInt32) (first : HddReading)
    (readings : List HddReading) :
    (((first :: readings).IsChain fun a b =>
        (systemCounters hddSectorSize a).NonDecreasing (systemCounters hddSectorSize b)) →
      (AccountsForBytes (systemCopy hddSectorSize) first readings
          (p.hddCalls hddSectorSize first readings) ↔
        (first :: readings).IsChain fun a b => a.systemMs ≠ b.systemMs)) ∧
    (((first :: readings).IsChain fun a b => (selfCounters a).NonDecreasing (selfCounters b)) →
      (AccountsForBytes selfCopy first readings (p.hddCalls hddSectorSize first readings) ↔
        (first :: readings).IsChain fun a b => a.selfMs ≠ b.selfMs)) := by
  have hmeasures := measures_of_mem_hddCalls p hddSectorSize first readings
  exact ⟨accountsForBytes_iff afterHddState fun c hc => (hmeasures c hc).1,
    accountsForBytes_iff afterHddState fun c hc => (hmeasures c hc).2⟩

def blank : HddProvider := ⟨⟨0, 0, 0⟩, ⟨0, 0, 0⟩, 0⟩

def firstReading : HddReading := ⟨1000, 2000, 1500000000000, 4096, 0, 1500000000000⟩

/-- A second later: 8 sectors of 512 bytes read, 4096 bytes written by the process. -/
def secondLater : HddReading := ⟨1008, 2000, 1500000001000, 4096, 4096, 1500000001001⟩

theorem diskRates_account_iff_second :
    AccountsForBytes (systemCopy 512) firstReading [secondLater]
      (blank.hddCalls 512 firstReading [secondLater]) ∧
    AccountsForBytes selfCopy firstReading [secondLater]
      (blank.hddCalls 512 firstReading [secondLater]) := by
  obtain ⟨hsystem, hself⟩ := diskRates_account_iff blank 512 firstReading [secondLater]
  refine ⟨(hsystem ?_).mpr ?_, (hself ?_).mpr ?_⟩
  · exact List.isChain_pair.mpr (by unfold HddCounters.NonDecreasing; decide)
  · exact List.isChain_pair.mpr (by decide)
  · exact List.isChain_pair.mpr (by unfold HddCounters.NonDecreasing; decide)
  · exact List.isChain_pair.mpr (by decide)

/-- Within one millisecond: the same reading again, and 512 bytes more. -/
def sameMillisecond : HddReading := ⟨1001, 2000, 1500000000000, 4608, 0, 1500000000000⟩

/-- Within one millisecond the rates are divided by 0, and the bytes are lost. -/
theorem two_readings_in_one_millisecond :
    [firstReading, sameMillisecond].IsChain (fun a b =>
      (systemCounters 512 a).NonDecreasing (systemCounters 512 b) ∧
      (selfCounters a).NonDecreasing (selfCounters b)) ∧
    ¬ AccountsForBytes (systemCopy 512) firstReading [sameMillisecond]
      (blank.hddCalls 512 firstReading [sameMillisecond]) ∧
    ¬ AccountsForBytes selfCopy firstReading [sameMillisecond]
      (blank.hddCalls 512 firstReading [sameMillisecond]) := by
  refine ⟨List.isChain_pair.mpr (by unfold HddCounters.NonDecreasing; decide), fun h => ?_,
    fun h => ?_⟩
  · exact h.divisor _ List.mem_cons_self (by decide)
  · exact h.divisor _ List.mem_cons_self (by decide)

end HddProvider
end ResMonitor
