import ResMonitor.Lib.CircularBuffer
import ResMonitor.Lib.UnorderedMap
import ResMonitor.ResStates

/-! # The sampling manager

One poll takes a sample of each resource into the sample rings, compares it
with every trigger and lets every log store a mean when its resolution has
elapsed. The trigger callbacks are parameters: `E` is whatever they act on.
The time stamps of the samples are not kept, nothing reads them. -/

namespace ResMonitor

/-- `std::length_error`: a ring of negative size was asked for. -/
inductive ConstructFailure where
  | lengthError
  deriving DecidableEq, Repr

abbrev Log (α : Type) := UnorderedMap LogType (CircularBuffer α × Int)

structure SamplingManager (F : Type) where
  cpuSamples : CircularBuffer (CpuState F)
  ramSamples : CircularBuffer (RamState F)
  hddSamples : CircularBuffer (HddState F)
  cpuLog : Log (CpuState F)
  ramLog : Log (RamState F)
  hddLog : Log (HddState F)
  triggerStates : UnorderedMap TriggerType Int
  cpuSamples_pos : 0 < cpuSamples.capacity
  ramSamples_pos : 0 < ramSamples.capacity
  hddSamples_pos : 0 < hddSamples.capacity

/-- The two `std::function` members. -/
structure Callbacks (E : Type) where
  triggerActivate : TriggerType → E → E
  triggerDeactivate : TriggerType → E → E

/-- The default arguments of the constructor: callbacks that do nothing. -/
def Callbacks.default : Callbacks Unit := ⟨fun _ e => e, fun _ e => e⟩

namespace SamplingManager
variable {F E : Type}

/-! ## Construction -/

/-- The largest resolution configured for a resource, at least 1. -/
def maxResolution (resource : Resource) (logTypes : List LogType) : Int :=
  logTypes.foldl (fun m log => if log.resource = resource then max m log.resolution else m) 1

theorem maxResolution_pos (resource : Resource) (logTypes : List LogType) :
    1 ≤ maxResolution resource logTypes := by
  unfold maxResolution
  suffices h : ∀ m : Int, 1 ≤ m → 1 ≤ logTypes.foldl
      (fun m log => if log.resource = resource then max m log.resolution else m) m by
    exact h 1 (Int.le_refl 1)
  induction logTypes with
  | nil => exact fun m hm => hm
  | cons l ls ih =>
    intro m hm
    simp only [List.foldl_cons]
    apply ih
    split <;> omega

/-- `size` of a log's ring; the division is C's, towards zero. -/
def logSize (logType : LogType) : Int :=
  if logType.resolution > 0 then logType.duration.tdiv logType.resolution else 1

/-- `boost::circular_buffer(size)` for a signed size. -/
def makeRing {α : Type} (size : Int) : Except ConstructFailure (CircularBuffer α) :=
  if size < 0 then .error .lengthError else .ok (.ofCapacity size.toNat)

/-- The log table of one resource. A log type already present is assigned a
new ring. -/
def initializeLog {α : Type} (resource : Resource) :
    List LogType → Log α → Except ConstructFailure (Log α)
  | [], log => .ok log
  | logType :: rest, log =>
    if logType.resource = resource then
      match makeRing (logSize logType) with
      | .ok ring => initializeLog resource rest (log.insert logType (ring, 0))
      | .error e => .error e
    else initializeLog resource rest log

def initializeTriggers (triggerTypes : List TriggerType) : UnorderedMap TriggerType Int :=
  triggerTypes.foldl (fun states trigger => states.insert trigger 0) .empty

def sampleRing {α : Type} (resource : Resource) (logTypes : List LogType) : CircularBuffer α :=
  .ofCapacity (maxResolution resource logTypes).toNat

theorem sampleRing_pos {α : Type} (resource : Resource) (logTypes : List LogType) :
    0 < (sampleRing resource logTypes : CircularBuffer α).capacity := by
  have := maxResolution_pos resource logTypes
  simp only [sampleRing, CircularBuffer.capacity_ofCapacity]
  omega

/-- The constructor. -/
def construct (logTypes : List LogType) (triggerTypes : List TriggerType) :
    Except ConstructFailure (SamplingManager F) := do
  let cpuLog ← initializeLog .cpu logTypes .empty
  let ramLog ← initializeLog .memory logTypes .empty
  let hddLog ← initializeLog .disk logTypes .empty
  .ok {
    cpuSamples := sampleRing .cpu logTypes
    ramSamples := sampleRing .memory logTypes
    hddSamples := sampleRing .disk logTypes
    cpuLog, ramLog, hddLog
    triggerStates := initializeTriggers triggerTypes
    cpuSamples_pos := sampleRing_pos _ _
    ramSamples_pos := sampleRing_pos _ _
    hddSamples_pos := sampleRing_pos _ _ }

/-- What the constructor leaves, if it does not throw. -/
theorem construct_ok {logTypes : List LogType} {triggerTypes : List TriggerType}
    {m : SamplingManager F} (h : construct logTypes triggerTypes = .ok m) :
    (initializeLog .cpu logTypes .empty = .ok m.cpuLog ∧
      m.cpuSamples = sampleRing .cpu logTypes) ∧
    (initializeLog .memory logTypes .empty = .ok m.ramLog ∧
      m.ramSamples = sampleRing .memory logTypes) ∧
    (initializeLog .disk logTypes .empty = .ok m.hddLog ∧
      m.hddSamples = sampleRing .disk logTypes) ∧
    m.triggerStates = initializeTriggers triggerTypes := by
  unfold construct at h
  cases hcpu : initializeLog .cpu logTypes (.empty : Log (CpuState F)) with
  | error e => rw [hcpu] at h; cases h
  | ok cpuLog =>
  cases hram : initializeLog .memory logTypes (.empty : Log (RamState F)) with
  | error e => rw [hcpu, hram] at h; cases h
  | ok ramLog =>
  cases hhdd : initializeLog .disk logTypes (.empty : Log (HddState F)) with
  | error e => rw [hcpu, hram, hhdd] at h; cases h
  | ok hddLog =>
    rw [hcpu, hram, hhdd] at h
    cases h
    exact ⟨⟨rfl, rfl⟩, ⟨rfl, rfl⟩, ⟨rfl, rfl⟩, rfl⟩

/-- Constructed from a configuration, its hash tables in any iteration order. -/
structure ConstructedFrom (logTypes : List LogType) (triggerTypes : List TriggerType)
    (m : SamplingManager F) : Prop where
  built : ∃ m₀ : SamplingManager F, construct logTypes triggerTypes = .ok m₀ ∧
    m.cpuSamples = m₀.cpuSamples ∧ m.ramSamples = m₀.ramSamples ∧
    m.hddSamples = m₀.hddSamples ∧ m.cpuLog.Reordered m₀.cpuLog ∧
    m.ramLog.Reordered m₀.ramLog ∧ m.hddLog.Reordered m₀.hddLog ∧
    m.triggerStates.Reordered m₀.triggerStates

/-! ## Triggers -/

def fireTrigger (cb : Callbacks E) (trigger : TriggerType) (e : E) : E :=
  cb.triggerActivate trigger e

/-- What each branch of `processTriggers` does with its comparison: count a
sample that exceeds, else deactivate if the counter had reached the duration,
and start over. -/
def countSample (cb : Callbacks E) (exceeded : Bool) (trigger : TriggerType) (counter : Int)
    (e : E) : Int × E :=
  if exceeded then (counter + 1, e)
  else (0, if counter ≥ trigger.duration then cb.triggerDeactivate trigger e else e)

/-- The loop body of `processTriggers` for one entry: its new counter, and
what the callbacks made of `e`. -/
def processTrigger [Double F] (cb : Callbacks E) (lastCpuState : CpuState F)
    (lastRamState : RamState F) (lastHddState : HddState F)
    (trigger : TriggerType) (counter : Int) (e : E) : Except AssertFailure (Int × E) := do
  let (counter, e) ← match trigger.resource with
    | .cpu => do .ok (countSample cb (← lastCpuState.gt trigger) trigger counter e)
    | .memory => .ok (countSample cb (lastRamState.gt trigger) trigger counter e)
    | .disk => do .ok (countSample cb (← lastHddState.gt trigger) trigger counter e)
  -- if trigger duration exceeds, fire it
  if counter = trigger.duration then .ok (0, fireTrigger cb trigger e) else .ok (counter, e)

/-- `back()` of a sample ring. -/
def back {α : Type} (ring : CircularBuffer α) : Except AssertFailure α :=
  match ring.back? with
  | some x => .ok x
  | none => .error .emptyBuffer

def processTriggers [Double F] (cb : Callbacks E) (m : SamplingManager F) (e : E) :
    Except AssertFailure (SamplingManager F × E) := do
  let lastCpuState ← back m.cpuSamples
  let lastRamState ← back m.ramSamples
  let lastHddState ← back m.hddSamples
  let (triggerStates, e) ← m.triggerStates.visit
    (processTrigger cb lastCpuState lastRamState lastHddState) e
  .ok ({ m with triggerStates }, e)

/-! ## Logs -/

/-- The loop of the three `get*SamplesMean`: from the second newest sample on,
at most `samplesNumber` samples in all, dividing after each addition. -/
def meanLoop {α : Type} [Double F] (add : α → α → α) (divide : α → F → α)
    (samplesNumber : Int) : Int → α → List α → α
  | _, state, [] => state
  | i, state, x :: older =>
    if i < samplesNumber then
      meanLoop add divide samplesNumber (i + 1) (divide (add state x) (samplesNumber : F)) older
    else state

def samplesMean {α : Type} [Double F] (add : α → α → α) (divide : α → F → α)
    (samples : CircularBuffer α) (samplesNumber : Int) : Except AssertFailure α :=
  match samples.items.reverse with
  | [] => .error .emptyBuffer
  | newest :: older => .ok (meanLoop add divide samplesNumber 1 newest older)

section Means
variable [Double F]

def getCpuSamplesMean (m : SamplingManager F) (samplesNumber : Int) :
    Except AssertFailure (CpuState F) :=
  samplesMean CpuState.add CpuState.divide m.cpuSamples samplesNumber

def getRamSamplesMean (m : SamplingManager F) (samplesNumber : Int) :
    Except AssertFailure (RamState F) :=
  samplesMean RamState.add RamState.divide m.ramSamples samplesNumber

def getHddSamplesMean (m : SamplingManager F) (samplesNumber : Int) :
    Except AssertFailure (HddState F) :=
  samplesMean HddState.add HddState.divide m.hddSamples samplesNumber

end Means

/-- The loop body of `processLogs` for one entry of a log table. -/
def processLog {α : Type} (mean : Int → Except AssertFailure α) (logType : LogType)
    (entry : CircularBuffer α × Int) (u : Unit) :
    Except AssertFailure ((CircularBuffer α × Int) × Unit) :=
  let secondsSinceLastLog := entry.2 + 1
  if secondsSinceLastLog ≥ logType.resolution then do
    -- time to compute mean of (logType.duration) samples
    let stateMean ← mean logType.resolution
    .ok ((entry.1.pushBack stateMean, 0), u)
  else .ok ((entry.1, secondsSinceLastLog), u)

def processLogs [Double F] (m : SamplingManager F) :
    Except AssertFailure (SamplingManager F) := do
  let (cpuLog, _) ← m.cpuLog.visit (processLog m.getCpuSamplesMean) ()
  let (ramLog, _) ← m.ramLog.visit (processLog m.getRamSamplesMean) ()
  let (hddLog, _) ← m.hddLog.visit (processLog m.getHddSamplesMean) ()
  .ok { m with cpuLog, ramLog, hddLog }

/-- `getCpuLog`, `getRamLog` and `getHddLog`: `at`, which fails on a key that
is not there. -/
def getCpuLog (m : SamplingManager F) (logType : LogType) : Option (CircularBuffer (CpuState F)) :=
  (m.cpuLog.find? logType).map Prod.fst

def getRamLog (m : SamplingManager F) (logType : LogType) : Option (CircularBuffer (RamState F)) :=
  (m.ramLog.find? logType).map Prod.fst

def getHddLog (m : SamplingManager F) (logType : LogType) : Option (CircularBuffer (HddState F)) :=
  (m.hddLog.find? logType).map Prod.fst

/-! ## Polls -/

/-- The three readings go into the sample rings. -/
def pushSample (m : SamplingManager F) (x : Sample F) : SamplingManager F :=
  { m with
    cpuSamples := m.cpuSamples.pushBack x.cpu
    ramSamples := m.ramSamples.pushBack x.ram
    hddSamples := m.hddSamples.pushBack x.hdd
    cpuSamples_pos := by rw [CircularBuffer.capacity_pushBack]; exact m.cpuSamples_pos
    ramSamples_pos := by rw [CircularBuffer.capacity_pushBack]; exact m.ramSamples_pos
    hddSamples_pos := by rw [CircularBuffer.capacity_pushBack]; exact m.hddSamples_pos }

/-- One turn of the loop of `pollingFunction`. -/
def poll [Double F] (cb : Callbacks E) (x : Sample F) (m : SamplingManager F) (e : E) :
    Except AssertFailure (SamplingManager F × E) := do
  let (m, e) ← processTriggers cb (m.pushSample x) e
  let m ← m.processLogs
  .ok (m, e)

/-- `n` polls, numbered from `r`, on a stream of samples. -/
def polls [Double F] (cb : Callbacks E) (xs : Nat → Sample F) (r : Nat) :
    Nat → SamplingManager F → E → Except AssertFailure (SamplingManager F × E)
  | 0, m, e => .ok (m, e)
  | n + 1, m, e => do
    let (m, e) ← polls cb xs r n m e
    m.poll cb (xs (r + n)) e

end SamplingManager
end ResMonitor
