import ResMonitor.Lib.RunLength
import ResMonitor.SamplingManager

/-! # What one poll does

`processTriggers` makes its calls while it walks the table. Their order and
number do not depend on what the callbacks do, so a poll is described once by
the list of its calls, and every pair of callbacks folds over that list.
For a trigger whose unit fits its resource no assertion fails, and the calls
and the counter are functions of the counter and the outcome of the
comparison. Over a run, the counter of a trigger of positive duration is the
run length modulo the duration. -/

namespace ResMonitor

/-- One call of a trigger callback. -/
inductive TriggerCall where
  | activate (t : TriggerType)
  | deactivate (t : TriggerType)
  deriving DecidableEq, Repr

def Callbacks.call {E : Type} (cb : Callbacks E) : E → TriggerCall → E
  | e, .activate t => cb.triggerActivate t e
  | e, .deactivate t => cb.triggerDeactivate t e

/-- Callbacks that write down their calls, oldest first. -/
def Callbacks.record : Callbacks (List TriggerCall) :=
  ⟨fun t e => e ++ [.activate t], fun t e => e ++ [.deactivate t]⟩

theorem Callbacks.foldl_record (calls e : List TriggerCall) :
    calls.foldl Callbacks.record.call e = e ++ calls := by
  induction calls generalizing e with
  | nil => simp
  | cons c calls ih =>
    have hc : Callbacks.record.call e c = e ++ [c] := by cases c <;> rfl
    rw [List.foldl_cons, hc, ih]
    simp

/-! ## One trigger in one poll -/

namespace TriggerType

/-- The counter of `t` once its comparison came out as `sat`, before the firing test. -/
def counted (sat : Bool) (c : Int) : Int := if sat then c + 1 else 0

def nextCounter (t : TriggerType) (sat : Bool) (c : Int) : Int :=
  if counted sat c = t.duration then 0 else counted sat c

def callsOf (t : TriggerType) (sat : Bool) (c : Int) : List TriggerCall :=
  (if !sat && decide (t.duration ≤ c) then [.deactivate t] else []) ++
    if counted sat c = t.duration then [.activate t] else []

end TriggerType

section OnePoll
variable {F E : Type} [Double F]

theorem countSample_eq (cb : Callbacks E) (sat : Bool) (t : TriggerType) (c : Int) (e : E) :
    (let r := SamplingManager.countSample cb sat t c e
     if r.1 = t.duration then (0, SamplingManager.fireTrigger cb t r.2) else r) =
      (t.nextCounter sat c, (t.callsOf sat c).foldl cb.call e) := by
  unfold SamplingManager.countSample SamplingManager.fireTrigger TriggerType.nextCounter
    TriggerType.callsOf TriggerType.counted
  cases sat with
  | true => by_cases h : c + 1 = t.duration <;> simp [h, Callbacks.call]
  | false =>
    by_cases hc : t.duration ≤ c <;> by_cases h : (0 : Int) = t.duration <;>
      simp [hc, h, Callbacks.call]

/-- The three branches of the loop body are one: compare, then count. -/
theorem processTrigger_eq (cb : Callbacks E) (x : Sample F) (t : TriggerType) (c : Int) (e : E) :
    SamplingManager.processTrigger cb x.cpu x.ram x.hdd t c e =
      match x.exceeds t with
      | .ok sat => .ok (t.nextCounter sat c, (t.callsOf sat c).foldl cb.call e)
      | .error a => .error a := by
  unfold SamplingManager.processTrigger Sample.exceeds
  have fire : ∀ r : Int × E, (if r.1 = t.duration then
      (.ok (0, SamplingManager.fireTrigger cb t r.2) : Except AssertFailure (Int × E))
      else .ok (r.1, r.2)) =
      .ok (if r.1 = t.duration then (0, SamplingManager.fireTrigger cb t r.2) else r) := by
    intro r; split <;> rfl
  cases t.resource with
  | cpu =>
    cases x.cpu.gt t with
    | error a => rfl
    | ok sat => exact (fire _).trans (congrArg Except.ok (countSample_eq cb sat t c e))
  | memory => exact (fire _).trans (congrArg Except.ok (countSample_eq cb _ t c e))
  | disk =>
    cases x.hdd.gt t with
    | error a => rfl
    | ok sat => exact (fire _).trans (congrArg Except.ok (countSample_eq cb sat t c e))

theorem processTrigger_of_unitFits (cb : Callbacks E) (x : Sample F) {t : TriggerType}
    (h : t.UnitFits) (c : Int) (e : E) :
    SamplingManager.processTrigger cb x.cpu x.ram x.hdd t c e =
      .ok (t.nextCounter (x.satisfies t) c, (t.callsOf (x.satisfies t) c).foldl cb.call e) := by
  rw [processTrigger_eq, x.exceeds_of_unitFits h]

end OnePoll

namespace SamplingManager
section Total
variable {F E : Type} [Double F]

/-- The calls one poll makes, in iteration order. -/
def callsIn (m : SamplingManager F) (x : Sample F) : List TriggerCall :=
  m.triggerStates.entries.flatMap fun e => e.1.callsOf (x.satisfies e.1) e.2

/-- A mean that is only asked for when the ring holds a sample. -/
def meanOr {α : Type} (add : α → α → α) (divide : α → F → α) (default : α)
    (samples : CircularBuffer α) (samplesNumber : Int) : α :=
  match samples.items.reverse with
  | [] => default
  | newest :: older => meanLoop add divide samplesNumber 1 newest older

/-- One log entry after one poll, given the mean it may store. -/
def storeLog {α : Type} (mean : Int → α) (logType : LogType) (entry : CircularBuffer α × Int) :
    CircularBuffer α × Int :=
  if entry.2 + 1 ≥ logType.resolution then (entry.1.pushBack (mean logType.resolution), 0)
  else (entry.1, entry.2 + 1)

/-- The log tables after `processLogs`, when the newest sample is `x`. -/
def storeLogs (m : SamplingManager F) (x : Sample F) : SamplingManager F :=
  { m with
    cpuLog := m.cpuLog.mapValues
      (storeLog (meanOr CpuState.add CpuState.divide x.cpu m.cpuSamples))
    ramLog := m.ramLog.mapValues
      (storeLog (meanOr RamState.add RamState.divide x.ram m.ramSamples))
    hddLog := m.hddLog.mapValues
      (storeLog (meanOr HddState.add HddState.divide x.hdd m.hddSamples)) }

/-- The sampler after a poll in which no assertion fails. -/
def polled (m : SamplingManager F) (x : Sample F) : SamplingManager F :=
  storeLogs { m.pushSample x with
    triggerStates := m.triggerStates.mapValues fun t c => t.nextCounter (x.satisfies t) c } x

theorem samplesMean_eq {α : Type} {add : α → α → α} {divide : α → F → α}
    {ring : CircularBuffer α} {x : α} (h : ring.back? = some x) (n : Int) :
    samplesMean add divide ring n = .ok (meanOr add divide x ring n) := by
  unfold samplesMean meanOr
  cases hr : ring.items.reverse with
  | nil =>
    have : ring.items = [] := by simpa using hr
    simp [CircularBuffer.back?, this] at h
  | cons newest older => rfl

theorem visit_processLog {α : Type} {mean : Int → Except AssertFailure α} {mean' : Int → α}
    (h : ∀ n, mean n = .ok (mean' n)) (log : Log α) :
    log.visit (processLog mean) () = .ok (log.mapValues (storeLog mean'), ()) := by
  refine UnorderedMap.visit_of_total (storeLog mean') (fun _ _ u => u) ?_ ()
  intro ⟨l, entry⟩ _ u
  unfold processLog storeLog
  by_cases hc : entry.2 + 1 ≥ l.resolution
  · simp [hc, h, bind, Except.bind]
  · simp [hc]

theorem processLogs_eq {m : SamplingManager F} {x : Sample F}
    (hc : m.cpuSamples.back? = some x.cpu) (hr : m.ramSamples.back? = some x.ram)
    (hh : m.hddSamples.back? = some x.hdd) : m.processLogs = .ok (m.storeLogs x) := by
  have h1 : ∀ n, m.getCpuSamplesMean n = .ok _ := fun n => samplesMean_eq hc n
  have h2 : ∀ n, m.getRamSamplesMean n = .ok _ := fun n => samplesMean_eq hr n
  have h3 : ∀ n, m.getHddSamplesMean n = .ok _ := fun n => samplesMean_eq hh n
  unfold processLogs
  rw [visit_processLog h1, visit_processLog h2, visit_processLog h3]
  rfl

/-- **A poll whose units fit.** No assertion fails, the calls are `callsIn`,
and the sampler becomes `polled`. -/
theorem poll_eq (cb : Callbacks E) (x : Sample F) (m : SamplingManager F) (e : E)
    (h : ∀ t ∈ m.triggerStates.keys, t.UnitFits) :
    m.poll cb x e = .ok (m.polled x, (m.callsIn x).foldl cb.call e) := by
  have hc := CircularBuffer.back?_pushBack m.cpuSamples_pos x.cpu
  have hr := CircularBuffer.back?_pushBack m.ramSamples_pos x.ram
  have hh := CircularBuffer.back?_pushBack m.hddSamples_pos x.hdd
  have hv := UnorderedMap.visit_of_total (fun t c => t.nextCounter (x.satisfies t) c)
    (fun t c e => (t.callsOf (x.satisfies t) c).foldl cb.call e)
    (fun en hen e => processTrigger_of_unitFits cb x
      (h en.1 (List.mem_map.mpr ⟨en, hen, rfl⟩)) en.2 e) e
  have hf : (m.callsIn x).foldl cb.call e = m.triggerStates.entries.foldl
      (fun e en => (en.1.callsOf (x.satisfies en.1) en.2).foldl cb.call e) e := by
    rw [callsIn, List.foldl_flatMap]
  have hp : processTriggers cb (m.pushSample x) e =
      .ok ({ m.pushSample x with
          triggerStates := m.triggerStates.mapValues fun t c => t.nextCounter (x.satisfies t) c },
        (m.callsIn x).foldl cb.call e) := by
    unfold processTriggers back
    simp only [pushSample, hc, hr, hh, bind, Except.bind] at hv ⊢
    rw [hv, hf]
  have hl : ({ m.pushSample x with
      triggerStates := m.triggerStates.mapValues fun t c => t.nextCounter (x.satisfies t) c } :
        SamplingManager F).processLogs = .ok (m.polled x) := processLogs_eq hc hr hh
  unfold poll
  rw [hp]
  simp only [bind, Except.bind, hl]

end Total
end SamplingManager

/-! ## The counter along a run -/

namespace TriggerType

/-- What the counter of `t` holds before poll `k`. -/
def counterBefore (t : TriggerType) (sat : Nat → Bool) (k : Nat) : Int :=
  if 0 < t.duration then ((RunLength.runBefore sat k % t.duration.toNat : Nat) : Int)
  else (RunLength.runBefore sat k : Int)

/-- The calls poll `k` makes for `t`. A trigger of duration 0 fires on the
samples that do not satisfy its comparison, right after deactivating. -/
def callsAt (t : TriggerType) (sat : Nat → Bool) (k : Nat) : List TriggerCall :=
  if 0 < t.duration then
    if RunLength.fires t.duration.toNat sat k then [.activate t] else []
  else if sat k then []
  else if t.duration = 0 then [.deactivate t, .activate t]
  else [.deactivate t]

theorem counter_step (t : TriggerType) (sat : Nat → Bool) (k : Nat) :
    t.nextCounter (sat k) (t.counterBefore sat k) = t.counterBefore sat (k + 1) ∧
    t.callsOf (sat k) (t.counterBefore sat k) = t.callsAt sat k := by
  unfold nextCounter callsOf counterBefore callsAt counted
  rw [RunLength.runBefore_succ]
  by_cases hd : 0 < t.duration
  · -- a positive duration: the library's timer of that period
    obtain ⟨d, hd'⟩ := Int.eq_ofNat_of_zero_le (Int.le_of_lt hd)
    have hpos : 0 < d := by omega
    obtain ⟨hval, hfire⟩ := RunLength.counter_step hpos sat k
    have hlt := Nat.mod_lt (RunLength.runBefore sat k) hpos
    rw [if_pos hd, if_pos hd, if_pos hd, hd', Int.toNat_natCast, ← hval]
    generalize RunLength.runBefore sat k % d = c at *
    cases hs : sat k with
    | true =>
      have hf : RunLength.fires d sat k = true ↔ c + 1 = d := by rw [hfire, hs]; simp
      by_cases he : c + 1 = d
      · have : (c : Int) + 1 = d := by omega
        simp [hf, he, this]
      · have : ¬ (c : Int) + 1 = d := by omega
        simp [hf, he, this]
    | false =>
      have hf : ¬ RunLength.fires d sat k = true := by rw [hfire, hs]; simp
      have h0 : ¬ (0 : Int) = d := by omega
      have hle : ¬ (d : Int) ≤ c := by omega
      simp [hf, h0, hle]
  · -- otherwise the counter never equals the duration on a satisfying sample
    rw [if_neg hd, if_neg hd, if_neg hd, RunLength.runLength_eq]
    generalize RunLength.runBefore sat k = b
    cases hs : sat k with
    | true =>
      have : ¬ (b : Int) + 1 = t.duration := by omega
      simp [this]
    | false =>
      have hle : t.duration ≤ (b : Int) := by omega
      by_cases h0 : t.duration = 0
      · simp [h0]
      · have : ¬ (0 : Int) = t.duration := by omega
        simp [h0, this, hle]

end TriggerType

section Run
variable {F E : Type} [Double F]

/-- The outcomes of `t`'s comparison along a stream of samples. -/
def outcomes (xs : Nat → Sample F) (t : TriggerType) (k : Nat) : Bool := (xs k).satisfies t

/-- The calls of poll `k` when the table is walked in the order `order`. -/
def callsIn (order : List TriggerType) (xs : Nat → Sample F) (k : Nat) : List TriggerCall :=
  order.flatMap fun t => t.callsAt (outcomes xs t) k

/-- The callbacks' state after the polls `r, …, r + n - 1`. -/
def runCalls (cb : Callbacks E) (order : List TriggerType) (xs : Nat → Sample F) (r : Nat) :
    Nat → E → E
  | 0, e => e
  | n + 1, e => (callsIn order xs (r + n)).foldl cb.call (runCalls cb order xs r n e)

/-- The trigger table as it is before poll `k`, in the order `order`. -/
def tableAt (order : List TriggerType) (xs : Nat → Sample F) (k : Nat) :
    List (TriggerType × Int) :=
  order.map fun t => (t, t.counterBefore (outcomes xs t) k)

namespace SamplingManager

/-- Poll `k` on the table of poll `k` makes the calls `callsIn` and leaves the
table of poll `k + 1`. -/
theorem poll_tableAt {order : List TriggerType} {xs : Nat → Sample F} {k : Nat}
    {m : SamplingManager F} (hm : m.triggerStates.entries = tableAt order xs k)
    (hu : ∀ t ∈ order, t.UnitFits) (cb : Callbacks E) (e : E) :
    m.poll cb (xs k) e = .ok (m.polled (xs k), (ResMonitor.callsIn order xs k).foldl cb.call e) ∧
    (m.polled (xs k)).triggerStates.entries = tableAt order xs (k + 1) := by
  have hkeys : m.triggerStates.keys = order := by
    simp [UnorderedMap.keys, hm, tableAt, Function.comp_def]
  have hcalls : m.callsIn (xs k) = ResMonitor.callsIn order xs k := by
    simp only [callsIn, ResMonitor.callsIn, hm, tableAt, List.flatMap_map]
    exact List.flatMap_congr fun t _ => (t.counter_step (outcomes xs t) k).2
  refine ⟨?_, ?_⟩
  · rw [poll_eq cb (xs k) m e (by rw [hkeys]; exact hu), hcalls]
  · simp only [polled, UnorderedMap.mapValues, hm, tableAt, List.map_map]
    exact List.map_congr_left fun t _ =>
      Prod.ext rfl (t.counter_step (outcomes xs t) k).1

/-- **A run whose units fit.** It never aborts; the callbacks' state is
`runCalls`, and the table is that of the poll reached. -/
theorem polls_tableAt {order : List TriggerType} {xs : Nat → Sample F} {r : Nat}
    {m : SamplingManager F} (hm : m.triggerStates.entries = tableAt order xs r)
    (hu : ∀ t ∈ order, t.UnitFits) (cb : Callbacks E) (e : E) (n : Nat) :
    ∃ m', m.polls cb xs r n e = .ok (m', runCalls cb order xs r n e) ∧
      m'.triggerStates.entries = tableAt order xs (r + n) := by
  induction n with
  | zero => exact ⟨m, rfl, hm⟩
  | succ n ih =>
    obtain ⟨m', hrun, htab⟩ := ih
    obtain ⟨hpoll, htab'⟩ := poll_tableAt htab hu cb (runCalls cb order xs r n e)
    refine ⟨_, ?_, htab'⟩
    simp only [polls, hrun, bind, Except.bind]
    exact hpoll

end SamplingManager

/-! ## The table a sampler starts with -/

theorem initializeTriggers_spec (triggerTypes : List TriggerType) :
    (∀ e ∈ (SamplingManager.initializeTriggers triggerTypes).entries, e.2 = 0) ∧
    ∀ t, t ∈ (SamplingManager.initializeTriggers triggerTypes).keys ↔ t ∈ triggerTypes := by
  suffices h : ∀ (ts : List TriggerType) (m : UnorderedMap TriggerType Int),
      (∀ e ∈ m.entries, e.2 = 0) →
      (∀ e ∈ (ts.foldl (fun s t => s.insert t 0) m).entries, e.2 = 0) ∧
      ∀ t, t ∈ (ts.foldl (fun s t => s.insert t 0) m).keys ↔ t ∈ ts ∨ t ∈ m.keys by
    obtain ⟨hz, hk⟩ := h triggerTypes .empty (by intro e he; cases he)
    refine ⟨hz, fun t => (hk t).trans ?_⟩
    simp [UnorderedMap.keys, UnorderedMap.empty]
  intro ts
  induction ts with
  | nil => intro m hm; exact ⟨hm, fun t => by simp⟩
  | cons a ts ih =>
    intro m hm
    obtain ⟨hz, hk⟩ := ih (m.insert a 0) (by
      rintro ⟨t, c⟩ he
      rw [← UnorderedMap.find?_eq_some_iff, UnorderedMap.find?_insert] at he
      split at he
      · exact (Option.some.inj he).symm
      · exact hm (t, c) ((UnorderedMap.find?_eq_some_iff _ _ _).mp he))
    refine ⟨hz, fun t => (hk t).trans ?_⟩
    rw [UnorderedMap.mem_keys_insert, List.mem_cons]
    tauto

variable {logTypes : List LogType} {triggerTypes : List TriggerType}

omit [Double F] in
theorem SamplingManager.ConstructedFrom.triggerStates {m : SamplingManager F}
    (h : m.ConstructedFrom logTypes triggerTypes) :
    m.triggerStates.Reordered (initializeTriggers triggerTypes) := by
  obtain ⟨m₀, hc, _, _, _, _, _, _, ht⟩ := h.built
  rw [← (construct_ok hc).2.2.2]
  exact ht

omit [Double F] in
/-- The constructor's own result, in the order it was built in. -/
theorem SamplingManager.constructedFrom_construct {m : SamplingManager F}
    (h : construct logTypes triggerTypes = .ok m) : m.ConstructedFrom logTypes triggerTypes :=
  ⟨m, h, rfl, rfl, rfl, .refl _, .refl _, .refl _, .refl _⟩

/-- A new sampler without logs. -/
def SamplingManager.unlogged (triggerTypes : List TriggerType) : SamplingManager F where
  cpuSamples := sampleRing .cpu []
  ramSamples := sampleRing .memory []
  hddSamples := sampleRing .disk []
  cpuLog := .empty
  ramLog := .empty
  hddLog := .empty
  triggerStates := initializeTriggers triggerTypes
  cpuSamples_pos := sampleRing_pos _ _
  ramSamples_pos := sampleRing_pos _ _
  hddSamples_pos := sampleRing_pos _ _

omit [Double F] in
theorem SamplingManager.unlogged_constructed (triggerTypes : List TriggerType) :
    (unlogged triggerTypes : SamplingManager F).ConstructedFrom [] triggerTypes :=
  constructedFrom_construct rfl

omit [Double F] in
/-- The keys of a new sampler are the configured triggers, each once, whatever
the list repeats. -/
theorem SamplingManager.ConstructedFrom.mem_keys {m : SamplingManager F}
    (h : m.ConstructedFrom logTypes triggerTypes) (t : TriggerType) :
    t ∈ m.triggerStates.keys ↔ t ∈ triggerTypes :=
  h.triggerStates.keys.mem_iff.trans ((initializeTriggers_spec triggerTypes).2 t)

theorem SamplingManager.ConstructedFrom.tableAt {m : SamplingManager F}
    (h : m.ConstructedFrom logTypes triggerTypes) (xs : Nat → Sample F) :
    m.triggerStates.entries = ResMonitor.tableAt m.triggerStates.keys xs 0 := by
  have hz : ∀ e ∈ m.triggerStates.entries, e.2 = 0 := fun e he =>
    (initializeTriggers_spec triggerTypes).1 e (h.triggerStates.mem_iff.mp he)
  simp only [ResMonitor.tableAt, UnorderedMap.keys, List.map_map]
  refine ((List.map_congr_left fun e he => ?_).trans (List.map_id _)).symm
  have := hz e he
  simp [TriggerType.counterBefore, RunLength.runBefore, Prod.ext_iff, this]

end Run
end ResMonitor
