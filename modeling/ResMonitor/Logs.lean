import ResMonitor.Activation
import ResMonitor.Lib.Windows

/-! # Logs

Two configured logs of the same resource and resolution share one entry of the
log table, and the later one replaces the ring: the log returned for either
has the size of the last one. With that size, the ring fills by one entry
every `resolution` polls. -/

namespace ResMonitor
variable {F : Type}

/-! ## Construction -/

/-- The last configured log that is found under the key `l`. -/
def lastLike (logTypes : List LogType) (l : LogType) : Option LogType :=
  (logTypes.filter (· == l)).getLast?

theorem exists_lastLike {logTypes : List LogType} {l : LogType} (h : l ∈ logTypes) :
    ∃ l', lastLike logTypes l = some l' ∧ l' ∈ logTypes ∧ l'.resource = l.resource ∧
      l'.resolution = l.resolution := by
  have hne : logTypes.filter (· == l) ≠ [] :=
    List.ne_nil_of_mem (List.mem_filter.mpr ⟨h, BEq.rfl⟩)
  obtain ⟨hin, heq⟩ := List.mem_filter.mp (List.getLast_mem hne)
  obtain ⟨hres, hsol⟩ := LogType.beq_iff.mp heq
  exact ⟨_, List.getLast?_eq_some_getLast hne, hin, hres, hsol⟩

namespace SamplingManager

/-- The table holds, under each key, the ring of the last log with that key. -/
theorem find?_initializeLog {α : Type} {resource : Resource} {logTypes : List LogType}
    {log log' : Log α} (h : initializeLog resource logTypes log = .ok log') {l : LogType}
    (hl : l.resource = resource) :
    (∀ l' ∈ logTypes, l'.resource = resource → 0 ≤ logSize l') ∧
    log'.find? l = match lastLike logTypes l with
      | some l' => some (.ofCapacity (logSize l').toNat, 0)
      | none => log.find? l := by
  induction logTypes generalizing log with
  | nil =>
    cases h
    exact ⟨fun l' hl' => absurd hl' List.not_mem_nil, rfl⟩
  | cons a logTypes ih =>
    unfold initializeLog at h
    by_cases ha : a.resource = resource
    · rw [if_pos ha] at h
      by_cases hneg : logSize a < 0
      · simp only [makeRing, if_pos hneg] at h
        cases h
      · simp only [makeRing, if_neg hneg] at h
        obtain ⟨hpos, hfind⟩ := ih h
        refine ⟨?_, ?_⟩
        · intro l' hl' hres
          rcases List.mem_cons.mp hl' with rfl | hl'
          · omega
          · exact hpos l' hl' hres
        · rw [hfind, lastLike, lastLike, List.filter_cons, UnorderedMap.find?_insert]
          cases hal : a == l with
          | true =>
            simp only [if_true, List.getLast?_cons]
            cases (logTypes.filter (· == l)).getLast? <;> rfl
          | false =>
            rw [if_neg Bool.false_ne_true]
            rfl
    · rw [if_neg ha] at h
      obtain ⟨hpos, hfind⟩ := ih h
      have hal : ¬ (a == l) = true := fun heq => ha ((LogType.beq_iff.mp heq).1.trans hl)
      refine ⟨?_, ?_⟩
      · intro l' hl' hres
        rcases List.mem_cons.mp hl' with rfl | hl'
        · exact absurd hres ha
        · exact hpos l' hl' hres
      · rw [hfind, lastLike, lastLike, List.filter_cons, if_neg hal]

/-! ## Shapes

What matters of a log entry here: the capacity and the size of its ring, and
its counter. -/

/-- Capacity, size and counter. -/
def shape {α : Type} (entry : CircularBuffer α × Int) : Nat × Nat × Int :=
  (entry.1.capacity, entry.1.size, entry.2)

def logShape (m : SamplingManager F) (l : LogType) : Option (Nat × Nat × Int) :=
  match l.resource with
  | .cpu => (m.cpuLog.find? l).map shape
  | .memory => (m.ramLog.find? l).map shape
  | .disk => (m.hddLog.find? l).map shape

/-- Capacity and size of the ring that `getCpuLog`, `getRamLog` or `getHddLog` returns. -/
def getLog (m : SamplingManager F) (l : LogType) : Option (Nat × Nat) :=
  match l.resource with
  | .cpu => (m.getCpuLog l).map fun ring => (ring.capacity, ring.size)
  | .memory => (m.getRamLog l).map fun ring => (ring.capacity, ring.size)
  | .disk => (m.getHddLog l).map fun ring => (ring.capacity, ring.size)

theorem getLog_eq (m : SamplingManager F) (l : LogType) :
    m.getLog l = (m.logShape l).map fun s => (s.1, s.2.1) := by
  unfold getLog logShape getCpuLog getRamLog getHddLog
  cases l.resource <;> simp only [Option.map_map] <;> rfl

/-- One poll, on the shape of an entry of the given resolution. -/
def storeShape (resolution : Int) : Nat × Nat × Int → Nat × Nat × Int
  | (capacity, size, counter) =>
    if counter + 1 ≥ resolution then (capacity, min (size + 1) capacity, 0)
    else (capacity, size, counter + 1)

theorem shape_storeLog {α : Type} (mean : Int → α) (l : LogType) (entry : CircularBuffer α × Int) :
    shape (storeLog mean l entry) = storeShape l.resolution (shape entry) := by
  unfold storeLog storeShape shape
  by_cases h : entry.2 + 1 ≥ l.resolution
  · simp [if_pos h, CircularBuffer.size_pushBack]
  · simp [if_neg h]

/-- Keys that are equal have the same resolution, so any of them tells how the entry develops. -/
theorem find?_storeLog {α : Type} (mean : Int → α) (log : Log α) (l : LogType) :
    ((log.mapValues (storeLog mean)).find? l).map shape =
      ((log.find? l).map shape).map (storeShape l.resolution) := by
  rw [UnorderedMap.find?_mapValues, UnorderedMap.find?]
  cases hf : log.entries.find? fun e => e.1 == l with
  | none => rfl
  | some e =>
    have hkey : (e.1 == l) = true := by simpa using List.find?_some hf
    simp only [Option.map_some, shape_storeLog, (LogType.beq_iff.mp hkey).2]

theorem logShape_polled [Double F] (m : SamplingManager F) (x : Sample F) (l : LogType) :
    (m.polled x).logShape l = (m.logShape l).map (storeShape l.resolution) := by
  unfold logShape
  cases l.resource with
  | cpu => exact find?_storeLog _ m.cpuLog l
  | memory => exact find?_storeLog _ m.ramLog l
  | disk => exact find?_storeLog _ m.hddLog l

theorem logShape_constructed {logTypes : List LogType} {triggerTypes : List TriggerType}
    {m : SamplingManager F} (hm : m.ConstructedFrom logTypes triggerTypes) {l l' : LogType}
    (hl : lastLike logTypes l = some l') :
    m.logShape l = some ((logSize l').toNat, 0, 0) ∧
    ∀ a ∈ logTypes, a.resource = l.resource → 0 ≤ logSize a := by
  obtain ⟨m₀, hcon, _, _, _, hcpu, hram, hhdd, _⟩ := hm.built
  obtain ⟨⟨hinitCpu, _⟩, ⟨hinitRam, _⟩, ⟨hinitHdd, _⟩, _⟩ := construct_ok hcon
  unfold logShape
  cases hr : l.resource with
  | cpu =>
    obtain ⟨hpos, hfind⟩ := find?_initializeLog hinitCpu hr
    rw [hl] at hfind
    exact ⟨by rw [hcpu.find?, hfind]; rfl, hpos⟩
  | memory =>
    obtain ⟨hpos, hfind⟩ := find?_initializeLog hinitRam hr
    rw [hl] at hfind
    exact ⟨by rw [hram.find?, hfind]; rfl, hpos⟩
  | disk =>
    obtain ⟨hpos, hfind⟩ := find?_initializeLog hinitHdd hr
    rw [hl] at hfind
    exact ⟨by rw [hhdd.find?, hfind]; rfl, hpos⟩

/-! ## Runs -/

/-- `n` polls take an entry of resolution `r ≥ 1` to the remainder of `n` and
one more mean for every full `r`. -/
theorem iterate_storeShape {resolution : Int} (hr : 1 ≤ resolution) (capacity n : Nat) :
    (storeShape resolution)^[n] (capacity, 0, 0) =
      (capacity, min (n / resolution.toNat) capacity, ((n % resolution.toNat : Nat) : Int)) := by
  obtain ⟨r, rfl⟩ := Int.eq_ofNat_of_zero_le (show 0 ≤ resolution by omega)
  have hpos : 0 < r := by omega
  rw [Int.toNat_natCast]
  induction n with
  | zero => simp
  | succ n ih =>
    rw [Function.iterate_succ_apply', ih, storeShape]
    have hnext := Windows.succ_mod_div hpos n
    split at hnext
    · -- the resolution has elapsed
      obtain ⟨hlast, hmod, hdiv⟩ := hnext
      rw [if_pos (by omega), hmod, hdiv]
      simp only [Nat.cast_zero, Prod.mk.injEq, and_true, true_and]
      omega
    · obtain ⟨hlast, hmod, hdiv⟩ := hnext
      rw [if_neg (by omega), hmod, hdiv, Nat.cast_add, Nat.cast_one]

section Run
variable [Double F]

theorem logShape_polls {m : SamplingManager F} (hu : ∀ t ∈ m.triggerStates.keys, t.UnitFits)
    (xs : Nat → Sample F) (l : LogType) (n : Nat) :
    ∃ m', m.polls Callbacks.default xs 0 n () = .ok (m', ()) ∧
      m'.triggerStates.keys = m.triggerStates.keys ∧
      m'.logShape l = (m.logShape l).map (storeShape l.resolution)^[n] := by
  induction n with
  | zero => exact ⟨m, rfl, rfl, by simp⟩
  | succ n ih =>
    obtain ⟨m', hrun, hkeys, hshape⟩ := ih
    refine ⟨m'.polled (xs (0 + n)), ?_, ?_, ?_⟩
    · simp only [polls, hrun, bind, Except.bind]
      exact poll_eq Callbacks.default (xs (0 + n)) m' () (by rw [hkeys]; exact hu)
    · exact (UnorderedMap.keys_mapValues _ m'.triggerStates).trans hkeys
    · rw [logShape_polled, hshape, Option.map_map, Function.iterate_succ']

end Run
end SamplingManager

section OwnHistory
variable [Double F]

/-- After every number of polls, the log returned for `l` has room for
`duration / resolution` means, and holds one for every full `resolution`, as
far as there is room. -/
def KeepsOwnHistory (m : SamplingManager F) (xs : Nat → Sample F) (l : LogType) : Prop :=
  ∀ n : Nat, ∃ m' capacity size, m.polls Callbacks.default xs 0 n () = .ok (m', ()) ∧
    m'.getLog l = some (capacity, size) ∧
    (capacity : Int) = l.duration.tdiv l.resolution ∧
    (size : Int) = min ((n : Int) / l.resolution) (l.duration.tdiv l.resolution)

/-- **Which logs keep their own history.** Those with room for as many means
as the last log of the same resource and resolution. -/
theorem keepsOwnHistory_iff {logTypes : List LogType} {triggerTypes : List TriggerType}
    {m : SamplingManager F} (hm : m.ConstructedFrom logTypes triggerTypes)
    (hu : ∀ t ∈ triggerTypes, t.UnitFits) {l : LogType} (hl : l ∈ logTypes)
    (hr : 1 ≤ l.resolution) (xs : Nat → Sample F) :
    KeepsOwnHistory m xs l ↔ ∀ l', lastLike logTypes l = some l' →
      l'.duration.tdiv l.resolution = l.duration.tdiv l.resolution := by
  have hu' : ∀ t ∈ m.triggerStates.keys, t.UnitFits := fun t ht => hu t ((hm.mem_keys t).mp ht)
  obtain ⟨l', hlast, hin, hres, hsol⟩ := exists_lastLike hl
  obtain ⟨hinit, hpos⟩ := SamplingManager.logShape_constructed hm hlast
  have hsize : ∀ a : LogType, a.resolution = l.resolution →
      SamplingManager.logSize a = a.duration.tdiv l.resolution := by
    intro a ha
    rw [SamplingManager.logSize, ha, if_pos (by omega)]
  have hcap : ((SamplingManager.logSize l').toNat : Int) = l'.duration.tdiv l.resolution := by
    rw [Int.toNat_of_nonneg (hpos l' hin hres), hsize l' hsol]
  have hrun : ∀ n : Nat, ∃ m', m.polls Callbacks.default xs 0 n () = .ok (m', ()) ∧
      m'.getLog l = some ((SamplingManager.logSize l').toNat,
        min (n / l.resolution.toNat) (SamplingManager.logSize l').toNat) := by
    intro n
    obtain ⟨m', hrun, _, hshape⟩ := SamplingManager.logShape_polls hu' xs l n
    refine ⟨m', hrun, ?_⟩
    rw [SamplingManager.getLog_eq, hshape, hinit, Option.map_some,
      SamplingManager.iterate_storeShape hr]
    rfl
  constructor
  · intro h l'' hl''
    obtain rfl : l' = l'' := Option.some.inj (hlast.symm.trans hl'')
    obtain ⟨m', hpolls, hlog⟩ := hrun 0
    obtain ⟨m'', capacity, size, hpolls', hlog', hc, _⟩ := h 0
    rw [hpolls] at hpolls'
    cases hpolls'
    rw [hlog] at hlog'
    cases hlog'
    rw [← hc, hcap]
  · intro h n
    have heq := h l' hlast
    obtain ⟨m', hpolls, hlog⟩ := hrun n
    refine ⟨m', _, _, hpolls, hlog, hcap.trans heq, ?_⟩
    have hdiv : ((n / l.resolution.toNat : Nat) : Int) = (n : Int) / l.resolution := by
      rw [Int.natCast_ediv, Int.toNat_of_nonneg (by omega)]
    rw [← hdiv, ← heq, ← hcap]
    omega

/-- `log cpu for {3h, 12h} resolution 30s` -/
def cpuLogs : List LogType := [⟨.cpu, 10800, 30⟩, ⟨.cpu, 43200, 30⟩]

def cpuLogsSampler : SamplingManager Rat where
  cpuSamples := SamplingManager.sampleRing .cpu cpuLogs
  ramSamples := SamplingManager.sampleRing .memory cpuLogs
  hddSamples := SamplingManager.sampleRing .disk cpuLogs
  cpuLog := UnorderedMap.empty.insert ⟨.cpu, 10800, 30⟩ (.ofCapacity 1440, 0)
  ramLog := .empty
  hddLog := .empty
  triggerStates := .empty
  cpuSamples_pos := SamplingManager.sampleRing_pos _ _
  ramSamples_pos := SamplingManager.sampleRing_pos _ _
  hddSamples_pos := SamplingManager.sampleRing_pos _ _

theorem cpuLogsSampler_constructed : cpuLogsSampler.ConstructedFrom cpuLogs [] :=
  SamplingManager.constructedFrom_construct rfl

/-- The three hour log is returned with the twelve hour ring, of 1440 entries. -/
theorem three_hours_in_twelve :
    ⟨.cpu, 10800, 30⟩ ∈ cpuLogs ∧ cpuLogsSampler.getLog ⟨.cpu, 10800, 30⟩ = some (1440, 0) ∧
    ¬ KeepsOwnHistory cpuLogsSampler (fun _ => mockSample 85) ⟨.cpu, 10800, 30⟩ := by
  have hlog : cpuLogsSampler.getLog ⟨.cpu, 10800, 30⟩ = some (1440, 0) := rfl
  refine ⟨List.mem_cons_self, hlog, fun h => ?_⟩
  obtain ⟨m', capacity, size, hpolls, hlog', hc, _⟩ := h 0
  cases hpolls
  cases hlog.symm.trans hlog'
  revert hc
  decide

/-- The twelve hour log, configured last, does hold an entry for each 30 seconds. -/
theorem keepsOwnHistory_iff_last :
    KeepsOwnHistory cpuLogsSampler (fun _ => mockSample 85) ⟨.cpu, 43200, 30⟩ := by
  refine (keepsOwnHistory_iff cpuLogsSampler_constructed (by decide)
    (List.mem_cons_of_mem _ List.mem_cons_self) (by decide) _).mpr fun l' hl' => ?_
  have hlast : lastLike cpuLogs ⟨.cpu, 43200, 30⟩ = some ⟨.cpu, 43200, 30⟩ := rfl
  obtain rfl := Option.some.inj (hlast.symm.trans hl')
  rfl

end OwnHistory
end ResMonitor
