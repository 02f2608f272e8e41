import ResMonitor.Lib.Windows
import ResMonitor.Logs
import ResMonitor.OwnPoll

/-! # The windows of the logs

All logs of a resource share one ring of samples, sized once for the largest
resolution. A log of resolution `r` stores an entry every `r` polls, the mean of
the ring's `r` newest samples. Over a run these are the consecutive windows of
the stream of samples. -/

namespace ResMonitor
variable {F E : Type}

/-! ## One resource -/

/-- What a sample holds of a resource. -/
abbrev State (F : Type) : Resource → Type
  | .cpu => CpuState F
  | .memory => RamState F
  | .disk => HddState F

def Sample.of (x : Sample F) : (resource : Resource) → State F resource
  | .cpu => x.cpu
  | .memory => x.ram
  | .disk => x.hdd

def State.add [Double F] : (resource : Resource) → State F resource → State F resource →
    State F resource
  | .cpu => CpuState.add
  | .memory => RamState.add
  | .disk => HddState.add

def State.divide [Double F] : (resource : Resource) → State F resource → F → State F resource
  | .cpu => CpuState.divide
  | .memory => RamState.divide
  | .disk => HddState.divide

namespace SamplingManager

/-- `cpuSamples`, `ramSamples` or `hddSamples`. -/
def samples (m : SamplingManager F) : (resource : Resource) → CircularBuffer (State F resource)
  | .cpu => m.cpuSamples
  | .memory => m.ramSamples
  | .disk => m.hddSamples

/-- `cpuLog`, `ramLog` or `hddLog`. -/
def log (m : SamplingManager F) : (resource : Resource) → Log (State F resource)
  | .cpu => m.cpuLog
  | .memory => m.ramLog
  | .disk => m.hddLog

/-- `getCpuSamplesMean`, `getRamSamplesMean` or `getHddSamplesMean`. -/
def getSamplesMean [Double F] (m : SamplingManager F) (samplesNumber : Int) :
    (resource : Resource) → Except AssertFailure (State F resource)
  | .cpu => m.getCpuSamplesMean samplesNumber
  | .memory => m.getRamSamplesMean samplesNumber
  | .disk => m.getHddSamplesMean samplesNumber

theorem getSamplesMean_eq [Double F] (m : SamplingManager F) (n : Int) (resource : Resource) :
    m.getSamplesMean n resource =
      samplesMean (State.add resource) (State.divide resource) (m.samples resource) n := by
  cases resource <;> rfl

theorem samples_pos (m : SamplingManager F) (resource : Resource) :
    0 < (m.samples resource).capacity := by
  cases resource with
  | cpu => exact m.cpuSamples_pos
  | memory => exact m.ramSamples_pos
  | disk => exact m.hddSamples_pos

theorem samples_pushSample (m : SamplingManager F) (x : Sample F) (resource : Resource) :
    (m.pushSample x).samples resource = (m.samples resource).pushBack (x.of resource) := by
  cases resource <;> rfl

theorem samples_polled [Double F] (m : SamplingManager F) (x : Sample F) (resource : Resource) :
    (m.polled x).samples resource = (m.samples resource).pushBack (x.of resource) := by
  cases resource <;> rfl

theorem log_polled [Double F] (m : SamplingManager F) (x : Sample F) (resource : Resource) :
    (m.polled x).log resource = (m.log resource).mapValues
      (storeLog (meanOr (State.add resource) (State.divide resource) (x.of resource)
        ((m.pushSample x).samples resource))) := by
  cases resource <;> rfl

/-! ## Construction -/

theorem le_maxResolution {resource : Resource} {logTypes : List LogType} {l : LogType}
    (hl : l ∈ logTypes) (hres : l.resource = resource) :
    l.resolution ≤ maxResolution resource logTypes := by
  unfold maxResolution
  -- the accumulator never shrinks, so it stays above a log once it is seen
  suffices h : ∀ (ls : List LogType) (a : Int),
      a ≤ ls.foldl (fun m log => if log.resource = resource then max m log.resolution else m) a ∧
      (l ∈ ls → l.resolution ≤ ls.foldl
        (fun m log => if log.resource = resource then max m log.resolution else m) a) from
    (h logTypes 1).2 hl
  intro ls
  induction ls with
  | nil => exact fun a => ⟨Int.le_refl a, fun hmem => absurd hmem List.not_mem_nil⟩
  | cons b ls ih =>
    intro a
    obtain ⟨hle, hmem⟩ := ih (if b.resource = resource then max a b.resolution else a)
    rw [List.foldl_cons]
    refine ⟨Int.le_trans (by split <;> omega) hle, fun hl => ?_⟩
    rcases List.mem_cons.mp hl with rfl | hl
    · rw [if_pos hres] at hle ⊢
      omega
    · exact hmem hl

/-- Every key of a resource's table is of that resource. -/
theorem find?_initializeLog_of_ne {α : Type} {resource : Resource} {logTypes : List LogType}
    {log log' : Log α} (h : initializeLog resource logTypes log = .ok log') {l : LogType}
    (hl : l.resource ≠ resource) : log'.find? l = log.find? l := by
  induction logTypes generalizing log with
  | nil => cases h; rfl
  | cons a logTypes ih =>
    unfold initializeLog at h
    split at h
    · rename_i ha
      cases hr : (makeRing (logSize a) : Except ConstructFailure (CircularBuffer α)) with
      | error e => rw [hr] at h; cases h
      | ok ring =>
        rw [hr] at h
        have hal : ¬ (a == l) = true := fun heq => hl ((LogType.beq_iff.mp heq).1.symm.trans ha)
        rw [ih h, UnorderedMap.find?_insert, if_neg hal]
    · exact ih h

theorem ConstructedFrom.log_initialized {logTypes : List LogType} {triggerTypes : List TriggerType}
    {m : SamplingManager F} (hm : m.ConstructedFrom logTypes triggerTypes) (resource : Resource) :
    m.samples resource = sampleRing resource logTypes ∧
    ∃ log, initializeLog resource logTypes .empty = .ok log ∧ (m.log resource).Reordered log := by
  obtain ⟨m₀, hcon, hcs, hrs, hhs, hcpu, hram, hhdd, _⟩ := hm.built
  obtain ⟨⟨hinitCpu, hcs₀⟩, ⟨hinitRam, hrs₀⟩, ⟨hinitHdd, hhs₀⟩, _⟩ := construct_ok hcon
  cases resource with
  | cpu => exact ⟨hcs.trans hcs₀, m₀.cpuLog, hinitCpu, hcpu⟩
  | memory => exact ⟨hrs.trans hrs₀, m₀.ramLog, hinitRam, hram⟩
  | disk => exact ⟨hhs.trans hhs₀, m₀.hddLog, hinitHdd, hhdd⟩

theorem ConstructedFrom.samples_empty {logTypes : List LogType} {triggerTypes : List TriggerType}
    {m : SamplingManager F} (hm : m.ConstructedFrom logTypes triggerTypes) (resource : Resource) :
    (m.samples resource).items = [] := by
  rw [(hm.log_initialized resource).1]
  rfl

/-- An entry of a new sampler: an empty ring for a configured log, counter 0. -/
theorem ConstructedFrom.entry {logTypes : List LogType} {triggerTypes : List TriggerType}
    {m : SamplingManager F} (hm : m.ConstructedFrom logTypes triggerTypes) {resource : Resource}
    {l : LogType} {ring : CircularBuffer (State F resource)} {c : Int}
    (hl : (m.log resource).find? l = some (ring, c)) :
    ring.items = [] ∧ c = 0 ∧ l.resolution ≤ (m.samples resource).capacity := by
  obtain ⟨hsamples, log, hinit, hlog⟩ := hm.log_initialized resource
  rw [hlog.find?] at hl
  by_cases hres : l.resource = resource
  · rw [(find?_initializeLog hinit hres).2] at hl
    cases hlast : lastLike logTypes l with
    | none => rw [hlast] at hl; cases hl
    | some l' =>
      rw [hlast] at hl
      cases hl
      obtain ⟨hmem, heq⟩ := List.mem_filter.mp (List.mem_of_getLast? hlast)
      obtain ⟨hres', hsol⟩ := LogType.beq_iff.mp heq
      have := le_maxResolution hmem (hres'.trans hres)
      refine ⟨rfl, rfl, ?_⟩
      rw [hsamples, sampleRing, CircularBuffer.capacity_ofCapacity]
      omega
  · rw [find?_initializeLog_of_ne hinit hres] at hl
    cases hl

/-! ## The mean loop -/

section MeanLoop
variable [Double F] {α : Type}

/-- From the second newest sample on, the loop folds over what it has room for. -/
theorem meanLoop_eq_foldl (add : α → α → α) (divide : α → F → α) (n i : Int) (state : α)
    (older : List α) : meanLoop add divide n i state older =
      (older.take (n - i).toNat).foldl (fun state x => divide (add state x) (n : F)) state := by
  induction older generalizing i state with
  | nil => rw [List.take_nil]; rfl
  | cons x older ih =>
    rw [meanLoop]
    split
    · have hn : (n - i).toNat = (n - (i + 1)).toNat + 1 := by omega
      rw [ih, hn, List.take_succ_cons, List.foldl_cons]
    · have hn : (n - i).toNat = 0 := by omega
      rw [hn]
      rfl

theorem samplesMean_of_window {add : α → α → α} {divide : α → F → α} {ring : CircularBuffer α}
    {n : Int} (hn : 1 ≤ n) {newest : α} {older : List α}
    (h : ring.items.reverse.take n.toNat = newest :: older) :
    samplesMean add divide ring n =
      .ok (older.foldl (fun state x => divide (add state x) (n : F)) newest) := by
  unfold samplesMean
  obtain ⟨k, hk⟩ : ∃ k, n.toNat = k + 1 := ⟨n.toNat - 1, by omega⟩
  cases hrev : ring.items.reverse with
  | nil => rw [hrev, List.take_nil] at h; cases h
  | cons y ys =>
    rw [hrev, hk, List.take_succ_cons] at h
    obtain ⟨rfl, rfl⟩ := List.cons.inj h
    have hk' : (n - 1).toNat = k := by omega
    simp only [meanLoop_eq_foldl, hk']

/-- The samples a mean is made of, in the order the loop comes to them: the
same loop on lists, where adding appends and dividing does nothing. -/
def visited (F : Type) [Double F] (ring : CircularBuffer α) (n : Int) :
    Except AssertFailure (List α) :=
  samplesMean (· ++ ·) (fun state (_ : F) => state) (ring.map fun x => [x]) n

theorem foldl_append_singletons (xs ys : List α) :
    (xs.map fun x => [x]).foldl (· ++ ·) ys = ys ++ xs := by
  induction xs generalizing ys with
  | nil => simp
  | cons x xs ih => simp [ih]

theorem visited_of_window {ring : CircularBuffer α} {n : Int} (hn : 1 ≤ n) {window : List α}
    (hw : window ≠ []) (h : ring.items.reverse.take n.toNat = window) :
    visited F ring n = .ok window := by
  obtain ⟨newest, older, rfl⟩ := List.exists_cons_of_ne_nil hw
  have hmap : (ring.map fun x => [x]).items.reverse.take n.toNat =
      [newest] :: older.map fun x => [x] := by
    change ((ring.items.map fun x => [x]).reverse.take n.toNat) = _
    rw [← List.map_reverse, ← List.map_take, h, List.map_cons]
  unfold visited
  rw [samplesMean_of_window hn hmap, foldl_append_singletons]
  rfl

end MeanLoop

/-! ## Runs -/

section Run
variable [Double F]

/-- A run that did not abort went through its shorter runs. -/
theorem polls_succ_ok {m m' : SamplingManager F} {cb : Callbacks E} {xs : Nat → Sample F}
    {r n : Nat} {e e' : E} (h : m.polls cb xs r (n + 1) e = .ok (m', e')) :
    ∃ m₁ e₁, m.polls cb xs r n e = .ok (m₁, e₁) ∧ m' = m₁.polled (xs (r + n)) := by
  simp only [polls] at h
  cases hn : m.polls cb xs r n e with
  | error a => rw [hn] at h; cases h
  | ok s =>
    rw [hn] at h
    have hpoll : s.1.poll cb (xs (r + n)) s.2 = .ok (m', e') := h
    rw [poll_eq cb _ _ _ (unitFits_of_poll hpoll)] at hpoll
    exact ⟨s.1, s.2, rfl, (Prod.mk.inj (Except.ok.inj hpoll)).1.symm⟩

theorem polls_of_le {m m' : SamplingManager F} {cb : Callbacks E} {xs : Nat → Sample F}
    {r k n : Nat} (hk : k ≤ n) {e e' : E} (h : m.polls cb xs r n e = .ok (m', e')) :
    ∃ m₁ e₁, m.polls cb xs r k e = .ok (m₁, e₁) := by
  induction n generalizing m' e' with
  | zero =>
    obtain rfl : k = 0 := by omega
    exact ⟨m, e, rfl⟩
  | succ n ih =>
    rcases Nat.lt_or_eq_of_le hk with hk | rfl
    · obtain ⟨m₁, e₁, h₁, -⟩ := polls_succ_ok h
      exact ih (by omega) h₁
    · exact ⟨m', e', h⟩

/-- The stream of a resource's samples. -/
def stream (xs : Nat → Sample F) (resource : Resource) (i : Nat) : State F resource :=
  (xs i).of resource

/-- After `n` polls the ring of a new sampler holds the end of the stream. -/
theorem samples_polls {m m' : SamplingManager F} {resource : Resource}
    (hm : (m.samples resource).items = []) {cb : Callbacks E} {xs : Nat → Sample F} {n : Nat}
    {e e' : E} (h : m.polls cb xs 0 n e = .ok (m', e')) :
    (m'.samples resource).capacity = (m.samples resource).capacity ∧
    (m'.samples resource).items =
      (Windows.before (stream xs resource) n).rtake (m'.samples resource).capacity := by
  induction n generalizing m' e' with
  | zero =>
    cases h
    exact ⟨rfl, by rw [hm]; exact (List.rtake_nil _).symm⟩
  | succ n ih =>
    obtain ⟨m₁, e₁, h₁, rfl⟩ := polls_succ_ok h
    obtain ⟨hcap, hitems⟩ := ih h₁
    rw [samples_polled, CircularBuffer.capacity_pushBack, Windows.before_succ, Nat.zero_add]
    exact ⟨hcap, CircularBuffer.items_pushBack hitems _⟩

/-- The ring that the logs read in poll `k`. -/
theorem ring_of_poll {m m₁ : SamplingManager F} {resource : Resource}
    (hm : (m.samples resource).items = []) {cb : Callbacks E} {xs : Nat → Sample F} {k : Nat}
    {e e₁ : E} (h : m.polls cb xs 0 k e = .ok (m₁, e₁)) :
    ((m₁.pushSample (xs k)).samples resource).items =
      (Windows.before (stream xs resource) (k + 1)).rtake (m.samples resource).capacity := by
  obtain ⟨hcap, hitems⟩ := samples_polls hm h
  rw [samples_pushSample, Windows.before_succ, ← hcap]
  exact CircularBuffer.items_pushBack hitems _

/-- In the poll that completes a window of at most the ring's capacity, the
window is the newest part of the ring. -/
theorem window_of_poll {m m₁ : SamplingManager F} {resource : Resource}
    (hm : (m.samples resource).items = []) {r : Nat} (hr : 0 < r)
    (hcap : r ≤ (m.samples resource).capacity) {cb : Callbacks E} {xs : Nat → Sample F} {j : Nat}
    {e e₁ : E} (h : m.polls cb xs 0 ((j + 1) * r - 1) e = .ok (m₁, e₁)) :
    ((m₁.pushSample (xs ((j + 1) * r - 1))).samples resource).items.reverse.take r =
      Windows.window (stream xs resource) r j := by
  have hpos : 0 < (j + 1) * r := Nat.mul_pos (Nat.succ_pos j) hr
  rw [ring_of_poll hm h, Nat.sub_add_cancel hpos, Windows.take_reverse_rtake hcap,
    Windows.take_reverse_before]

/-- The mean of window `j` of a resource's samples, as the mean loop computes it. -/
def windowMean (xs : Nat → Sample F) (resource : Resource) (r j : Nat) : State F resource :=
  (Windows.window (stream xs resource) r j).tail.foldl
    (fun state x => State.divide resource (State.add resource state x) ((r : Int) : F))
    (stream xs resource ((j + 1) * r - 1))

theorem window_eq_cons {α : Type} (f : Nat → α) {r : Nat} (hr : 0 < r) (j : Nat) :
    Windows.window f r j = f ((j + 1) * r - 1) :: (Windows.window f r j).tail := by
  obtain ⟨k, rfl⟩ := Nat.exists_eq_succ_of_ne_zero (by omega : r ≠ 0)
  simp [Windows.window, Windows.indices, List.range_succ_eq_map]

theorem getSamplesMean_of_poll {m m₁ : SamplingManager F} {resource : Resource}
    (hm : (m.samples resource).items = []) {r : Nat} (hr : 0 < r)
    (hcap : r ≤ (m.samples resource).capacity) {cb : Callbacks E} {xs : Nat → Sample F} {j : Nat}
    {e e₁ : E} (h : m.polls cb xs 0 ((j + 1) * r - 1) e = .ok (m₁, e₁)) :
    (m₁.pushSample (xs ((j + 1) * r - 1))).getSamplesMean r resource =
      .ok (windowMean xs resource r j) := by
  have hwindow := (window_of_poll hm hr hcap h).trans (window_eq_cons _ hr j)
  rw [getSamplesMean_eq]
  exact samplesMean_of_window (by omega) (by rw [Int.toNat_natCast]; exact hwindow)

/-- One poll on the entry found under `l`: the resolution is that of `l`, whatever
the duration of the key. -/
theorem entry_polled {m : SamplingManager F} {resource : Resource} {l : LogType}
    {ring : CircularBuffer (State F resource)} {c : Int}
    (hl : (m.log resource).find? l = some (ring, c)) (x : Sample F) :
    ((m.polled x).log resource).find? l =
      some (storeLog (meanOr (State.add resource) (State.divide resource) (x.of resource)
        ((m.pushSample x).samples resource)) l (ring, c)) := by
  rw [log_polled, UnorderedMap.find?_mapValues]
  rw [UnorderedMap.find?] at hl
  cases hf : (m.log resource).entries.find? fun e => e.1 == l with
  | none => rw [hf] at hl; cases hl
  | some e =>
    rw [hf] at hl
    have hval : e.2 = (ring, c) := Option.some.inj hl
    have hkey : (e.1 == l) = true := by simpa using List.find?_some hf
    simp only [Option.map_some, storeLog, hval, (LogType.beq_iff.mp hkey).2]

/-- **One log in one poll.** In the polls that complete a window it stores the
mean of the window, in the others it only counts. -/
theorem entry_step {m m₁ : SamplingManager F} {resource : Resource}
    (hm : (m.samples resource).items = []) {l : LogType} {r : Nat} (hr : 0 < r)
    (hlr : l.resolution = r) (hcap : r ≤ (m.samples resource).capacity) {cb : Callbacks E}
    {xs : Nat → Sample F} {k : Nat} {e e₁ : E} (h : m.polls cb xs 0 k e = .ok (m₁, e₁))
    {ring : CircularBuffer (State F resource)}
    (hl : (m₁.log resource).find? l = some (ring, ((k % r : Nat) : Int))) :
    ((m₁.polled (xs k)).log resource).find? l = some
      (if r ∣ k + 1 then (ring.pushBack (windowMean xs resource r (k / r)), 0)
      else (ring, ((k % r : Nat) : Int) + 1)) := by
  rw [entry_polled hl]
  have hnext := Windows.succ_mod_div hr k
  by_cases hdvd : r ∣ k + 1
  · -- this poll completes a window
    rw [if_pos hdvd] at hnext ⊢
    have hk : k = (k / r + 1) * r - 1 := by
      have := Nat.div_add_mod' k r
      rw [Nat.succ_mul]
      omega
    have hmean : meanOr (State.add resource) (State.divide resource) ((xs k).of resource)
        ((m₁.pushSample (xs k)).samples resource) l.resolution =
          windowMean xs resource r (k / r) := by
      rw [hk] at h
      have hget := getSamplesMean_of_poll hm hr hcap h
      rw [← hk, getSamplesMean_eq, ← hlr, samplesMean_eq (x := (xs k).of resource)] at hget
      · exact Except.ok.inj hget
      · rw [samples_pushSample]
        exact CircularBuffer.back?_pushBack (m₁.samples_pos resource) _
    rw [storeLog, if_pos (by omega), hmean]
  · rw [if_neg hdvd] at hnext ⊢
    rw [storeLog, if_neg (by omega)]

/-- **One log along a run.** Its counter is the number of polls modulo its
resolution, and its ring holds the end of the means of the full windows. -/
theorem entry_polls {m m' : SamplingManager F} {resource : Resource}
    (hm : (m.samples resource).items = []) {l : LogType} {ring : CircularBuffer (State F resource)}
    (hring : ring.items = []) (hl : (m.log resource).find? l = some (ring, 0)) {r : Nat}
    (hr : 0 < r) (hlr : l.resolution = r) (hcap : r ≤ (m.samples resource).capacity)
    {cb : Callbacks E} {xs : Nat → Sample F} {n : Nat} {e e' : E}
    (h : m.polls cb xs 0 n e = .ok (m', e')) :
    ∃ ring', (m'.log resource).find? l = some (ring', ((n % r : Nat) : Int)) ∧
      ring'.capacity = ring.capacity ∧
      ring'.items = (Windows.before (windowMean xs resource r) (n / r)).rtake ring'.capacity := by
  induction n generalizing m' e' with
  | zero =>
    cases h
    refine ⟨ring, by rw [hl, Nat.zero_mod]; rfl, rfl, ?_⟩
    rw [hring, Nat.zero_div]
    exact (List.rtake_nil _).symm
  | succ n ih =>
    obtain ⟨m₁, e₁, h₁, rfl⟩ := polls_succ_ok h
    obtain ⟨ring₁, hfind, hring₁, hitems⟩ := ih h₁
    rw [Nat.zero_add, entry_step hm hr hlr hcap h₁ hfind]
    have hnext := Windows.succ_mod_div hr n
    by_cases hdvd : r ∣ n + 1
    · rw [if_pos hdvd] at hnext ⊢
      obtain ⟨-, hmod, hdiv⟩ := hnext
      refine ⟨ring₁.pushBack (windowMean xs resource r (n / r)), by rw [hmod]; rfl, ?_, ?_⟩
      · rw [CircularBuffer.capacity_pushBack, hring₁]
      · rw [hdiv, Windows.before_succ, CircularBuffer.capacity_pushBack]
        exact CircularBuffer.items_pushBack hitems _
    · rw [if_neg hdvd] at hnext ⊢
      obtain ⟨-, hmod, hdiv⟩ := hnext
      refine ⟨ring₁, ?_, hring₁, by rw [hdiv, hitems]⟩
      rw [hmod, Nat.cast_add, Nat.cast_one]

end Run

/-! ## The schedule -/

/-- An entry after `n` polls, as it depends on its resolution and its capacity
and on the samples only. -/
theorem ConstructedFrom.entry_after [Double F] {logTypes : List LogType}
    {triggerTypes : List TriggerType} {m m' : SamplingManager F}
    (hm : m.ConstructedFrom logTypes triggerTypes) {resource : Resource} {l : LogType}
    {ring : CircularBuffer (State F resource)} {c : Int}
    (hl : (m.log resource).find? l = some (ring, c)) {r : Nat} (hr : 0 < r)
    (hlr : l.resolution = r) {cb : Callbacks E} {xs : Nat → Sample F} {n : Nat} {e e' : E}
    (hrun : m.polls cb xs 0 n e = .ok (m', e')) :
    ∃ ring', (m'.log resource).find? l = some (ring', ((n % r : Nat) : Int)) ∧
      ring'.capacity = ring.capacity ∧
      ring'.items = (Windows.before (windowMean xs resource r) (n / r)).rtake ring'.capacity := by
  obtain ⟨hring, rfl, hcap⟩ := hm.entry hl
  exact entry_polls (hm.samples_empty resource) hring hl hr hlr (by omega) hrun

theorem ConstructedFrom.exists_entry {logTypes : List LogType} {triggerTypes : List TriggerType}
    {m : SamplingManager F} (hm : m.ConstructedFrom logTypes triggerTypes) {l : LogType}
    (hl : l ∈ logTypes) : ∃ ring, (m.log l.resource).find? l = some (ring, 0) := by
  obtain ⟨l', hlast, -⟩ := exists_lastLike hl
  obtain ⟨-, log, hinit, hlog⟩ := hm.log_initialized l.resource
  have hfind := (find?_initializeLog hinit rfl).2
  rw [hlast] at hfind
  exact ⟨_, (hlog.find? l).trans hfind⟩

end SamplingManager

section Schedule
variable [Double F]
open SamplingManager

/-- **The schedule of a log.** After `n` polls its counter is `n` modulo its
resolution `r`, and its ring holds the last means of those computed in the polls
`r`, `2 * r`, …, as many as it has room for. Nothing else of the configuration
changes the entry. -/
theorem log_schedule {logTypes : List LogType} {triggerTypes : List TriggerType}
    {m : SamplingManager F} (hm : m.ConstructedFrom logTypes triggerTypes) {resource : Resource}
    {l : LogType} {ring : CircularBuffer (State F resource)} {c : Int}
    (hl : (m.log resource).find? l = some (ring, c)) (hr : 1 ≤ l.resolution) {cb : Callbacks E}
    {xs : Nat → Sample F} {n : Nat} {e e' : E} {m' : SamplingManager F}
    (hrun : m.polls cb xs 0 n e = .ok (m', e')) :
    (∃ ring' : CircularBuffer (State F resource), ∃ means : List (State F resource),
      (m'.log resource).find? l = some (ring', (n : Int) % l.resolution) ∧
      ring'.capacity = ring.capacity ∧ means.length = n / l.resolution.toNat ∧
      ring'.items = means.rtake (min ring.capacity (n / l.resolution.toNat)) ∧
      ∀ j mean, means[j]? = some mean → ∃ m₁ e₁,
        m.polls cb xs 0 ((j + 1) * l.resolution.toNat - 1) e = .ok (m₁, e₁) ∧
        (m₁.pushSample (xs ((j + 1) * l.resolution.toNat - 1))).getSamplesMean l.resolution
          resource = .ok mean) ∧
    ∀ (logTypes₂ : List LogType) (triggerTypes₂ : List TriggerType) (m₂ m₂' : SamplingManager F)
      (ring₂ : CircularBuffer (State F resource)) (c₂ : Int) (cb₂ : Callbacks E) (e₂ e₂' : E),
      m₂.ConstructedFrom logTypes₂ triggerTypes₂ →
      (m₂.log resource).find? l = some (ring₂, c₂) → ring₂.capacity = ring.capacity →
      m₂.polls cb₂ xs 0 n e₂ = .ok (m₂', e₂') →
      (m₂'.log resource).find? l = (m'.log resource).find? l := by
  obtain ⟨r, hlr⟩ := Int.eq_ofNat_of_zero_le (by omega : 0 ≤ l.resolution)
  have hr' : 0 < r := by omega
  obtain ⟨ring', hfind, hcap, hitems⟩ := hm.entry_after hl hr' hlr hrun
  have hcap' := (hm.entry hl).2.2
  refine ⟨⟨ring', Windows.before (windowMean xs resource r) (n / r), ?_, hcap, ?_, ?_, ?_⟩, ?_⟩
  · rw [hfind, hlr]
    rfl
  · rw [hlr, Windows.length_before]
    rfl
  · rw [hitems, hcap, hlr, Int.toNat_natCast, List.rtake, List.rtake, Windows.length_before]
    congr 1
    omega
  · intro j mean hmean
    have hlen := (List.getElem?_eq_some_iff.mp hmean).1
    rw [Windows.length_before] at hlen
    have hj : (j + 1) * r ≤ n := (Nat.le_div_iff_mul_le hr').mp hlen
    obtain ⟨m₁, e₁, h₁⟩ := polls_of_le (by omega : (j + 1) * r - 1 ≤ n) hrun
    rw [hlr]
    refine ⟨m₁, e₁, h₁, ?_⟩
    rw [Windows.getElem?_before _ hlen] at hmean
    rw [Int.toNat_natCast, ← Option.some.inj hmean]
    exact getSamplesMean_of_poll (hm.samples_empty resource) hr' (by omega) h₁
  · intro logTypes₂ triggerTypes₂ m₂ m₂' ring₂ c₂ cb₂ e₂ e₂' hm₂ hl₂ hring₂ hrun₂
    obtain ⟨ring₂', hfind₂, hcap₂, hitems₂⟩ := hm₂.entry_after hl₂ hr' hlr hrun₂
    have hsame : ring₂' = ring' := by
      have hc : ring₂'.capacity = ring'.capacity := by omega
      exact CircularBuffer.ext hc (by rw [hitems₂, hitems, hc])
    rw [hfind, hfind₂, hsame]

/-- Two entries in a minute of a log every 30 seconds. -/
theorem log_schedule_minute :
    ∃ m' ring', cpuLogsSampler.polls Callbacks.default (fun _ => mockSample 85) 0 60 () =
        .ok (m', ()) ∧
      (m'.log .cpu).find? ⟨.cpu, 10800, 30⟩ = some (ring', 0) ∧ ring'.items.length = 2 := by
  obtain ⟨m', hrun, -⟩ := logShape_polls (m := cpuLogsSampler)
    (fun _ ht => absurd ht List.not_mem_nil) (fun _ => mockSample 85) ⟨.cpu, 10800, 30⟩ 60
  have hl : (cpuLogsSampler.log .cpu).find? ⟨.cpu, 10800, 30⟩ = some (.ofCapacity 1440, 0) := rfl
  obtain ⟨⟨ring', means, hfind, -, hlen, hitems, -⟩, -⟩ :=
    log_schedule cpuLogsSampler_constructed hl (by decide) hrun
  refine ⟨m', ring', hrun, hfind, ?_⟩
  rw [hitems, List.rtake, List.length_drop, hlen]
  decide

/-- **The windows of a log tile the samples.** An entry is stored exactly in
the polls `r`, `2 * r`, …; in the others the log only counts. In poll
`(j + 1) * r` the ring still holds the samples of window `j`, the mean loop goes
through these, and what it computes from them is the entry that is stored. At
the end the log holds the last of these entries, and every sample before the end
of the last window is in the window of one of them only. -/
theorem windows_tile_samples {logTypes : List LogType} {triggerTypes : List TriggerType}
    {m : SamplingManager F} (hm : m.ConstructedFrom logTypes triggerTypes) {l : LogType}
    (hl : l ∈ logTypes) (hr : 1 ≤ l.resolution) {cb : Callbacks E} {xs : Nat → Sample F} {n : Nat}
    {e e' : E} {m' : SamplingManager F} (hrun : m.polls cb xs 0 n e = .ok (m', e')) :
    (∀ k, k < n → ¬ l.resolution.toNat ∣ k + 1 → ∃ m₁ e₁ m₂ e₂ ring c,
      m.polls cb xs 0 k e = .ok (m₁, e₁) ∧ m.polls cb xs 0 (k + 1) e = .ok (m₂, e₂) ∧
      (m₁.log l.resource).find? l = some (ring, c) ∧ c + 1 < l.resolution ∧
      (m₂.log l.resource).find? l = some (ring, c + 1)) ∧
    (∀ j, j < n / l.resolution.toNat → ∃ m₁ e₁ m₂ e₂ ring c,
      m.polls cb xs 0 ((j + 1) * l.resolution.toNat - 1) e = .ok (m₁, e₁) ∧
      m.polls cb xs 0 ((j + 1) * l.resolution.toNat) e = .ok (m₂, e₂) ∧
      let m₁' := m₁.pushSample (xs ((j + 1) * l.resolution.toNat - 1))
      let window := Windows.window (stream xs l.resource) l.resolution.toNat j
      let mean := windowMean xs l.resource l.resolution.toNat j
      (m₁'.samples l.resource).items.reverse.take l.resolution.toNat = window ∧
      visited F (m₁'.samples l.resource) l.resolution = .ok window ∧
      (Windows.indices l.resolution.toNat j).Nodup ∧
      m₁'.getSamplesMean l.resolution l.resource = .ok mean ∧
      (m₁.log l.resource).find? l = some (ring, c) ∧ c + 1 = l.resolution ∧
      (m₂.log l.resource).find? l = some (ring.pushBack mean, 0)) ∧
    (∃ ring c, (m'.log l.resource).find? l = some (ring, c) ∧
      ring.items = (Windows.before (windowMean xs l.resource l.resolution.toNat)
        (n / l.resolution.toNat)).rtake ring.capacity) ∧
    ∀ i, i < n / l.resolution.toNat * l.resolution.toNat →
      ∃! j, j < n / l.resolution.toNat ∧ i ∈ Windows.indices l.resolution.toNat j := by
  obtain ⟨r, hlr⟩ := Int.eq_ofNat_of_zero_le (by omega : 0 ≤ l.resolution)
  have hr' : 0 < r := by omega
  obtain ⟨ring, hfind⟩ := hm.exists_entry hl
  obtain ⟨hring, -, hcap⟩ := hm.entry hfind
  have hempty := hm.samples_empty l.resource
  -- the entry before and after each poll of the run
  have hpoll : ∀ k, k < n → ∃ m₁ e₁ m₂ e₂ ring, m.polls cb xs 0 k e = .ok (m₁, e₁) ∧
      m.polls cb xs 0 (k + 1) e = .ok (m₂, e₂) ∧
      (m₁.log l.resource).find? l = some (ring, ((k % r : Nat) : Int)) ∧
      (m₂.log l.resource).find? l = some
        (if r ∣ k + 1 then (ring.pushBack (windowMean xs l.resource r (k / r)), 0)
        else (ring, ((k % r : Nat) : Int) + 1)) := by
    intro k hk
    obtain ⟨m₂, e₂, h₂⟩ := polls_of_le hk hrun
    obtain ⟨m₁, e₁, h₁, rfl⟩ := polls_succ_ok h₂
    obtain ⟨ring₁, hfind₁, -⟩ := entry_polls hempty hring hfind hr' hlr (by omega) h₁
    refine ⟨m₁, e₁, _, e₂, ring₁, h₁, h₂, hfind₁, ?_⟩
    rw [Nat.zero_add]
    exact entry_step hempty hr' hlr (by omega) h₁ hfind₁
  rw [hlr, Int.toNat_natCast]
  refine ⟨fun k hk hdvd => ?_, fun j hj => ?_, ?_, fun i hi => Windows.exists_unique_window hi⟩
  · obtain ⟨m₁, e₁, m₂, e₂, ring₁, h₁, h₂, hfind₁, hfind₂⟩ := hpoll k hk
    rw [if_neg hdvd] at hfind₂
    refine ⟨m₁, e₁, m₂, e₂, ring₁, _, h₁, h₂, hfind₁, ?_, hfind₂⟩
    have hnext := Windows.succ_mod_div hr' k
    rw [if_neg hdvd] at hnext
    omega
  · have hj' : (j + 1) * r ≤ n := (Nat.le_div_iff_mul_le hr').mp hj
    have hsucc : (j + 1) * r = j * r + r := Nat.succ_mul j r
    obtain ⟨m₁, e₁, m₂, e₂, ring₁, h₁, h₂, hfind₁, hfind₂⟩ :=
      hpoll ((j + 1) * r - 1) (by omega)
    have hlast : (j + 1) * r - 1 + 1 = (j + 1) * r := by omega
    have hdiv : ((j + 1) * r - 1) / r = j := by
      rw [Nat.div_eq_iff hr']
      omega
    have hmod : ((j + 1) * r - 1) % r + 1 = r := by
      have := Nat.div_add_mod' ((j + 1) * r - 1) r
      rw [hdiv] at this
      omega
    rw [hlast] at h₂ hfind₂
    rw [if_pos (Nat.dvd_mul_left r (j + 1)), hdiv] at hfind₂
    have hwindow := window_of_poll hempty hr' (by omega) h₁
    refine ⟨m₁, e₁, m₂, e₂, ring₁, _, h₁, h₂, hwindow, ?_, Windows.nodup_indices r j, ?_, hfind₁,
      by omega, hfind₂⟩
    · refine visited_of_window (by omega) ?_ (by rw [Int.toNat_natCast]; exact hwindow)
      rw [window_eq_cons _ hr']
      exact List.cons_ne_nil _ _
    · exact getSamplesMean_of_poll hempty hr' (by omega) h₁
  · obtain ⟨ring', hfind', -, hitems⟩ := entry_polls hempty hring hfind hr' hlr (by omega) hrun
    exact ⟨ring', _, hfind', hitems⟩

/-- The second half minute of a log every 30 seconds. -/
theorem windows_tile_samples_minute :
    ∃ m₁ m₂ ring mean,
      cpuLogsSampler.polls Callbacks.default (fun _ => mockSample 85) 0 59 () = .ok (m₁, ()) ∧
      cpuLogsSampler.polls Callbacks.default (fun _ => mockSample 85) 0 60 () = .ok (m₂, ()) ∧
      visited Rat ((m₁.pushSample (mockSample 85)).samples .cpu) 30 =
        .ok (List.replicate 30 (mockSample 85).cpu) ∧
      (m₁.pushSample (mockSample 85)).getSamplesMean 30 .cpu = .ok mean ∧
      (m₁.log .cpu).find? ⟨.cpu, 10800, 30⟩ = some (ring, 29) ∧
      (m₂.log .cpu).find? ⟨.cpu, 10800, 30⟩ = some (ring.pushBack mean, 0) := by
  obtain ⟨m', hrun, -⟩ := logShape_polls (m := cpuLogsSampler)
    (fun _ ht => absurd ht List.not_mem_nil) (fun _ => mockSample 85) ⟨.cpu, 10800, 30⟩ 60
  obtain ⟨-, hwindows, -⟩ := windows_tile_samples cpuLogsSampler_constructed
    (l := ⟨.cpu, 10800, 30⟩) List.mem_cons_self (by decide) hrun
  obtain ⟨m₁, _, m₂, _, ring, c, h₁, h₂, -, hvisited, -, hmean, hfind₁, hc, hfind₂⟩ :=
    hwindows 1 (by decide)
  have hcounter : c + 1 = 30 := hc
  obtain rfl : c = 29 := by omega
  exact ⟨m₁, m₂, ring, _, h₁, h₂, hvisited, hmean, hfind₁, hfind₂⟩

end Schedule
end ResMonitor
