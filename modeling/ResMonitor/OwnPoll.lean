import ResMonitor.Activation
import ResMonitor.ParsedUnits

/-! # One trigger's turn in a poll

In each poll every trigger of the table has one turn. Its new counter and the
calls made about it come from that turn alone, and a poll that gets to its end
has no other calls about it. With the bounds on the counters that every run
keeps, a turn activates only on a satisfying sample and deactivates only on
one that is not, unless the duration is 0. -/

namespace ResMonitor
variable {F E : Type} [Double F]

def TriggerCall.trigger : TriggerCall → TriggerType
  | .activate t => t
  | .deactivate t => t

theorem trigger_of_mem_callsOf {t : TriggerType} {sat : Bool} {c : Int} {call : TriggerCall}
    (h : call ∈ t.callsOf sat c) : call.trigger = t := by
  unfold TriggerType.callsOf at h
  rcases List.mem_append.mp h with h | h
  · split at h
    · rw [List.mem_singleton.mp h]; rfl
    · cases h
  · split at h
    · rw [List.mem_singleton.mp h]; rfl
    · cases h

namespace SamplingManager

/-- The turn of `t`: its new counter and the calls it makes. -/
def turn (x : Sample F) (t : TriggerType) (c : Int) :
    Except AssertFailure (Int × List TriggerCall) :=
  processTrigger Callbacks.record x.cpu x.ram x.hdd t c []

theorem turn_of_unitFits (x : Sample F) {t : TriggerType} (h : t.UnitFits) (c : Int) :
    turn x t c = .ok (t.nextCounter (x.satisfies t) c, t.callsOf (x.satisfies t) c) := by
  unfold turn
  rw [processTrigger_of_unitFits Callbacks.record x h, Callbacks.foldl_record, List.nil_append]

theorem unitFits_of_turn {x : Sample F} {t : TriggerType} {c : Int} {r : Int × List TriggerCall}
    (h : turn x t c = .ok r) : t.UnitFits := by
  by_contra hunit
  obtain ⟨a, ha⟩ := x.exceeds_of_not_unitFits hunit
  unfold turn at h
  rw [processTrigger_eq, ha] at h
  cases h

theorem unitFits_of_poll {m : SamplingManager F} {cb : Callbacks E} {x : Sample F} {e : E}
    {r : SamplingManager F × E} (h : m.poll cb x e = .ok r) :
    ∀ t ∈ m.triggerStates.keys, t.UnitFits := by
  unfold poll at h
  cases hp : (m.pushSample x).processTriggers cb e with
  | error a => rw [hp] at h; cases h
  | ok r' => exact fun t ht => unitFits_of_processTriggers hp t ht

theorem find?_polled (m : SamplingManager F) (x : Sample F) (t : TriggerType) :
    (m.polled x).triggerStates.find? t =
      (m.triggerStates.find? t).map (t.nextCounter (x.satisfies t)) := by
  change (m.triggerStates.mapValues fun t c => t.nextCounter (x.satisfies t) c).find? t = _
  rw [UnorderedMap.find?_mapValues, UnorderedMap.find?]
  cases hf : m.triggerStates.entries.find? fun e => e.1 == t with
  | none => rfl
  | some e =>
    have he : e.1 = t := by simpa using List.find?_some hf
    simp only [Option.map_some, he]

/-- **One trigger in one poll.** Its counter becomes what its turn makes of
it, and the calls about it are those of its turn. -/
theorem turn_of_poll {m m' : SamplingManager F} {x : Sample F} {calls : List TriggerCall}
    {t : TriggerType} {c : Int} (h : m.poll Callbacks.record x [] = .ok (m', calls))
    (hc : m.triggerStates.find? t = some c) :
    ∃ c' own, turn x t c = .ok (c', own) ∧ m'.triggerStates.find? t = some c' ∧
      ∀ call : TriggerCall, call.trigger = t → (call ∈ calls ↔ call ∈ own) := by
  have hfits := unitFits_of_poll h
  have hentry := (UnorderedMap.find?_eq_some_iff _ _ _).mp hc
  have hkey : t ∈ m.triggerStates.keys := List.mem_map.mpr ⟨_, hentry, rfl⟩
  rw [poll_eq Callbacks.record x m [] hfits, Callbacks.foldl_record, List.nil_append] at h
  obtain ⟨rfl, rfl⟩ := Prod.mk.inj (Except.ok.inj h)
  refine ⟨_, _, turn_of_unitFits x (hfits t hkey) c, ?_, ?_⟩
  · rw [find?_polled, hc]
    rfl
  · intro call hcall
    constructor
    · intro hmem
      obtain ⟨e, he, hown⟩ := List.mem_flatMap.mp hmem
      have het : e.1 = t := (trigger_of_mem_callsOf hown).symm.trans hcall
      have hval := (UnorderedMap.find?_eq_some_iff _ _ _).mpr he
      rw [het, hc] at hval
      rwa [het, ← Option.some.inj hval] at hown
    · intro hown
      exact List.mem_flatMap.mpr ⟨(t, c), hentry, hown⟩

/-! ## The counters of a run -/

/-- Every counter is a number of samples, short of a positive duration. -/
def CountersBelow (m : SamplingManager F) : Prop :=
  ∀ t c, m.triggerStates.find? t = some c → 0 ≤ c ∧ (0 < t.duration → c < t.duration)

theorem nextCounter_below {t : TriggerType} {c : Int}
    (h : 0 ≤ c ∧ (0 < t.duration → c < t.duration)) (sat : Bool) :
    0 ≤ t.nextCounter sat c ∧ (0 < t.duration → t.nextCounter sat c < t.duration) := by
  have hcounted : 0 ≤ TriggerType.counted sat c ∧ TriggerType.counted sat c ≤ c + 1 := by
    cases sat with
    | true => exact ⟨Int.le_add_one h.1, Int.le_refl _⟩
    | false => exact ⟨Int.le_refl 0, Int.le_add_one h.1⟩
  unfold TriggerType.nextCounter
  split <;> omega

theorem countersBelow_poll {m m' : SamplingManager F} {cb : Callbacks E} {x : Sample F} {e e' : E}
    (hm : m.CountersBelow) (h : m.poll cb x e = .ok (m', e')) : m'.CountersBelow := by
  rw [poll_eq cb x m e (unitFits_of_poll h)] at h
  obtain ⟨rfl, -⟩ := Prod.mk.inj (Except.ok.inj h)
  intro t c' hc'
  rw [find?_polled] at hc'
  obtain ⟨c, hc, rfl⟩ := Option.map_eq_some_iff.mp hc'
  exact nextCounter_below (hm t c hc) (x.satisfies t)

theorem countersBelow_polls {m m' : SamplingManager F} {cb : Callbacks E} {xs : Nat → Sample F}
    {r n : Nat} {e e' : E} (hm : m.CountersBelow) (h : m.polls cb xs r n e = .ok (m', e')) :
    m'.CountersBelow := by
  induction n generalizing m' e' with
  | zero =>
    obtain ⟨rfl, -⟩ := Prod.mk.inj (Except.ok.inj h)
    exact hm
  | succ n ih =>
    simp only [polls] at h
    cases hr : m.polls cb xs r n e with
    | error a => rw [hr] at h; cases h
    | ok s =>
      rw [hr] at h
      exact countersBelow_poll (ih hr) h

omit [Double F] in
theorem ConstructedFrom.countersBelow {logTypes : List LogType} {triggerTypes : List TriggerType}
    {m : SamplingManager F} (h : m.ConstructedFrom logTypes triggerTypes) : m.CountersBelow := by
  intro t c hc
  have hzero : c = 0 := (initializeTriggers_spec triggerTypes).1 (t, c)
    (h.triggerStates.mem_iff.mp ((UnorderedMap.find?_eq_some_iff _ _ _).mp hc))
  omega

end SamplingManager

/-! ## Earned calls -/

/-- `t` is activated only if the sample satisfies its comparison and
deactivated only if it does not, and never both. -/
def Earned (calls : List TriggerCall) (t : TriggerType) (sat : Bool) : Prop :=
  (.activate t ∈ calls → sat = true) ∧ (.deactivate t ∈ calls → sat = false) ∧
    ¬ (.activate t ∈ calls ∧ .deactivate t ∈ calls)

/-- The calls about `t` in a poll with the sample `x` are earned: those of its
turn, and those of the whole poll if it gets to its end. -/
structure EarnedOnOwnPoll (m : SamplingManager F) (x : Sample F) (t : TriggerType) (c : Int) :
    Prop where
  turn : ∃ c' own, SamplingManager.turn x t c = .ok (c', own) ∧ Earned own t (x.satisfies t)
  poll : ∀ m' calls, m.poll Callbacks.record x [] = .ok (m', calls) →
    Earned calls t (x.satisfies t)

theorem earned_callsOf_iff {t : TriggerType} {c : Int} (hd : 0 ≤ t.duration)
    (hc : 0 ≤ c ∧ (0 < t.duration → c < t.duration)) (sat : Bool) :
    Earned (t.callsOf sat c) t sat ↔ 1 ≤ t.duration ∨ sat = true := by
  unfold Earned TriggerType.callsOf TriggerType.counted
  cases sat with
  | true => by_cases h : c + 1 = t.duration <;> simp [h]
  | false =>
    by_cases h0 : t.duration = 0
    · -- the counter is put back to 0, which is the duration
      simp [h0, hc.1]
    · have hlt : ¬ t.duration ≤ c := by omega
      have hne : ¬ (0 : Int) = t.duration := by omega
      have hpos : 1 ≤ t.duration := by omega
      simp [hlt, hne, hpos]

theorem Earned.congr {calls own : List TriggerCall} {t : TriggerType} {sat : Bool}
    (h : ∀ call : TriggerCall, call.trigger = t → (call ∈ calls ↔ call ∈ own))
    (he : Earned own t sat) : Earned calls t sat := by
  unfold Earned
  rw [h (.activate t) rfl, h (.deactivate t) rfl]
  exact he

/-- **Where activations are earned.** Exactly in the polls of triggers of
positive duration and in those whose sample satisfies the comparison. -/
theorem earnedOnOwnPoll_iff {logTypes : List LogType} {triggerTypes : List TriggerType}
    {m : SamplingManager F} (hm : m.ConstructedFrom logTypes triggerTypes)
    {cb : Callbacks E} {xs : Nat → Sample F} {k : Nat} {e e' : E} {m' : SamplingManager F}
    (hrun : m.polls cb xs 0 k e = .ok (m', e')) {t : TriggerType} (hfits : t.UnitFits)
    (hd : 0 ≤ t.duration) {c : Int} (hc : m'.triggerStates.find? t = some c) (x : Sample F) :
    EarnedOnOwnPoll m' x t c ↔ 1 ≤ t.duration ∨ x.satisfies t = true := by
  have hbelow := SamplingManager.countersBelow_polls hm.countersBelow hrun t c hc
  have hturn := SamplingManager.turn_of_unitFits x hfits c
  rw [← earned_callsOf_iff hd hbelow]
  constructor
  · intro ⟨⟨c', own, hown, hearned⟩, _⟩
    rw [hturn] at hown
    cases hown
    exact hearned
  · intro hearned
    refine ⟨⟨_, _, hturn, hearned⟩, fun m'' calls hpoll => ?_⟩
    obtain ⟨c', own, hown, _, hcalls⟩ := SamplingManager.turn_of_poll hpoll hc
    rw [hturn] at hown
    cases hown
    exact hearned.congr hcalls

/-- The second turn of a trigger of positive duration. -/
theorem earnedOnOwnPoll_iff_mock :
    ∃ m', (SamplingManager.unlogged [cpuOver80]).polls Callbacks.default (fun _ => mockSample 85) 0
        1 () = .ok (m', ()) ∧
      EarnedOnOwnPoll m' (mockSample 85) cpuOver80 1 := by
  have hm := SamplingManager.unlogged_constructed (F := Rat) [cpuOver80]
  obtain ⟨m', hrun, htab⟩ := SamplingManager.polls_tableAt (hm.tableAt fun _ => mockSample 85)
    (by decide) Callbacks.default () 1
  have hc : m'.triggerStates.find? cpuOver80 = some 1 := by
    rw [UnorderedMap.find?, htab]
    decide +kernel
  exact ⟨m', hrun, (earnedOnOwnPoll_iff hm hrun (by decide) (by decide) hc (mockSample 85)).mpr
    (Or.inl (by decide))⟩

/-- `trigger cpu over 80% last for 0s` -/
def cpuFor0s : TriggerType := ⟨.cpu, .over, ⟨.percent, 80⟩, 0⟩

/-- A configuration can ask for a duration of 0 seconds. Such a trigger is
both deactivated and activated by a sample that does not exceed it. -/
theorem zero_duration_unearned :
    parsedTriggers "trigger cpu over 80% last for 0s\n" = some [cpuFor0s] ∧ cpuFor0s.UnitFits ∧
    (SamplingManager.unlogged [cpuFor0s]).callsDuring (fun _ => mockSample 10) 0 =
      .ok [.deactivate cpuFor0s, .activate cpuFor0s] ∧
    (mockSample 10).satisfies cpuFor0s = false ∧
    ¬ EarnedOnOwnPoll (SamplingManager.unlogged [cpuFor0s]) (mockSample 10) cpuFor0s 0 := by
  have hturn : SamplingManager.turn (mockSample 10) cpuFor0s 0 =
      .ok (0, [.deactivate cpuFor0s, .activate cpuFor0s]) := by decide +kernel
  have hsat : (mockSample 10).satisfies cpuFor0s = false := by decide +kernel
  refine ⟨by decide +kernel, by decide, by decide +kernel, hsat, fun h => ?_⟩
  obtain ⟨c', own, hown, hact, _⟩ := h.turn
  rw [hturn] at hown
  cases hown
  rw [hact (by decide)] at hsat
  cases hsat

end ResMonitor
