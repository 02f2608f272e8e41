import ResMonitor.Polls

/-! # When a trigger is activated and deactivated

The calls of a run, read off the recording callbacks. A trigger of duration
`d ≥ 1` is activated at the positive multiples of `d` along each run of
satisfying samples. Its counter is back at 0 as soon as it reaches `d`, so the
deactivation test `counter ≥ d` never succeeds: no trigger of positive
duration is ever deactivated. -/

namespace ResMonitor
variable {F : Type} [Double F]

namespace SamplingManager

/-- The calls made during poll `k` of a run from `m`. -/
def callsDuring (m : SamplingManager F) (xs : Nat → Sample F) (k : Nat) :
    Except AssertFailure (List TriggerCall) := do
  let (m', _) ← m.polls Callbacks.record xs 0 k []
  let (_, calls) ← m'.poll Callbacks.record (xs k) []
  .ok calls

/-- The calls made during the first `n` polls of a run from `m`. -/
def callsUpTo (m : SamplingManager F) (xs : Nat → Sample F) (n : Nat) :
    Except AssertFailure (List TriggerCall) := do
  let (_, calls) ← m.polls Callbacks.record xs 0 n []
  .ok calls

end SamplingManager

/-! ## The calls of one trigger among those of a poll -/

theorem count_callsAt_ne {t t' : TriggerType} (h : t' ≠ t) (sat : Nat → Bool) (k : Nat) :
    (t'.callsAt sat k).count (.activate t) = 0 ∧ (t'.callsAt sat k).count (.deactivate t) = 0 := by
  unfold TriggerType.callsAt
  split
  · split <;> simp [h]
  · split
    · simp
    · split <;> simp [h]

/-- Each trigger is walked once, so its calls in a poll are its own. -/
theorem count_callsIn {order : List TriggerType} (hn : order.Nodup) {t : TriggerType}
    (ht : t ∈ order) (xs : Nat → Sample F) (k : Nat) :
    (callsIn order xs k).count (.activate t) =
        (t.callsAt (outcomes xs t) k).count (.activate t) ∧
    (callsIn order xs k).count (.deactivate t) =
        (t.callsAt (outcomes xs t) k).count (.deactivate t) := by
  have none_of : ∀ ts : List TriggerType, t ∉ ts →
      (callsIn ts xs k).count (.activate t) = 0 ∧ (callsIn ts xs k).count (.deactivate t) = 0 := by
    intro ts hts
    induction ts with
    | nil => exact ⟨rfl, rfl⟩
    | cons a ts ih =>
      obtain ⟨hat, hrest⟩ := not_or.mp (mt List.mem_cons.mpr hts)
      obtain ⟨ha, hd⟩ := ih hrest
      obtain ⟨ha', hd'⟩ := count_callsAt_ne (Ne.symm hat) (outcomes xs a) k
      simp only [callsIn, List.flatMap_cons, List.count_append] at ha hd ⊢
      omega
  induction order with
  | nil => cases ht
  | cons a ts ih =>
    obtain ⟨hat, hts⟩ := List.nodup_cons.mp hn
    simp only [callsIn, List.flatMap_cons, List.count_append]
    rcases List.mem_cons.mp ht with rfl | ht
    · obtain ⟨ha, hd⟩ := none_of ts hat
      simp only [callsIn] at ha hd
      omega
    · obtain ⟨ha, hd⟩ := ih hts ht
      have hne : a ≠ t := fun h => hat (h ▸ ht)
      obtain ⟨ha', hd'⟩ := count_callsAt_ne hne (outcomes xs a) k
      simp only [callsIn] at ha hd
      omega

theorem count_callsAt {t : TriggerType} (hd : 1 ≤ t.duration) (sat : Nat → Bool) (k : Nat) :
    (t.callsAt sat k).count (.activate t) =
        (if RunLength.fires t.duration.toNat sat k then 1 else 0) ∧
    (t.callsAt sat k).count (.deactivate t) = 0 := by
  unfold TriggerType.callsAt
  rw [if_pos (show 0 < t.duration by omega)]
  split <;> simp

/-! ## Runs -/

section Runs
variable {logTypes : List LogType} {triggerTypes : List TriggerType} {m : SamplingManager F}

/-- The calls of a poll of a new sampler, whatever was recorded before. -/
theorem callsDuring_eq (hm : m.ConstructedFrom logTypes triggerTypes)
    (hu : ∀ t ∈ triggerTypes, t.UnitFits) (xs : Nat → Sample F) (k : Nat) :
    m.callsDuring xs k = .ok (callsIn m.triggerStates.keys xs k) := by
  have hu' : ∀ t ∈ m.triggerStates.keys, t.UnitFits := fun t ht => hu t ((hm.mem_keys t).mp ht)
  obtain ⟨m', hrun, htab⟩ := SamplingManager.polls_tableAt (hm.tableAt xs) hu' Callbacks.record [] k
  rw [Nat.zero_add] at htab
  obtain ⟨hpoll, _⟩ := SamplingManager.poll_tableAt htab hu' Callbacks.record []
  rw [Callbacks.foldl_record, List.nil_append] at hpoll
  simp only [SamplingManager.callsDuring, hrun, hpoll, bind, Except.bind]

theorem callsUpTo_succ (hm : m.ConstructedFrom logTypes triggerTypes)
    (hu : ∀ t ∈ triggerTypes, t.UnitFits) (xs : Nat → Sample F) (n : Nat) :
    ∃ calls, m.callsUpTo xs n = .ok calls ∧
      m.callsUpTo xs (n + 1) = .ok (calls ++ callsIn m.triggerStates.keys xs n) := by
  have hu' : ∀ t ∈ m.triggerStates.keys, t.UnitFits := fun t ht => hu t ((hm.mem_keys t).mp ht)
  have up : ∀ n, m.callsUpTo xs n =
      .ok (runCalls Callbacks.record m.triggerStates.keys xs 0 n []) := by
    intro n
    obtain ⟨m', hrun, _⟩ := SamplingManager.polls_tableAt (hm.tableAt xs) hu' Callbacks.record [] n
    simp only [SamplingManager.callsUpTo, hrun, bind, Except.bind]
  refine ⟨_, up n, ?_⟩
  rw [up (n + 1), runCalls, Callbacks.foldl_record, Nat.zero_add]

theorem count_callsUpTo (hm : m.ConstructedFrom logTypes triggerTypes)
    (hu : ∀ t ∈ triggerTypes, t.UnitFits) {t : TriggerType} (ht : t ∈ triggerTypes)
    (hd : 1 ≤ t.duration) (xs : Nat → Sample F) (n : Nat) :
    ∃ calls, m.callsUpTo xs n = .ok calls ∧
      calls.count (.activate t) = RunLength.firings t.duration.toNat (outcomes xs t) n := by
  induction n with
  | zero => exact ⟨[], rfl, (RunLength.firings_zero _ _).symm⟩
  | succ n ih =>
    obtain ⟨calls, hc, hcount⟩ := ih
    obtain ⟨calls', hc', hnext⟩ := callsUpTo_succ hm hu xs n
    obtain rfl : calls' = calls := Except.ok.inj (hc'.symm.trans hc)
    refine ⟨_, hnext, ?_⟩
    have hin := (count_callsIn m.triggerStates.nodup_keys ((hm.mem_keys t).mpr ht) xs n).1
    rw [List.count_append, hcount, hin, (count_callsAt hd _ n).1,
      RunLength.firings_add_one (by omega)]

/-- **The activation schedule.** Poll `k` activates `t` exactly once if the
length of the run of satisfying samples that ends at `k` is a positive multiple
of the duration, and not at all otherwise; over `n` polls that adds up to
`len / d` for each maximal run. Neither depends on the other triggers, on the
order of the table or on repeated entries of the configuration. -/
theorem activation_schedule (hm : m.ConstructedFrom logTypes triggerTypes)
    (hu : ∀ t ∈ triggerTypes, t.UnitFits) {t : TriggerType} (ht : t ∈ triggerTypes)
    (hd : 1 ≤ t.duration) (xs : Nat → Sample F) :
    (∀ k, ∃ calls, m.callsDuring xs k = .ok calls ∧
      calls.count (.activate t) =
        if 0 < RunLength.runLength (outcomes xs t) k ∧
            t.duration ∣ (RunLength.runLength (outcomes xs t) k : Int) then 1 else 0) ∧
    (∀ n, ∃ calls, m.callsUpTo xs n = .ok calls ∧
      calls.count (.activate t) = RunLength.firings t.duration.toNat (outcomes xs t) n) := by
  refine ⟨fun k => ⟨_, callsDuring_eq hm hu xs k, ?_⟩, count_callsUpTo hm hu ht hd xs⟩
  have hin := (count_callsIn m.triggerStates.nodup_keys ((hm.mem_keys t).mpr ht) xs k).1
  have hdvd : t.duration ∣ (RunLength.runLength (outcomes xs t) k : Int) ↔
      t.duration.toNat ∣ RunLength.runLength (outcomes xs t) k := by
    rw [← Int.natCast_dvd_natCast, Int.toNat_of_nonneg (by omega)]
  rw [hin, (count_callsAt hd _ k).1]
  simp only [RunLength.fires_iff, hdvd]

/-- The readings of the tests' `ResProviderMock`, at a given CPU use. -/
def mockSample (cpuUse : Rat) : Sample Rat :=
  ⟨⟨cpuUse, 10⟩, ⟨1000, 500, 100⟩, ⟨100, 100, 2000, 2000⟩⟩

/-- `trigger cpu over 80% last for 2s` -/
def cpuOver80 : TriggerType := ⟨.cpu, .over, ⟨.percent, 80⟩, 2⟩

/-- Ten samples at 85% activate a two second trigger five times. -/
theorem activation_schedule_mock :
    ∃ calls, (SamplingManager.unlogged [cpuOver80]).callsUpTo (fun _ => mockSample 85) 10 =
      .ok calls ∧ calls.count (.activate cpuOver80) = 5 := by
  have ht : cpuOver80 ∈ [cpuOver80] := List.mem_singleton.mpr rfl
  obtain ⟨_, hcount⟩ := activation_schedule (SamplingManager.unlogged_constructed [cpuOver80])
    (by decide) ht (by decide) fun _ => mockSample 85
  obtain ⟨calls, hc, hn⟩ := hcount 10
  exact ⟨calls, hc, hn.trans (by decide +kernel)⟩

/-! ## Deactivation -/

/-- `t` is activated during poll `k`. -/
def ActivatedAt (m : SamplingManager F) (xs : Nat → Sample F) (t : TriggerType) (k : Nat) : Prop :=
  ∃ calls, m.callsDuring xs k = .ok calls ∧ .activate t ∈ calls

/-- Poll `k` is the first one after an activation of `t` whose sample does not
satisfy the comparison. -/
def DeactivationDue (m : SamplingManager F) (xs : Nat → Sample F) (t : TriggerType) (k : Nat) :
    Prop :=
  ∃ j, j < k ∧ ActivatedAt m xs t j ∧ (∀ i, j < i → i < k → outcomes xs t i = true) ∧
    outcomes xs t k = false

/-- `t` is deactivated once at the polls where that is due, and at no others. -/
def DeactivationMirrors (m : SamplingManager F) (xs : Nat → Sample F) (t : TriggerType) : Prop :=
  ∀ k, ∃ calls, m.callsDuring xs k = .ok calls ∧
    (DeactivationDue m xs t k → calls.count (.deactivate t) = 1) ∧
    (¬ DeactivationDue m xs t k → calls.count (.deactivate t) = 0)

theorem activatedAt_iff (hm : m.ConstructedFrom logTypes triggerTypes)
    (hu : ∀ t ∈ triggerTypes, t.UnitFits) {t : TriggerType} (ht : t ∈ triggerTypes)
    (hd : 1 ≤ t.duration) (xs : Nat → Sample F) (k : Nat) :
    ActivatedAt m xs t k ↔ RunLength.fires t.duration.toNat (outcomes xs t) k = true := by
  have hin := (count_callsIn m.triggerStates.nodup_keys ((hm.mem_keys t).mpr ht) xs k).1
  rw [(count_callsAt hd _ k).1] at hin
  constructor
  · intro ⟨calls, hc, hmem⟩
    rw [callsDuring_eq hm hu] at hc
    cases hc
    have := List.count_pos_iff.mpr hmem
    by_contra hf
    rw [if_neg hf] at hin
    omega
  · intro hf
    refine ⟨_, callsDuring_eq hm hu xs k, List.count_pos_iff.mp ?_⟩
    rw [hin, if_pos hf]
    exact Nat.one_pos

/-- A deactivation is due exactly when a run at least as long as the duration ends. -/
theorem deactivationDue_iff (hm : m.ConstructedFrom logTypes triggerTypes)
    (hu : ∀ t ∈ triggerTypes, t.UnitFits) {t : TriggerType} (ht : t ∈ triggerTypes)
    (hd : 1 ≤ t.duration) (xs : Nat → Sample F) (k : Nat) :
    DeactivationDue m xs t (k + 1) ↔
      t.duration ≤ RunLength.runLength (outcomes xs t) k ∧ outcomes xs t (k + 1) = false := by
  have hle : t.duration ≤ RunLength.runLength (outcomes xs t) k ↔
      t.duration.toNat ≤ RunLength.runLength (outcomes xs t) k := by omega
  rw [hle]
  constructor
  · intro ⟨j, hj, hact, hsat, hk⟩
    have hf := (activatedAt_iff hm hu ht hd xs j).mp hact
    exact ⟨RunLength.le_runLength_of_fires hf k (by omega)
      fun i hi hik => hsat i hi (by omega), hk⟩
  · intro ⟨hlen, hk⟩
    obtain ⟨j, hj, hf, hsat⟩ := RunLength.exists_fires (by omega) (outcomes xs t) k hlen
    exact ⟨j, by omega, (activatedAt_iff hm hu ht hd xs j).mpr hf,
      fun i hi hik => hsat i hi (by omega), hk⟩

theorem not_deactivationDue_zero (xs : Nat → Sample F) (t : TriggerType) :
    ¬ DeactivationDue m xs t 0 := by
  intro ⟨j, hj, _⟩
  omega

/-- No trigger of positive duration is ever deactivated. -/
theorem count_deactivate (hm : m.ConstructedFrom logTypes triggerTypes)
    (hu : ∀ t ∈ triggerTypes, t.UnitFits) {t : TriggerType} (ht : t ∈ triggerTypes)
    (hd : 1 ≤ t.duration) (xs : Nat → Sample F) (k : Nat) :
    ∃ calls, m.callsDuring xs k = .ok calls ∧ calls.count (.deactivate t) = 0 := by
  refine ⟨_, callsDuring_eq hm hu xs k, ?_⟩
  rw [(count_callsIn m.triggerStates.nodup_keys ((hm.mem_keys t).mpr ht) xs k).2,
    (count_callsAt hd _ k).2]

/-- **Where deactivation mirrors activation.** Exactly on the streams where a
comparison that has held for `duration` samples holds ever after, so that no
deactivation is ever due. -/
theorem deactivationMirrors_iff (hm : m.ConstructedFrom logTypes triggerTypes)
    (hu : ∀ t ∈ triggerTypes, t.UnitFits) {t : TriggerType} (ht : t ∈ triggerTypes)
    (hd : 1 ≤ t.duration) (xs : Nat → Sample F) :
    DeactivationMirrors m xs t ↔
      ∀ k, t.duration ≤ RunLength.runLength (outcomes xs t) k → outcomes xs t (k + 1) = true := by
  constructor
  · intro h k hlen
    by_contra hk
    have hdue := (deactivationDue_iff hm hu ht hd xs k).mpr ⟨hlen, Bool.eq_false_iff.mpr hk⟩
    obtain ⟨calls, hc, honce, _⟩ := h (k + 1)
    obtain ⟨calls', hc', hnone⟩ := count_deactivate hm hu ht hd xs (k + 1)
    obtain rfl : calls' = calls := Except.ok.inj (hc'.symm.trans hc)
    have := honce hdue
    omega
  · intro h k
    obtain ⟨calls, hc, hnone⟩ := count_deactivate hm hu ht hd xs k
    refine ⟨calls, hc, fun hdue => ?_, fun _ => hnone⟩
    cases k with
    | zero => exact absurd hdue (not_deactivationDue_zero xs t)
    | succ k =>
      obtain ⟨hlen, hk⟩ := (deactivationDue_iff hm hu ht hd xs k).mp hdue
      rw [h k hlen] at hk
      cases hk

/-- Two samples at 85%, then 10% for ever. -/
def spike (k : Nat) : Sample Rat := if k < 2 then mockSample 85 else mockSample 10

/-- The trigger fires at poll 1 and the comparison fails at poll 2, but poll 2
makes no call at all. -/
theorem spike_not_deactivated :
    cpuOver80.UnitFits ∧ 1 ≤ cpuOver80.duration ∧
    ActivatedAt (SamplingManager.unlogged [cpuOver80]) spike cpuOver80 1 ∧
    outcomes spike cpuOver80 2 = false ∧
    (SamplingManager.unlogged [cpuOver80]).callsDuring spike 2 = .ok [] ∧
    ¬ DeactivationMirrors (SamplingManager.unlogged [cpuOver80]) spike cpuOver80 := by
  have hact : ActivatedAt (SamplingManager.unlogged [cpuOver80]) spike cpuOver80 1 :=
    ⟨[.activate cpuOver80], rfl, by decide⟩
  have hnone : (SamplingManager.unlogged [cpuOver80]).callsDuring spike 2 = .ok [] := rfl
  refine ⟨by decide, by decide, hact, rfl, hnone, fun h => ?_⟩
  obtain ⟨calls, hc, honce, _⟩ := h 2
  obtain rfl : [] = calls := Except.ok.inj (hnone.symm.trans hc)
  have := honce ⟨1, by omega, hact, fun i hi hik => by omega, rfl⟩
  simp at this

/-- At a constant 85% no deactivation is due and none is made. -/
theorem deactivationMirrors_iff_mock :
    DeactivationMirrors (SamplingManager.unlogged [cpuOver80]) (fun _ => mockSample 85)
      cpuOver80 := by
  have ht : cpuOver80 ∈ [cpuOver80] := List.mem_singleton.mpr rfl
  refine (deactivationMirrors_iff (SamplingManager.unlogged_constructed [cpuOver80])
    (by decide) ht (by decide) fun _ => mockSample 85).mpr fun k _ => ?_
  change (mockSample 85).satisfies cpuOver80 = true
  rfl

end Runs
end ResMonitor
