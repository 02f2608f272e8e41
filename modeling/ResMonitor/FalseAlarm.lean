import ResMonitor.Activation
import ResMonitor.AlarmRuns

/-! # False alarms

Since no trigger of positive duration is ever deactivated, the flag of an
operand stays up after its comparison has stopped holding. A predicate that
combines operands can then ring on a leftover flag. The runs in which that
never happens are characterised on the stream of samples. -/

namespace ResMonitor
variable {F : Type} [Double F]

/-- The last `duration` samples up to and including poll `k` all satisfy `t`'s comparison. -/
def WindowFull (xs : Nat → Sample F) (t : TriggerType) (k : Nat) : Prop :=
  RunLength.Holds (outcomes xs t) t.duration.toNat k

/-- Whenever the callback is invoked, the formula holds of the operands' windows. -/
def NoFalseAlarm (m : SamplingManager F) (xs : Nat → Sample F) (r : Nat) (e : PredicateEngine)
    (id : Nat) (kind : PredicateKind TriggerType) : Prop :=
  ∀ n, ∃ c, m.invocationsDuring xs r e id n = .ok c ∧
    (0 < c → kind.Formula fun t => WindowFull xs t (r + n))

/-- `t` is configured, and poll `k` activates it. -/
def Fires (triggerTypes : List TriggerType) (xs : Nat → Sample F) (t : TriggerType) (k : Nat) :
    Prop :=
  t ∈ triggerTypes ∧ t.activatesAt (outcomes xs t) k = true

/-- The flag of `t` is up since before poll `r + n`, but its window is not full any more. -/
def Lapsed (triggerTypes : List TriggerType) (xs : Nat → Sample F) (r n : Nat) (t : TriggerType) :
    Prop :=
  raised triggerTypes xs r n t = true ∧ ¬ WindowFull xs t (r + n)

/-- Poll `r + n` rings on a leftover flag. Of two operands of an `AND`, one
fires while the other has lapsed. Of `(o₁ OR o₂) AND a`, either `a` fires while
an or-operand is up, none has a full window, and not all three flags were up
already; or `a` has lapsed and an or-operand fires while the other one is down. -/
def Misled (triggerTypes order : List TriggerType) (xs : Nat → Sample F) (r n : Nat) :
    PredicateKind TriggerType → Prop
  | .predicate1or2and3 o₁ o₂ a =>
    let up := fun t => raised triggerTypes xs r n t = true
    let up' := fun t y => flagsBefore triggerTypes order xs r n t y = true
    (Fires triggerTypes xs a (r + n) ∧ (up o₁ ∨ up o₂) ∧ ¬ WindowFull xs o₁ (r + n) ∧
      ¬ WindowFull xs o₂ (r + n) ∧ ¬ (up o₁ ∧ up o₂ ∧ up a)) ∨
    (Lapsed triggerTypes xs r n a ∧ ((Fires triggerTypes xs o₁ (r + n) ∧ ¬ up' o₁ o₂) ∨
      (Fires triggerTypes xs o₂ (r + n) ∧ ¬ up' o₂ o₁)))
  | .predicate1and2 a₁ a₂ =>
    (Fires triggerTypes xs a₁ (r + n) ∧ Lapsed triggerTypes xs r n a₂) ∨
    (Fires triggerTypes xs a₂ (r + n) ∧ Lapsed triggerTypes xs r n a₁)
  | .predicate1element _ => False

/-! ## Flags and windows -/

section Poll
variable {triggerTypes order : List TriggerType} {xs : Nat → Sample F} {r n : Nat}

theorem windowFull_of_fires (hd : ∀ t ∈ triggerTypes, 1 ≤ t.duration) {t : TriggerType} {k : Nat}
    (h : Fires triggerTypes xs t k) : WindowFull xs t k := by
  obtain ⟨ht, hact⟩ := h
  have := hd t ht
  rw [TriggerType.activatesAt, if_pos (show 0 < t.duration by omega)] at hact
  exact RunLength.holds_of_fires hact

theorem flagsBefore_of_raised {t y : TriggerType} (h : raised triggerTypes xs r n y = true) :
    flagsBefore triggerTypes order xs r n t y = true := by
  rw [flagsBefore, h, Bool.true_or]

theorem flagsBefore_self {t : TriggerType} :
    flagsBefore triggerTypes order xs r n t t = raised triggerTypes xs r n t := by
  simp [flagsBefore]

/-- A flag that is up in the middle of a poll, of a trigger whose window is not
full, was up before the poll. -/
theorem raised_of_flagsBefore (hd : ∀ t ∈ triggerTypes, 1 ≤ t.duration)
    (horder : ∀ t, t ∈ order ↔ t ∈ triggerTypes) {t y : TriggerType}
    (h : flagsBefore triggerTypes order xs r n t y = true) (hw : ¬ WindowFull xs y (r + n)) :
    raised triggerTypes xs r n y = true := by
  unfold flagsBefore at h
  rcases Bool.or_eq_true _ _ ▸ h with hup | hnow
  · exact hup
  · obtain ⟨hlt, hact⟩ := Bool.and_eq_true _ _ ▸ hnow
    have hlt := of_decide_eq_true hlt
    have hle : order.idxOf t ≤ order.length := List.idxOf_le_length
    have hy : y ∈ order := List.idxOf_lt_length_iff.mp (by omega)
    exact absurd (windowFull_of_fires hd ⟨(horder y).mp hy, hact⟩) hw

theorem misled_1and2 (hd : ∀ t ∈ triggerTypes, 1 ≤ t.duration)
    (horder : ∀ t, t ∈ order ↔ t ∈ triggerTypes) {a₁ a₂ t : TriggerType} (ht : t = a₁ ∨ t = a₂)
    (hf : Fires triggerTypes xs t (r + n))
    (hr : (PredicateKind.predicate1and2 a₁ a₂).rings
      (flagsBefore triggerTypes order xs r n t) t = true)
    (hno : ¬ (WindowFull xs a₁ (r + n) ∧ WindowFull xs a₂ (r + n))) :
    Misled triggerTypes order xs r n (.predicate1and2 a₁ a₂) := by
  have hw := windowFull_of_fires hd hf
  obtain ⟨hh, _⟩ := PredicateKind.rings_iff.mp hr
  obtain ⟨h₁, h₂⟩ := (PredicateKind.holds_iff _ _).mp hh
  rcases ht with rfl | rfl
  · have hw₂ : ¬ WindowFull xs a₂ (r + n) := fun h => hno ⟨hw, h⟩
    rcases raise_iff.mp h₂ with h₂ | rfl
    · exact Or.inl ⟨hf, raised_of_flagsBefore hd horder h₂ hw₂, hw₂⟩
    · exact absurd hw hw₂
  · have hw₁ : ¬ WindowFull xs a₁ (r + n) := fun h => hno ⟨h, hw⟩
    rcases raise_iff.mp h₁ with h₁ | rfl
    · exact Or.inr ⟨hf, raised_of_flagsBefore hd horder h₁ hw₁, hw₁⟩
    · exact absurd hw hw₁

/-- An or-operand rings although the formula fails of the windows: the
and-operand has lapsed, and the other or-operand is down. -/
theorem misled_or {kind : PredicateKind TriggerType} (hd : ∀ t ∈ triggerTypes, 1 ≤ t.duration)
    (horder : ∀ t, t ∈ order ↔ t ∈ triggerTypes) {o₁ o₂ a t y : TriggerType}
    (hkind : kind = .predicate1or2and3 o₁ o₂ a) (hty : t = o₁ ∧ y = o₂ ∨ t = o₂ ∧ y = o₁)
    (hf : Fires triggerTypes xs t (r + n))
    (hr : kind.rings (flagsBefore triggerTypes order xs r n t) t = true)
    (hno : ¬ kind.Formula fun t => WindowFull xs t (r + n)) :
    Lapsed triggerTypes xs r n a ∧ ¬ flagsBefore triggerTypes order xs r n t y = true := by
  subst hkind
  have hw := windowFull_of_fires hd hf
  obtain ⟨hh, hsat⟩ := PredicateKind.rings_iff.mp hr
  obtain ⟨_, ha⟩ := (PredicateKind.holds_iff _ _).mp hh
  have hwo : WindowFull xs o₁ (r + n) ∨ WindowFull xs o₂ (r + n) := by
    rcases hty with ⟨rfl, _⟩ | ⟨rfl, _⟩
    · exact Or.inl hw
    · exact Or.inr hw
  have hwa : ¬ WindowFull xs a (r + n) := fun h => hno ⟨hwo, h⟩
  have hup : flagsBefore triggerTypes order xs r n t a = true := by
    rcases raise_iff.mp ha with ha | rfl
    · exact ha
    · exact absurd hw hwa
  refine ⟨⟨raised_of_flagsBefore hd horder hup hwa, hwa⟩, fun hy => hsat ?_⟩
  -- with the other flag up as well, the predicate had rung before
  rw [PredicateKind.holds_iff, PredicateKind.saturated, Bool.and_eq_true, Bool.and_eq_true]
  rcases hty with ⟨rfl, rfl⟩ | ⟨rfl, rfl⟩
  · exact ⟨⟨Or.inr hy, hup⟩, ⟨raise_self _ _, raise_iff.mpr (Or.inl hy)⟩, ha⟩
  · exact ⟨⟨Or.inl hy, hup⟩, ⟨raise_iff.mpr (Or.inl hy), raise_self _ _⟩, ha⟩

/-- The converse: an or-operand that fires over a lapsed and-operand rings, if
the other or-operand is down. -/
theorem rings_or {kind : PredicateKind TriggerType} {o₁ o₂ a t y : TriggerType}
    (hkind : kind = .predicate1or2and3 o₁ o₂ a) (hty : t = o₁ ∧ y = o₂ ∨ t = o₂ ∧ y = o₁)
    (ha : Lapsed triggerTypes xs r n a) (hy : ¬ flagsBefore triggerTypes order xs r n t y = true) :
    kind.rings (flagsBefore triggerTypes order xs r n t) t = true := by
  subst hkind
  have hup : flagsBefore triggerTypes order xs r n t a = true := flagsBefore_of_raised ha.1
  rw [PredicateKind.rings_iff, PredicateKind.holds_iff, PredicateKind.holds_iff,
    PredicateKind.saturated, Bool.and_eq_true, Bool.and_eq_true]
  refine ⟨⟨?_, raise_iff.mpr (Or.inl hup)⟩, ?_⟩
  · rcases hty with ⟨rfl, _⟩ | ⟨rfl, _⟩
    · exact Or.inl (raise_self _ _)
    · exact Or.inr (raise_self _ _)
  · intro h
    obtain ⟨⟨hold, _⟩, ⟨hs₁, hs₂⟩, _⟩ := h
    rcases hty with ⟨rfl, rfl⟩ | ⟨rfl, rfl⟩
    · rcases raise_iff.mp hs₂ with h | rfl
      · exact hy h
      · exact hy (hold.elim id id)
    · rcases raise_iff.mp hs₁ with h | rfl
      · exact hy h
      · exact hy (hold.elim id id)

theorem misled_and (hd : ∀ t ∈ triggerTypes, 1 ≤ t.duration)
    (horder : ∀ t, t ∈ order ↔ t ∈ triggerTypes) {o₁ o₂ a : TriggerType}
    (hf : Fires triggerTypes xs a (r + n))
    (hr : (PredicateKind.predicate1or2and3 o₁ o₂ a).rings
      (flagsBefore triggerTypes order xs r n a) a = true)
    (hno : ¬ ((WindowFull xs o₁ (r + n) ∨ WindowFull xs o₂ (r + n)) ∧ WindowFull xs a (r + n))) :
    Misled triggerTypes order xs r n (.predicate1or2and3 o₁ o₂ a) := by
  have hwa := windowFull_of_fires hd hf
  obtain ⟨hh, hsat⟩ := PredicateKind.rings_iff.mp hr
  obtain ⟨ho, _⟩ := (PredicateKind.holds_iff _ _).mp hh
  have hw₁ : ¬ WindowFull xs o₁ (r + n) := fun h => hno ⟨Or.inl h, hwa⟩
  have hw₂ : ¬ WindowFull xs o₂ (r + n) := fun h => hno ⟨Or.inr h, hwa⟩
  refine Or.inl ⟨hf, ?_, hw₁, hw₂, ?_⟩
  · rcases ho with h | h
    · rcases raise_iff.mp h with h | rfl
      · exact Or.inl (raised_of_flagsBefore hd horder h hw₁)
      · exact absurd hwa hw₁
    · rcases raise_iff.mp h with h | rfl
      · exact Or.inr (raised_of_flagsBefore hd horder h hw₂)
      · exact absurd hwa hw₂
  · intro ⟨h₁, h₂, ha⟩
    have up : ∀ y, raised triggerTypes xs r n y = true →
        flagsBefore triggerTypes order xs r n a y = true := fun y => flagsBefore_of_raised
    refine hsat ⟨?_, ?_⟩
    · exact (PredicateKind.holds_iff _ _).mpr ⟨Or.inl (up o₁ h₁), up a ha⟩
    · rw [PredicateKind.saturated, Bool.and_eq_true, Bool.and_eq_true]
      exact ⟨⟨raise_iff.mpr (Or.inl (up o₁ h₁)), raise_iff.mpr (Or.inl (up o₂ h₂))⟩,
        raise_self _ _⟩

/-- The converse for the and-operand. -/
theorem rings_and (hd : ∀ t ∈ triggerTypes, 1 ≤ t.duration)
    (horder : ∀ t, t ∈ order ↔ t ∈ triggerTypes) {o₁ o₂ a : TriggerType}
    (hf : Fires triggerTypes xs a (r + n))
    (hup : raised triggerTypes xs r n o₁ = true ∨ raised triggerTypes xs r n o₂ = true)
    (hw₁ : ¬ WindowFull xs o₁ (r + n)) (hw₂ : ¬ WindowFull xs o₂ (r + n))
    (hnot : ¬ (raised triggerTypes xs r n o₁ = true ∧ raised triggerTypes xs r n o₂ = true ∧
      raised triggerTypes xs r n a = true)) :
    (PredicateKind.predicate1or2and3 o₁ o₂ a).rings
      (flagsBefore triggerTypes order xs r n a) a = true := by
  have hwa := windowFull_of_fires hd hf
  -- an or-operand that is up here was up before the poll
  have before : ∀ o, ¬ WindowFull xs o (r + n) →
      raise (flagsBefore triggerTypes order xs r n a) a o = true →
      raised triggerTypes xs r n o = true := by
    intro o hw h
    rcases raise_iff.mp h with h | rfl
    · exact raised_of_flagsBefore hd horder h hw
    · exact absurd hwa hw
  rw [PredicateKind.rings_iff, PredicateKind.holds_iff, PredicateKind.holds_iff,
    PredicateKind.saturated, Bool.and_eq_true, Bool.and_eq_true]
  refine ⟨⟨?_, raise_self _ _⟩, ?_⟩
  · exact hup.imp (fun h => raise_iff.mpr (Or.inl (flagsBefore_of_raised h)))
      (fun h => raise_iff.mpr (Or.inl (flagsBefore_of_raised h)))
  · rintro ⟨⟨_, ha⟩, ⟨hs₁, hs₂⟩, _⟩
    rw [flagsBefore_self] at ha
    exact hnot ⟨before o₁ hw₁ hs₁, before o₂ hw₂ hs₂, ha⟩

/-- **One poll.** It rings although the formula fails of the windows exactly
when it is misled. -/
theorem misled_iff (hd : ∀ t ∈ triggerTypes, 1 ≤ t.duration)
    (horder : ∀ t, t ∈ order ↔ t ∈ triggerTypes) (kind : PredicateKind TriggerType) :
    ((∃ t ∈ kind.getPredicateOperands, Fires triggerTypes xs t (r + n) ∧
        kind.rings (flagsBefore triggerTypes order xs r n t) t = true) ∧
      ¬ kind.Formula fun t => WindowFull xs t (r + n)) ↔
    Misled triggerTypes order xs r n kind := by
  cases kind with
  | predicate1element a =>
    refine ⟨?_, False.elim⟩
    intro ⟨⟨t, ht, hf, _⟩, hno⟩
    obtain rfl := List.mem_singleton.mp ht
    exact hno (windowFull_of_fires hd hf)
  | predicate1and2 a₁ a₂ =>
    constructor
    · intro ⟨⟨t, ht, hf, hr⟩, hno⟩
      exact misled_1and2 hd horder (by simpa [PredicateKind.getPredicateOperands] using ht) hf hr
        hno
    · have ring : ∀ t, (raise (flagsBefore triggerTypes order xs r n t) t) a₁ = true →
          (raise (flagsBefore triggerTypes order xs r n t) t) a₂ = true →
          (PredicateKind.predicate1and2 a₁ a₂).rings
            (flagsBefore triggerTypes order xs r n t) t = true := by
        intro t h₁ h₂
        exact PredicateKind.rings_of_formula rfl ⟨h₁, h₂⟩
      intro hcases
      rcases hcases with ⟨hf, hup, hw⟩ | ⟨hf, hup, hw⟩
      · refine ⟨⟨a₁, by simp [PredicateKind.getPredicateOperands], hf, ?_⟩, fun h => hw h.2⟩
        exact ring a₁ (raise_self _ _) (raise_iff.mpr (Or.inl (flagsBefore_of_raised hup)))
      · refine ⟨⟨a₂, by simp [PredicateKind.getPredicateOperands], hf, ?_⟩, fun h => hw h.1⟩
        exact ring a₂ (raise_iff.mpr (Or.inl (flagsBefore_of_raised hup))) (raise_self _ _)
  | predicate1or2and3 o₁ o₂ a =>
    constructor
    · intro ⟨⟨t, ht, hf, hr⟩, hno⟩
      have ht : t = o₁ ∨ t = o₂ ∨ t = a := by
        simpa [PredicateKind.getPredicateOperands] using ht
      rcases ht with rfl | rfl | rfl
      · obtain ⟨ha, hy⟩ := misled_or hd horder rfl (Or.inl ⟨rfl, rfl⟩) hf hr hno
        exact Or.inr ⟨ha, Or.inl ⟨hf, hy⟩⟩
      · obtain ⟨ha, hy⟩ := misled_or hd horder rfl (Or.inr ⟨rfl, rfl⟩) hf hr hno
        exact Or.inr ⟨ha, Or.inr ⟨hf, hy⟩⟩
      · exact misled_and hd horder hf hr hno
    · intro hcases
      rcases hcases with ⟨hf, hup, hw₁, hw₂, hnot⟩ | ⟨ha, ⟨hf, hy⟩ | ⟨hf, hy⟩⟩
      · exact ⟨⟨a, by simp [PredicateKind.getPredicateOperands], hf,
          rings_and hd horder hf hup hw₁ hw₂ hnot⟩, fun h => h.1.elim hw₁ hw₂⟩
      · exact ⟨⟨o₁, by simp [PredicateKind.getPredicateOperands], hf,
          rings_or rfl (Or.inl ⟨rfl, rfl⟩) ha hy⟩, fun h => ha.2 h.2⟩
      · exact ⟨⟨o₂, by simp [PredicateKind.getPredicateOperands], hf,
          rings_or rfl (Or.inr ⟨rfl, rfl⟩) ha hy⟩, fun h => ha.2 h.2⟩

end Poll

/-! ## Runs -/

/-- **Where there is no false alarm.** Exactly in the runs no poll of which is misled. -/
theorem noFalseAlarm_iff {logTypes : List LogType} {triggerTypes : List TriggerType}
    {m : SamplingManager F} (hm : m.ConstructedFrom logTypes triggerTypes)
    (hu : ∀ t ∈ triggerTypes, t.UnitFits) (hd : ∀ t ∈ triggerTypes, 1 ≤ t.duration)
    {e : PredicateEngine} {id : Nat} {kind : PredicateKind TriggerType}
    (he : e.Registered id kind) (xs : Nat → Sample F) (r : Nat) :
    NoFalseAlarm m xs r e id kind ↔
      ∀ n, ¬ Misled triggerTypes m.triggerStates.keys xs r n kind := by
  refine forall_congr' fun n => ?_
  obtain ⟨c, hc, hpos⟩ := invocationsDuring_pos hm hu he xs r n
  have hiff := @misled_iff F _ triggerTypes m.triggerStates.keys xs r n hd hm.mem_keys kind
  have hfires : 0 < c ↔ ∃ t ∈ kind.getPredicateOperands, Fires triggerTypes xs t (r + n) ∧
      kind.rings (flagsBefore triggerTypes m.triggerStates.keys xs r n t) t = true := by
    rw [hpos]
    exact exists_congr fun t => and_congr_right fun _ => and_assoc.symm
  constructor
  · intro ⟨c', hc', h⟩ hmis
    obtain rfl : c' = c := Except.ok.inj (hc'.symm.trans hc)
    obtain ⟨hex, hno⟩ := hiff.mpr hmis
    exact hno (h (hfires.mpr hex))
  · intro hmis
    refine ⟨c, hc, fun hpos => ?_⟩
    by_contra hno
    exact hmis (hiff.mp ⟨hfires.mp hpos, hno⟩)

/-- `trigger cpu under 20% last for 1s` -/
def cpuUnder20 : TriggerType := ⟨.cpu, .under, ⟨.percent, 20⟩, 1⟩

/-- The CPU both above 80% and below 20%: no sample satisfies both comparisons. -/
def overAndUnder : PredicateKind TriggerType := .predicate1and2 cpuOver80 cpuUnder20

/-- Two samples at 85%, then 10%: the flag of the first trigger is still up
when the second fires at poll 2, and the callback is invoked. -/
theorem spike_false_alarm :
    (PredicateEngine.empty.subscribe overAndUnder).Registered 0 overAndUnder ∧
    (SamplingManager.unlogged [cpuOver80, cpuUnder20]).invocationsDuring spike 0
      (PredicateEngine.empty.subscribe overAndUnder) 0 2 = .ok 1 ∧
    ¬ NoFalseAlarm (SamplingManager.unlogged [cpuOver80, cpuUnder20]) spike 0
      (PredicateEngine.empty.subscribe overAndUnder) 0 overAndUnder := by
  have hc : (SamplingManager.unlogged [cpuOver80, cpuUnder20]).invocationsDuring spike 0
      (PredicateEngine.empty.subscribe overAndUnder) 0 2 = .ok 1 := by decide +kernel
  refine ⟨(PredicateEngine.registeredOnce_subscribe _ _).registered, hc, fun h => ?_⟩
  obtain ⟨c, hc', hno⟩ := h 2
  obtain rfl : c = 1 := Except.ok.inj (hc'.symm.trans hc)
  obtain ⟨hover, _⟩ := hno Nat.one_pos
  have hsat : outcomes spike cpuOver80 2 = true := hover.2 2 (Nat.le_refl 2) (by decide)
  have hnot : outcomes spike cpuOver80 2 = false := by decide +kernel
  rw [hnot] at hsat
  cases hsat

/-- At a constant 85% the second trigger never fires, and nothing is misled. -/
theorem noFalseAlarm_iff_mock :
    NoFalseAlarm (SamplingManager.unlogged [cpuOver80, cpuUnder20]) (fun _ => mockSample 85) 0
      (PredicateEngine.empty.subscribe overAndUnder) 0 overAndUnder := by
  have hnever : ∀ k, cpuUnder20.activatesAt (outcomes (fun _ => mockSample 85) cpuUnder20) k =
      false := by
    intro k
    have hs : outcomes (fun _ => mockSample 85) cpuUnder20 k = false := by
      change (mockSample 85).satisfies cpuUnder20 = false
      decide +kernel
    rw [TriggerType.activatesAt, if_pos (by decide), Bool.eq_false_iff]
    intro hf
    rw [RunLength.sat_of_fires hf] at hs
    cases hs
  refine (noFalseAlarm_iff (SamplingManager.unlogged_constructed [cpuOver80, cpuUnder20])
    (by decide) (by decide) (PredicateEngine.registeredOnce_subscribe _ _).registered
    (fun _ => mockSample 85) 0).mpr fun n => ?_
  intro hcases
  rcases hcases with ⟨_, hup, _⟩ | ⟨⟨_, hf⟩, _⟩
  · obtain ⟨_, j, _, _, hj⟩ := raised_iff.mp hup
    rw [hnever j] at hj
    cases hj
  · rw [hnever (0 + n)] at hf
    cases hf

end ResMonitor
