import ResMonitor.Rearming

/-! # Predicates over any history of calls

What a predicate does depends on its flags and, for `Predicate_1or2and3`, on
whether the formula held right after the last activation: `deactivate` lowers
flags and leaves `lastSatisfied` as it was. A history of calls is summed up by
the flags now and the flags the last activation left. -/

namespace ResMonitor

/-! ## What a history leaves -/

def lower (f : TriggerType → Bool) (t : TriggerType) : TriggerType → Bool :=
  fun y => f y && !decide (y = t)

/-- The flags, and the flags as the last activation left them. -/
structure Recall where
  flags : TriggerType → Bool
  seen : TriggerType → Bool

namespace Recall

def hear : Recall → TriggerCall → Recall
  | r, .activate t => ⟨raise r.flags t, raise r.flags t⟩
  | r, .deactivate t => ⟨lower r.flags t, r.seen⟩

/-- After `events`, from the construction on. -/
def after (events : List TriggerCall) : Recall :=
  events.foldl hear ⟨fun _ => false, fun _ => false⟩

/-- Deactivations only lower flags: what is up now was up after the last activation. -/
def Grounded (r : Recall) : Prop := ∀ y, r.flags y = true → r.seen y = true

theorem grounded_hear {r : Recall} (h : r.Grounded) (call : TriggerCall) :
    (r.hear call).Grounded := by
  cases call with
  | activate t => exact fun y hy => hy
  | deactivate t =>
    intro y hy
    exact h y (Bool.and_eq_true_iff.mp hy).1

theorem grounded_foldl {r : Recall} (h : r.Grounded) (events : List TriggerCall) :
    (events.foldl hear r).Grounded := by
  induction events generalizing r with
  | nil => exact h
  | cons call events ih => exact ih (grounded_hear h call)

theorem grounded_after (events : List TriggerCall) : (after events).Grounded :=
  grounded_foldl (fun _ h => h) events

end Recall

/-! ## The objects remember as much -/

namespace Predicate

def hear : Predicate → TriggerCall → Predicate
  | p, .activate t => p.activate t
  | p, .deactivate t => p.deactivate t

/-- A new predicate after `events`. -/
def after (kind : PredicateKind TriggerType) (events : List TriggerCall) : Predicate :=
  events.foldl hear (make kind)

/-- The object's flags and `lastSatisfied` are what the history leaves. -/
structure Recalls (p : Predicate) (kind : PredicateKind TriggerType) (r : Recall) : Prop where
  sameKind : p.kind = kind
  flag : p.flag = r.flags
  lastSatisfied : p.lastSatisfied = kind.memory r.seen

variable {kind : PredicateKind TriggerType}

theorem recalls_hear {p : Predicate} {r : Recall} (h : p.Recalls kind r) (call : TriggerCall) :
    (p.hear call).Recalls kind (r.hear call) := by
  obtain ⟨rfl, hflag, hlast⟩ := h
  cases call with
  | activate t =>
    obtain ⟨hflag', _, hlast'⟩ := activate_of_memory hlast t
    rw [hflag] at hflag' hlast'
    exact ⟨rfl, hflag', hlast'⟩
  | deactivate t =>
    refine ⟨rfl, ?_, hlast⟩
    funext y
    change (p.setState t false).flag y = lower r.flags t y
    rw [flag_setState, hflag, lower]
    by_cases hy : t = y
    · simp [hy]
    · simp [hy, Ne.symm hy]

theorem recalls_foldl {p : Predicate} {r : Recall} (h : p.Recalls kind r)
    (events : List TriggerCall) :
    (events.foldl hear p).Recalls kind (events.foldl Recall.hear r) := by
  induction events generalizing p r with
  | nil => exact h
  | cons call events ih => exact ih (recalls_hear h call)

theorem recalls_make (kind : PredicateKind TriggerType) :
    (make kind).Recalls kind ⟨fun _ => false, fun _ => false⟩ := by
  have hlast : (make kind).lastSatisfied = kind.memory (make kind).flag := latched_make kind
  have hflag : (make kind).flag = fun _ => false := funext (flag_make kind)
  rw [hflag] at hlast
  exact ⟨rfl, hflag, hlast⟩

theorem recalls_after (kind : PredicateKind TriggerType) (events : List TriggerCall) :
    (after kind events).Recalls kind (Recall.after events) :=
  recalls_foldl (recalls_make kind) events

/-- **One activation after any history.** The callback is invoked if the
formula holds now, unless it held right after the last activation and all
flags of a `Predicate_1or2and3` are up. -/
theorem activate_after (kind : PredicateKind TriggerType) (events : List TriggerCall)
    (t : TriggerType) :
    ((after kind events).activate t).flag = raise (Recall.after events).flags t ∧
    ((after kind events).activate t).calls = (after kind events).calls +
      (if kind.holds (raise (Recall.after events).flags t) &&
        !(kind.holds (Recall.after events).seen &&
          kind.saturated (raise (Recall.after events).flags t)) then 1 else 0) := by
  obtain ⟨hkind, hflag, hlast⟩ := recalls_after kind events
  have hlast : (after kind events).lastSatisfied =
      (after kind events).kind.memory (Recall.after events).seen := by rw [hlast, hkind]
  obtain ⟨hflag', hcalls, _⟩ := activate_of_memory hlast t
  rw [hflag] at hflag' hcalls
  rw [hkind] at hcalls
  exact ⟨hflag', hcalls⟩

end Predicate

/-! ## Rising edges -/

/-- Whenever an activation turns the formula from false to true, it invokes the callback. -/
def EveryEdgeFires (kind : PredicateKind TriggerType) (events : List TriggerCall) : Prop :=
  ∀ before t rest, events = before ++ .activate t :: rest →
    kind.holds (Predicate.after kind before).flag = false →
    kind.holds ((Predicate.after kind before).activate t).flag = true →
    ((Predicate.after kind before).activate t).calls = (Predicate.after kind before).calls + 1

/-- The formula held right after the last activation, has been lost to
deactivations since, and this activation brings all three flags up. -/
def EdgeMissed (kind : PredicateKind TriggerType) (before : List TriggerCall) (t : TriggerType) :
    Prop :=
  kind.holds (Recall.after before).seen = true ∧ kind.holds (Recall.after before).flags = false ∧
    kind.saturated (raise (Recall.after before).flags t) = true

theorem PredicateKind.holds_of_saturated {κ : Type} {k : PredicateKind κ} {f : κ → Bool}
    (h : k.saturated f = true) : k.holds f = true := by
  cases k with
  | predicate1or2and3 o₁ o₂ a =>
    obtain ⟨ho, ha⟩ := Bool.and_eq_true_iff.mp h
    obtain ⟨ho₁, _⟩ := Bool.and_eq_true_iff.mp ho
    exact (holds_iff _ _).mpr ⟨Or.inl ho₁, ha⟩
  | predicate1and2 a₁ a₂ => cases h
  | predicate1element a => cases h

/-- **Where every rising edge fires.** Exactly in the histories that miss none
in the one way there is. -/
theorem everyEdgeFires_iff (kind : PredicateKind TriggerType) (events : List TriggerCall) :
    EveryEdgeFires kind events ↔
      ∀ before t rest, events = before ++ .activate t :: rest → ¬ EdgeMissed kind before t := by
  refine forall_congr' fun before => forall_congr' fun t => forall_congr' fun rest =>
    forall_congr' fun _ => ?_
  obtain ⟨hflag, hcalls⟩ := Predicate.activate_after kind before t
  rw [(Predicate.recalls_after kind before).flag, hflag, hcalls]
  unfold EdgeMissed
  constructor
  · intro h ⟨hseen, hnow, hsat⟩
    have hholds := PredicateKind.holds_of_saturated hsat
    have := h hnow hholds
    rw [hholds, hseen, hsat] at this
    simp at this
  · intro hmissed hnow hholds
    have hnot : (kind.holds (Recall.after before).seen &&
        kind.saturated (raise (Recall.after before).flags t)) = false := by
      by_contra h
      obtain ⟨hseen, hsat⟩ := Bool.and_eq_true_iff.mp (Bool.eq_true_of_not_eq_false h)
      exact hmissed ⟨hseen, hnow, hsat⟩
    rw [hholds, hnot]
    rfl

/-- All three operands rise and the callback is invoked; the and-operand falls
and rises again, and it is not. -/
theorem second_edge_missed :
    let before := [TriggerCall.activate cpuOver80, .activate cpuOver70, .activate cpuOver60,
      .deactivate cpuOver60]
    let p := Predicate.after threeLevels before
    threeLevels.holds p.flag = false ∧ threeLevels.holds (p.activate cpuOver60).flag = true ∧
    p.calls = 1 ∧ (p.activate cpuOver60).calls = 1 ∧
    ¬ EveryEdgeFires threeLevels (before ++ [.activate cpuOver60]) := by
  intro before p
  have hnow : threeLevels.holds p.flag = false := by decide
  have hthen : threeLevels.holds (p.activate cpuOver60).flag = true := by decide
  refine ⟨hnow, hthen, by decide, by decide, fun h => ?_⟩
  have := h before cpuOver60 [] rfl hnow hthen
  revert this
  decide

/-! ## The second or-operand -/

/-- An or-operand rises while the other one and the and-operand are up: the
formula held before, and all flags are up now. -/
theorem calls_activate_or {o₁ o₂ a t y : TriggerType} (hty : t = o₁ ∧ y = o₂ ∨ t = o₂ ∧ y = o₁)
    {events : List TriggerCall}
    (hy : (Predicate.after (.predicate1or2and3 o₁ o₂ a) events).flag y = true)
    (ha : (Predicate.after (.predicate1or2and3 o₁ o₂ a) events).flag a = true) :
    ((Predicate.after (.predicate1or2and3 o₁ o₂ a) events).activate t).calls =
      (Predicate.after (.predicate1or2and3 o₁ o₂ a) events).calls := by
  have hground := Recall.grounded_after events
  rw [(Predicate.recalls_after (.predicate1or2and3 o₁ o₂ a) events).flag] at hy ha
  have hor : ∀ f : TriggerType → Bool, f y = true → f o₁ = true ∨ f o₂ = true := by
    rcases hty with ⟨_, rfl⟩ | ⟨_, rfl⟩
    · exact fun f h => Or.inr h
    · exact fun f h => Or.inl h
  have hseen : (PredicateKind.predicate1or2and3 o₁ o₂ a).holds (Recall.after events).seen = true :=
    (PredicateKind.holds_iff _ _).mpr ⟨hor _ (hground y hy), hground a ha⟩
  have hup : ∀ z, (Recall.after events).flags z = true →
      raise (Recall.after events).flags t z = true := fun z hz => raise_iff.mpr (Or.inl hz)
  have hsat : (PredicateKind.predicate1or2and3 o₁ o₂ a).saturated
      (raise (Recall.after events).flags t) = true := by
    rcases hty with ⟨rfl, rfl⟩ | ⟨rfl, rfl⟩
    · simp [PredicateKind.saturated, hup y hy, hup a ha]
    · simp [PredicateKind.saturated, hup y hy, hup a ha]
  have hcalls := (Predicate.activate_after (.predicate1or2and3 o₁ o₂ a) events t).2
  rw [hseen, hsat] at hcalls
  simpa using hcalls

/-- An activation that invokes the callback leaves flags that satisfy the formula. -/
theorem holds_of_calls_activate {kind : PredicateKind TriggerType} {events : List TriggerCall}
    {t : TriggerType}
    (h : ((Predicate.after kind events).activate t).calls ≠ (Predicate.after kind events).calls) :
    kind.holds ((Predicate.after kind events).activate t).flag = true := by
  obtain ⟨hflag, hcalls⟩ := Predicate.activate_after kind events t
  rw [hflag]
  by_contra hnot
  rw [Bool.eq_false_iff.mpr hnot] at hcalls
  exact h (by simpa using hcalls)

/-- **The second satisfaction of OR.** After any history, the callback is
invoked only if the formula then holds, and never by an or-operand while the
other one and the and-operand are up. -/
theorem second_or_never_fires (o₁ o₂ a : TriggerType) (events : List TriggerCall) :
    let p := Predicate.after (.predicate1or2and3 o₁ o₂ a) events
    (∀ call, (p.hear call).calls ≠ p.calls →
      ((p.hear call).flag o₁ = true ∨ (p.hear call).flag o₂ = true) ∧
        (p.hear call).flag a = true) ∧
    (p.flag o₂ = true → p.flag a = true → (p.activate o₁).calls = p.calls) ∧
    (p.flag o₁ = true → p.flag a = true → (p.activate o₂).calls = p.calls) := by
  intro p
  refine ⟨?_, calls_activate_or (Or.inl ⟨rfl, rfl⟩), calls_activate_or (Or.inr ⟨rfl, rfl⟩)⟩
  intro call hcall
  cases call with
  | deactivate t => exact absurd rfl hcall
  | activate t =>
    exact (PredicateKind.holds_iff (.predicate1or2and3 o₁ o₂ a) _).mp
      (holds_of_calls_activate hcall)

/-- The first and-or pair invokes the callback, the second or-operand does not. -/
theorem second_or_never_fires_three :
    let p := Predicate.after threeLevels [.activate cpuOver80, .activate cpuOver60]
    p.calls = 1 ∧ (p.activate cpuOver70).calls = p.calls := by
  intro p
  exact ⟨by decide, (second_or_never_fires cpuOver80 cpuOver70 cpuOver60
    [.activate cpuOver80, .activate cpuOver60]).2.2 (by decide) (by decide)⟩

end ResMonitor
