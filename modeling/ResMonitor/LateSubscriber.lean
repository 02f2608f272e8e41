import ResMonitor.Rearming

/-! # Late subscribers

A predicate is registered while its triggers may have been counting, or
firing, for any number of polls. Each operand whose comparison holds from then
on fires within its duration, at whatever count it was; the flags of the new
predicate are all down, so its formula becomes true at one of these
activations, and that one invokes the callback. -/

namespace ResMonitor
variable {F : Type} [Double F]

/-- The comparisons of `operands` hold in the polls `r, …, r + n - 1`. -/
def HoldsFor (xs : Nat → Sample F) (operands : List TriggerType) (r n : Nat) : Prop :=
  ∀ t ∈ operands, ∀ j, j < n → outcomes xs t (r + j) = true

/-- An operand is activated in every stretch of satisfying samples as long as its duration. -/
theorem exists_activatesAt {t : TriggerType} (hd : 1 ≤ t.duration) {sat : Nat → Bool} {r n : Nat}
    (hn : t.duration ≤ n) (h : ∀ j, j < n → sat (r + j) = true) :
    ∃ j, j < n ∧ t.activatesAt sat (r + j) = true := by
  obtain ⟨j, hj, hf⟩ := RunLength.exists_fires_in_window (d := t.duration.toNat) (by omega)
    fun j hj => h j (by omega)
  refine ⟨j, by omega, ?_⟩
  rwa [TriggerType.activatesAt, if_pos (show 0 < t.duration by omega)]

/-- **A late subscriber is not missed.** From any state of the sampler, in any
iteration order: if the comparisons of operands that satisfy the formula hold
for as long as the longest of them asks, from the registration on, the callback
is invoked in that time, whatever the other operand does. -/
theorem late_subscriber_invoked {logTypes : List LogType} {triggerTypes : List TriggerType}
    {m : SamplingManager F} (hm : m.ConstructedFrom logTypes triggerTypes)
    (hu : ∀ t ∈ triggerTypes, t.UnitFits) {e : PredicateEngine} {id : Nat}
    {kind : PredicateKind TriggerType} (he : e.Registered id kind)
    (hops : ∀ t ∈ kind.getPredicateOperands, t ∈ triggerTypes ∧ 1 ≤ t.duration)
    (xs : Nat → Sample F) (r : Nat) {operands : List TriggerType}
    (hsub : ∀ t ∈ operands, t ∈ kind.getPredicateOperands)
    (hformula : kind.Formula fun t => t ∈ operands) {D : Nat}
    (hD : ∀ t ∈ operands, t.duration ≤ D) (hsat : HoldsFor xs operands r D) :
    ∃ c, m.invocations xs r e id D = .ok c ∧ 0 < c := by
  refine ⟨_, invocations_eq hm hu he xs r D, PredicateKind.ringsIn_pos_of_edge ?_ ?_⟩
  · cases kind <;> simp [PredicateKind.holds]
  · refine (PredicateKind.holds_iff _ _).mpr (PredicateKind.formula_mono ?_ hformula)
    intro t hop ht
    obtain ⟨hin, hd⟩ := hops t (hsub t ht)
    obtain ⟨j, hj, hact⟩ := exists_activatesAt hd (hD t ht) (hsat t ht)
    rw [raised_eq_raiseAll hm.mem_keys he xs r D t hop, raised_iff]
    exact ⟨hin, r + j, by omega, by omega, hact⟩

/-- Registered after one poll at 85%, with the two second trigger half way: at
a constant 85% the callback is invoked within two polls. -/
theorem late_subscriber_invoked_mock :
    ∃ c, (SamplingManager.unlogged [cpuOver80, cpuOver70, cpuOver60]).invocations
        (fun _ => mockSample 85) 1 (PredicateEngine.empty.subscribe threeLevels) 0 2 = .ok c ∧
      0 < c := by
  have hsat : HoldsFor (fun _ => mockSample 85) [cpuOver80, cpuOver60] 1 2 := by
    intro t ht j _
    change (mockSample 85).satisfies t = true
    revert ht t
    decide +kernel
  exact late_subscriber_invoked
    (SamplingManager.unlogged_constructed [cpuOver80, cpuOver70, cpuOver60]) (by decide)
    (PredicateEngine.registeredOnce_subscribe _ threeLevels).registered (by decide)
    (fun _ => mockSample 85) 1 (by decide) ⟨Or.inl (by decide), by decide⟩ (by decide) hsat

end ResMonitor
