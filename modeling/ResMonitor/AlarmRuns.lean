import ResMonitor.Dispatch

/-! # Callback invocations during a run

The sampler takes `r` polls; then an engine in which a predicate has just been
registered is connected, and further polls follow. The callback invocations of
each of them have a closed form in the stream of samples and the order of the
trigger table. -/

namespace ResMonitor
variable {F : Type} [Double F]

namespace SamplingManager

/-- `r` polls, whatever is connected, then `n` polls with the engine `e`. -/
def connectedRun (m : SamplingManager F) (xs : Nat → Sample F) (r : Nat) (e : PredicateEngine)
    (n : Nat) : Except AssertFailure (SamplingManager F × PredicateEngine) := do
  let (m, _) ← m.polls Callbacks.default xs 0 r ()
  m.polls PredicateEngine.callbacks xs r n e

/-- How often the callback of predicate `id` has been invoked after those `n` polls. -/
def invocations (m : SamplingManager F) (xs : Nat → Sample F) (r : Nat) (e : PredicateEngine)
    (id n : Nat) : Except AssertFailure Nat := do
  let (_, e) ← m.connectedRun xs r e n
  .ok (match e.lock id with
    | some p => p.calls
    | none => 0)

/-- How often it is invoked during the next one, poll `r + n`. -/
def invocationsDuring (m : SamplingManager F) (xs : Nat → Sample F) (r : Nat)
    (e : PredicateEngine) (id n : Nat) : Except AssertFailure Nat := do
  let before ← m.invocations xs r e id n
  let after ← m.invocations xs r e id (n + 1)
  .ok (after - before)

end SamplingManager

/-! ## Flags -/

/-- Poll `r + n` finds the flag of `t` raised if `t` is configured and was
activated in one of the polls `r, …, r + n - 1`. -/
def raised (triggerTypes : List TriggerType) (xs : Nat → Sample F) (r n : Nat)
    (t : TriggerType) : Bool :=
  decide (t ∈ triggerTypes) && (List.range n).any fun j => t.activatesAt (outcomes xs t) (r + j)

theorem raised_iff {triggerTypes : List TriggerType} {xs : Nat → Sample F} {r n : Nat}
    {t : TriggerType} : raised triggerTypes xs r n t = true ↔
      t ∈ triggerTypes ∧ ∃ j, r ≤ j ∧ j < r + n ∧ t.activatesAt (outcomes xs t) j = true := by
  unfold raised
  simp only [Bool.and_eq_true, decide_eq_true_eq, List.any_eq_true, List.mem_range]
  refine and_congr_right fun _ => ⟨?_, ?_⟩
  · intro ⟨j, hj, hact⟩
    exact ⟨r + j, by omega, by omega, hact⟩
  · intro ⟨j, hr, hj, hact⟩
    refine ⟨j - r, by omega, ?_⟩
    rwa [show r + (j - r) = j by omega]

/-- The flags just before `t` is dispatched in poll `r + n`. -/
def flagsBefore (triggerTypes order : List TriggerType) (xs : Nat → Sample F) (r n : Nat)
    (t : TriggerType) : TriggerType → Bool := fun y =>
  raised triggerTypes xs r n y ||
    (decide (order.idxOf y < order.idxOf t) && y.activatesAt (outcomes xs y) (r + n))

/-- In a list without repetition, what a filter keeps before `t` are the kept
elements that come before `t`. -/
theorem mem_before_iff {l before after : List TriggerType} {t : TriggerType} (hn : l.Nodup)
    {P : TriggerType → Bool} (h : l.filter P = before ++ t :: after) (y : TriggerType) :
    y ∈ before ↔ P y = true ∧ l.idxOf y < l.idxOf t := by
  obtain ⟨l₁, l₂, rfl, rfl, h₂⟩ := List.filter_eq_append_iff.mp h
  obtain ⟨l₃, l₄, rfl, hl₃, ht, rfl⟩ := List.filter_eq_cons_iff.mp h₂
  have hl : l₁ ++ (l₃ ++ t :: l₄) = (l₁ ++ l₃) ++ t :: l₄ := (List.append_assoc ..).symm
  have hb : l₁.filter P = (l₁ ++ l₃).filter P := by
    rw [List.filter_append, List.filter_eq_nil_iff.mpr fun a ha => hl₃ a ha, List.append_nil]
  rw [hb, hl]
  rw [hl] at hn
  have hnot : t ∉ l₁ ++ l₃ := fun hm => (List.disjoint_of_nodup_append hn) hm List.mem_cons_self
  rw [List.mem_filter, List.idxOf_append_of_notMem hnot, List.idxOf_cons_self, Nat.add_zero,
    and_comm]
  refine and_congr_right fun _ => ⟨fun hy => ?_, fun hlt => ?_⟩
  · rw [List.idxOf_append_of_mem hy]
    exact List.idxOf_lt_length_of_mem hy
  · by_contra hy
    rw [List.idxOf_append_of_notMem hy] at hlt
    omega

/-! ## The closed form -/

section Closed
variable {logTypes : List LogType} {triggerTypes : List TriggerType} {m : SamplingManager F}
  {e : PredicateEngine} {id : Nat} {kind : PredicateKind TriggerType}

theorem raised_eq_raiseAll (hkeys : ∀ t, t ∈ m.triggerStates.keys ↔ t ∈ triggerTypes)
    (he : e.Registered id kind) (xs : Nat → Sample F) (r n : Nat) :
    ∀ t ∈ kind.getPredicateOperands,
      raiseAll (fun _ => false) (toldUpTo (e.hears id) m.triggerStates.keys xs r n) t =
        raised triggerTypes xs r n t := by
  intro t ht
  rw [Bool.eq_iff_iff, raised, raiseAll, toldUpTo]
  simp only [Bool.false_or, decide_eq_true_eq, List.mem_flatMap, mem_told, hkeys, List.mem_range,
    Bool.and_eq_true, List.any_eq_true]
  constructor
  · intro h
    obtain ⟨j, hj, _, hin, hact⟩ := h
    exact ⟨hin, j, hj, hact⟩
  · intro h
    obtain ⟨hin, j, hj, hact⟩ := h
    exact ⟨j, hj, he.heard t ht, hin, hact⟩

theorem invocations_eq (hm : m.ConstructedFrom logTypes triggerTypes)
    (hu : ∀ t ∈ triggerTypes, t.UnitFits) (he : e.Registered id kind) (xs : Nat → Sample F)
    (r n : Nat) : m.invocations xs r e id n =
      .ok (kind.ringsIn (fun _ => false) (toldUpTo (e.hears id) m.triggerStates.keys xs r n)) := by
  have hu' : ∀ t ∈ m.triggerStates.keys, t.UnitFits := fun t ht => hu t ((hm.mem_keys t).mp ht)
  obtain ⟨m', hpre, htab⟩ :=
    SamplingManager.polls_tableAt (hm.tableAt xs) hu' Callbacks.default () r
  rw [Nat.zero_add] at htab
  obtain ⟨m'', hrun, _⟩ := SamplingManager.polls_tableAt htab hu' PredicateEngine.callbacks e n
  have hlock := runCalls_engine he.fresh m.triggerStates.keys xs r n
  have hflag : (Predicate.make kind).flag = fun _ => false := funext (Predicate.flag_make kind)
  have hpred := runCalls_predicate (fun t => PredicateEngine.mem_operands_of_hears he.fresh)
    (Predicate.latched_make kind) (fun t _ => Predicate.flag_make kind t)
    m.triggerStates.keys xs r n
  have hcalls := (Predicate.foldl_activate (Predicate.latched_make kind)
    (toldUpTo (e.hears id) m.triggerStates.keys xs r n)).2.2.1
  rw [← hpred, hflag] at hcalls
  simp only [SamplingManager.invocations, SamplingManager.connectedRun, hpre, hrun, hlock, bind,
    Except.bind, hcalls]
  exact congrArg Except.ok (Nat.zero_add _)

/-- **The callback invocations of one poll.** -/
theorem invocationsDuring_eq (hm : m.ConstructedFrom logTypes triggerTypes)
    (hu : ∀ t ∈ triggerTypes, t.UnitFits) (he : e.Registered id kind) (xs : Nat → Sample F)
    (r n : Nat) : m.invocationsDuring xs r e id n =
      .ok (kind.ringsIn (raised triggerTypes xs r n)
        (told (e.hears id) m.triggerStates.keys xs (r + n))) := by
  unfold SamplingManager.invocationsDuring
  rw [invocations_eq hm hu he, invocations_eq hm hu he, toldUpTo_succ, PredicateKind.ringsIn_append,
    PredicateKind.ringsIn_congr (raised_eq_raiseAll hm.mem_keys he xs r n)]
  exact congrArg Except.ok (Nat.add_sub_cancel_left ..)

/-- The callback is invoked during poll `r + n` exactly if one of the operands
activated in it rings over the flags it finds. -/
theorem invocationsDuring_pos (hm : m.ConstructedFrom logTypes triggerTypes)
    (hu : ∀ t ∈ triggerTypes, t.UnitFits) (he : e.Registered id kind) (xs : Nat → Sample F)
    (r n : Nat) : ∃ c, m.invocationsDuring xs r e id n = .ok c ∧
      (0 < c ↔ ∃ t ∈ kind.getPredicateOperands, t ∈ triggerTypes ∧
        t.activatesAt (outcomes xs t) (r + n) = true ∧
        kind.rings (flagsBefore triggerTypes m.triggerStates.keys xs r n t) t = true) := by
  refine ⟨_, invocationsDuring_eq hm hu he xs r n, ?_⟩
  -- the flags left by the earlier dispatches of this poll, on the operands
  have hflags : ∀ {before t after}, (m.triggerStates.keys.filter fun t =>
        t.activatesAt (outcomes xs t) (r + n)) = before ++ t :: after →
      ∀ y ∈ kind.getPredicateOperands,
        raiseAll (raised triggerTypes xs r n) (before.filter fun y => 0 < e.hears id y) y =
          flagsBefore triggerTypes m.triggerStates.keys xs r n t y := by
    intro before t after hsplit y hy
    have hmem := mem_before_iff m.triggerStates.nodup_keys hsplit y
    rw [raiseAll, flagsBefore]
    congr 1
    rw [Bool.eq_iff_iff]
    simp only [decide_eq_true_eq, List.mem_filter, hmem, he.heard y hy, and_true, Bool.and_eq_true]
    exact and_comm
  rw [told, PredicateKind.ringsIn_flatMap_pos]
  constructor
  · intro h
    obtain ⟨before, t, after, hsplit, hpos, hrings⟩ := h
    have ht := List.mem_filter.mp (hsplit ▸ List.mem_append_right before List.mem_cons_self)
    refine ⟨t, PredicateEngine.mem_operands_of_hears he.fresh hpos, (hm.mem_keys t).mp ht.1, ht.2,
      ?_⟩
    rwa [← PredicateKind.rings_congr (hflags hsplit)]
  · intro h
    obtain ⟨t, hop, hin, hact, hrings⟩ := h
    have hmem : t ∈ m.triggerStates.keys.filter fun t =>
        t.activatesAt (outcomes xs t) (r + n) :=
      List.mem_filter.mpr ⟨(hm.mem_keys t).mpr hin, hact⟩
    obtain ⟨before, after, hsplit⟩ := List.append_of_mem hmem
    refine ⟨before, t, after, hsplit, he.heard t hop, ?_⟩
    rwa [PredicateKind.rings_congr (hflags hsplit)]

end Closed
end ResMonitor
