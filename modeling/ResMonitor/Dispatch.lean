import ResMonitor.Alarm
import ResMonitor.Polls
import ResMonitor.PredicateEngine

/-! # What a registered predicate hears

A run of sampler and engine, seen from one registered predicate. The calls the
sampler makes reach it as activations of its operands, in the order of the
trigger table; deactivations reach it only where they change nothing. Its
callback is therefore invoked as `PredicateKind.ringsIn` says. -/

namespace ResMonitor

/-! ## Activations of one trigger -/

/-- Poll `k` activates `t`. -/
def TriggerType.activatesAt (t : TriggerType) (sat : Nat → Bool) (k : Nat) : Bool :=
  if 0 < t.duration then RunLength.fires t.duration.toNat sat k
  else decide (t.duration = 0) && !sat k

/-- The callbacks seen from a predicate that hears of `t` `hears t` times. -/
def Predicate.callbacks (hears : TriggerType → Nat) : Callbacks Predicate :=
  ⟨fun t => (·.activate t)^[hears t], fun t => (·.deactivate t)^[hears t]⟩

namespace Predicate

theorem iterate_activate (t : TriggerType) (n : Nat) (p : Predicate) :
    (·.activate t)^[n] p = (List.replicate n t).foldl activate p := by
  induction n generalizing p with
  | zero => rfl
  | succ n ih => rw [Function.iterate_succ_apply, List.replicate_succ, List.foldl_cons, ih]

theorem activate_iterate_deactivate (t : TriggerType) (n : Nat) (p : Predicate) :
    ((·.deactivate t)^[n] p).activate t = p.activate t := by
  induction n with
  | zero => rfl
  | succ n ih => rw [Function.iterate_succ_apply', activate_deactivate, ih]

/-- What one trigger's calls do to a predicate whose flags of negative duration are down. -/
theorem foldl_callsAt {hears : TriggerType → Nat} {p : Predicate} {t : TriggerType}
    (hh : 0 < hears t → t ∈ p.kind.getPredicateOperands)
    (hneg : t.duration < 0 → p.flag t = false) (sat : Nat → Bool) (k : Nat) :
    (t.callsAt sat k).foldl (callbacks hears).call p =
      (if t.activatesAt sat k then List.replicate (hears t) t else []).foldl activate p := by
  unfold TriggerType.callsAt TriggerType.activatesAt
  by_cases hd : 0 < t.duration
  · rw [if_pos hd, if_pos hd]
    cases RunLength.fires t.duration.toNat sat k with
    | true => exact iterate_activate t (hears t) p
    | false => rfl
  · rw [if_neg hd, if_neg hd]
    cases hs : sat k with
    | true => simp
    | false =>
      by_cases h0 : t.duration = 0
      · -- the deactivation is undone by the activation right after it
        have hact : (·.activate t)^[hears t] ((·.deactivate t)^[hears t] p) =
            (·.activate t)^[hears t] p := by
          cases hears t with
          | zero => rfl
          | succ n =>
            rw [Function.iterate_succ_apply, activate_iterate_deactivate,
              ← Function.iterate_succ_apply (fun q : Predicate => q.activate t)]
        simp only [h0, decide_true, Bool.not_false, Bool.and_true, if_true, Bool.false_eq_true,
          if_false, List.foldl_cons, List.foldl_nil]
        rw [← iterate_activate]
        exact hact
      · -- a trigger of negative duration is never activated, its flag is down already
        simp only [h0, decide_false, Bool.false_and, Bool.false_eq_true, if_false, List.foldl_cons,
          List.foldl_nil]
        change (·.deactivate t)^[hears t] p = p
        cases hn : hears t with
        | zero => rfl
        | succ n =>
          have hop := hh (by omega)
          exact Function.iterate_fixed (deactivate_of_down hop (hneg (by omega))) _

end Predicate

/-! ## Activations along a run -/

section Run
variable {F : Type} [Double F]

/-- The activations a predicate hears in poll `k`. -/
def told (hears : TriggerType → Nat) (order : List TriggerType) (xs : Nat → Sample F) (k : Nat) :
    List TriggerType :=
  (order.filter fun t => t.activatesAt (outcomes xs t) k).flatMap fun t =>
    List.replicate (hears t) t

/-- The activations it hears in the polls `r, …, r + n - 1`. -/
def toldUpTo (hears : TriggerType → Nat) (order : List TriggerType) (xs : Nat → Sample F)
    (r n : Nat) : List TriggerType :=
  (List.range n).flatMap fun j => told hears order xs (r + j)

theorem toldUpTo_succ (hears : TriggerType → Nat) (order : List TriggerType) (xs : Nat → Sample F)
    (r n : Nat) : toldUpTo hears order xs r (n + 1) =
      toldUpTo hears order xs r n ++ told hears order xs (r + n) := by
  simp [toldUpTo, List.range_succ, List.flatMap_append]

theorem told_cons (hears : TriggerType → Nat) (t : TriggerType) (order : List TriggerType)
    (xs : Nat → Sample F) (k : Nat) : told hears (t :: order) xs k =
      (if t.activatesAt (outcomes xs t) k then List.replicate (hears t) t else []) ++
        told hears order xs k := by
  unfold told
  rw [List.filter_cons]
  split <;> simp

theorem mem_told {hears : TriggerType → Nat} {order : List TriggerType} {xs : Nat → Sample F}
    {k : Nat} {t : TriggerType} : t ∈ told hears order xs k ↔
      0 < hears t ∧ t ∈ order ∧ t.activatesAt (outcomes xs t) k = true := by
  unfold told
  simp only [List.mem_flatMap, List.mem_filter, List.mem_replicate]
  constructor
  · rintro ⟨y, ⟨hy, hact⟩, hn, rfl⟩
    exact ⟨by omega, hy, hact⟩
  · intro ⟨hn, ht, hact⟩
    exact ⟨t, ⟨ht, hact⟩, by omega, rfl⟩

/-- The predicate's flags of negative duration are down. -/
def NegativeDown (p : Predicate) : Prop := ∀ t : TriggerType, t.duration < 0 → p.flag t = false

theorem not_activatesAt_of_neg {t : TriggerType} (h : t.duration < 0) (sat : Nat → Bool) (k : Nat) :
    t.activatesAt sat k = false := by
  unfold TriggerType.activatesAt
  rw [if_neg (by omega), decide_eq_false (by omega), Bool.false_and]

theorem negativeDown_foldl {p : Predicate} (hl : p.Latched) (hneg : NegativeDown p)
    {ts : List TriggerType} (hts : ∀ t ∈ ts, 0 ≤ t.duration) :
    NegativeDown (ts.foldl Predicate.activate p) := by
  intro t ht
  rw [(Predicate.foldl_activate hl ts).2.1, raiseAll, hneg t ht, Bool.false_or]
  exact decide_eq_false fun hm => by have := hts t hm; omega

theorem duration_of_mem_told {hears : TriggerType → Nat} {order : List TriggerType}
    {xs : Nat → Sample F} {k : Nat} {t : TriggerType} (h : t ∈ told hears order xs k) :
    0 ≤ t.duration := by
  by_contra hneg
  have := (mem_told.mp h).2.2
  rw [not_activatesAt_of_neg (by omega)] at this
  cases this

/-- The calls of one poll reach the predicate as the activations `told`. -/
theorem foldl_callsIn {hears : TriggerType → Nat} {p : Predicate}
    (hh : ∀ t, 0 < hears t → t ∈ p.kind.getPredicateOperands) (hl : p.Latched)
    (hneg : NegativeDown p) (order : List TriggerType) (xs : Nat → Sample F) (k : Nat) :
    (callsIn order xs k).foldl (Predicate.callbacks hears).call p =
      (told hears order xs k).foldl Predicate.activate p := by
  induction order generalizing p with
  | nil => rfl
  | cons t order ih =>
    rw [callsIn, List.flatMap_cons, List.foldl_append, told_cons, List.foldl_append,
      Predicate.foldl_callsAt (hh t) (hneg t)]
    obtain ⟨hk, _, _, hl'⟩ := Predicate.foldl_activate hl
      (if t.activatesAt (outcomes xs t) k then List.replicate (hears t) t else [])
    refine ih (by rw [hk]; exact hh) hl' (negativeDown_foldl hl hneg fun y hy => ?_)
    have hmem : y ∈ told hears (t :: order) xs k := by
      rw [told_cons]
      exact List.mem_append_left _ hy
    exact duration_of_mem_told hmem

theorem runCalls_predicate {hears : TriggerType → Nat} {p : Predicate}
    (hh : ∀ t, 0 < hears t → t ∈ p.kind.getPredicateOperands) (hl : p.Latched)
    (hneg : NegativeDown p) (order : List TriggerType) (xs : Nat → Sample F) (r n : Nat) :
    runCalls (Predicate.callbacks hears) order xs r n p =
      (toldUpTo hears order xs r n).foldl Predicate.activate p := by
  induction n with
  | zero => rfl
  | succ n ih =>
    obtain ⟨hk, _, _, hl'⟩ := Predicate.foldl_activate hl (toldUpTo hears order xs r n)
    rw [runCalls, ih, toldUpTo_succ, List.foldl_append]
    refine foldl_callsIn (by rw [hk]; exact hh) hl' (negativeDown_foldl hl hneg fun t ht => ?_)
      order xs (r + n)
    obtain ⟨j, _, hj⟩ := List.mem_flatMap.mp ht
    exact duration_of_mem_told hj

/-! ## From the engine to the predicate -/

/-- Callbacks that keep two states related keep them related over a run. -/
theorem runCalls_related {E E' : Type} {cb : Callbacks E} {cb' : Callbacks E'} (R : E → E' → Prop)
    (hact : ∀ t e e', R e e' → R (cb.triggerActivate t e) (cb'.triggerActivate t e'))
    (hdeact : ∀ t e e', R e e' → R (cb.triggerDeactivate t e) (cb'.triggerDeactivate t e'))
    (order : List TriggerType) (xs : Nat → Sample F) (r n : Nat) {e : E} {e' : E'} (h : R e e') :
    R (runCalls cb order xs r n e) (runCalls cb' order xs r n e') := by
  have hcalls : ∀ (calls : List TriggerCall) (e : E) (e' : E'), R e e' →
      R (calls.foldl cb.call e) (calls.foldl cb'.call e') := by
    intro calls
    induction calls with
    | nil => exact fun e e' h => h
    | cons c calls ih =>
      intro e e' h
      refine ih _ _ ?_
      cases c with
      | activate t => exact hact t e e' h
      | deactivate t => exact hdeact t e e' h
  induction n with
  | zero => exact h
  | succ n ih => exact hcalls _ _ _ ih

/-- The predicate `id` of the engine is `p`, and hears what it always heard. -/
def Mirrors (hears : TriggerType → Nat) (id : Nat) (e : PredicateEngine) (p : Predicate) : Prop :=
  e.hears id = hears ∧ e.lock id = some p

theorem mirrors_signal {hears : TriggerType → Nat} {id : Nat} {e : PredicateEngine} {p : Predicate}
    (h : Mirrors hears id e p) {f : Predicate → Predicate} (hf : ∀ p, (f p).kind = p.kind)
    (t : TriggerType) : Mirrors hears id (PredicateEngine.signal f hf t e) (f^[hears t] p) := by
  obtain ⟨hhears, hlock⟩ := h
  refine ⟨?_, ?_⟩
  · rw [PredicateEngine.hears_signal, hhears]
  · rw [PredicateEngine.lock_signal, hlock, hhears, Option.map_some]

theorem runCalls_engine {e : PredicateEngine} {id : Nat} {p : Predicate} (h : e.lock id = some p)
    (order : List TriggerType) (xs : Nat → Sample F) (r n : Nat) :
    (runCalls PredicateEngine.callbacks order xs r n e).lock id =
      some (runCalls (Predicate.callbacks (e.hears id)) order xs r n p) := by
  have hr : Mirrors (e.hears id) id (runCalls PredicateEngine.callbacks order xs r n e)
      (runCalls (Predicate.callbacks (e.hears id)) order xs r n p) :=
    runCalls_related (Mirrors (e.hears id) id)
      (fun t _ _ hm => mirrors_signal hm (fun p => p.kind_activate t) t)
      (fun t _ _ hm => mirrors_signal hm (fun p => p.kind_deactivate t) t) order xs r n ⟨rfl, h⟩
  exact hr.2

end Run
end ResMonitor
