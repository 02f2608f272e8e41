import ResMonitor.Predicate

/-! # When a predicate rings

The behaviour of a predicate that is only ever told that triggers fire, over
any type of triggers. Its state is then the set of raised flags alone: it
rings when a flag is raised and the formula holds, except that
`Predicate_1or2and3` stays silent once its formula held and all three of its
flags are up. The objects of the source follow this description as long as no
flag is lowered for good. -/

namespace ResMonitor

section Raise
variable {κ : Type} [DecidableEq κ]

def raise (f : κ → Bool) (t : κ) : κ → Bool := fun y => f y || decide (y = t)

/-- The flags after all of `ts` have been raised. -/
def raiseAll (f : κ → Bool) (ts : List κ) : κ → Bool := fun y => f y || decide (y ∈ ts)

theorem raise_iff {f : κ → Bool} {t y : κ} : raise f t y = true ↔ f y = true ∨ y = t := by
  simp [raise]

@[simp] theorem raise_self (f : κ → Bool) (t : κ) : raise f t t = true := by simp [raise]

theorem raise_raise (f : κ → Bool) (t : κ) : raise (raise f t) t = raise f t := by
  funext y; simp [raise]

@[simp] theorem raiseAll_nil (f : κ → Bool) : raiseAll f [] = f := by funext y; simp [raiseAll]

theorem raiseAll_cons (f : κ → Bool) (t : κ) (ts : List κ) :
    raiseAll f (t :: ts) = raiseAll (raise f t) ts := by
  funext y; simp [raiseAll, raise, Bool.or_assoc]

theorem raiseAll_append (f : κ → Bool) (ts ts' : List κ) :
    raiseAll f (ts ++ ts') = raiseAll (raiseAll f ts) ts' := by
  funext y; simp [raiseAll, Bool.or_assoc]

theorem raiseAll_replicate (f : κ → Bool) (t : κ) (n : Nat) :
    raiseAll f (List.replicate (n + 1) t) = raise f t := by
  funext y; simp [raiseAll, raise, List.mem_replicate]

end Raise

namespace PredicateKind
variable {κ : Type}

/-- The predicate's formula, over whatever its operands are read as. -/
def Formula : PredicateKind κ → (κ → Prop) → Prop
  | .predicate1or2and3 o₁ o₂ a, P => (P o₁ ∨ P o₂) ∧ P a
  | .predicate1and2 a₁ a₂, P => P a₁ ∧ P a₂
  | .predicate1element a, P => P a

/-- The formula over the flags. -/
def holds : PredicateKind κ → (κ → Bool) → Bool
  | .predicate1or2and3 o₁ o₂ a, f => (f o₁ || f o₂) && f a
  | .predicate1and2 a₁ a₂, f => f a₁ && f a₂
  | .predicate1element a, f => f a

/-- What `lastSatisfied` remembers. -/
def memory : PredicateKind κ → (κ → Bool) → Bool
  | k@(.predicate1or2and3 _ _ _), f => k.holds f
  | _, _ => false

/-- All flags are up, of a kind that then stays silent. -/
def saturated : PredicateKind κ → (κ → Bool) → Bool
  | .predicate1or2and3 o₁ o₂ a, f => f o₁ && f o₂ && f a
  | _, _ => false

theorem holds_iff (k : PredicateKind κ) (f : κ → Bool) :
    k.holds f = true ↔ k.Formula fun t => f t = true := by
  cases k <;> simp [holds, Formula]

theorem formula_mono {k : PredicateKind κ} {P Q : κ → Prop}
    (h : ∀ t ∈ k.getPredicateOperands, P t → Q t) (hP : k.Formula P) : k.Formula Q := by
  cases k with
  | predicate1or2and3 o₁ o₂ a =>
    obtain ⟨ho, ha⟩ := hP
    exact ⟨ho.imp (h o₁ (by simp [getPredicateOperands])) (h o₂ (by simp [getPredicateOperands])),
      h a (by simp [getPredicateOperands]) ha⟩
  | predicate1and2 a₁ a₂ =>
    obtain ⟨h₁, h₂⟩ := hP
    exact ⟨h a₁ (by simp [getPredicateOperands]) h₁, h a₂ (by simp [getPredicateOperands]) h₂⟩
  | predicate1element a => exact h a (by simp [getPredicateOperands]) hP

theorem holds_congr {k : PredicateKind κ} {f g : κ → Bool}
    (h : ∀ t ∈ k.getPredicateOperands, f t = g t) : k.holds f = k.holds g := by
  cases k <;> simp_all [holds, getPredicateOperands]

theorem saturated_congr {k : PredicateKind κ} {f g : κ → Bool}
    (h : ∀ t ∈ k.getPredicateOperands, f t = g t) : k.saturated f = k.saturated g := by
  cases k <;> simp_all [saturated, getPredicateOperands]

variable [DecidableEq κ]

/-- Raising the flag of `t` over the flags `f` invokes the callback. -/
def rings (k : PredicateKind κ) (f : κ → Bool) (t : κ) : Bool :=
  k.holds (raise f t) && !(k.holds f && k.saturated (raise f t))

/-- How often the callback is invoked while the flags of `ts` are raised in turn. -/
def ringsIn (k : PredicateKind κ) : (κ → Bool) → List κ → Nat
  | _, [] => 0
  | f, t :: ts => (if k.rings f t then 1 else 0) + k.ringsIn (raise f t) ts

theorem rings_iff {k : PredicateKind κ} {f : κ → Bool} {t : κ} : k.rings f t = true ↔
    k.holds (raise f t) = true ∧ ¬ (k.holds f = true ∧ k.saturated (raise f t) = true) := by
  rw [rings, Bool.and_eq_true, Bool.not_eq_true', Bool.and_eq_false_iff, not_and_or]
  simp

/-- Without a memory, the callback is invoked whenever the formula holds. -/
theorem rings_of_formula {k : PredicateKind κ} {f : κ → Bool} {t : κ}
    (hsat : k.saturated (raise f t) = false) (h : k.Formula fun y => raise f t y = true) :
    k.rings f t = true := by
  refine rings_iff.mpr ⟨(holds_iff _ _).mpr h, fun ⟨_, hs⟩ => ?_⟩
  rw [hsat] at hs
  cases hs

theorem rings_congr {k : PredicateKind κ} {f g : κ → Bool}
    (h : ∀ t ∈ k.getPredicateOperands, f t = g t) (t : κ) : k.rings f t = k.rings g t := by
  have hr : ∀ y ∈ k.getPredicateOperands, raise f t y = raise g t y := by
    intro y hy
    simp [raise, h y hy]
  rw [rings, rings, holds_congr hr, holds_congr h, saturated_congr hr]

theorem ringsIn_congr {k : PredicateKind κ} {f g : κ → Bool}
    (h : ∀ t ∈ k.getPredicateOperands, f t = g t) (ts : List κ) :
    k.ringsIn f ts = k.ringsIn g ts := by
  induction ts generalizing f g with
  | nil => rfl
  | cons t ts ih =>
    have hr : ∀ y ∈ k.getPredicateOperands, raise f t y = raise g t y := by
      intro y hy
      simp [raise, h y hy]
    rw [ringsIn, ringsIn, rings_congr h, ih hr]

theorem ringsIn_append (k : PredicateKind κ) (f : κ → Bool) (ts ts' : List κ) :
    k.ringsIn f (ts ++ ts') = k.ringsIn f ts + k.ringsIn (raiseAll f ts) ts' := by
  induction ts generalizing f with
  | nil => simp [ringsIn]
  | cons t ts ih => rw [List.cons_append, ringsIn, ringsIn, ih, raiseAll_cons, Nat.add_assoc]

/-- A formula that becomes true while flags are raised rings. -/
theorem ringsIn_pos_of_edge {k : PredicateKind κ} {f : κ → Bool} {ts : List κ}
    (hnow : ¬ k.holds f = true) (hthen : k.holds (raiseAll f ts) = true) :
    0 < k.ringsIn f ts := by
  induction ts generalizing f with
  | nil => rw [raiseAll_nil] at hthen; exact absurd hthen hnow
  | cons t ts ih =>
    rw [ringsIn, Nat.add_pos_iff_pos_or_pos]
    by_cases hnext : k.holds (raise f t) = true
    · left
      rw [if_pos (rings_iff.mpr ⟨hnext, fun h => hnow h.1⟩)]
      exact Nat.one_pos
    · right
      rw [raiseAll_cons] at hthen
      exact ih hnext hthen

/-- Raising a flag that is up already rings only if raising it first did. -/
theorem rings_of_rings_again {k : PredicateKind κ} {f : κ → Bool} {t : κ}
    (h : k.rings (raise f t) t = true) : k.rings f t = true := by
  unfold rings at h ⊢
  rw [raise_raise] at h
  cases hs : k.saturated (raise f t) <;> simp_all

theorem ringsIn_replicate_pos (k : PredicateKind κ) (f : κ → Bool) (t : κ) (n : Nat) :
    0 < k.ringsIn f (List.replicate (n + 1) t) ↔ k.rings f t = true := by
  induction n generalizing f with
  | zero => cases h : k.rings f t <;> simp [ringsIn, h]
  | succ n ih =>
    rw [List.replicate_succ, ringsIn, Nat.add_pos_iff_pos_or_pos, ih]
    constructor
    · intro hcases
      rcases hcases with h | h
      · by_contra hr
        simp [hr] at h
      · exact rings_of_rings_again h
    · intro h
      simp [h]

/-- Something rings while each of `ts` is raised `rep` times: the first raising
of one of them rings. -/
theorem ringsIn_flatMap_pos (k : PredicateKind κ) (rep : κ → Nat) (ts : List κ) (f : κ → Bool) :
    0 < k.ringsIn f (ts.flatMap fun t => List.replicate (rep t) t) ↔
      ∃ before t after, ts = before ++ t :: after ∧ 0 < rep t ∧
        k.rings (raiseAll f (before.filter fun y => 0 < rep y)) t = true := by
  induction ts generalizing f with
  | nil => simp [ringsIn]
  | cons t ts ih =>
    rw [List.flatMap_cons, ringsIn_append, Nat.add_pos_iff_pos_or_pos, ih]
    -- what the head contributes to the flags is itself, if it is raised at all
    have hhead : raiseAll f (List.replicate (rep t) t) =
        raiseAll f ([t].filter fun y => 0 < rep y) := by
      cases hn : rep t with
      | zero => simp [hn]
      | succ n => rw [raiseAll_replicate]; simp [hn, raiseAll_cons]
    constructor
    · intro hcases
      rcases hcases with h | ⟨before, y, after, rfl, hpos, hy⟩
      · refine ⟨[], t, ts, rfl, ?_⟩
        cases hn : rep t with
        | zero => simp [hn, ringsIn] at h
        | succ n =>
          rw [hn, ringsIn_replicate_pos] at h
          exact ⟨Nat.succ_pos n, by rwa [List.filter_nil, raiseAll_nil]⟩
      · refine ⟨t :: before, y, after, rfl, hpos, ?_⟩
        rwa [← List.singleton_append, List.filter_append, raiseAll_append, ← hhead]
    · intro ⟨before, y, after, hts, hpos, hy⟩
      cases before with
      | nil =>
        obtain ⟨rfl, rfl⟩ := List.cons.inj hts
        rw [List.filter_nil, raiseAll_nil] at hy
        obtain ⟨n, hn⟩ : ∃ n, rep t = n + 1 := ⟨rep t - 1, by omega⟩
        exact Or.inl (by rw [hn, ringsIn_replicate_pos]; exact hy)
      | cons b before =>
        obtain ⟨rfl, rfl⟩ := List.cons.inj hts
        rw [← List.singleton_append, List.filter_append, raiseAll_append, ← hhead] at hy
        exact Or.inr ⟨before, y, after, rfl, hpos, hy⟩

end PredicateKind

/-! ## The objects follow -/

namespace Predicate

/-- `lastSatisfied` is what the flags say it is. -/
def Latched (p : Predicate) : Prop := p.lastSatisfied = p.kind.memory p.flag

theorem latched_make (kind : PredicateKind TriggerType) : (make kind).Latched := by
  unfold Latched
  have hf : (make kind).flag = fun _ => false := funext (flag_make kind)
  rw [hf]
  cases kind <;> simp [make, PredicateKind.memory, PredicateKind.holds]

theorem isPredicateSatisfied_fst (p : Predicate) :
    p.isPredicateSatisfied.1 =
      (p.kind.holds p.flag && !(p.lastSatisfied && p.kind.saturated p.flag)) := by
  unfold isPredicateSatisfied
  split <;> rename_i h <;> simp only [h, stateAt_eq, PredicateKind.holds, PredicateKind.saturated]
  · cases p.flag _ <;> cases p.flag _ <;> cases p.flag _ <;> cases p.lastSatisfied <;> rfl
  · simp
  · simp

theorem isPredicateSatisfied_snd {p : Predicate} {f : TriggerType → Bool}
    (hl : p.lastSatisfied = p.kind.memory f) :
    p.isPredicateSatisfied.2 = p.kind.memory p.flag := by
  unfold isPredicateSatisfied
  split <;> rename_i h <;> simp only [h, stateAt_eq, PredicateKind.memory, PredicateKind.holds]
  · cases p.flag _ <;> cases p.flag _ <;> cases p.flag _ <;> cases p.lastSatisfied <;> rfl
  · rw [hl, h, PredicateKind.memory]
    intros
    contradiction
  · rw [hl, h, PredicateKind.memory]
    intros
    contradiction

theorem flag_setState_true (p : Predicate) (t : TriggerType) :
    (p.setState t true).flag = raise p.flag t := by
  funext y
  rw [flag_setState, raise]
  by_cases hy : t = y
  · simp [hy]
  · simp [hy, Ne.symm hy]

/-- One activation, when `lastSatisfied` is what the flags `f` say it is. -/
theorem activate_of_memory {p : Predicate} {f : TriggerType → Bool}
    (h : p.lastSatisfied = p.kind.memory f) (t : TriggerType) :
    (p.activate t).flag = raise p.flag t ∧
    (p.activate t).calls = p.calls + (if p.kind.holds (raise p.flag t) &&
      !(p.kind.holds f && p.kind.saturated (raise p.flag t)) then 1 else 0) ∧
    (p.activate t).lastSatisfied = p.kind.memory (raise p.flag t) := by
  have hflag := flag_setState_true p t
  have hlast : (p.setState t true).lastSatisfied = p.kind.memory f := h
  have hfst := isPredicateSatisfied_fst (p.setState t true)
  have hsnd := isPredicateSatisfied_snd hlast
  rw [hflag, kind_setState] at hfst hsnd
  refine ⟨hflag, ?_, hsnd⟩
  have hsat : (p.setState t true).isPredicateSatisfied.1 = (p.kind.holds (raise p.flag t) &&
      !(p.kind.holds f && p.kind.saturated (raise p.flag t))) := by
    rw [hfst, hlast]
    cases p.kind <;> simp [PredicateKind.memory, PredicateKind.saturated]
  rw [← hsat]
  change (if (p.setState t true).isPredicateSatisfied.1 then p.calls + 1 else p.calls) = _
  split <;> rfl

/-- **One activation.** It raises the flag, rings as described, and keeps
`lastSatisfied` in line with the flags. -/
theorem activate_spec {p : Predicate} (h : p.Latched) (t : TriggerType) :
    (p.activate t).flag = raise p.flag t ∧
    (p.activate t).calls = p.calls + (if p.kind.rings p.flag t then 1 else 0) ∧
    (p.activate t).Latched := by
  obtain ⟨hflag, hcalls, hlast⟩ := activate_of_memory h t
  refine ⟨hflag, hcalls, ?_⟩
  unfold Latched
  rw [hlast, hflag]
  rfl

/-- A run of activations. -/
theorem foldl_activate {p : Predicate} (h : p.Latched) (ts : List TriggerType) :
    (ts.foldl activate p).kind = p.kind ∧
    (ts.foldl activate p).flag = raiseAll p.flag ts ∧
    (ts.foldl activate p).calls = p.calls + p.kind.ringsIn p.flag ts ∧
    (ts.foldl activate p).Latched := by
  induction ts generalizing p with
  | nil => exact ⟨rfl, (raiseAll_nil _).symm, rfl, h⟩
  | cons t ts ih =>
    obtain ⟨hf, hc, hl⟩ := activate_spec h t
    obtain ⟨hk', hf', hc', hl'⟩ := ih hl
    rw [hf, kind_activate] at hc'
    refine ⟨hk', ?_, ?_, hl'⟩
    · rw [List.foldl_cons, hf', hf, raiseAll_cons]
    · rw [List.foldl_cons, hc', hc, PredicateKind.ringsIn, Nat.add_assoc]

end Predicate
end ResMonitor
