import Mathlib.Logic.Basic

/-! # Runs of a partial step function

A system takes a step for an action, or the action is not enabled. An
invariant may hold only as long as the steps meet a condition; then it holds
in the states of the runs whose steps all meet it. -/

namespace Transitions
variable {σ α : Type}

/-- The state after `actions`, if each was enabled in turn. -/
def run (step : σ → α → Option σ) : σ → List α → Option σ
  | s, [] => some s
  | s, a :: actions =>
    match step s a with
    | some s' => run step s' actions
    | none => none

/-- Every step of the run meets `ok`. -/
def AllSteps (step : σ → α → Option σ) (ok : σ → α → Prop) : σ → List α → Prop
  | _, [] => True
  | s, a :: actions => ok s a ∧ ∀ s', step s a = some s' → AllSteps step ok s' actions

theorem run_cons {step : σ → α → Option σ} {s s' : σ} {a : α} {actions : List α} :
    run step s (a :: actions) = some s' ↔
      ∃ s₁, step s a = some s₁ ∧ run step s₁ actions = some s' := by
  rw [run]
  cases step s a with
  | none => simp
  | some s₁ => simp

theorem run_singleton (step : σ → α → Option σ) (s : σ) (a : α) : run step s [a] = step s a := by
  rw [run]
  cases step s a <;> rfl

theorem run_append {step : σ → α → Option σ} {s s' : σ} {before after : List α} :
    run step s (before ++ after) = some s' ↔
      ∃ s₁, run step s before = some s₁ ∧ run step s₁ after = some s' := by
  induction before generalizing s with
  | nil => simp [run]
  | cons a before ih =>
    rw [List.cons_append, run_cons]
    constructor
    · intro ⟨s₁, hs₁, hrun⟩
      obtain ⟨s₂, hs₂, hrun⟩ := ih.mp hrun
      exact ⟨s₂, run_cons.mpr ⟨s₁, hs₁, hs₂⟩, hrun⟩
    · intro ⟨s₂, hs₂, hrun⟩
      obtain ⟨s₁, hs₁, hs₂⟩ := run_cons.mp hs₂
      exact ⟨s₁, hs₁, ih.mpr ⟨s₂, hs₂, hrun⟩⟩

theorem allSteps_prefix {step : σ → α → Option σ} {ok : σ → α → Prop} {s : σ}
    {before after : List α} (h : AllSteps step ok s (before ++ after)) :
    AllSteps step ok s before := by
  induction before generalizing s with
  | nil => trivial
  | cons a before ih => exact ⟨h.1, fun s' hs' => ih (h.2 s' hs')⟩

instance instDecidableAllSteps {step : σ → α → Option σ} {ok : σ → α → Prop}
    [∀ s a, Decidable (ok s a)] :
    ∀ s actions, Decidable (AllSteps step ok s actions)
  | _, [] => isTrue trivial
  | s, a :: actions =>
    have : Decidable (∀ s', step s a = some s' → AllSteps step ok s' actions) :=
      match step s a with
      | none => isTrue nofun
      | some s₁ =>
        have : Decidable (AllSteps step ok s₁ actions) := instDecidableAllSteps s₁ actions
        decidable_of_iff (AllSteps step ok s₁ actions)
          ⟨fun h _ hs => Option.some.inj hs ▸ h, fun h => h s₁ rfl⟩
    inferInstanceAs (Decidable (_ ∧ _))

/-- An invariant of the steps that meet `ok`. -/
theorem invariant_of_allSteps {step : σ → α → Option σ} {ok : σ → α → Prop} {I : σ → Prop}
    (hstep : ∀ s a s', I s → ok s a → step s a = some s' → I s') {s s' : σ} {actions : List α}
    (hI : I s) (hok : AllSteps step ok s actions) (hrun : run step s actions = some s') : I s' := by
  induction actions generalizing s with
  | nil =>
    obtain rfl := Option.some.inj hrun
    exact hI
  | cons a actions ih =>
    obtain ⟨s₁, hs₁, hrun⟩ := run_cons.mp hrun
    exact ih (hstep s a s₁ hI hok.1 hs₁) (hok.2 s₁ hs₁) hrun

/-- An invariant of all steps. -/
theorem invariant_of_run {step : σ → α → Option σ} {I : σ → Prop}
    (hstep : ∀ s a s', I s → step s a = some s' → I s') {s s' : σ} {actions : List α} (hI : I s)
    (hrun : run step s actions = some s') : I s' := by
  induction actions generalizing s with
  | nil =>
    obtain rfl := Option.some.inj hrun
    exact hI
  | cons a actions ih =>
    obtain ⟨s₁, hs₁, hrun⟩ := run_cons.mp hrun
    exact ih (hstep s a s₁ hI hs₁) hrun

/-- A run in which some step does not meet `ok`: up to the first of them the
invariant holds, and from it on whatever that step establishes and all keep. -/
theorem trapped_of_not_allSteps {step : σ → α → Option σ} {ok : σ → α → Prop} {I J : σ → Prop}
    (hstep : ∀ s a s', I s → ok s a → step s a = some s' → I s')
    (htrap : ∀ s a s', I s → ¬ ok s a → step s a = some s' → J s')
    (hkeep : ∀ s a s', J s → step s a = some s' → J s') {s s' : σ} {actions : List α} (hI : I s)
    (hrun : run step s actions = some s') (hnot : ¬ AllSteps step ok s actions) : J s' := by
  induction actions generalizing s with
  | nil => exact absurd trivial hnot
  | cons a actions ih =>
    obtain ⟨s₁, hs₁, hrun⟩ := run_cons.mp hrun
    by_cases hok : ok s a
    · refine ih (hstep s a s₁ hI hok hs₁) hrun fun hrest => hnot ⟨hok, fun s₂ hs₂ => ?_⟩
      obtain rfl := Option.some.inj (hs₁.symm.trans hs₂)
      exact hrest
    · exact invariant_of_run hkeep (htrap s a s₁ hI hok hs₁) hrun

/-! ## Refinement -/

section Refinement
variable {β τ : Type}

/-- The actions of an abstract system that a run shows; a step need not show any. -/
def events (step : σ → α → Option σ) (event : σ → α → Option β) : σ → List α → List β
  | _, [] => []
  | s, a :: actions => (event s a).toList ++
    match step s a with
    | some s' => events step event s' actions
    | none => []

theorem events_cons {step : σ → α → Option σ} {event : σ → α → Option β} {s s₁ : σ} {a : α}
    (h : step s a = some s₁) (actions : List α) :
    events step event s (a :: actions) = (event s a).toList ++ events step event s₁ actions := by
  rw [events, h]

/-- If every step does in the abstract system what it shows, every run does. -/
theorem run_events {step : σ → α → Option σ} {event : σ → α → Option β} {astep : τ → β → Option τ}
    {R : σ → τ → Prop}
    (hsim : ∀ s t a s', R s t → step s a = some s' →
      ∃ t', run astep t (event s a).toList = some t' ∧ R s' t')
    {s s' : σ} {t : τ} {actions : List α} (hR : R s t) (hrun : run step s actions = some s') :
    ∃ t', run astep t (events step event s actions) = some t' ∧ R s' t' := by
  induction actions generalizing s t with
  | nil =>
    obtain rfl := Option.some.inj hrun
    exact ⟨t, rfl, hR⟩
  | cons a actions ih =>
    obtain ⟨s₁, hs₁, hrun⟩ := run_cons.mp hrun
    obtain ⟨t₁, ht₁, hR₁⟩ := hsim s t a s₁ hR hs₁
    obtain ⟨t', ht', hR'⟩ := ih hR₁ hrun
    exact ⟨t', by rw [events_cons hs₁]; exact run_append.mpr ⟨t₁, ht₁, ht'⟩, hR'⟩

end Refinement

end Transitions
