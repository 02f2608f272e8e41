import Mathlib.Algebra.BigOperators.Group.List.Basic
import Mathlib.Algebra.Order.Field.Basic
import Mathlib.Tactic.Ring

/-! # A running division

Samples are added to a state one after the other, and the state is divided
after each addition. A sample is then divided once for every addition from its
own on. Compared with the mean, which divides each of them once, all samples
but the last lose a part. -/

namespace RunningMean
section Field
variable {K : Type} [Field K]

/-- Add each sample and divide at once. -/
def run (c : K) : K → List K → K
  | s, [] => s
  | s, x :: xs => run c ((s + x) / c) xs

def mean (c : K) (xs : List K) : K := xs.sum / c

/-- What samples that are added to a state contribute to the result. -/
def shares (c : K) : List K → K
  | [] => 0
  | x :: xs => x / c ^ (xs.length + 1) + shares c xs

/-- What `n` divisions leave of a sample, short of what one division leaves. -/
def weight (c : K) (n : Nat) : K := 1 / c - 1 / c ^ n

def missing (c : K) : List K → K
  | [] => 0
  | x :: xs => x * weight c (xs.length + 1) + missing c xs

/-- What a run from the first of `xs` over the others loses against their mean. -/
def lost (c : K) : List K → K
  | [] => 0
  | s :: xs => s * weight c xs.length + missing c xs

theorem run_eq (c s : K) (xs : List K) : run c s xs = s / c ^ xs.length + shares c xs := by
  induction xs generalizing s with
  | nil => simp [run, shares]
  | cons x xs ih =>
    rw [run, ih, shares, List.length_cons, div_div, ← pow_succ', add_div, add_assoc]

theorem shares_add_missing (c : K) (xs : List K) : shares c xs + missing c xs = xs.sum / c := by
  induction xs with
  | nil => simp [shares, missing]
  | cons x xs ih =>
    rw [List.sum_cons, add_div, ← ih, shares, missing, weight]
    ring

/-- The run falls short of the mean by what is lost. -/
theorem run_add_lost (c s : K) (xs : List K) :
    run c s xs + lost c (s :: xs) = mean c (s :: xs) := by
  rw [run_eq, lost, mean, List.sum_cons, add_div, ← shares_add_missing, weight]
  ring

theorem run_eq_mean_iff (c s : K) (xs : List K) :
    run c s xs = mean c (s :: xs) ↔ lost c (s :: xs) = 0 := by
  rw [← run_add_lost, left_eq_add]

@[simp] theorem weight_one (c : K) : weight c 1 = 0 := by simp [weight]

/-- One sample, or two, lose nothing. -/
theorem lost_of_length_le_two {xs : List K} (h : xs.length ≤ 2) : lost (xs.length : K) xs = 0 := by
  match xs, h with
  | [], _ => rfl
  | [s], _ => simp [lost, missing, weight]
  | [s, x], _ => simp [lost, missing]

end Field

section Ordered
variable {K : Type} [Field K] [LinearOrder K] [IsStrictOrderedRing K]

theorem weight_pos {c : K} (hc : 1 < c) {n : Nat} (hn : 2 ≤ n) : 0 < weight c n := by
  have hpos : 0 < c := lt_trans one_pos hc
  have hpow : c < c ^ n := lt_self_pow₀ hc hn
  exact sub_pos.mpr (one_div_lt_one_div_of_lt hpos hpow)

theorem missing_nonneg {c : K} (hc : 1 < c) {xs : List K} (h : ∀ x ∈ xs, 0 ≤ x) :
    0 ≤ missing c xs := by
  induction xs with
  | nil => exact le_refl 0
  | cons x xs ih =>
    obtain ⟨hx, hxs⟩ := List.forall_mem_cons.mp h
    have hw : 0 ≤ weight c (xs.length + 1) := by
      cases xs with
      | nil => exact le_of_eq (weight_one c).symm
      | cons y ys => exact le_of_lt (weight_pos hc (by simp))
    exact add_nonneg (mul_nonneg hx hw) (ih hxs)

theorem missing_eq_zero_iff {c : K} (hc : 1 < c) {xs : List K} (h : ∀ x ∈ xs, 0 ≤ x) :
    missing c xs = 0 ↔ ∀ x ∈ xs.dropLast, x = 0 := by
  induction xs with
  | nil => simp [missing]
  | cons x xs ih =>
    obtain ⟨hx, hxs⟩ := List.forall_mem_cons.mp h
    cases xs with
    | nil => simp [missing]
    | cons y ys =>
      have hw : 0 < weight c ((y :: ys).length + 1) := weight_pos hc (by simp)
      rw [missing, add_eq_zero_iff_of_nonneg (mul_nonneg hx hw.le) (missing_nonneg hc hxs), ih hxs,
        mul_eq_zero_iff_right hw.ne', List.dropLast_cons_cons, List.forall_mem_cons]

/-- From three samples on, samples that are not negative lose nothing only if
all but the last are 0. -/
theorem lost_eq_zero_iff {c : K} (hc : 1 < c) {xs : List K} (hlen : 3 ≤ xs.length)
    (h : ∀ x ∈ xs, 0 ≤ x) : lost c xs = 0 ↔ ∀ x ∈ xs.dropLast, x = 0 := by
  match xs, hlen with
  | s :: y :: ys, hlen =>
    obtain ⟨hs, hxs⟩ := List.forall_mem_cons.mp h
    have hw : 0 < weight c (y :: ys).length := weight_pos hc (by simp at hlen ⊢; omega)
    rw [lost, add_eq_zero_iff_of_nonneg (mul_nonneg hs hw.le) (missing_nonneg hc hxs),
      missing_eq_zero_iff hc hxs, mul_eq_zero_iff_right hw.ne', List.dropLast_cons_cons,
      List.forall_mem_cons]

end Ordered
end RunningMean
