import Mathlib.Algebra.BigOperators.Group.Finset.Basic
import Mathlib.Algebra.BigOperators.Intervals
import Mathlib.Data.Nat.ModEq

/-! # Runs of a boolean stream

`sat k` says whether sample `k` satisfies a comparison. `runLength sat k` is
the length of the maximal run of satisfying samples that ends at `k`. A timer
of period `d` that counts along a run and restarts when it reaches `d` fires
at the positive multiples of `d`; over `n` samples it fires `len / d` times in
each maximal run, and its counter is the run length modulo `d`. -/

namespace RunLength

/-- Length of the maximal satisfying run that ends at sample `k`. -/
def runLength (sat : Nat → Bool) : Nat → Nat
  | 0 => if sat 0 then 1 else 0
  | k + 1 => if sat (k + 1) then runLength sat k + 1 else 0

/-- The run that ends just before sample `k`: what a counter has seen so far. -/
def runBefore (sat : Nat → Bool) : Nat → Nat
  | 0 => 0
  | k + 1 => runLength sat k

@[simp] theorem runBefore_zero (sat : Nat → Bool) : runBefore sat 0 = 0 := rfl
@[simp] theorem runBefore_succ (sat : Nat → Bool) (k : Nat) :
    runBefore sat (k + 1) = runLength sat k := rfl

theorem runLength_eq (sat : Nat → Bool) (k : Nat) :
    runLength sat k = if sat k then runBefore sat k + 1 else 0 := by
  cases k <;> rfl

theorem runLength_of_not {sat : Nat → Bool} {k : Nat} (h : sat k = false) :
    runLength sat k = 0 := by rw [runLength_eq]; simp [h]

theorem runLength_pos {sat : Nat → Bool} {k : Nat} : 0 < runLength sat k ↔ sat k = true := by
  rw [runLength_eq]; split <;> simp_all

theorem runLength_le (sat : Nat → Bool) (k : Nat) : runLength sat k ≤ k + 1 := by
  induction k with
  | zero => unfold runLength; split <;> omega
  | succ k ih => unfold runLength; split <;> omega

/-- The last `d` samples up to and including sample `k` all satisfy. -/
def Holds (sat : Nat → Bool) (d k : Nat) : Prop :=
  d ≤ k + 1 ∧ ∀ j, j ≤ k → k < j + d → sat j = true

theorem holds_iff {sat : Nat → Bool} {d k : Nat} : Holds sat d k ↔ d ≤ runLength sat k := by
  induction k generalizing d with
  | zero =>
    unfold Holds runLength
    cases h : sat 0 with
    | true => simp [h]
    | false =>
      simp only [Bool.false_eq_true, if_false]
      refine ⟨fun ⟨hd, hs⟩ => ?_, fun hd => ⟨by omega, fun j hj hk => by omega⟩⟩
      by_contra hne
      have := hs 0 (Nat.le_refl _) (by omega)
      rw [h] at this; cases this
  | succ k ih =>
    simp only [runLength]
    cases h : sat (k + 1) with
    | false =>
      simp only [Bool.false_eq_true, if_false]
      refine ⟨fun ⟨hd, hs⟩ => ?_, fun hd => ⟨by omega, fun j hj hk => by omega⟩⟩
      by_contra hne
      have := hs (k + 1) (Nat.le_refl _) (by omega)
      rw [h] at this; cases this
    | true =>
      simp only [if_true]
      cases d with
      | zero => exact ⟨fun _ => Nat.zero_le _, fun _ => ⟨Nat.zero_le _, fun j hj hk => by omega⟩⟩
      | succ d =>
        -- the window of `d + 1` ending at `k + 1` is the window of `d` ending at `k`, plus one
        rw [Nat.add_le_add_iff_right, ← ih]
        constructor
        · intro ⟨hd, hs⟩
          exact ⟨by omega, fun j hj hk => hs j (by omega) (by omega)⟩
        · intro ⟨hd, hs⟩
          refine ⟨by omega, fun j hj hk => ?_⟩
          by_cases hjk : j = k + 1
          · rw [hjk]; exact h
          · exact hs j (by omega) (by omega)

/-- After an unsatisfying sample `q`, the run at `q + i` is `i` as long as the
samples in between satisfy. -/
theorem runLength_after {sat : Nat → Bool} {q : Nat} (hq : sat q = false) :
    ∀ i, (∀ j, q < j → j ≤ q + i → sat j = true) → runLength sat (q + i) = i
  | 0, _ => runLength_of_not hq
  | i + 1, h => by
    have ih := runLength_after hq i fun j hj hi => h j hj (by omega)
    have hs : sat (q + i + 1) = true := h _ (by omega) (by omega)
    change runLength sat (q + i + 1) = i + 1
    rw [runLength, if_pos hs, ih]

/-! ## The periodic timer -/

/-- A timer of period `d` fires at sample `k`. -/
def fires (d : Nat) (sat : Nat → Bool) (k : Nat) : Bool :=
  decide (0 < runLength sat k ∧ d ∣ runLength sat k)

theorem fires_iff {d : Nat} {sat : Nat → Bool} {k : Nat} :
    fires d sat k = true ↔ 0 < runLength sat k ∧ d ∣ runLength sat k := by simp [fires]

/-- When the timer fires, its window is full. -/
theorem holds_of_fires {d : Nat} {sat : Nat → Bool} {k : Nat} (h : fires d sat k = true) :
    Holds sat d k := by
  obtain ⟨hp, hd⟩ := fires_iff.mp h
  exact holds_iff.mpr (Nat.le_of_dvd hp hd)

theorem sat_of_fires {d : Nat} {sat : Nat → Bool} {k : Nat} (h : fires d sat k = true) :
    sat k = true := runLength_pos.mp (fires_iff.mp h).1

/-- One step of the counter of a timer of period `d`: the value it holds
afterwards is the run length modulo `d`, and it reaches `d` exactly when the
timer fires. -/
theorem counter_step {d : Nat} (hd : 0 < d) (sat : Nat → Bool) (k : Nat) :
    (if sat k = true then
        (if runBefore sat k % d + 1 = d then 0 else runBefore sat k % d + 1)
      else 0) = runLength sat k % d ∧
    (fires d sat k = true ↔ sat k = true ∧ runBefore sat k % d + 1 = d) := by
  rw [fires_iff, runLength_eq]
  cases hs : sat k with
  | false => simp
  | true =>
    simp only [if_true, true_and, Nat.succ_pos]
    have hlt : runBefore sat k % d < d := Nat.mod_lt _ hd
    have hmod : (runBefore sat k + 1) % d = (runBefore sat k % d + 1) % d :=
      (Nat.mod_add_mod _ _ _).symm
    by_cases he : runBefore sat k % d + 1 = d
    · have hz : (runBefore sat k + 1) % d = 0 := by rw [hmod, he, Nat.mod_self]
      exact ⟨by rw [if_pos he, hz], fun _ => he, fun _ => Nat.dvd_of_mod_eq_zero hz⟩
    · have hz : (runBefore sat k + 1) % d = runBefore sat k % d + 1 := by
        rw [hmod, Nat.mod_eq_of_lt (by omega)]
      refine ⟨by rw [if_neg he, hz], fun hdvd => ?_, fun h => absurd h he⟩
      have := Nat.mod_eq_zero_of_dvd hdvd
      omega

/-- A run as long as the period has fired within its last `d` samples. -/
theorem exists_fires {d : Nat} (hd : 0 < d) (sat : Nat → Bool) :
    ∀ k, d ≤ runLength sat k →
      ∃ j, j ≤ k ∧ fires d sat j = true ∧ ∀ i, j < i → i ≤ k → sat i = true
  | 0, h => by
    have hs : sat 0 = true := runLength_pos.mp (by omega)
    have h1 : runLength sat 0 = 1 := by rw [runLength, if_pos hs]
    refine ⟨0, Nat.le_refl _, fires_iff.mpr ⟨by omega, ?_⟩, fun i hi hk => by omega⟩
    rw [h1] at h ⊢
    rw [show d = 1 by omega]
  | k + 1, h => by
    have hs : sat (k + 1) = true := runLength_pos.mp (by omega)
    have h1 : runLength sat (k + 1) = runLength sat k + 1 := by rw [runLength, if_pos hs]
    by_cases he : d = runLength sat (k + 1)
    · exact ⟨k + 1, Nat.le_refl _, fires_iff.mpr ⟨by omega, by rw [← he]⟩,
        fun i hi hk => by omega⟩
    · obtain ⟨j, hj, hf, hi⟩ := exists_fires hd sat k (by omega)
      refine ⟨j, by omega, hf, fun i hji hik => ?_⟩
      by_cases hk : i = k + 1
      · rw [hk]; exact hs
      · exact hi i hji (by omega)

/-- While the samples satisfy, the run grows by one with each. -/
theorem runLength_add {sat : Nat → Bool} {r : Nat} :
    ∀ j, (∀ i, i ≤ j → sat (r + i) = true) → runLength sat (r + j) = runBefore sat r + j + 1
  | 0, h => by
    have hs : sat (r + 0) = true := h 0 (Nat.le_refl 0)
    rw [Nat.add_zero] at hs ⊢
    rw [runLength_eq, if_pos hs]
  | j + 1, h => by
    have ih := runLength_add j fun i hi => h i (by omega)
    have hs : sat (r + j + 1) = true := h (j + 1) (Nat.le_refl _)
    change runLength sat (r + j + 1) = _
    rw [runLength, if_pos hs, ih, Nat.add_assoc (runBefore sat r)]

/-- The timer fires in every `d` consecutive satisfying samples, at whatever
count it starts them. -/
theorem exists_fires_in_window {d : Nat} (hd : 0 < d) {sat : Nat → Bool} {r : Nat}
    (h : ∀ j, j < d → sat (r + j) = true) : ∃ j, j < d ∧ fires d sat (r + j) = true := by
  have hlt := Nat.mod_lt (runBefore sat r) hd
  -- as many samples as are missing to the next multiple of `d`
  refine ⟨d - 1 - runBefore sat r % d, by omega, fires_iff.mpr ?_⟩
  rw [runLength_add _ fun i hi => h i (by omega)]
  refine ⟨Nat.succ_pos _, runBefore sat r / d + 1, ?_⟩
  have hdiv := Nat.div_add_mod (runBefore sat r) d
  rw [Nat.mul_add, Nat.mul_one]
  omega

/-- Firing at `j` and satisfying from then on to `k` fills the window at `k`. -/
theorem le_runLength_of_fires {d : Nat} {sat : Nat → Bool} {j : Nat}
    (hf : fires d sat j = true) :
    ∀ k, j ≤ k → (∀ i, j < i → i ≤ k → sat i = true) → d ≤ runLength sat k
  | 0, hk, _ => by
    obtain rfl : j = 0 := by omega
    exact holds_iff.mp (holds_of_fires hf)
  | k + 1, hk, h => by
    by_cases hj : j = k + 1
    · rw [← hj]; exact holds_iff.mp (holds_of_fires hf)
    · have ih := le_runLength_of_fires hf k (by omega) fun i hi hik => h i hi (by omega)
      rw [runLength, if_pos (h (k + 1) (by omega) (Nat.le_refl _))]
      omega

/-! ## How often the timer fires -/

/-- Sample `j` ends a maximal satisfying run of the first `n` samples. -/
def EndsRun (sat : Nat → Bool) (n j : Nat) : Prop :=
  sat j = true ∧ (j + 1 = n ∨ sat (j + 1) = false)

instance (sat : Nat → Bool) (n j : Nat) : Decidable (EndsRun sat n j) := by
  unfold EndsRun; infer_instance

/-- `len / d`, summed over the maximal satisfying runs of the first `n` samples. -/
def firings (d : Nat) (sat : Nat → Bool) (n : Nat) : Nat :=
  ∑ j ∈ (Finset.range n).filter (EndsRun sat n), runLength sat j / d

theorem firings_zero (d : Nat) (sat : Nat → Bool) : firings d sat 0 = 0 := by simp [firings]

/-- The runs that are over before sample `n`, whatever sample `n` is. -/
private def closed (d : Nat) (sat : Nat → Bool) (n : Nat) : Nat :=
  ∑ j ∈ (Finset.range n).filter (fun j => sat j = true ∧ sat (j + 1) = false),
    runLength sat j / d

private theorem closed_succ (d : Nat) (sat : Nat → Bool) (n : Nat) :
    closed d sat (n + 1) =
      closed d sat n + if sat (n + 1) = false then runLength sat n / d else 0 := by
  unfold closed
  rw [Finset.range_add_one, Finset.filter_insert]
  by_cases hn : sat (n + 1) = false
  · by_cases hs : sat n = true
    · rw [if_pos ⟨hs, hn⟩, Finset.sum_insert (by simp), if_pos hn, Nat.add_comm]
    · have h0 := runLength_of_not (Bool.eq_false_iff.mpr hs)
      rw [if_neg (fun h => hs h.1), if_pos hn, h0, Nat.zero_div, Nat.add_zero]
  · rw [if_neg (fun h => hn h.2), if_neg hn, Nat.add_zero]

private theorem firings_succ (d : Nat) (sat : Nat → Bool) (n : Nat) :
    firings d sat (n + 1) = closed d sat n + runLength sat n / d := by
  unfold firings closed
  rw [Finset.range_add_one, Finset.filter_insert]
  have hf : (Finset.range n).filter (EndsRun sat (n + 1)) =
      (Finset.range n).filter (fun j => sat j = true ∧ sat (j + 1) = false) := by
    apply Finset.filter_congr
    intro j hj
    have hj := Finset.mem_range.mp hj
    exact and_congr_right fun _ => or_iff_right (by omega)
  rw [hf]
  by_cases hs : sat n = true
  · rw [if_pos ⟨hs, Or.inl rfl⟩, Finset.sum_insert (by simp), Nat.add_comm]
  · have h0 := runLength_of_not (Bool.eq_false_iff.mpr hs)
    rw [if_neg (fun h => hs h.1), h0, Nat.zero_div, Nat.add_zero]

/-- One more sample adds one firing or none. -/
theorem firings_add_one {d : Nat} (hd : 0 < d) (sat : Nat → Bool) (n : Nat) :
    firings d sat (n + 1) = firings d sat n + if fires d sat n = true then 1 else 0 := by
  cases n with
  | zero =>
    have hc : closed d sat 0 = 0 := by simp [closed]
    rw [firings_succ, firings_zero, hc, Nat.zero_add, Nat.zero_add]
    by_cases hf : fires d sat 0 = true
    · have hle := holds_iff.mp (holds_of_fires hf)
      have := runLength_le sat 0
      rw [if_pos hf, show runLength sat 0 = d by omega, Nat.div_self hd]
    · rw [if_neg hf, Nat.div_eq_zero_iff]
      right
      by_contra hle
      have := runLength_le sat 0
      refine hf (fires_iff.mpr ⟨by omega, ?_⟩)
      rw [show runLength sat 0 = d by omega]
  | succ n =>
    rw [firings_succ, firings_succ, closed_succ]
    cases hs : sat (n + 1) with
    | false =>
      have h0 := runLength_of_not hs
      have hf : ¬ fires d sat (n + 1) = true := fun h => by
        have := sat_of_fires h
        rw [hs] at this; cases this
      rw [if_pos rfl, if_neg hf, h0, Nat.zero_div]
    | true =>
      have h1 : runLength sat (n + 1) = runLength sat n + 1 := by rw [runLength, if_pos hs]
      have hf : fires d sat (n + 1) = true ↔ d ∣ runLength sat n + 1 := by
        rw [fires_iff, h1]; simp
      simp only [Bool.true_eq_false, if_false, h1, hf, Nat.succ_div, Nat.add_zero,
        Nat.add_assoc]

end RunLength
