import ResMonitor.Activation
import ResMonitor.AlarmRuns
import Mathlib.Data.List.MinMax

/-! # Re-arming after recovery

All comparisons of a predicate fail for a poll, then all of them hold for as
long as the longest operand lasts. Each operand fires again in those polls.
Whether the predicate rings depends on the flags left up by its past: only
`Predicate_1or2and3` can stay silent, and it does when its flags were all up,
or when the missing one is the first to be raised again. -/

namespace ResMonitor

/-! ## One window, over any type of operands

`up` are the flags at the start, `d` the durations, and `idx` the position in
the iteration order. Operand `t` fires in turn `i` when `d t ∣ i`. -/

namespace PredicateKind
section Window
variable {κ : Type}

/-- `s` is raised again before `t` is. -/
def Precedes (d idx : κ → Nat) (s t : κ) : Prop := d s < d t ∨ d s = d t ∧ idx s < idx t

/-- The flags just before `t` is dispatched in turn `i`. -/
def windowFlags (up : κ → Bool) (d idx : κ → Nat) (i : Nat) (t : κ) : κ → Bool := fun y =>
  up y || decide (d y < i) || (decide (idx y < idx t) && decide (d y ∣ i))

/-- The predicate will not ring: it has rung already and all flags are up, or
the only flag missing is raised before the other operands fire. -/
def Muted (k : PredicateKind κ) (up : κ → Bool) (d idx : κ → Nat) : Prop :=
  match k with
  | .predicate1or2and3 o₁ o₂ a => up a = true ∧
      ((up o₁ = true ∧ up o₂ = true) ∨
       (up o₁ = true ∧ up o₂ = false ∧ Precedes d idx o₂ o₁ ∧ Precedes d idx o₂ a) ∨
       (up o₂ = true ∧ up o₁ = false ∧ Precedes d idx o₁ o₂ ∧ Precedes d idx o₁ a))
  | _ => False

variable {up : κ → Bool} {d idx : κ → Nat}

theorem windowFlags_iff {i : Nat} {t y : κ} : windowFlags up d idx i t y = true ↔
    up y = true ∨ d y < i ∨ (idx y < idx t ∧ d y ∣ i) := by
  simp [windowFlags, or_assoc]

theorem windowFlags_of_precedes {s t : κ} (h : Precedes d idx s t) :
    windowFlags up d idx (d t) t s = true := by
  rw [windowFlags_iff]
  rcases h with h | ⟨h, hi⟩
  · exact Or.inr (Or.inl h)
  · exact Or.inr (Or.inr ⟨hi, by rw [h]⟩)

/-- A flag that was down and is up just before `t` first fires was raised before it. -/
theorem precedes_of_windowFlags {s t : κ} (hpos : 0 < d t) (hup : up s = false)
    (h : windowFlags up d idx (d t) t s = true) : Precedes d idx s t := by
  rcases windowFlags_iff.mp h with h | h | ⟨hi, hdvd⟩
  · rw [hup] at h
    cases h
  · exact Or.inl h
  · have hle := Nat.le_of_dvd hpos hdvd
    rcases Nat.lt_or_eq_of_le hle with hlt | heq
    · exact Or.inl hlt
    · exact Or.inr ⟨heq, hi⟩

theorem windowFlags_self {t : κ} (hup : up t = false) : windowFlags up d idx (d t) t t = false := by
  simp [windowFlags, hup]

theorem precedes_asymm {s t : κ} (h : Precedes d idx s t) : ¬ Precedes d idx t s := by
  unfold Precedes at *
  omega

/-- Operands that are not the same fire one after the other. -/
theorem precedes_or {s t : κ} (hinj : idx s = idx t → s = t) (hne : s ≠ t) :
    Precedes d idx s t ∨ Precedes d idx t s := by
  have : idx s ≠ idx t := fun h => hne (hinj h)
  unfold Precedes
  omega

variable [DecidableEq κ]

/-- The predicate rings when `t` first fires. -/
def RingsAt (k : PredicateKind κ) (up : κ → Bool) (d idx : κ → Nat) (t : κ) : Prop :=
  k.rings (windowFlags up d idx (d t) t) t = true

/-- It rings when the formula becomes true. -/
theorem ringsAt_of_rising {k : PredicateKind κ} {t : κ}
    (hafter : k.holds (raise (windowFlags up d idx (d t) t) t) = true)
    (hbefore : ¬ k.holds (windowFlags up d idx (d t) t) = true) : k.RingsAt up d idx t :=
  rings_iff.mpr ⟨hafter, fun h => hbefore h.1⟩

theorem ringsAt_1and2 {a₁ a₂ : κ} (hinj : idx a₁ = idx a₂ → a₁ = a₂) :
    (predicate1and2 a₁ a₂).RingsAt up d idx a₁ ∨ (predicate1and2 a₁ a₂).RingsAt up d idx a₂ := by
  have ring : ∀ t, raise (windowFlags up d idx (d t) t) t a₁ = true →
      raise (windowFlags up d idx (d t) t) t a₂ = true →
      (predicate1and2 a₁ a₂).RingsAt up d idx t := by
    intro t h₁ h₂
    exact rings_of_formula rfl ⟨h₁, h₂⟩
  by_cases he : a₁ = a₂
  · subst he
    exact Or.inl (ring a₁ (raise_self _ _) (raise_self _ _))
  · -- the one raised last finds the other one up
    rcases precedes_or hinj he with h | h
    · exact Or.inr (ring a₂ (raise_iff.mpr (Or.inl (windowFlags_of_precedes h))) (raise_self _ _))
    · exact Or.inl (ring a₁ (raise_self _ _) (raise_iff.mpr (Or.inl (windowFlags_of_precedes h))))

/-- With the and-operand up and both or-operands down, the first or-operand rings. -/
theorem ringsAt_first_or {o₁ o₂ a : κ} (hd : ∀ t ∈ [o₁, o₂, a], 0 < d t) {t y : κ}
    (hty : t = o₁ ∧ y = o₂ ∨ t = o₂ ∧ y = o₁)
    (hno : ¬ Precedes d idx y t) (ht : up t = false) (hy : up y = false)
    (ha : windowFlags up d idx (d t) t a = true) :
    (predicate1or2and3 o₁ o₂ a).RingsAt up d idx t := by
  have hpos : 0 < d t := by
    rcases hty with ⟨rfl, _⟩ | ⟨rfl, _⟩ <;> exact hd _ (by simp)
  refine ringsAt_of_rising ((holds_iff _ _).mpr ⟨?_, raise_iff.mpr (Or.inl ha)⟩) ?_
  · rcases hty with ⟨rfl, _⟩ | ⟨rfl, _⟩
    · exact Or.inl (raise_self _ _)
    · exact Or.inr (raise_self _ _)
  · intro h
    have hself : windowFlags up d idx (d t) t t = false := windowFlags_self ht
    have hother : ¬ windowFlags up d idx (d t) t y = true := fun h =>
      hno (precedes_of_windowFlags hpos hy h)
    rcases ((holds_iff _ _).mp h).1 with ho | ho
    · rcases hty with ⟨rfl, rfl⟩ | ⟨rfl, rfl⟩
      · rw [hself] at ho; cases ho
      · exact hother ho
    · rcases hty with ⟨rfl, rfl⟩ | ⟨rfl, rfl⟩
      · exact hother ho
      · rw [hself] at ho; cases ho

/-- With the and-operand down, it rings if it finds an or-operand up. -/
theorem ringsAt_and {o₁ o₂ a : κ} (ha : up a = false)
    (ho : raise (windowFlags up d idx (d a) a) a o₁ = true ∨
      raise (windowFlags up d idx (d a) a) a o₂ = true) :
    (predicate1or2and3 o₁ o₂ a).RingsAt up d idx a := by
  refine ringsAt_of_rising ((holds_iff _ _).mpr ⟨ho, raise_self _ _⟩) fun h => ?_
  have h : windowFlags up d idx (d a) a a = true := ((holds_iff _ _).mp h).2
  rw [windowFlags_self ha] at h
  cases h

/-- Unless the formula held at the start, it becomes true when some operand first fires. -/
theorem exists_ringsAt_of_not_holds {o₁ o₂ a : κ} (hd : ∀ t ∈ [o₁, o₂, a], 0 < d t)
    (hinj : ∀ s ∈ [o₁, o₂, a], ∀ t ∈ [o₁, o₂, a], idx s = idx t → s = t)
    (hup : ¬ ((up o₁ = true ∨ up o₂ = true) ∧ up a = true)) :
    ∃ t ∈ [o₁, o₂, a], (predicate1or2and3 o₁ o₂ a).RingsAt up d idx t := by
  -- of the two or-operands, one is not raised after the other
  obtain ⟨t, y, hty, hno⟩ : ∃ t y, (t = o₁ ∧ y = o₂ ∨ t = o₂ ∧ y = o₁) ∧ ¬ Precedes d idx y t := by
    by_cases h : Precedes d idx o₂ o₁
    · exact ⟨o₂, o₁, Or.inr ⟨rfl, rfl⟩, precedes_asymm h⟩
    · exact ⟨o₁, o₂, Or.inl ⟨rfl, rfl⟩, h⟩
  have ht : t ∈ [o₁, o₂, a] := by rcases hty with ⟨rfl, _⟩ | ⟨rfl, _⟩ <;> simp
  have hold : ∀ f : κ → Bool, f t = true ∨ f y = true → f o₁ = true ∨ f o₂ = true := by
    intro f h
    rcases hty with ⟨rfl, rfl⟩ | ⟨rfl, rfl⟩
    · exact h
    · exact h.symm
  cases ha : up a with
  | true =>
    have hdown : up t = false ∧ up y = false := by
      constructor
      · by_contra h
        exact hup ⟨hold up (Or.inl (by simpa using h)), ha⟩
      · by_contra h
        exact hup ⟨hold up (Or.inr (by simpa using h)), ha⟩
    exact ⟨t, ht, ringsAt_first_or hd hty hno hdown.1 hdown.2 (windowFlags_iff.mpr (Or.inl ha))⟩
  | false =>
    by_cases hsome : up t = true ∨ up y = true ∨ t = a ∨ Precedes d idx t a
    · -- `a` finds an or-operand up
      refine ⟨a, by simp, ringsAt_and ha (hold _ ?_)⟩
      rcases hsome with h | h | rfl | h
      · exact Or.inl (raise_iff.mpr (Or.inl (windowFlags_iff.mpr (Or.inl h))))
      · exact Or.inr (raise_iff.mpr (Or.inl (windowFlags_iff.mpr (Or.inl h))))
      · exact Or.inl (raise_self _ _)
      · exact Or.inl (raise_iff.mpr (Or.inl (windowFlags_of_precedes h)))
    · -- `a` is raised before both of them
      obtain ⟨hdt, hdy, hne, hnot⟩ :
          up t = false ∧ up y = false ∧ t ≠ a ∧ ¬ Precedes d idx t a := by
        simpa [not_or] using hsome
      have hlast : Precedes d idx a t :=
        (precedes_or (hinj t ht a (by simp)) hne).resolve_left hnot
      exact ⟨t, ht, ringsAt_first_or hd hty hno hdt hdy (windowFlags_of_precedes hlast)⟩

/-- With the formula true at the start and `y` down, an operand other than `y`
rings if it fires before `y`. -/
theorem ringsAt_of_precedes {o₁ o₂ a x y t : κ} (hd : 0 < d t)
    (hxy : x = o₁ ∧ y = o₂ ∨ x = o₂ ∧ y = o₁)
    (hx : up x = true) (hy : up y = false) (ha : up a = true) (hne : t ≠ y)
    (hnot : ¬ Precedes d idx y t) : (predicate1or2and3 o₁ o₂ a).RingsAt up d idx t := by
  have hyt : ¬ raise (windowFlags up d idx (d t) t) t y = true := by
    intro h
    rcases raise_iff.mp h with h | h
    · exact hnot (precedes_of_windowFlags hd hy h)
    · exact hne h.symm
  refine rings_iff.mpr ⟨(holds_iff _ _).mpr ⟨?_, ?_⟩, ?_⟩
  · have hx' : raise (windowFlags up d idx (d t) t) t x = true :=
      raise_iff.mpr (Or.inl (windowFlags_iff.mpr (Or.inl hx)))
    rcases hxy with ⟨rfl, rfl⟩ | ⟨rfl, rfl⟩
    · exact Or.inl hx'
    · exact Or.inr hx'
  · exact raise_iff.mpr (Or.inl (windowFlags_iff.mpr (Or.inl ha)))
  · intro ⟨_, hs⟩
    rw [saturated, Bool.and_eq_true, Bool.and_eq_true] at hs
    rcases hxy with ⟨rfl, rfl⟩ | ⟨rfl, rfl⟩
    · exact hyt hs.1.2
    · exact hyt hs.1.1

/-- With the formula true at the start, nothing rings once `y` is up, nor when it goes up. -/
theorem not_rings_of_up {o₁ o₂ a x y t : κ} {i : Nat}
    (hxy : x = o₁ ∧ y = o₂ ∨ x = o₂ ∧ y = o₁) (hx : up x = true) (ha : up a = true)
    (hy : t = y ∨ windowFlags up d idx i t y = true) :
    ¬ (predicate1or2and3 o₁ o₂ a).rings (windowFlags up d idx i t) t = true := by
  intro h
  have hF : ∀ z, up z = true → windowFlags up d idx i t z = true := fun z hz =>
    windowFlags_iff.mpr (Or.inl hz)
  have hy' : raise (windowFlags up d idx i t) t y = true := by
    rcases hy with rfl | hy
    · exact raise_self _ _
    · exact raise_iff.mpr (Or.inl hy)
  have hx' : raise (windowFlags up d idx i t) t x = true := raise_iff.mpr (Or.inl (hF x hx))
  have ha' : raise (windowFlags up d idx i t) t a = true := raise_iff.mpr (Or.inl (hF a ha))
  refine (rings_iff.mp h).2 ⟨(holds_iff _ _).mpr ⟨?_, hF a ha⟩, ?_⟩
  · rcases hxy with ⟨rfl, rfl⟩ | ⟨rfl, rfl⟩
    · exact Or.inl (hF _ hx)
    · exact Or.inr (hF _ hx)
  · rw [saturated, Bool.and_eq_true, Bool.and_eq_true]
    rcases hxy with ⟨rfl, rfl⟩ | ⟨rfl, rfl⟩
    · exact ⟨⟨hx', hy'⟩, ha'⟩
    · exact ⟨⟨hy', hx'⟩, ha'⟩

/-- Raised before every other operand fires, the missing flag silences all of them. -/
theorem not_rings_of_missing_first {o₁ o₂ a x y t : κ} {i : Nat} (hi : 0 < i) (hdvd : d t ∣ i)
    (ht : t ∈ [o₁, o₂, a]) (hxy : x = o₁ ∧ y = o₂ ∨ x = o₂ ∧ y = o₁) (hx : up x = true)
    (ha : up a = true) (hyx : Precedes d idx y x) (hya : Precedes d idx y a) :
    ¬ (predicate1or2and3 o₁ o₂ a).rings (windowFlags up d idx i t) t = true := by
  refine not_rings_of_up hxy hx ha ?_
  by_cases hty : t = y
  · exact Or.inl hty
  · right
    have hyt : Precedes d idx y t := by
      have ht : t = o₁ ∨ t = o₂ ∨ t = a := by simpa using ht
      rcases ht with rfl | rfl | rfl
      · rcases hxy with ⟨rfl, rfl⟩ | ⟨rfl, rfl⟩
        · exact hyx
        · exact absurd rfl hty
      · rcases hxy with ⟨rfl, rfl⟩ | ⟨rfl, rfl⟩
        · exact absurd rfl hty
        · exact hyx
      · exact hya
    have hle := Nat.le_of_dvd hi hdvd
    rw [windowFlags_iff]
    rcases hyt with hlt | ⟨heq, hidx⟩
    · exact Or.inr (Or.inl (by omega))
    · exact Or.inr (Or.inr ⟨hidx, by rw [heq]; exact hdvd⟩)

/-- With the and-operand and one or-operand up already, the other one is
missing, and whichever of the two comes before it rings. -/
theorem exists_ringsAt_of_not_muted {o₁ o₂ a : κ} (hd : ∀ t ∈ [o₁, o₂, a], 0 < d t)
    (hinj : ∀ s ∈ [o₁, o₂, a], ∀ t ∈ [o₁, o₂, a], idx s = idx t → s = t)
    (hmuted : ¬ (predicate1or2and3 o₁ o₂ a).Muted up d idx) :
    ∃ t ∈ [o₁, o₂, a], (predicate1or2and3 o₁ o₂ a).RingsAt up d idx t := by
  by_cases hup : (up o₁ = true ∨ up o₂ = true) ∧ up a = true
  · obtain ⟨ho, ha⟩ := hup
    obtain ⟨x, y, hxy, hx, hy⟩ : ∃ x y, (x = o₁ ∧ y = o₂ ∨ x = o₂ ∧ y = o₁) ∧
        up x = true ∧ up y = false := by
      rcases ho with h | h
      · refine ⟨o₁, o₂, Or.inl ⟨rfl, rfl⟩, h, ?_⟩
        by_contra h'
        exact hmuted ⟨ha, Or.inl ⟨h, by simpa using h'⟩⟩
      · refine ⟨o₂, o₁, Or.inr ⟨rfl, rfl⟩, h, ?_⟩
        by_contra h'
        exact hmuted ⟨ha, Or.inl ⟨by simpa using h', h⟩⟩
    have hmissing : ¬ (Precedes d idx y x ∧ Precedes d idx y a) := by
      intro ⟨hp, hpa⟩
      rcases hxy with ⟨rfl, rfl⟩ | ⟨rfl, rfl⟩
      · exact hmuted ⟨ha, Or.inr (Or.inl ⟨hx, hy, hp, hpa⟩)⟩
      · exact hmuted ⟨ha, Or.inr (Or.inr ⟨hx, hy, hp, hpa⟩)⟩
    have hxmem : x ∈ [o₁, o₂, a] := by rcases hxy with ⟨rfl, _⟩ | ⟨rfl, _⟩ <;> simp
    have hamem : a ∈ [o₁, o₂, a] := by simp
    by_cases hp : Precedes d idx y x
    · have hpa : ¬ Precedes d idx y a := fun h => hmissing ⟨hp, h⟩
      refine ⟨a, hamem, ringsAt_of_precedes (hd a hamem) hxy hx hy ha ?_ hpa⟩
      rintro rfl
      rw [ha] at hy
      cases hy
    · refine ⟨x, hxmem, ringsAt_of_precedes (hd x hxmem) hxy hx hy ha ?_ hp⟩
      rintro rfl
      rw [hx] at hy
      cases hy
  · exact exists_ringsAt_of_not_holds hd hinj hup

/-- **One window.** As long as the longest operand lasts, the predicate rings
unless it is muted. -/
theorem exists_rings_iff {k : PredicateKind κ} {D : Nat}
    (hd : ∀ t ∈ k.getPredicateOperands, 0 < d t) (hD : ∀ t ∈ k.getPredicateOperands, d t ≤ D)
    (hinj : ∀ s ∈ k.getPredicateOperands, ∀ t ∈ k.getPredicateOperands, idx s = idx t → s = t) :
    (∃ i t, 0 < i ∧ i ≤ D ∧ t ∈ k.getPredicateOperands ∧ d t ∣ i ∧
      k.rings (windowFlags up d idx i t) t = true) ↔ ¬ k.Muted up d idx := by
  have first : (∃ t ∈ k.getPredicateOperands, k.RingsAt up d idx t) →
      ∃ i t, 0 < i ∧ i ≤ D ∧ t ∈ k.getPredicateOperands ∧ d t ∣ i ∧
        k.rings (windowFlags up d idx i t) t = true := by
    intro ⟨t, ht, hr⟩
    exact ⟨d t, t, hd t ht, hD t ht, ht, Nat.dvd_refl _, hr⟩
  cases k with
  | predicate1element a =>
    refine iff_of_true (first ⟨a, by simp [getPredicateOperands], ?_⟩) id
    exact rings_of_formula rfl (raise_self _ _)
  | predicate1and2 a₁ a₂ =>
    refine iff_of_true (first ?_) id
    have hi := hinj a₁ (by simp [getPredicateOperands]) a₂ (by simp [getPredicateOperands])
    have hr : (predicate1and2 a₁ a₂).RingsAt up d idx a₁ ∨
        (predicate1and2 a₁ a₂).RingsAt up d idx a₂ := ringsAt_1and2 hi
    rcases hr with h | h
    · exact ⟨a₁, by simp [getPredicateOperands], h⟩
    · exact ⟨a₂, by simp [getPredicateOperands], h⟩
  | predicate1or2and3 o₁ o₂ a =>
    constructor
    · rintro ⟨i, t, hi, _, ht, hdvd, hr⟩ ⟨ha, ⟨h₁, h₂⟩ | ⟨h₁, _, hp, hpa⟩ | ⟨h₂, _, hp, hpa⟩⟩
      · exact not_rings_of_up (Or.inl ⟨rfl, rfl⟩) h₁ ha
          (Or.inr (windowFlags_iff.mpr (Or.inl h₂))) hr
      · exact not_rings_of_missing_first hi hdvd ht (Or.inl ⟨rfl, rfl⟩) h₁ ha hp hpa hr
      · exact not_rings_of_missing_first hi hdvd ht (Or.inr ⟨rfl, rfl⟩) h₂ ha hp hpa hr
    · intro hmuted
      exact first (exists_ringsAt_of_not_muted hd hinj hmuted)

end Window
end PredicateKind
/-! ## Runs -/

section Runs
variable {F : Type} [Double F]

/-- The largest operand duration. -/
def PredicateKind.longest (kind : PredicateKind TriggerType) : Nat :=
  (kind.getPredicateOperands.map fun t => t.duration.toNat).foldr max 0

theorem PredicateKind.le_longest {kind : PredicateKind TriggerType} {t : TriggerType}
    (h : t ∈ kind.getPredicateOperands) : t.duration.toNat ≤ kind.longest :=
  List.le_max_of_le' 0 (List.mem_map.mpr ⟨t, h, rfl⟩) (Nat.le_refl _)

/-- No operand's comparison holds at poll `q`; all of them hold at the polls
after it, for as long as the longest operand lasts. -/
structure Recovers (xs : Nat → Sample F) (kind : PredicateKind TriggerType) (q : Nat) : Prop where
  quiet : ∀ t ∈ kind.getPredicateOperands, outcomes xs t q = false
  window : ∀ t ∈ kind.getPredicateOperands, ∀ i, 0 < i → i ≤ kind.longest →
    outcomes xs t (q + i) = true

/-- The callback is invoked in one of the polls after poll `r + s`, before the
longest operand has lasted. -/
def Rearms (m : SamplingManager F) (xs : Nat → Sample F) (r : Nat) (e : PredicateEngine) (id : Nat)
    (kind : PredicateKind TriggerType) (s : Nat) : Prop :=
  ∃ n, s < n ∧ n ≤ s + kind.longest ∧ ∃ c, m.invocationsDuring xs r e id n = .ok c ∧ 0 < c

variable {xs : Nat → Sample F} {kind : PredicateKind TriggerType} {triggerTypes : List TriggerType}
  {r s : Nat}

/-- In the window, an operand fires at the multiples of its duration. -/
theorem activatesAt_window (hrec : Recovers xs kind (r + s)) {t : TriggerType}
    (ht : t ∈ kind.getPredicateOperands) (hd : 1 ≤ t.duration) {i : Nat} (hi : i ≤ kind.longest) :
    t.activatesAt (outcomes xs t) (r + (s + i)) = true ↔ 0 < i ∧ t.duration.toNat ∣ i := by
  have hrun : RunLength.runLength (outcomes xs t) (r + s + i) = i := by
    refine RunLength.runLength_after (hrec.quiet t ht) i fun j hj hji => ?_
    obtain ⟨i', rfl⟩ := Nat.exists_eq_add_of_lt hj
    exact hrec.window t ht (i' + 1) (by omega) (by omega)
  rw [TriggerType.activatesAt, if_pos (show 0 < t.duration by omega), RunLength.fires_iff,
    ← Nat.add_assoc, hrun]

theorem raised_window (hrec : Recovers xs kind (r + s)) {t : TriggerType}
    (ht : t ∈ kind.getPredicateOperands) (hin : t ∈ triggerTypes) (hd : 1 ≤ t.duration) {i : Nat}
    (hi : i ≤ kind.longest) : raised triggerTypes xs r (s + i) t = true ↔
      raised triggerTypes xs r s t = true ∨ t.duration.toNat < i := by
  rw [raised_iff, raised_iff]
  constructor
  · intro ⟨_, j, hr, hj, hact⟩
    by_cases hjs : j < r + s
    · exact Or.inl ⟨hin, j, hr, hjs, hact⟩
    · obtain ⟨i', rfl⟩ : ∃ i', j = r + (s + i') := ⟨j - (r + s), by omega⟩
      obtain ⟨hpos, hdvd⟩ :=
        (activatesAt_window hrec ht hd (show i' ≤ kind.longest by omega)).mp hact
      have := Nat.le_of_dvd hpos hdvd
      exact Or.inr (by omega)
  · intro hcases
    rcases hcases with ⟨_, j, hr, hj, hact⟩ | hlt
    · exact ⟨hin, j, hr, by omega, hact⟩
    · refine ⟨hin, r + (s + t.duration.toNat), by omega, by omega, ?_⟩
      exact (activatesAt_window hrec ht hd (by omega)).mpr ⟨by omega, Nat.dvd_refl _⟩

theorem flagsBefore_window (hrec : Recovers xs kind (r + s))
    (hop : ∀ t ∈ kind.getPredicateOperands, t ∈ triggerTypes ∧ 1 ≤ t.duration)
    (order : List TriggerType) {i : Nat} (hpos : 0 < i) (hi : i ≤ kind.longest) (t : TriggerType) :
    ∀ y ∈ kind.getPredicateOperands, flagsBefore triggerTypes order xs r (s + i) t y =
      PredicateKind.windowFlags (raised triggerTypes xs r s) (fun t => t.duration.toNat)
        order.idxOf i t y := by
  intro y hy
  obtain ⟨hin, hd⟩ := hop y hy
  have hact := activatesAt_window hrec hy hd hi
  rw [Bool.eq_iff_iff, PredicateKind.windowFlags_iff, flagsBefore, Bool.or_eq_true,
    raised_window hrec hy hin hd hi, Bool.and_eq_true, decide_eq_true_eq, hact, or_assoc]
  simp [hpos]

/-- **When a predicate re-arms.** In a window after recovery its callback is
invoked unless its past has left it muted. -/
theorem rearms_iff {logTypes : List LogType} {m : SamplingManager F}
    (hm : m.ConstructedFrom logTypes triggerTypes) (hu : ∀ t ∈ triggerTypes, t.UnitFits)
    {e : PredicateEngine} {id : Nat} (he : e.Registered id kind)
    (hop : ∀ t ∈ kind.getPredicateOperands, t ∈ triggerTypes ∧ 1 ≤ t.duration)
    (hrec : Recovers xs kind (r + s)) :
    Rearms m xs r e id kind s ↔ ¬ kind.Muted (raised triggerTypes xs r s)
      (fun t => t.duration.toNat) m.triggerStates.keys.idxOf := by
  have hinj : ∀ a ∈ kind.getPredicateOperands, ∀ b ∈ kind.getPredicateOperands,
      m.triggerStates.keys.idxOf a = m.triggerStates.keys.idxOf b → a = b := by
    intro a ha b _ hab
    exact (List.idxOf_inj ((hm.mem_keys a).mpr (hop a ha).1)).mp hab
  have hpos : ∀ t ∈ kind.getPredicateOperands, 0 < t.duration.toNat := by
    intro t ht
    have := (hop t ht).2
    omega
  rw [← PredicateKind.exists_rings_iff hpos (fun t => PredicateKind.le_longest) hinj]
  constructor
  · intro ⟨n, hs, hn, c, hc, hcpos⟩
    obtain ⟨i, rfl⟩ : ∃ i, n = s + i := ⟨n - s, by omega⟩
    obtain ⟨c', hc', hiff⟩ := invocationsDuring_pos hm hu he xs r (s + i)
    obtain rfl : c = c' := Except.ok.inj (hc.symm.trans hc')
    obtain ⟨t, ht, _, hact, hr⟩ := hiff.mp hcpos
    have hi : i ≤ kind.longest := by omega
    rw [activatesAt_window hrec ht (hop t ht).2 hi] at hact
    rw [PredicateKind.rings_congr (flagsBefore_window hrec hop _ hact.1 hi t)] at hr
    exact ⟨i, t, hact.1, hi, ht, hact.2, hr⟩
  · intro ⟨i, t, hi0, hi, ht, hdvd, hr⟩
    obtain ⟨c, hc, hiff⟩ := invocationsDuring_pos hm hu he xs r (s + i)
    refine ⟨s + i, by omega, by omega, c, hc, hiff.mpr ⟨t, ht, (hop t ht).1, ?_, ?_⟩⟩
    · exact (activatesAt_window hrec ht (hop t ht).2 hi).mpr ⟨hi0, hdvd⟩
    · rwa [PredicateKind.rings_congr (flagsBefore_window hrec hop _ hi0 hi t)]

/-- `trigger cpu over 70% last for 1s` -/
def cpuOver70 : TriggerType := ⟨.cpu, .over, ⟨.percent, 70⟩, 1⟩

/-- `trigger cpu over 60% last for 1s` -/
def cpuOver60 : TriggerType := ⟨.cpu, .over, ⟨.percent, 60⟩, 1⟩

def threeLevels : PredicateKind TriggerType := .predicate1or2and3 cpuOver80 cpuOver70 cpuOver60

/-- A CPU at 85%, except for poll 2. -/
def dip (k : Nat) : Sample Rat := if k = 2 then mockSample 10 else mockSample 85

theorem recovers_dip : Recovers dip threeLevels 2 := by
  have hlong : threeLevels.longest = 2 := by decide
  refine ⟨by decide +kernel, fun t ht i hi hle => ?_⟩
  have hsample : dip (2 + i) = mockSample 85 := if_neg (by omega)
  have hall : ∀ t ∈ threeLevels.getPredicateOperands, (mockSample 85).satisfies t = true := by
    decide +kernel
  rw [outcomes, hsample]
  exact hall t ht

/-- Registered from the start, the predicate rings before the dip and stays
silent after it. -/
theorem dip_not_rearmed :
    (PredicateEngine.empty.subscribe threeLevels).Registered 0 threeLevels ∧
    Recovers dip threeLevels (0 + 2) ∧
    ¬ Rearms (SamplingManager.unlogged [cpuOver80, cpuOver70, cpuOver60]) dip 0
      (PredicateEngine.empty.subscribe threeLevels) 0 threeLevels 2 := by
  have h₃ : (SamplingManager.unlogged [cpuOver80, cpuOver70, cpuOver60]).invocationsDuring dip 0
      (PredicateEngine.empty.subscribe threeLevels) 0 3 = .ok 0 := by decide +kernel
  have h₄ : (SamplingManager.unlogged [cpuOver80, cpuOver70, cpuOver60]).invocationsDuring dip 0
      (PredicateEngine.empty.subscribe threeLevels) 0 4 = .ok 0 := by decide +kernel
  refine ⟨(PredicateEngine.registeredOnce_subscribe _ _).registered, recovers_dip, ?_⟩
  intro ⟨n, hs, hn, c, hc, hpos⟩
  have hlong : threeLevels.longest = 2 := by decide
  obtain rfl | rfl : n = 3 ∨ n = 4 := by omega
  · cases hc.symm.trans h₃
    exact Nat.lt_irrefl _ hpos
  · cases hc.symm.trans h₄
    exact Nat.lt_irrefl _ hpos

/-- Registered at the dip, with all flags down, it does ring. -/
theorem rearms_iff_dip :
    Rearms (SamplingManager.unlogged [cpuOver80, cpuOver70, cpuOver60]) dip 2
      (PredicateEngine.empty.subscribe threeLevels) 0 threeLevels 0 := by
  refine (rearms_iff (SamplingManager.unlogged_constructed [cpuOver80, cpuOver70, cpuOver60])
    (by decide) (PredicateEngine.registeredOnce_subscribe _ _).registered (by decide)
    recovers_dip).mpr ?_
  intro ⟨ha, _⟩
  obtain ⟨_, j, hr, hj, _⟩ := raised_iff.mp ha
  omega

end Runs
end ResMonitor
