import Mathlib.Computability.RegularExpressions

/-! # Longest match scanning

A scanner in the manner of flex: of all rules that match a non-empty prefix of
the input, the longest match wins, and the earliest rule among those of equal
length. The rules are regular expressions, followed along the input by their
residuals. What every word of a regular language does to a set of rules is
computed by `image`, so that how such a word is scanned can be checked once
for all its words. -/

namespace Flex

/-! ## Equality of regular expressions -/

def decEqRegularExpression {α : Type} [DecidableEq α] :
    (p q : RegularExpression α) → Decidable (p = q)
  | .zero, q => match q with
    | .zero => isTrue rfl
    | .epsilon | .char _ | .plus _ _ | .comp _ _ | .star _ => isFalse nofun
  | .epsilon, q => match q with
    | .epsilon => isTrue rfl
    | .zero | .char _ | .plus _ _ | .comp _ _ | .star _ => isFalse nofun
  | .char a, q => match q with
    | .char b => decidable_of_iff (a = b) ⟨congrArg _, fun e => by cases e; rfl⟩
    | .zero | .epsilon | .plus _ _ | .comp _ _ | .star _ => isFalse nofun
  | .plus p p', q => match q with
    | .plus r r' => match decEqRegularExpression p r, decEqRegularExpression p' r' with
      | isTrue h, isTrue h' => isTrue (by rw [h, h'])
      | isFalse h, _ => isFalse fun e => h (by cases e; rfl)
      | _, isFalse h' => isFalse fun e => h' (by cases e; rfl)
    | .zero | .epsilon | .char _ | .comp _ _ | .star _ => isFalse nofun
  | .comp p p', q => match q with
    | .comp r r' => match decEqRegularExpression p r, decEqRegularExpression p' r' with
      | isTrue h, isTrue h' => isTrue (by rw [h, h'])
      | isFalse h, _ => isFalse fun e => h (by cases e; rfl)
      | _, isFalse h' => isFalse fun e => h' (by cases e; rfl)
    | .zero | .epsilon | .char _ | .plus _ _ | .star _ => isFalse nofun
  | .star p, q => match q with
    | .star r => match decEqRegularExpression p r with
      | isTrue h => isTrue (by rw [h])
      | isFalse h => isFalse fun e => h (by cases e; rfl)
    | .zero | .epsilon | .char _ | .plus _ _ | .comp _ _ => isFalse nofun

instance instDecidableEqRegularExpression {α : Type} [DecidableEq α] :
    DecidableEq (RegularExpression α) := decEqRegularExpression

/-! ## Residuals -/

section Residual
variable {α : Type} [DecidableEq α]

/-- `p + q`, simplified where that is cheap. -/
def alt (p q : RegularExpression α) : RegularExpression α :=
  if p = 0 then q else if q = 0 then p else if p = q then p else p + q

/-- `p * q`, simplified where that is cheap. -/
def seq (p q : RegularExpression α) : RegularExpression α :=
  if p = 0 then 0 else if q = 0 then 0 else if p = 1 then q else if q = 1 then p else p * q

/-- What is left to match after `a`. -/
def residual : RegularExpression α → α → RegularExpression α
  | .zero, _ => 0
  | .epsilon, _ => 0
  | .char a, b => if a = b then 1 else 0
  | .plus p q, a => alt (residual p a) (residual q a)
  | .comp p q, a =>
    if p.matchEpsilon then alt (seq (residual p a) q) (residual q a) else seq (residual p a) q
  | .star p, a => seq (residual p a) (.star p)

theorem matches'_alt (p q : RegularExpression α) :
    (alt p q).matches' = p.matches' + q.matches' := by
  unfold alt
  by_cases hp : p = 0
  · rw [if_pos hp, hp, RegularExpression.matches'_zero, zero_add]
  · rw [if_neg hp]
    by_cases hq : q = 0
    · rw [if_pos hq, hq, RegularExpression.matches'_zero, add_zero]
    · rw [if_neg hq]
      split
      · rename_i h
        rw [h, add_idem]
      · rfl

theorem matches'_seq (p q : RegularExpression α) :
    (seq p q).matches' = p.matches' * q.matches' := by
  unfold seq
  by_cases hp : p = 0
  · rw [if_pos hp, hp, RegularExpression.matches'_zero, zero_mul]
  · rw [if_neg hp]
    by_cases hq : q = 0
    · rw [if_pos hq, hq, RegularExpression.matches'_zero, mul_zero]
    · rw [if_neg hq]
      by_cases hp1 : p = 1
      · rw [if_pos hp1, hp1, RegularExpression.matches'_epsilon, one_mul]
      · rw [if_neg hp1]
        by_cases hq1 : q = 1
        · rw [if_pos hq1, hq1, RegularExpression.matches'_epsilon, mul_one]
        · rw [if_neg hq1]
          rfl

/-- The residual matches what the derivative matches. -/
theorem matches'_residual (p : RegularExpression α) (a : α) :
    (residual p a).matches' = (p.deriv a).matches' := by
  induction p with
  | zero => rfl
  | epsilon => rfl
  | char b =>
    unfold residual RegularExpression.deriv
    split <;> rfl
  | plus p q ihp ihq =>
    rw [residual, matches'_alt, ihp, ihq]
    rfl
  | comp p q ihp ihq =>
    unfold residual RegularExpression.deriv
    split
    · rw [matches'_alt, matches'_seq, ihp, ihq]
      rfl
    · rw [matches'_seq, ihp]
      rfl
  | star p ihp =>
    rw [residual, matches'_seq, ihp]
    rfl

theorem cons_mem_matches' {p : RegularExpression α} {a : α} {w : List α} :
    a :: w ∈ p.matches' ↔ w ∈ (residual p a).matches' := by
  rw [matches'_residual, ← RegularExpression.rmatch_iff_matches',
    ← RegularExpression.rmatch_iff_matches']
  rfl

theorem nil_mem_matches' {p : RegularExpression α} :
    [] ∈ p.matches' ↔ p.matchEpsilon = true :=
  (RegularExpression.rmatch_iff_matches' p []).symm

end Residual

/-! ## Rules along the input -/

section Scan
variable {ρ α : Type} [DecidableEq α]

/-- Rules in their order of precedence, each with what it has left to match. -/
abbrev Rules (ρ α : Type) := List (ρ × RegularExpression α)

/-- Read one character; the rules that cannot match any more are dropped. -/
def step (rules : Rules ρ α) (a : α) : Rules ρ α :=
  rules.filterMap fun e => if residual e.2 a = 0 then none else some (e.1, residual e.2 a)

def steps (rules : Rules ρ α) (w : List α) : Rules ρ α := w.foldl step rules

omit [DecidableEq α] in
/-- The first rule that matches what has been read. -/
def accept (rules : Rules ρ α) : Option ρ :=
  (rules.find? fun e => e.2.matchEpsilon).map Prod.fst

/-- The longest non-empty match: its rule and its length. -/
def longest : Rules ρ α → List α → Option (ρ × Nat)
  | _, [] => none
  | rules, a :: w =>
    let rules := step rules a
    if rules.isEmpty then none
    else match longest rules w with
      | some (r, n) => some (r, n + 1)
      | none => (accept rules).map fun r => (r, 1)

theorem steps_nil (w : List α) : steps ([] : Rules ρ α) w = [] := by
  induction w with
  | nil => rfl
  | cons a w ih => exact ih

theorem steps_cons (rules : Rules ρ α) (a : α) (w : List α) :
    steps rules (a :: w) = steps (step rules a) w := rfl

theorem steps_append (rules : Rules ρ α) (w w' : List α) :
    steps rules (w ++ w') = steps (steps rules w) w' := List.foldl_append

/-- A rule accepts after reading `w` if it matches `w` and no rule before it does. -/
theorem accept_steps {rules : Rules ρ α} {w : List α} {r : ρ} :
    accept (steps rules w) = some r ↔ ∃ before p after, rules = before ++ (r, p) :: after ∧
      w ∈ p.matches' ∧ ∀ e ∈ before, w ∉ e.2.matches' := by
  have hfind : ∀ (rules : Rules ρ α), accept rules = some r ↔
      ∃ before p after, rules = before ++ (r, p) :: after ∧ [] ∈ p.matches' ∧
        ∀ e ∈ before, [] ∉ e.2.matches' := by
    intro rules
    simp only [accept, Option.map_eq_some_iff, List.find?_eq_some_iff_append, nil_mem_matches']
    constructor
    · rintro ⟨⟨r, p⟩, ⟨hp, before, after, rfl, hbefore⟩, rfl⟩
      exact ⟨before, p, after, rfl, hp, fun e he => by simpa using hbefore e he⟩
    · rintro ⟨before, p, after, rfl, hp, hbefore⟩
      exact ⟨(r, p), ⟨hp, before, after, rfl, fun e he => by simpa using hbefore e he⟩, rfl⟩
  induction w generalizing rules with
  | nil => exact hfind rules
  | cons a w ih =>
    rw [steps_cons]
    refine ih.trans ⟨?_, ?_⟩
    · intro ⟨before, p, after, hsplit, hp, hbefore⟩
      obtain ⟨l₁, l₂, rfl, rfl, h₂⟩ := List.filterMap_eq_append_iff.mp hsplit
      obtain ⟨l₃, ⟨r', q⟩, l₄, rfl, hl₃, hq, rfl⟩ := List.filterMap_eq_cons_iff.mp h₂
      split at hq
      · cases hq
      · cases hq
        refine ⟨l₁ ++ l₃, q, l₄, by rw [List.append_assoc], cons_mem_matches'.mpr hp, ?_⟩
        intro e he
        rw [cons_mem_matches']
        by_cases hz : residual e.2 a = 0
        · rw [hz]
          exact id
        · rcases List.mem_append.mp he with he | he
          · exact hbefore _ (List.mem_filterMap.mpr ⟨e, he, if_neg hz⟩)
          · have := hl₃ e he
            rw [if_neg hz] at this
            cases this
    · rintro ⟨before, p, after, rfl, hp, hbefore⟩
      have hp := cons_mem_matches'.mp hp
      have hz : residual p a ≠ 0 := by
        intro hz
        rw [hz] at hp
        exact hp
      refine ⟨step before a, residual p a, step after a, ?_, hp, ?_⟩
      · rw [step, List.filterMap_append, List.filterMap_cons, if_neg hz]
        rfl
      · intro e he
        obtain ⟨e', he', heq⟩ := List.mem_filterMap.mp he
        split at heq
        · cases heq
        · cases heq
          exact fun hw => hbefore e' he' (cons_mem_matches'.mpr hw)

theorem longest_none {rules : Rules ρ α} {w : List α}
    (h : ∀ k, 0 < k → k ≤ w.length → accept (steps rules (w.take k)) = none) :
    longest rules w = none := by
  induction w generalizing rules with
  | nil => rfl
  | cons a w ih =>
    have h1 : accept (step rules a) = none := h 1 Nat.one_pos (by simp)
    have ih' : longest (step rules a) w = none :=
      ih fun k hk hle => h (k + 1) (Nat.succ_pos k) (Nat.succ_le_succ hle)
    unfold longest
    simp only [ih', h1]
    split <;> rfl

/-- **The scanner finds the longest match.** If some rule accepts `n ≥ 1`
characters and none accepts more, that rule and that length are the result. -/
theorem longest_some {rules : Rules ρ α} {w : List α} {r : ρ} {n : Nat} (hpos : 0 < n)
    (hn : n ≤ w.length) (hacc : accept (steps rules (w.take n)) = some r)
    (hmax : ∀ k, n < k → k ≤ w.length → accept (steps rules (w.take k)) = none) :
    longest rules w = some (r, n) := by
  induction w generalizing rules n with
  | nil =>
    rw [List.length_nil] at hn
    omega
  | cons a w ih =>
    obtain ⟨n, rfl⟩ : ∃ m, n = m + 1 := ⟨n - 1, by omega⟩
    have hne : ¬ (step rules a).isEmpty = true := by
      intro he
      rw [List.take_succ_cons, steps_cons, List.isEmpty_iff.mp he, steps_nil] at hacc
      cases hacc
    have hle : n ≤ w.length := Nat.le_of_succ_le_succ hn
    unfold longest
    simp only [if_neg hne]
    cases n with
    | zero =>
      have hrest : longest (step rules a) w = none :=
        longest_none fun k hk hle => hmax (k + 1) (by omega) (Nat.succ_le_succ hle)
      have hacc : accept (step rules a) = some r := hacc
      simp only [hrest, hacc, Option.map_some]
    | succ n =>
      have hrest : longest (step rules a) w = some (r, n + 1) :=
        ih (Nat.succ_pos n) hle hacc fun k hk hle =>
          hmax (k + 1) (by omega) (Nat.succ_le_succ hle)
      simp only [hrest]

theorem longest_bounds {rules : Rules ρ α} {w : List α} {r : ρ} {n : Nat}
    (h : longest rules w = some (r, n)) :
    0 < n ∧ n ≤ w.length ∧ ∃ p, (r, p) ∈ rules ∧ w.take n ∈ p.matches' := by
  have hacc : accept (steps rules (w.take n)) = some r ∧ 0 < n ∧ n ≤ w.length := by
    induction w generalizing rules n with
    | nil => cases h
    | cons a w ih =>
      unfold longest at h
      simp only at h
      split at h
      · cases h
      · cases hl : longest (step rules a) w with
        | some e =>
          obtain ⟨r', n'⟩ := e
          rw [hl] at h
          cases h
          obtain ⟨hacc, _, hle⟩ := ih hl
          exact ⟨hacc, Nat.succ_pos _, Nat.succ_le_succ hle⟩
        | none =>
          rw [hl] at h
          obtain ⟨r', hr', heq⟩ := Option.map_eq_some_iff.mp h
          cases heq
          exact ⟨hr', Nat.one_pos, by simp⟩
  obtain ⟨before, p, after, rfl, hp, _⟩ := accept_steps.mp hacc.1
  exact ⟨hacc.2.1, hacc.2.2, p, by simp, hp⟩

end Scan

/-! ## All words of a language at once -/

section Image
variable {ρ α : Type} [DecidableEq ρ] [DecidableEq α]

/-- Close a list of rule sets under `next`, if that takes at most `fuel` rounds. -/
def close (next : List (Rules ρ α) → Option (List (Rules ρ α))) :
    Nat → List (Rules ρ α) → Option (List (Rules ρ α))
  | 0, _ => none
  | fuel + 1, X => do
    let Y ← next X
    if Y ⊆ X then some X else close next fuel (X ++ Y).dedup

/-- The rule sets that words of a language lead to, from any of `X`. -/
def image : RegularExpression α → List (Rules ρ α) → Option (List (Rules ρ α))
  | .zero, _ => some []
  | .epsilon, X => some X
  | .char a, X => some (X.map fun rules => step rules a).dedup
  | .plus p q, X => do
    let Y ← image p X
    let Z ← image q X
    some (Y ++ Z).dedup
  | .comp p q, X => do
    let Y ← image p X
    image q Y
  | .star p, X => close (image p) 8 X

theorem mem_close {next : List (Rules ρ α) → Option (List (Rules ρ α))} {words : Language α}
    (hnext : ∀ {X Y}, next X = some Y → ∀ rules ∈ X, ∀ w ∈ words, steps rules w ∈ Y)
    {fuel : Nat} {X Y : List (Rules ρ α)} (h : close next fuel X = some Y) :
    X ⊆ Y ∧ ∀ rules ∈ Y, ∀ w ∈ words, steps rules w ∈ Y := by
  induction fuel generalizing X with
  | zero => cases h
  | succ fuel ih =>
    unfold close at h
    obtain ⟨Z, hZ, h⟩ := Option.bind_eq_some_iff.mp h
    split at h
    · rename_i hsub
      cases h
      exact ⟨List.Subset.refl _, fun rules hr w hw => hsub (hnext hZ rules hr w hw)⟩
    · obtain ⟨hsub, hstep⟩ := ih h
      exact ⟨fun rules hr => hsub (List.mem_dedup.mpr (List.mem_append_left Z hr)), hstep⟩

theorem mem_image {p : RegularExpression α} {X Y : List (Rules ρ α)} (h : image p X = some Y) :
    ∀ rules ∈ X, ∀ w ∈ p.matches', steps rules w ∈ Y := by
  induction p generalizing X Y with
  | zero => exact fun rules _ w hw => absurd hw (Language.notMem_zero w)
  | epsilon =>
    cases h
    intro rules hr w hw
    rw [(Language.mem_one w).mp hw]
    exact hr
  | char a =>
    cases h
    intro rules hr w hw
    obtain rfl : w = [a] := hw
    exact List.mem_dedup.mpr (List.mem_map.mpr ⟨rules, hr, rfl⟩)
  | plus p q ihp ihq =>
    obtain ⟨Z, hZ, h⟩ := Option.bind_eq_some_iff.mp h
    obtain ⟨Z', hZ', h⟩ := Option.bind_eq_some_iff.mp h
    cases h
    intro rules hr w hw
    rcases (Language.mem_add _ _ w).mp hw with hw | hw
    · exact List.mem_dedup.mpr (List.mem_append_left _ (ihp hZ rules hr w hw))
    · exact List.mem_dedup.mpr (List.mem_append_right _ (ihq hZ' rules hr w hw))
  | comp p q ihp ihq =>
    obtain ⟨Z, hZ, h⟩ := Option.bind_eq_some_iff.mp h
    intro rules hr w hw
    obtain ⟨a, ha, b, hb, rfl⟩ := Language.mem_mul.mp hw
    rw [steps_append]
    exact ihq h _ (ihp hZ rules hr a ha) b hb
  | star p ihp =>
    obtain ⟨hsub, hstep⟩ := mem_close ihp h
    intro rules hr w hw
    obtain ⟨ws, rfl, hws⟩ := Language.mem_kstar.mp hw
    replace hr := hsub hr
    clear hw
    induction ws generalizing rules with
    | nil => exact hr
    | cons v ws ih =>
      rw [List.flatten_cons, steps_append]
      exact ih _ (fun y hy => hws y (List.mem_cons_of_mem _ hy))
        (hstep rules hr v (hws v List.mem_cons_self))

/-- Every word of `p` is scanned as a whole, by rule `r`, if one of the
characters `follow` or the end of the input comes after it. -/
def lexeme (rules : Rules ρ α) (p : RegularExpression α) (r : ρ) (follow : List α) : Bool :=
  !p.matchEpsilon && match image p [rules] with
    | some Y => Y.all fun S => decide (accept S = some r) &&
        follow.all fun a => (step S a).isEmpty
    | none => false

/-- What may come next: one of the given characters, or the end of the input. -/
def Follows (follow rest : List α) : Prop := ∀ a w, rest = a :: w → a ∈ follow

theorem longest_of_lexeme {rules : Rules ρ α} {p : RegularExpression α} {r : ρ}
    {follow w rest : List α} (h : lexeme rules p r follow = true) (hw : w ∈ p.matches')
    (hrest : Follows follow rest) : longest rules (w ++ rest) = some (r, w.length) := by
  obtain ⟨hne, himage⟩ := Bool.and_eq_true _ _ ▸ h
  split at himage
  · rename_i Y hY
    have hmem := mem_image hY rules (List.mem_singleton.mpr rfl) w hw
    obtain ⟨hacc, hfollow⟩ := Bool.and_eq_true _ _ ▸ List.all_eq_true.mp himage _ hmem
    have hpos : 0 < w.length := by
      rw [List.length_pos_iff]
      rintro rfl
      rw [nil_mem_matches'.mp hw] at hne
      cases hne
    refine longest_some hpos (by rw [List.length_append]; omega) ?_ fun k hk hle => ?_
    · rw [List.take_left']
      · exact of_decide_eq_true hacc
      · rfl
    · -- one character further no rule is left
      obtain ⟨k, rfl⟩ := Nat.exists_eq_add_of_lt hk
      rw [List.length_append] at hle
      cases rest with
      | nil =>
        rw [List.length_nil] at hle
        omega
      | cons a rest =>
        have hjam := List.all_eq_true.mp hfollow a (hrest a rest rfl)
        have htake : (w ++ a :: rest).take (w.length + k + 1) = w ++ a :: rest.take k := by
          rw [Nat.add_assoc, List.take_length_add_append, List.take_succ_cons]
        rw [htake, steps_append, steps_cons, List.isEmpty_iff.mp hjam, steps_nil]
        rfl
  · cases himage

end Image
end Flex
