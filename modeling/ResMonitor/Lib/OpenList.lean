import Mathlib.Data.List.ProdSigma

/-! # Lists with an open front

A list of which only the end is known: what has been pushed since some moment,
behind what was there then, unless it has been cleared. A product of two such
lists shows what was in them, except behind an empty one. -/

/-- Whether what was in the list is still at its front, and what has been pushed. -/
structure OpenList (α : Type) where
  kept : Bool
  pushed : List α

namespace OpenList

variable {α β γ δ ε : Type}

def untouched : OpenList α := ⟨true, []⟩

def cleared : OpenList α := ⟨false, []⟩

def push (l : OpenList α) (a : α) : OpenList α := { l with pushed := l.pushed ++ [a] }

/-- The list over what was in it, with a meaning for what has been pushed. -/
def eval (before : List β) (f : α → β) (l : OpenList α) : List β :=
  (if l.kept then before else []) ++ l.pushed.map f

@[simp] theorem eval_push (before : List β) (f : α → β) (l : OpenList α) (a : α) :
    (l.push a).eval before f = l.eval before f ++ [f a] := by
  unfold eval push
  rw [List.map_append, ← List.append_assoc]
  rfl

/-! ## Products -/

theorem length_product (as : List α) (bs : List β) (f : α → β → γ) :
    (as.flatMap fun a => bs.map (f a)).length = as.length * bs.length := by
  induction as with
  | nil => rw [List.flatMap_nil, List.length_nil, List.length_nil, Nat.zero_mul]
  | cons a as ih =>
    rw [List.flatMap_cons, List.length_append, ih, List.length_map, List.length_cons, Nat.succ_mul,
      Nat.add_comm]

/-- Two products of the same lists. -/
theorem product_eq_iff (as : List α) (bs : List β) (f f' : α → β → γ) :
    (as.flatMap fun a => bs.map (f a)) = (as.flatMap fun a => bs.map (f' a)) ↔
      ∀ a ∈ as, ∀ b ∈ bs, f a b = f' a b := by
  have hpairs : ∀ f : α → β → γ,
      (as.flatMap fun a => bs.map (f a)) = (as ×ˢ bs).map fun p => f p.1 p.2 := by
    intro f
    induction as with
    | nil => rfl
    | cons a as ih => simp [ih, List.product_cons]
  rw [hpairs, hpairs, List.map_inj_left]
  constructor
  · intro h a ha b hb
    exact h (a, b) (List.mem_product.2 ⟨ha, hb⟩)
  · rintro h ⟨a, b⟩ hab
    obtain ⟨ha, hb⟩ := List.mem_product.1 hab
    exact h a ha b hb

/-- A product with more in front of its lists: what is in front of the first
always shows, what is in front of the second if the first is not empty. -/
theorem product_append_eq_iff {as : List α} {bs : List β} (hbs : bs ≠ []) {as' : List γ}
    {bs' : List δ} {x x' : α → γ} {y y' : β → δ} {f f' : γ → δ → ε} :
    ((as' ++ as.map x).flatMap fun a => (bs' ++ bs.map y).map (f a)) =
        ((as.map x').flatMap fun a => (bs.map y').map (f' a)) ↔
      as' = [] ∧
        (as ≠ [] → bs' = [] ∧ ∀ a ∈ as, ∀ b ∈ bs, f (x a) (y b) = f' (x' a) (y' b)) := by
  have hpos : 1 ≤ bs.length := List.length_pos_iff.2 hbs
  have hsame : ((as.map x).flatMap fun a => (bs.map y).map (f a)) =
        ((as.map x').flatMap fun a => (bs.map y').map (f' a)) ↔
      ∀ a ∈ as, ∀ b ∈ bs, f (x a) (y b) = f' (x' a) (y' b) := by
    rw [List.flatMap_map, List.flatMap_map]
    simp only [List.map_map]
    exact product_eq_iff as bs (fun a b => f (x a) (y b)) (fun a b => f' (x' a) (y' b))
  constructor
  · intro h
    have hlength := congrArg List.length h
    simp only [length_product, List.length_append, List.length_map, Nat.add_mul,
      Nat.mul_add] at hlength
    have hfront : as'.length * bs.length = 0 := by omega
    have hback : as.length * bs'.length = 0 := by omega
    have has' : as' = [] := by
      rcases Nat.mul_eq_zero.1 hfront with h0 | h0
      · exact List.length_eq_zero_iff.1 h0
      · omega
    refine ⟨has', fun has => ?_⟩
    have hbs' : bs' = [] := by
      rcases Nat.mul_eq_zero.1 hback with h0 | h0
      · exact absurd (List.length_eq_zero_iff.1 h0) has
      · exact List.length_eq_zero_iff.1 h0
    subst has' hbs'
    exact ⟨rfl, hsame.1 h⟩
  · rintro ⟨rfl, h⟩
    by_cases has : as = []
    · rw [has]
      rfl
    · obtain ⟨rfl, heq⟩ := h has
      exact hsame.2 heq

/-! ## Products of open lists -/

theorem front_eq_nil_iff (kept : Bool) (before : List α) :
    (if kept then before else []) = [] ↔ (kept → before = []) := by
  cases kept <;> simp

/-- The product of two lists, something having been pushed to the second, is that
over empty lists exactly when what they keep does not show in it. -/
theorem eval_product_eq_iff {as : OpenList α} {bs : OpenList β} (hbs : bs.pushed ≠ [])
    {before : List γ} {before' : List δ} {x x' : α → γ} {y y' : β → δ} {f f' : γ → δ → ε} :
    ((as.eval before x).flatMap fun a => (bs.eval before' y).map (f a)) =
        ((as.eval [] x').flatMap fun a => (bs.eval [] y').map (f' a)) ↔
      (as.kept → before = []) ∧ (as.pushed ≠ [] → (bs.kept → before' = []) ∧
        ∀ a ∈ as.pushed, ∀ b ∈ bs.pushed, f (x a) (y b) = f' (x' a) (y' b)) := by
  obtain ⟨kept, as⟩ := as
  obtain ⟨kept', bs⟩ := bs
  simp only [eval, ite_self, List.nil_append]
  rw [product_append_eq_iff hbs, front_eq_nil_iff, front_eq_nil_iff]

theorem length_eval_nil_le (before : List β) (f f' : α → β) (l : OpenList α) :
    (l.eval [] f').length ≤ (l.eval before f).length := by
  obtain ⟨kept, pushed⟩ := l
  cases kept <;> simp [eval]

theorem length_product_le {as : OpenList α} {bs : OpenList β} {before : List γ}
    {before' : List δ} {x x' : α → γ} {y y' : β → δ} {f f' : γ → δ → ε} :
    ((as.eval [] x').flatMap fun a => (bs.eval [] y').map (f' a)).length ≤
      ((as.eval before x).flatMap fun a => (bs.eval before' y).map (f a)).length := by
  rw [length_product, length_product]
  exact Nat.mul_le_mul (length_eval_nil_le before x x' as) (length_eval_nil_le before' y y' bs)

theorem pushed_push_ne_nil (l : OpenList α) (a : α) : (l.push a).pushed ≠ [] :=
  List.append_ne_nil_of_right_ne_nil _ (List.cons_ne_nil a [])

/-! ## Lists that grow -/

/-- Two lists that grow at the same moments, the one never less than the other. -/
theorem append_eq_append_iff {as as' bs bs' : List α} (has : as'.length ≤ as.length)
    (hbs : bs'.length ≤ bs.length) (grows : Bool) :
    (as ++ (if grows then bs else []) = as' ++ (if grows then bs' else []) ↔
      as = as' ∧ (grows → bs = bs')) ∧
    (as' ++ (if grows then bs' else [])).length ≤ (as ++ (if grows then bs else [])).length := by
  cases grows with
  | false => simpa using has
  | true =>
    simp only [if_true, List.length_append, forall_const]
    refine ⟨⟨fun h => ?_, fun ⟨h, h'⟩ => by rw [h, h']⟩, Nat.add_le_add has hbs⟩
    have hlength := congrArg List.length h
    rw [List.length_append, List.length_append] at hlength
    exact List.append_inj h (by omega)

end OpenList
