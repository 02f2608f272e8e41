import Mathlib.Algebra.Group.Basic
import Mathlib.Data.List.Chain

/-! # Calls that measure from the last reading

A state is fed one reading after the other, and what a call returns depends on
the reading before. Each call of a run is listed with the reading before it. -/

namespace Calls
variable {σ ρ : Type}

structure Call (σ ρ : Type) where
  previous : ρ
  state : σ
  reading : ρ

/-- The calls of a run: `previous` is the reading that `s` was left with. -/
def calls (next : σ → ρ → σ) (previous : ρ) (s : σ) : List ρ → List (Call σ ρ)
  | [] => []
  | r :: rs => ⟨previous, s, r⟩ :: calls next r (next s r) rs

variable (next : σ → ρ → σ)

/-- What every call does is a property of consecutive readings. -/
theorem forall_calls_iff_isChain (R : ρ → ρ → Prop) (previous : ρ) (s : σ) (rs : List ρ) :
    (∀ c ∈ calls next previous s rs, R c.previous c.reading) ↔ (previous :: rs).IsChain R := by
  induction rs generalizing previous s with
  | nil => simp [calls]
  | cons r rs ih =>
    rw [calls, List.forall_mem_cons, ih, List.isChain_cons_cons]

/-- What a state keeps about the reading before it keeps all along. -/
theorem stored_of_mem_calls (Stored : ρ → σ → Prop)
    (hnext : ∀ previous s r, Stored previous s → Stored r (next s r)) {previous : ρ} {s : σ}
    (hs : Stored previous s) (rs : List ρ) :
    ∀ c ∈ calls next previous s rs, Stored c.previous c.state := by
  induction rs generalizing previous s with
  | nil => exact fun c hc => absurd hc List.not_mem_nil
  | cons r rs ih => exact List.forall_mem_cons.mpr ⟨hs, ih (hnext previous s r hs)⟩

/-- The differences between consecutive readings add up to the whole. -/
theorem sum_calls {G : Type} [AddCommGroup G] (f : ρ → G) (previous : ρ) (s : σ) (rs : List ρ) :
    ((calls next previous s rs).map fun c => f c.reading - f c.previous).sum =
      f (rs.getLastD previous) - f previous := by
  induction rs generalizing previous s with
  | nil => exact (sub_self _).symm
  | cons r rs ih =>
    rw [calls, List.map_cons, List.sum_cons, ih, List.getLastD_cons, add_comm]
    exact sub_add_sub_cancel _ _ _

end Calls
