import Mathlib.Data.List.DropRight
import Mathlib.Data.List.Nodup

/-! # Windows of a stream

A stream is cut into consecutive windows of one length. Their indices are
listed from the newest down. Every index short of the last full window lies in
exactly one of them. -/

namespace Windows
variable {α : Type}

/-- The first `n` elements, oldest first. -/
def before (f : Nat → α) (n : Nat) : List α := (List.range n).map f

/-- The indices of window `j`, the newest first. -/
def indices (r j : Nat) : List Nat := (List.range r).map fun i => (j + 1) * r - 1 - i

def window (f : Nat → α) (r j : Nat) : List α := (indices r j).map f

theorem before_succ (f : Nat → α) (n : Nat) : before f (n + 1) = before f n ++ [f n] := by
  simp [before, List.range_succ]

theorem length_before (f : Nat → α) (n : Nat) : (before f n).length = n := by simp [before]

theorem getElem?_before (f : Nat → α) {n i : Nat} (h : i < n) : (before f n)[i]? = some (f i) := by
  rw [before, List.getElem?_map, List.getElem?_range h, Option.map_some]

theorem mem_indices (r j i : Nat) : i ∈ indices r j ↔ j * r ≤ i ∧ i < (j + 1) * r := by
  have hsucc : (j + 1) * r = j * r + r := Nat.succ_mul j r
  simp only [indices, List.mem_map, List.mem_range, hsucc]
  constructor
  · intro ⟨a, ha, hi⟩
    omega
  · intro h
    exact ⟨j * r + r - 1 - i, by omega, by omega⟩

theorem nodup_indices (r j : Nat) : (indices r j).Nodup := by
  have hsucc : (j + 1) * r = j * r + r := Nat.succ_mul j r
  refine List.Nodup.map_on ?_ List.nodup_range
  intro a ha b hb hab
  have ha := List.mem_range.mp ha
  have hb := List.mem_range.mp hb
  omega

theorem mem_indices_iff_div {r : Nat} (hr : 0 < r) (j i : Nat) :
    i ∈ indices r j ↔ i / r = j := by
  rw [mem_indices, Nat.div_eq_iff hr, Nat.succ_mul]
  omega

/-- The windows that are full after `n` elements share out all elements before
the last one's end. -/
theorem exists_unique_window {r n i : Nat} (hi : i < n / r * r) :
    ∃! j, j < n / r ∧ i ∈ indices r j := by
  have hr : 0 < r := by
    rcases Nat.eq_zero_or_pos r with rfl | hr
    · simp at hi
    · exact hr
  have hlt : i / r < n / r := Nat.div_lt_of_lt_mul (by rwa [Nat.mul_comm])
  exact ⟨i / r, ⟨hlt, (mem_indices_iff_div hr _ _).mpr rfl⟩,
    fun j h => ((mem_indices_iff_div hr j i).mp h.2).symm⟩

/-- When window `j` is full it is the newest part of what there is. -/
theorem take_reverse_before (f : Nat → α) (r j : Nat) :
    (before f ((j + 1) * r)).reverse.take r = window f r j := by
  have hle : r ≤ (j + 1) * r := Nat.le_mul_of_pos_left r (Nat.succ_pos j)
  rw [before, List.range_eq_range', ← List.map_reverse, List.reverse_range', ← List.map_take,
    ← List.map_take, List.take_range, Nat.min_eq_left hle, Nat.zero_add]
  rfl

theorem take_reverse_rtake {r c : Nat} (h : r ≤ c) (l : List α) :
    (l.rtake c).reverse.take r = l.reverse.take r := by
  rw [List.rtake_eq_reverse_take_reverse, List.reverse_reverse, List.take_take, Nat.min_eq_left h]

/-- One more element completes a window, or does not. -/
theorem succ_mod_div {r : Nat} (hr : 0 < r) (n : Nat) :
    if r ∣ n + 1 then n % r + 1 = r ∧ (n + 1) % r = 0 ∧ (n + 1) / r = n / r + 1
    else n % r + 1 < r ∧ (n + 1) % r = n % r + 1 ∧ (n + 1) / r = n / r := by
  have hlt := Nat.mod_lt n hr
  have hsucc : (n + 1) % r = (n % r + 1) % r := (Nat.mod_add_mod n r 1).symm
  split
  · rename_i hdvd
    have hmod := Nat.mod_eq_zero_of_dvd hdvd
    refine ⟨?_, hmod, by rw [Nat.succ_div, if_pos hdvd]⟩
    rcases Nat.lt_or_ge (n % r + 1) r with hlt | hge
    · rw [Nat.mod_eq_of_lt hlt] at hsucc
      omega
    · omega
  · rename_i hdvd
    have hne : n % r + 1 ≠ r := fun heq =>
      hdvd (Nat.dvd_of_mod_eq_zero (by rw [hsucc, heq, Nat.mod_self]))
    refine ⟨by omega, by rw [hsucc, Nat.mod_eq_of_lt (by omega)], ?_⟩
    rw [Nat.succ_div, if_neg hdvd, Nat.add_zero]

end Windows
