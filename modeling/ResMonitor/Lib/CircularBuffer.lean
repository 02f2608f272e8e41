import Mathlib.Data.List.Basic
import Mathlib.Data.List.DropRight

/-! # Circular buffers

A ring of fixed capacity. Pushing onto a full ring overwrites the oldest
element; a ring of capacity 0 stays empty. The elements are listed oldest
first. -/

@[ext] structure CircularBuffer (α : Type) where
  capacity : Nat
  items : List α
  bounded : items.length ≤ capacity

namespace CircularBuffer
variable {α : Type}

def ofCapacity (capacity : Nat) : CircularBuffer α := ⟨capacity, [], Nat.zero_le _⟩

def size (b : CircularBuffer α) : Nat := b.items.length

/-- The element pushed last. -/
def back? (b : CircularBuffer α) : Option α := b.items.getLast?

/-- What is left of the items when one more has to fit. -/
def room (capacity : Nat) (items : List α) : List α :=
  if items.length < capacity then items else items.tail

theorem length_room_append {capacity : Nat} (h : capacity ≠ 0) {items : List α}
    (hb : items.length ≤ capacity) (x : α) : (room capacity items ++ [x]).length ≤ capacity := by
  unfold room
  split
  · simp; omega
  · simp; omega

def pushBack (b : CircularBuffer α) (x : α) : CircularBuffer α :=
  if h : b.capacity = 0 then b
  else ⟨b.capacity, room b.capacity b.items ++ [x], length_room_append h b.bounded x⟩

def map {β : Type} (f : α → β) (b : CircularBuffer α) : CircularBuffer β :=
  ⟨b.capacity, b.items.map f, by rw [List.length_map]; exact b.bounded⟩

@[simp] theorem capacity_ofCapacity (n : Nat) :
    (ofCapacity n : CircularBuffer α).capacity = n := rfl
@[simp] theorem size_ofCapacity (n : Nat) : (ofCapacity n : CircularBuffer α).size = 0 := rfl

@[simp] theorem capacity_pushBack (b : CircularBuffer α) (x : α) :
    (b.pushBack x).capacity = b.capacity := by
  unfold pushBack; split <;> rfl

theorem size_pushBack (b : CircularBuffer α) (x : α) :
    (b.pushBack x).size = min (b.size + 1) b.capacity := by
  have := b.bounded
  unfold pushBack size room
  split
  · rename_i h; simp only [h] at this ⊢; omega
  · split
    · simp; omega
    · simp; omega

theorem back?_pushBack {b : CircularBuffer α} (h : 0 < b.capacity) (x : α) :
    (b.pushBack x).back? = some x := by
  unfold pushBack back?
  rw [dif_neg (by omega)]
  simp

theorem room_rtake (k : Nat) (history : List α) :
    room (k + 1) (history.rtake (k + 1)) = history.rtake k := by
  unfold room List.rtake
  rw [List.length_drop, List.tail_drop]
  split
  · rw [Nat.sub_eq_zero_of_le (by omega), Nat.sub_eq_zero_of_le (by omega)]
  · congr 1
    omega

/-- A ring that holds the end of what was pushed holds it after one more push. -/
theorem items_pushBack {b : CircularBuffer α} {history : List α}
    (h : b.items = history.rtake b.capacity) (x : α) :
    (b.pushBack x).items = (history ++ [x]).rtake b.capacity := by
  unfold pushBack
  by_cases hc : b.capacity = 0
  · rw [dif_pos hc, h, hc, List.rtake_zero, List.rtake_zero]
  · obtain ⟨k, hk⟩ := Nat.exists_eq_succ_of_ne_zero hc
    rw [dif_neg hc]
    change room b.capacity b.items ++ [x] = _
    rw [h, hk, room_rtake, List.rtake_concat_succ]

end CircularBuffer
