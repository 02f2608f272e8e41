import Mathlib.Algebra.Ring.Int.Defs
import Mathlib.Algebra.Ring.Nat
import Mathlib.Data.List.TakeWhile

/-! # Strings of the C++ standard library

What `std::getline`, `std::stoi` and `vector::at` do, on lists of characters
and on lists. Each failure is the exception that is thrown. -/

namespace StdString

inductive Exception where
  | invalidArgument
  | outOfRange
  deriving DecidableEq, Repr

theorem bind_ok {α β : Type} {x : Except Exception α} {f : α → Except Exception β} {b : β}
    (h : x >>= f = .ok b) : ∃ a, x = .ok a ∧ f a = .ok b := by
  cases x with
  | error e => cases h
  | ok a => exact ⟨a, rfl, h⟩

/-! ## Reading up to a delimiter -/

/-- `while (std::getline(stream, segment, delim)) seglist.push_back(segment)`;
the first argument is what has been read of the current segment. A stream that
ends right after a delimiter has no further segment. -/
def getlines (delim : Char) : List Char → List Char → List (List Char)
  | [], [] => []
  | segment, [] => [segment]
  | segment, c :: text =>
    if c = delim then segment :: getlines delim [] text else getlines delim (segment ++ [c]) text

theorem getlines_append {delim : Char} (s : List Char) (h : delim ∉ s) (segment rest : List Char) :
    getlines delim segment (s ++ delim :: rest) = (segment ++ s) :: getlines delim [] rest := by
  induction s generalizing segment with
  | nil => cases segment <;> simp [getlines]
  | cons c s ih =>
    obtain ⟨hc, hs⟩ := not_or.mp (mt List.mem_cons.mpr h)
    have hstep : getlines delim segment (c :: (s ++ delim :: rest)) =
        getlines delim (segment ++ [c]) (s ++ delim :: rest) := by
      cases segment <;> simp [getlines, Ne.symm hc]
    rw [List.cons_append, hstep, ih hs, List.append_assoc, List.singleton_append]

/-- No segment holds the delimiter. -/
theorem not_mem_of_mem_getlines {delim : Char} {text segment s : List Char}
    (hs : s ∈ getlines delim segment text) (h : delim ∉ segment) : delim ∉ s := by
  induction text generalizing segment with
  | nil =>
    cases segment with
    | nil => cases hs
    | cons c segment => rwa [List.mem_singleton.mp hs]
  | cons c text ih =>
    rw [getlines] at hs
    split at hs
    · rcases List.mem_cons.mp hs with rfl | hs
      · exact h
      · exact ih hs List.not_mem_nil
    · rename_i hc
      refine ih hs fun hmem => ?_
      rcases List.mem_append.mp hmem with hmem | hmem
      · exact h hmem
      · exact hc (List.mem_singleton.mp hmem).symm

/-- Every delimiter ends a segment. -/
theorem count_le_length_getlines (delim : Char) (text segment : List Char) :
    text.count delim ≤ (getlines delim segment text).length := by
  induction text generalizing segment with
  | nil => exact Nat.zero_le _
  | cons c text ih =>
    rw [getlines]
    by_cases hc : c = delim
    · rw [if_pos hc, hc, List.count_cons_self, List.length_cons]
      exact Nat.succ_le_succ (ih [])
    · rw [if_neg hc, List.count_cons_of_ne hc]
      exact ih _

/-! ## Numbers -/

/-- `std::isspace` -/
def isSpace (c : Char) : Bool :=
  decide (c ∈ [' ', '\t', '\n', Char.ofNat 11, Char.ofNat 12, '\r'])

def intMax : Int := 2147483647

/-- The sign of a number, and what follows it. -/
def readSign : List Char → Bool × List Char
  | '-' :: s => (true, s)
  | '+' :: s => (false, s)
  | s => (false, s)

/-- `std::stoi` -/
def stoi (s : List Char) : Except Exception Int :=
  let (negative, s) := readSign (s.dropWhile isSpace)
  match s.takeWhile Char.isDigit with
  | [] => .error .invalidArgument
  | ds =>
    let magnitude : Int := Nat.ofDigitChars 10 ds 0
    let n := if negative then -magnitude else magnitude
    if -intMax - 1 ≤ n ∧ n ≤ intMax then .ok n else .error .outOfRange

/-- A decimal number without a sign. -/
structure Decimal (s : List Char) (n : Nat) : Prop where
  nonempty : s ≠ []
  digits : ∀ c ∈ s, c.isDigit = true
  value : Nat.ofDigitChars 10 s 0 = n

instance (s : List Char) (n : Nat) : Decidable (Decimal s n) :=
  decidable_of_iff (s ≠ [] ∧ s.all Char.isDigit = true ∧ Nat.ofDigitChars 10 s 0 = n)
    ⟨fun ⟨h, h', h''⟩ => ⟨h, List.all_eq_true.mp h', h''⟩,
      fun ⟨h, h', h''⟩ => ⟨h, List.all_eq_true.mpr h', h''⟩⟩

theorem not_isDigit {c : Char} {s : List Char} {n : Nat} (h : Decimal s n)
    (hc : c.isDigit = false) : c ∉ s := by
  intro hmem
  rw [h.digits c hmem] at hc
  cases hc

/-- A decimal number after a blank is read if it fits in an `int`. -/
theorem stoi_decimal {s : List Char} {n : Nat} (h : Decimal s n) :
    stoi (' ' :: s) = if (n : Int) ≤ intMax then .ok (n : Int) else .error .outOfRange := by
  have hdrop : (' ' :: s).dropWhile isSpace = s := by
    rw [List.dropWhile_cons_of_pos (by decide)]
    cases hs : s with
    | nil => rfl
    | cons c cs =>
      have hc := h.digits c (by rw [hs]; exact List.mem_cons_self)
      refine List.dropWhile_cons_of_neg fun hspace => ?_
      simp only [isSpace, decide_eq_true_eq, List.mem_cons, List.not_mem_nil, or_false] at hspace
      rcases hspace with rfl | rfl | rfl | rfl | rfl | rfl <;> exact absurd hc (by decide)
  have hsign : readSign s = (false, s) := by
    unfold readSign
    split
    · exact absurd List.mem_cons_self (not_isDigit h (c := '-') (by decide))
    · exact absurd List.mem_cons_self (not_isDigit h (c := '+') (by decide))
    · rfl
  unfold stoi
  rw [hdrop, hsign]
  dsimp only
  rw [List.takeWhile_eq_self_iff.mpr h.digits]
  split
  · rename_i hnil
    exact absurd rfl h.nonempty
  · have hlow : -intMax - 1 ≤ (n : Int) := by unfold intMax; omega
    rw [h.value]
    simp only [Bool.false_eq_true, if_false, hlow, true_and]

theorem decimal_toDigits (n : Nat) : Decimal (Nat.toDigits 10 n) n :=
  ⟨Nat.toDigits_ne_nil, fun _ hc => Nat.isDigit_of_mem_toDigits (by decide) (by decide) hc,
    Nat.ofDigitChars_ten_toDigits⟩

/-- The parts of a text that begins with a number, after blanks and before
something that is no digit. -/
theorem number_parts {ds : List Char} {n : Nat} (h : Decimal ds n) {blanks rest : List Char}
    (hblanks : ∀ c ∈ blanks, isSpace c = true)
    (hrest : ∀ c ∈ rest.head?, c.isDigit = false) :
    readSign ((blanks ++ (ds ++ rest)).dropWhile isSpace) = (false, ds ++ rest) ∧
    (ds ++ rest).takeWhile Char.isDigit = ds ∧ (ds ++ rest).dropWhile Char.isDigit = rest := by
  obtain ⟨c, cs, rfl⟩ := List.exists_cons_of_ne_nil h.nonempty
  have hc := h.digits c List.mem_cons_self
  have hspace : ¬ isSpace c = true := by
    intro hspace
    simp only [isSpace, decide_eq_true_eq, List.mem_cons, List.not_mem_nil, or_false] at hspace
    rcases hspace with rfl | rfl | rfl | rfl | rfl | rfl <;> cases hc
  have hsign : readSign (c :: (cs ++ rest)) = (false, c :: (cs ++ rest)) := by
    unfold readSign
    split
    · rename_i heq
      rw [(List.cons.inj heq).1] at hc
      cases hc
    · rename_i heq
      rw [(List.cons.inj heq).1] at hc
      cases hc
    · rfl
  refine ⟨?_, ?_, ?_⟩
  · rw [List.dropWhile_append_of_pos hblanks, List.cons_append,
      List.dropWhile_cons_of_neg hspace, hsign]
  · rw [List.takeWhile_append_of_pos h.digits]
    cases rest with
    | nil => simp
    | cons c rest =>
      rw [List.takeWhile_cons_of_neg (by simp [hrest c rfl]), List.append_nil]
  · rw [List.dropWhile_append_of_pos h.digits]
    cases rest with
    | nil => rfl
    | cons c rest => rw [List.dropWhile_cons_of_neg (by simp [hrest c rfl])]

/-- `std::stoll` -/
def stoll (s : List Char) : Except Exception Int :=
  let (negative, s) := readSign (s.dropWhile isSpace)
  match s.takeWhile Char.isDigit with
  | [] => .error .invalidArgument
  | ds =>
    let magnitude : Int := Nat.ofDigitChars 10 ds 0
    let n := if negative then -magnitude else magnitude
    if -(2 ^ 63) ≤ n ∧ n < 2 ^ 63 then .ok n else .error .outOfRange

theorem stoll_decimal {ds : List Char} {n : Nat} (h : Decimal ds n) (hn : n < 2 ^ 63)
    (blanks rest : List Char) (hblanks : ∀ c ∈ blanks, isSpace c = true)
    (hrest : ∀ c ∈ rest.head?, c.isDigit = false) :
    stoll (blanks ++ (ds ++ rest)) = .ok (n : Int) := by
  obtain ⟨hsign, htake, -⟩ := number_parts h hblanks hrest
  unfold stoll
  rw [hsign]
  dsimp only
  rw [htake]
  split
  · exact absurd rfl h.nonempty
  · simp only [Bool.false_eq_true, if_false, h.value]
    rw [if_pos (by omega)]

/-- The number that `strtoull` and `strtoul` make of a sign and a magnitude. -/
def unsignedOf (negative : Bool) (magnitude : Nat) : Except Exception Nat :=
  if 2 ^ 64 ≤ magnitude then .error .outOfRange
  else .ok (if negative then (2 ^ 64 - magnitude) % 2 ^ 64 else magnitude)

/-- `std::stoull` -/
def stoull (s : List Char) : Except Exception Nat :=
  let (negative, s) := readSign (s.dropWhile isSpace)
  match s.takeWhile Char.isDigit with
  | [] => .error .invalidArgument
  | ds => unsignedOf negative (Nat.ofDigitChars 10 ds 0)

/-- `vector::at`; a negative index becomes one past every vector. -/
def vectorAt {α : Type} (xs : List α) (i : Int) : Except Exception α :=
  if i < 0 then .error .outOfRange
  else match xs[i.toNat]? with
    | some x => .ok x
    | none => .error .outOfRange

theorem vectorAt_natCast {α : Type} {xs : List α} {n : Nat} {x : α} (h : xs[n]? = some x) :
    vectorAt xs (n : Int) = .ok x := by
  unfold vectorAt
  rw [if_neg (by omega), Int.toNat_natCast, h]

/-! ## Parts of a string -/

/-- `std::string::substr`, for a position that is not behind the end. -/
def substr (s : List Char) (pos n : Nat) : List Char := (s.drop pos).take n

theorem substr_append (before s rest : List Char) :
    substr (before ++ (s ++ rest)) before.length s.length = s := by
  unfold substr
  rw [List.drop_left, List.take_left]

theorem substr_zero (s rest : List Char) : substr (s ++ rest) 0 s.length = s := by
  rw [substr, List.drop_zero, List.take_left]

/-- All but the last character behind a position. -/
theorem substr_dropLast (before s : List Char) :
    substr (before ++ s) before.length ((before ++ s).length - before.length - 1) = s.dropLast := by
  rw [substr, List.drop_left, List.length_append, Nat.add_sub_cancel_left,
    List.dropLast_eq_take]

/-- A text at its last separator. -/
def splitLast (sep : Char) : List Char → Option (List Char × List Char)
  | [] => none
  | c :: s => match splitLast sep s with
    | some (before, after) => some (c :: before, after)
    | none => if c = sep then some ([], s) else none

theorem splitLast_of_not_mem {sep : Char} {s : List Char} (h : sep ∉ s) :
    splitLast sep s = none := by
  induction s with
  | nil => rfl
  | cons c s ih =>
    obtain ⟨hc, hs⟩ := not_or.mp (mt List.mem_cons.mpr h)
    rw [splitLast, ih hs]
    exact if_neg (Ne.symm hc)

theorem splitLast_append {sep : Char} (before : List Char) {after : List Char} (h : sep ∉ after) :
    splitLast sep (before ++ sep :: after) = some (before, after) := by
  induction before with
  | nil =>
    rw [List.nil_append, splitLast, splitLast_of_not_mem h]
    exact if_pos rfl
  | cons c before ih => rw [List.cons_append, splitLast, ih]

theorem exists_splitLast {sep : Char} {s : List Char} (h : sep ∈ s) :
    ∃ before after, s = before ++ sep :: after ∧ sep ∉ after := by
  induction s with
  | nil => cases h
  | cons c s ih =>
    by_cases hs : sep ∈ s
    · obtain ⟨before, after, rfl, hafter⟩ := ih hs
      exact ⟨c :: before, after, rfl, hafter⟩
    · obtain rfl : sep = c := (List.mem_cons.mp h).resolve_right hs
      exact ⟨[], s, rfl, hs⟩

/-- No piece holds the separator. -/
theorem not_mem_of_mem_splitOn {sep : Char} {s piece : List Char} (h : piece ∈ s.splitOn sep) :
    sep ∉ piece := by
  induction s generalizing piece with
  | nil =>
    rw [List.mem_singleton.mp h]
    exact List.not_mem_nil
  | cons c s ih =>
    rw [List.splitOn_cons_eq_if_modifyHead] at h
    split at h
    · rcases List.mem_cons.mp h with rfl | h
      · exact List.not_mem_nil
      · exact ih h
    · rename_i hc
      obtain ⟨first, rest, hsplit⟩ := List.exists_cons_of_ne_nil (List.splitOn_ne_nil sep s)
      rw [hsplit] at ih h
      rcases List.mem_cons.mp h with rfl | h
      · intro hmem
        rcases List.mem_cons.mp hmem with rfl | hmem
        · exact hc BEq.rfl
        · exact ih List.mem_cons_self hmem
      · exact ih (List.mem_cons_of_mem _ h)

/-- `std::string::find` of a character, from a position on. -/
def find (c : Char) (s : List Char) (pos : Nat) : Option Nat :=
  ((s.drop pos).findIdx? (· == c)).map (pos + ·)

theorem find_append {c : Char} {s : List Char} (before : List Char) (h : c ∉ s)
    (after : List Char) :
    find c (before ++ (s ++ c :: after)) before.length = some (before.length + s.length) := by
  have hnot : ∀ x ∈ s, (x == c) = false := fun x hx => beq_false_of_ne fun heq => h (heq ▸ hx)
  have hindex : (s ++ c :: after).findIdx? (· == c) = some s.length := by
    rw [List.findIdx?_eq_some_iff_getElem]
    refine ⟨by simp, by simp, fun j hj => ?_⟩
    rw [List.getElem_append_left hj]
    simpa using hnot _ (List.getElem_mem hj)
  rw [find, List.drop_left, hindex, Option.map_some]

theorem find_of_not_mem {c : Char} {s : List Char} (before : List Char) (h : c ∉ s) :
    find c (before ++ s) before.length = none := by
  rw [find, List.drop_left, List.findIdx?_eq_none_iff.mpr, Option.map_none]
  exact fun x hx => beq_false_of_ne fun heq => h (heq ▸ hx)

end StdString
