import Mathlib.Data.List.Infix
import ResMonitor.Lib.StdString
import ResMonitor.Lib.Streams

/-! # Strings of the C library

What `fgets`, `strtok` and the conversions of `fscanf` do. `fgets` cuts lines
that are longer than its buffer, and whoever looks at how a line begins also
sees the beginnings of the parts. -/

namespace CStrings
open StdString

/-! ## Lines in a buffer -/

/-- `while (fgets(line, size + 1, file) != NULL)`: what is in the buffer at each
round. The first number is the room that is left for the current one. -/
def fgetsLoop (size : Nat) : Nat → List Char → List Char → List (List Char)
  | _, [], [] => []
  | _, line, [] => [line]
  | room, line, c :: text =>
    if c = '\n' ∨ room ≤ 1 then (line ++ [c]) :: fgetsLoop size size [] text
    else fgetsLoop size (room - 1) (line ++ [c]) text

/-- All rounds on a file, for a buffer of `n` characters. -/
def fgets (n : Nat) (text : List Char) : List (List Char) := fgetsLoop (n - 1) (n - 1) [] text

/-- The parts of a text, each of `size` characters but the last. -/
def parts (size : Nat) (text : List Char) : List (List Char) :=
  (List.range ((text.length + size - 1) / size)).map fun k => (text.drop (k * size)).take size

theorem fgetsLoop_append {size room : Nat} {s : List Char} (h : '\n' ∉ s) (hroom : s.length < room)
    (line text : List Char) :
    fgetsLoop size room line (s ++ text) = fgetsLoop size (room - s.length) (line ++ s) text := by
  induction s generalizing room line with
  | nil => rw [List.nil_append, List.append_nil, List.length_nil, Nat.sub_zero]
  | cons c s ih =>
    obtain ⟨hc, hs⟩ := not_or.mp (mt List.mem_cons.mpr h)
    rw [List.length_cons] at hroom
    have hnot : ¬ (c = '\n' ∨ room ≤ 1) := by
      rintro (hnewline | hfull)
      · exact hc hnewline.symm
      · omega
    have hlength : room - (c :: s).length = room - 1 - s.length := by
      rw [List.length_cons]
      omega
    rw [List.cons_append, fgetsLoop, if_neg hnot, ih hs (by omega), hlength, List.append_assoc,
      List.singleton_append]

theorem fgetsLoop_full {size room : Nat} {s : List Char} (h : '\n' ∉ s) (hroom : s.length = room)
    (hpos : 0 < room) {line text : List Char} :
    fgetsLoop size room line (s ++ text) = (line ++ s) :: fgetsLoop size size [] text := by
  obtain ⟨s, c, rfl⟩ := (List.eq_nil_or_concat s).resolve_left
    (List.ne_nil_of_length_pos (hroom ▸ hpos))
  rw [List.concat_eq_append] at h hroom ⊢
  rw [List.length_append, List.length_singleton] at hroom
  obtain ⟨hs, -⟩ := not_or.mp (mt List.mem_append.mpr h)
  have hone : room - s.length = 1 := by omega
  rw [List.append_assoc, fgetsLoop_append hs (by omega), hone, List.singleton_append, fgetsLoop,
    if_pos (Or.inr (Nat.le_refl 1)), List.append_assoc]

theorem parts_of_le {size : Nat} {text : List Char} (hne : text ≠ []) (h : text.length ≤ size) :
    parts size text = [text] := by
  have hpos := List.length_pos_iff.mpr hne
  have hone : (text.length + size - 1) / size = 1 :=
    Nat.div_eq_of_lt_le (by omega) (by omega)
  rw [parts, hone]
  simp only [List.range_one, List.map_singleton, Nat.zero_mul, List.drop_zero]
  rw [List.take_of_length_le h]

theorem parts_of_lt {size : Nat} {text : List Char} (hsize : 0 < size) (h : size < text.length) :
    parts size text = text.take size :: parts size (text.drop size) := by
  have hcount : (text.length + size - 1) / size =
      ((text.drop size).length + size - 1) / size + 1 := by
    rw [List.length_drop, ← Nat.add_div_right _ hsize]
    congr 1
    omega
  rw [parts, parts, hcount, List.range_succ_eq_map, List.map_cons, List.map_map, Nat.zero_mul,
    List.drop_zero]
  congr 1
  refine List.map_congr_left fun k _ => ?_
  rw [Function.comp_apply, List.drop_drop, Nat.succ_mul, Nat.add_comm]

theorem exists_parts_cons {size : Nat} {text : List Char} (hsize : 0 < size) (hne : text ≠ []) :
    ∃ rest, parts size text = text.take size :: rest := by
  by_cases h : text.length ≤ size
  · exact ⟨[], by rw [parts_of_le hne h, List.take_of_length_le h]⟩
  · exact ⟨_, parts_of_lt hsize (by omega)⟩

theorem isInfix_of_mem_parts {size : Nat} {text part : List Char} (h : part ∈ parts size text) :
    part <:+: text := by
  obtain ⟨k, -, rfl⟩ := List.mem_map.mp h
  exact (List.take_prefix _ _).isInfix.trans (List.drop_suffix _ _).isInfix

/-- A line and its end come in parts. -/
theorem fgetsLoop_line {size : Nat} (hsize : 0 < size) {line : List Char} (h : '\n' ∉ line)
    (text : List Char) :
    fgetsLoop size size [] (line ++ '\n' :: text) =
      parts size (line ++ ['\n']) ++ fgetsLoop size size [] text := by
  induction hn : line.length using Nat.strongRecOn generalizing line with
  | ind n ih =>
    by_cases hshort : line.length < size
    · have hle : (line ++ ['\n']).length ≤ size := by
        rw [List.length_append, List.length_singleton]
        omega
      rw [fgetsLoop_append h hshort, List.nil_append, fgetsLoop, if_pos (Or.inl rfl),
        parts_of_le (by simp) hle, List.singleton_append]
    · -- the buffer is full before the line ends
      have hlt : size < (line ++ ['\n']).length := by
        rw [List.length_append, List.length_singleton]
        omega
      have htake : (line.take size).length = size := by
        rw [List.length_take]
        omega
      have hdrop : '\n' ∉ line.drop size := fun hmem => h (List.mem_of_mem_drop hmem)
      have hsplit : line ++ '\n' :: text = line.take size ++ (line.drop size ++ '\n' :: text) := by
        rw [← List.append_assoc, List.take_append_drop]
      rw [hsplit, fgetsLoop_full (fun hmem => h (List.mem_of_mem_take hmem)) htake hsize,
        ih _ (by rw [List.length_drop]; omega) hdrop rfl, parts_of_lt hsize hlt,
        List.take_append_of_le_length (by omega), List.drop_append_of_le_length (by omega)]
      rfl

/-- A file of lines, each with its end. -/
theorem fgetsLoop_lines {size : Nat} (hsize : 0 < size) {lines : List (List Char)}
    (h : ∀ line ∈ lines, '\n' ∉ line) (text : List Char) :
    fgetsLoop size size [] (lines.flatMap (· ++ ['\n']) ++ text) =
      lines.flatMap (fun line => parts size (line ++ ['\n'])) ++ fgetsLoop size size [] text := by
  induction lines with
  | nil => rfl
  | cons line lines ih =>
    obtain ⟨hline, hlines⟩ := List.forall_mem_cons.mp h
    have hsplit : (line :: lines).flatMap (· ++ ['\n']) ++ text =
        line ++ '\n' :: (lines.flatMap (· ++ ['\n']) ++ text) := by simp
    rw [hsplit, fgetsLoop_line hsize hline, ih hlines, List.flatMap_cons, List.append_assoc]

theorem fgets_lines {n : Nat} (hn : 1 < n) {lines : List (List Char)}
    (h : ∀ line ∈ lines, '\n' ∉ line) :
    fgets n (lines.flatMap (· ++ ['\n'])) =
      lines.flatMap fun line => parts (n - 1) (line ++ ['\n']) := by
  have hlines := fgetsLoop_lines (show 0 < n - 1 by omega) h []
  rwa [List.append_nil, fgetsLoop, List.append_nil] at hlines

/-- What a part begins with stands there in the line. -/
theorem isPrefix_part_iff {size : Nat} {word : List Char} (hword : '\n' ∉ word)
    (hsize : word.length ≤ size) (line : List Char) (k : Nat) :
    word <+: ((line ++ ['\n']).drop (k * size)).take size ↔ word <+: line.drop (k * size) := by
  rw [List.prefix_take_iff, and_iff_left hsize]
  by_cases hk : k * size ≤ line.length
  · rw [List.drop_append_of_le_length hk, List.prefix_concat_iff]
    refine or_iff_right fun heq => hword ?_
    rw [heq]
    simp
  · have hlength : (line ++ ['\n']).length ≤ k * size := by
      rw [List.length_append, List.length_singleton]
      omega
    rw [List.drop_of_length_le hlength, List.drop_of_length_le (by omega)]

/-- How many parts behind the first begin with a word. -/
def cutBegins (size : Nat) (word line : List Char) : Nat :=
  (List.range (line.length / size)).countP fun k => word.isPrefixOf (line.drop ((k + 1) * size))

theorem countP_parts {size : Nat} (hsize : 0 < size) {word : List Char} (hword : '\n' ∉ word)
    (hle : word.length ≤ size) (line : List Char) :
    (parts size (line ++ ['\n'])).countP (word.isPrefixOf ·) =
      (if word.isPrefixOf line then 1 else 0) + cutBegins size word line := by
  have hcount : ((line ++ ['\n']).length + size - 1) / size = line.length / size + 1 := by
    rw [List.length_append, List.length_singleton, ← Nat.add_div_right _ hsize]
    congr 1
    omega
  have hpart : ∀ k, word.isPrefixOf (((line ++ ['\n']).drop (k * size)).take size) =
      word.isPrefixOf (line.drop (k * size)) := fun k => by
    rw [Bool.eq_iff_iff, List.isPrefixOf_iff_prefix, List.isPrefixOf_iff_prefix]
    exact isPrefix_part_iff hword hle line k
  rw [parts, hcount, List.countP_map, cutBegins]
  simp only [Function.comp_def, hpart]
  rw [List.range_succ_eq_map, List.countP_cons, List.countP_map, Nat.zero_mul, List.drop_zero,
    Nat.add_comm]
  rfl

theorem cutBegins_eq_zero {size : Nat} (hsize : 0 < size) {word : List Char} (hne : word ≠ [])
    (line : List Char) :
    cutBegins size word line = 0 ↔ ∀ k, 0 < k → ¬ word <+: line.drop (k * size) := by
  rw [cutBegins, List.countP_eq_zero]
  simp only [List.isPrefixOf_iff_prefix, List.mem_range]
  constructor
  · intro h k hk hstart
    obtain ⟨k, rfl⟩ : ∃ i, k = i + 1 := ⟨k - 1, by omega⟩
    by_cases hin : k < line.length / size
    · exact h k hin hstart
    · -- behind the end of the line
      have hlength : line.length ≤ (k + 1) * size := by
        have hdiv := Nat.lt_div_mul_add (a := line.length) hsize
        have hmul := Nat.mul_le_mul_right size (Nat.not_lt.mp hin)
        rw [Nat.succ_mul]
        omega
      rw [List.drop_of_length_le hlength] at hstart
      exact hne (List.prefix_nil.mp hstart)
  · exact fun h k _ => h (k + 1) (Nat.succ_pos k)

/-! ## Tokens -/

/-- The tokens that `strtok` finds with these delimiters. -/
def strtok (delims : List Char) (s : List Char) : List (List Char) :=
  (s.splitOnP (· ∈ delims)).filter (· ≠ [])

theorem strtok_append {delims token : List Char} (hne : token ≠ [])
    (h : ∀ c ∈ token, c ∉ delims) {sep : Char} (hsep : sep ∈ delims) (s : List Char) :
    strtok delims (token ++ sep :: s) = token :: strtok delims s := by
  rw [strtok, List.splitOnP_append_cons_of_forall_mem
    (fun c hc => decide_eq_false (h c hc)) sep (decide_eq_true hsep) s]
  exact List.filter_cons_of_pos (decide_eq_true hne)

/-- Tokens with a delimiter behind each. -/
theorem strtok_flatMap {delims : List Char} {sep : Char} (hsep : sep ∈ delims)
    {tokens : List (List Char)} (h : ∀ token ∈ tokens, token ≠ [] ∧ ∀ c ∈ token, c ∉ delims)
    (s : List Char) :
    strtok delims (tokens.flatMap (· ++ [sep]) ++ s) = tokens ++ strtok delims s := by
  induction tokens with
  | nil => rfl
  | cons token tokens ih =>
    obtain ⟨⟨hne, hplain⟩, htokens⟩ := List.forall_mem_cons.mp h
    have hsplit : (token :: tokens).flatMap (· ++ [sep]) ++ s =
        token ++ sep :: (tokens.flatMap (· ++ [sep]) ++ s) := by simp
    rw [hsplit, strtok_append hne hplain hsep, ih htokens, List.cons_append]

/-- `strstr` -/
def strstr (s pattern : List Char) : Option (List Char) :=
  (Streams.cutAt pattern s).map fun (_, after) => pattern ++ after

/-! ## Numbers -/

/-- `%llu`: the number and what follows it. Without digits nothing is matched,
and a number that is too large is not defined. -/
def scanLlu (s : List Char) : Except Exception (Nat × List Char) :=
  let (negative, s) := readSign (s.dropWhile isSpace)
  match s.takeWhile Char.isDigit with
  | [] => .error .invalidArgument
  | ds => do .ok (← unsignedOf negative (Nat.ofDigitChars 10 ds 0), s.dropWhile Char.isDigit)

theorem scanLlu_decimal {ds : List Char} {n : Nat} (h : Decimal ds n) (hn : n < 2 ^ 64)
    {blanks rest : List Char} (hblanks : ∀ c ∈ blanks, isSpace c = true)
    (hrest : ∀ c ∈ rest.head?, c.isDigit = false) :
    scanLlu (blanks ++ (ds ++ rest)) = .ok (n, rest) := by
  obtain ⟨hsign, htake, hdrop⟩ := number_parts h hblanks hrest
  unfold scanLlu
  rw [hsign]
  dsimp only
  rw [htake, hdrop]
  split
  · exact absurd rfl h.nonempty
  · rw [h.value, unsignedOf, if_neg (by omega)]
    rfl

end CStrings
