import Mathlib.Data.List.Infix
import Mathlib.Data.List.TakeWhile

/-! # Streams

Lines of an input stream, and a buffer that is filled with the pieces in which
a socket delivers its bytes. How the bytes are cut into pieces makes no
difference to what is read up to a delimiter. -/

namespace Streams

/-! ## Lines -/

/-- What a `std::istream` still has, and whether it is `good`. -/
structure IStream where
  rest : List Char
  good : Bool
  deriving DecidableEq, Repr

/-- `std::getline(stream, line)`: the line afterwards. A stream that is not good
leaves it as it was. -/
def getline (stream : IStream) (line : List Char) : List Char × IStream :=
  if stream.good then
    match stream.rest.dropWhile (· ≠ '\n') with
    | [] => (stream.rest, ⟨[], false⟩)
    | _ :: rest => (stream.rest.takeWhile (· ≠ '\n'), ⟨rest, true⟩)
  else (line, stream)

theorem getline_append {line : List Char} (h : '\n' ∉ line) (rest old : List Char) :
    getline ⟨line ++ '\n' :: rest, true⟩ old = (line, ⟨rest, true⟩) := by
  have hline : ∀ c ∈ line, (decide (c ≠ '\n')) = true := fun c hc =>
    decide_eq_true fun heq => h (heq ▸ hc)
  simp only [getline, if_true]
  rw [List.dropWhile_append_of_pos hline, List.takeWhile_append_of_pos hline]
  simp

theorem getline_last {line : List Char} (h : '\n' ∉ line) (old : List Char) :
    getline ⟨line, true⟩ old = (line, ⟨[], false⟩) := by
  have hline : ∀ c ∈ line, (decide (c ≠ '\n')) = true := fun c hc =>
    decide_eq_true fun heq => h (heq ▸ hc)
  simp only [getline, if_true]
  rw [List.dropWhile_eq_nil_iff.mpr hline]

/-- The stream of a text that has these lines. -/
def ofLines : List (List Char) → IStream
  | [] => ⟨[], false⟩
  | line :: lines => ⟨['\n'].intercalate (line :: lines), true⟩

theorem getline_ofLines {line : List Char} (h : '\n' ∉ line) (lines : List (List Char))
    (old : List Char) : getline (ofLines (line :: lines)) old = (line, ofLines lines) := by
  cases lines with
  | nil =>
    have hline : ofLines [line] = ⟨line, true⟩ := by rw [ofLines, List.intercalate_singleton]
    rw [hline]
    exact getline_last h old
  | cons next lines =>
    rw [ofLines, List.intercalate_cons_cons, List.append_assoc]
    exact getline_append h _ old

theorem ofLines_splitOn (text : List Char) : ofLines (text.splitOn '\n') = ⟨text, true⟩ := by
  obtain ⟨line, lines, heq⟩ := List.exists_cons_of_ne_nil (List.splitOn_ne_nil '\n' text)
  rw [heq, ofLines, ← heq, List.intercalate_splitOn]

/-- Finished lines in front of a text. -/
theorem ofLines_append (lines : List (List Char)) (text : List Char) :
    ofLines (lines ++ text.splitOn '\n') = ⟨lines.flatMap (· ++ ['\n']) ++ text, true⟩ := by
  induction lines with
  | nil => exact ofLines_splitOn text
  | cons line lines ih =>
    obtain ⟨next, rest, heq⟩ := List.exists_cons_of_ne_nil
      (List.append_ne_nil_of_right_ne_nil lines (List.splitOn_ne_nil '\n' text))
    rw [heq, ofLines, IStream.mk.injEq] at ih
    rw [List.cons_append, heq, ofLines, List.intercalate_cons_cons, ih.1, List.flatMap_cons]
    simp only [List.append_assoc]

/-! ## Delimiters -/

section Delimiters
variable {α : Type} [DecidableEq α]

/-- A text at the first occurrence of a delimiter. -/
def cutAt (delim : List α) : List α → Option (List α × List α)
  | [] => if delim = [] then some ([], []) else none
  | c :: s =>
    if delim.isPrefixOf (c :: s) then some ([], (c :: s).drop delim.length)
    else (cutAt delim s).map fun (before, after) => (c :: before, after)

theorem cutAt_of_isPrefix {delim s : List α} (h : delim <+: s) :
    cutAt delim s = some ([], s.drop delim.length) := by
  cases s with
  | nil =>
    rw [List.prefix_nil.mp h]
    rfl
  | cons c s => rw [cutAt, if_pos (List.isPrefixOf_iff_prefix.mpr h)]

theorem cutAt_of_not_isPrefix {delim s : List α} {c : α} (h : ¬ delim <+: c :: s) :
    cutAt delim (c :: s) = (cutAt delim s).map fun (before, after) => (c :: before, after) := by
  rw [cutAt, if_neg (mt List.isPrefixOf_iff_prefix.mp h)]

theorem append_of_cutAt {delim s before after : List α} (h : cutAt delim s = some (before, after)) :
    s = before ++ (delim ++ after) := by
  induction s generalizing before with
  | nil =>
    rw [cutAt] at h
    split at h
    · rename_i hdelim
      cases h
      rw [hdelim]
      rfl
    · cases h
  | cons c s ih =>
    by_cases hstart : delim <+: c :: s
    · rw [cutAt_of_isPrefix hstart] at h
      obtain ⟨rfl, rfl⟩ := Prod.mk.inj (Option.some.inj h)
      exact (List.prefix_iff_eq_append.mp hstart).symm
    · rw [cutAt_of_not_isPrefix hstart] at h
      obtain ⟨⟨before', after'⟩, hcut, heq⟩ := Option.map_eq_some_iff.mp h
      cases heq
      rw [List.cons_append, ← ih hcut]

/-- What comes later does not move the first occurrence. -/
theorem cutAt_append {delim s before after : List α} (h : cutAt delim s = some (before, after))
    (more : List α) : cutAt delim (s ++ more) = some (before, after ++ more) := by
  induction s generalizing before with
  | nil =>
    obtain ⟨rfl, hdelim⟩ := List.append_eq_nil_iff.mp (append_of_cutAt h).symm
    obtain ⟨rfl, rfl⟩ := List.append_eq_nil_iff.mp hdelim
    exact cutAt_of_isPrefix List.nil_prefix
  | cons c s ih =>
    by_cases hstart : delim <+: c :: s
    · rw [cutAt_of_isPrefix hstart] at h
      obtain ⟨rfl, rfl⟩ := Prod.mk.inj (Option.some.inj h)
      rw [cutAt_of_isPrefix (hstart.trans (List.prefix_append _ _)),
        List.drop_append_of_le_length hstart.length_le]
    · rw [cutAt_of_not_isPrefix hstart] at h
      obtain ⟨⟨before', after'⟩, hcut, heq⟩ := Option.map_eq_some_iff.mp h
      cases heq
      have hlen : delim.length ≤ (c :: s).length := by
        rw [append_of_cutAt hcut, List.length_cons, List.length_append, List.length_append]
        omega
      have hnot : ¬ delim <+: c :: (s ++ more) := fun hlong =>
        hstart (List.prefix_of_prefix_length_le hlong (List.prefix_append (c :: s) more) hlen)
      rw [List.cons_append, cutAt_of_not_isPrefix hnot, ih hcut]
      rfl

theorem cutAt_singleton {c : α} {before : List α} (h : c ∉ before) (after : List α) :
    cutAt [c] (before ++ c :: after) = some (before, after) := by
  induction before with
  | nil => exact cutAt_of_isPrefix (List.prefix_append [c] after)
  | cons x before ih =>
    obtain ⟨hx, hbefore⟩ := not_or.mp (mt List.mem_cons.mpr h)
    have hnot : ¬ [c] <+: x :: (before ++ c :: after) := fun hstart =>
      hx (List.cons_prefix_cons.mp hstart).1
    rw [List.cons_append, cutAt_of_not_isPrefix hnot, ih hbefore, Option.map_some]

theorem cutAt_eq_none {delim s : List α} (h : ¬ delim <:+: s) : cutAt delim s = none := by
  cases hcut : cutAt delim s with
  | none => rfl
  | some found =>
    have heq := append_of_cutAt hcut
    rw [← List.append_assoc] at heq
    exact absurd ⟨found.1, found.2, heq.symm⟩ h

theorem not_isInfix_of_cutAt {delim s : List α} (h : cutAt delim s = none) : ¬ delim <:+: s := by
  intro ⟨before, after, heq⟩
  induction before generalizing s with
  | nil =>
    rw [List.nil_append] at heq
    rw [cutAt_of_isPrefix ⟨after, heq⟩] at h
    cases h
  | cons c before ih =>
    subst heq
    by_cases hstart : delim <+: c :: (before ++ delim ++ after)
    · rw [List.cons_append, List.cons_append, cutAt_of_isPrefix hstart] at h
      cases h
    · rw [List.cons_append, List.cons_append, cutAt_of_not_isPrefix hstart,
        Option.map_eq_none_iff] at h
      exact ih h rfl

/-- What does not begin the delimiter is skipped. -/
theorem cutAt_skip {c : α} {before : List α} (h : c ∉ before) (delim s : List α) :
    cutAt (c :: delim) (before ++ s) =
      (cutAt (c :: delim) s).map fun (before', after) => (before ++ before', after) := by
  induction before with
  | nil =>
    rw [List.nil_append]
    cases cutAt (c :: delim) s <;> rfl
  | cons x before ih =>
    obtain ⟨hx, hbefore⟩ := not_or.mp (mt List.mem_cons.mpr h)
    have hnot : ¬ c :: delim <+: x :: (before ++ s) := fun hstart =>
      hx (List.cons_prefix_cons.mp hstart).1
    rw [List.cons_append, cutAt_of_not_isPrefix hnot, ih hbefore, Option.map_map]
    rfl

omit [DecidableEq α] in
theorem word_isPrefix_iff {sep : α} {word name : List α} (hword : sep ∉ word) (hname : sep ∉ name)
    (s : List α) : word ++ [sep] <+: name ++ sep :: s ↔ word = name := by
  constructor
  · intro ⟨rest, h⟩
    rw [List.append_assoc, List.singleton_append] at h
    rcases List.append_eq_append_iff.mp h with ⟨part, hpart, heq⟩ | ⟨part, hpart, heq⟩
    · cases part with
      | nil => rw [hpart, List.append_nil]
      | cons x part =>
        rw [hpart, ← (List.cons.inj heq).1] at hname
        exact absurd (by simp) hname
    · cases part with
      | nil => rw [hpart, List.append_nil]
      | cons x part =>
        rw [hpart, ← (List.cons.inj heq).1] at hword
        exact absurd (by simp) hword
  · rintro rfl
    exact ⟨s, by rw [List.append_assoc, List.singleton_append]⟩

/-- A word with a separator behind it, where a name ends. -/
theorem cutAt_word {sep : α} {word name : List α} (hne : word ≠ []) (hword : sep ∉ word)
    (hname : sep ∉ name) (s : List α) :
    cutAt (word ++ [sep]) (name ++ sep :: s) =
      if word <:+ name then some (name.take (name.length - word.length), s)
      else (cutAt (word ++ [sep]) s).map fun (before, after) => (name ++ sep :: before, after) := by
  induction name with
  | nil =>
    have hnot : ¬ word ++ [sep] <+: sep :: s := fun hstart =>
      hne ((word_isPrefix_iff hword hname s).mp hstart)
    rw [if_neg fun hsuffix => hne (List.suffix_nil.mp hsuffix), List.nil_append,
      cutAt_of_not_isPrefix hnot]
    rfl
  | cons c name ih =>
    have hrest := fun hmem => hname (List.mem_cons_of_mem c hmem)
    by_cases heq : word = c :: name
    · have hstart := (word_isPrefix_iff hword hname s).mpr heq
      have hdrop : (c :: name ++ sep :: s).drop (word ++ [sep]).length = s := by
        rw [heq]
        simp
      rw [cutAt_of_isPrefix hstart, hdrop, if_pos (heq ▸ List.suffix_refl _), heq, Nat.sub_self,
        List.take_zero]
    · have hnot := mt (word_isPrefix_iff hword hname s).mp heq
      have hsuffix : word <:+ c :: name ↔ word <:+ name := by
        rw [List.suffix_cons_iff]
        exact or_iff_right heq
      rw [List.cons_append, cutAt_of_not_isPrefix (s := name ++ sep :: s) hnot, ih hrest]
      simp only [hsuffix]
      split
      · rename_i hname'
        have hle := hname'.length_le
        have hlength : (c :: name).length - word.length = name.length - word.length + 1 := by
          rw [List.length_cons]
          omega
        rw [hlength, List.take_succ_cons]
        rfl
      · rw [Option.map_map]
        rfl

end Delimiters

/-! ## Blank lines -/

def crlf : List Char := ['\r', '\n']

theorem cutAt_crlf {line : List Char} (h : '\r' ∉ line) (after : List Char) :
    cutAt crlf (line ++ (crlf ++ after)) = some (line, after) := by
  induction line with
  | nil => exact cutAt_of_isPrefix (List.prefix_append crlf after)
  | cons c line ih =>
    obtain ⟨hc, hline⟩ := not_or.mp (mt List.mem_cons.mpr h)
    have hnot : ¬ crlf <+: c :: (line ++ (crlf ++ after)) := fun hstart =>
      hc (List.cons_prefix_cons.mp hstart).1
    rw [List.cons_append, cutAt_of_not_isPrefix hnot, ih hline, Option.map_some]

/-- A blank line ends what `async_read_until` waits for. -/
def blankLine : List Char := crlf ++ crlf

theorem not_isPrefix_blankLine {c x : Char} (h : x ≠ '\n') (s : List Char) :
    ¬ blankLine <+: c :: x :: s := fun hstart =>
  h (List.cons_prefix_cons.mp (List.cons_prefix_cons.mp hstart).2).1.symm

/-- Lines that end with both characters, for a reader that looks for the second. -/
theorem intercalate_crlf (line : List Char) (lines : List (List Char)) (more : List Char) :
    crlf.intercalate (line :: lines) ++ (blankLine ++ more) =
      ((line :: lines).map (· ++ ['\r']) ++ [['\r']]).flatMap (· ++ ['\n']) ++ more := by
  induction lines generalizing line with
  | nil => simp [blankLine, crlf]
  | cons next lines ih =>
    rw [List.intercalate_cons_cons, List.map_cons, List.cons_append, List.flatMap_cons,
      List.append_assoc, List.append_assoc, ih]
    simp [crlf]

/-- Nothing of a line is part of a blank line but its end. -/
theorem cutAt_blankLine_append {line : List Char} (h : '\n' ∉ line) (rest : List Char) :
    cutAt blankLine (line ++ (crlf ++ rest)) =
      (cutAt blankLine (crlf ++ rest)).map fun (before, after) => (line ++ before, after) := by
  induction line with
  | nil =>
    rw [List.nil_append]
    cases cutAt blankLine (crlf ++ rest) <;> rfl
  | cons c line ih =>
    have hline := fun hmem => h (List.mem_cons_of_mem c hmem)
    have hnot : ¬ blankLine <+: c :: (line ++ (crlf ++ rest)) := by
      cases line with
      | nil => exact not_isPrefix_blankLine (by decide) _
      | cons x line =>
        exact not_isPrefix_blankLine (fun heq => hline (heq ▸ List.mem_cons_self)) _
    rw [List.cons_append, cutAt_of_not_isPrefix hnot, ih hline, Option.map_map]
    rfl

theorem cutAt_blankLine_crlf {rest : List Char} (h : ¬ crlf <+: rest) :
    cutAt blankLine (crlf ++ rest) =
      (cutAt blankLine rest).map fun (before, after) => (crlf ++ before, after) := by
  have hfirst : ¬ blankLine <+: '\r' :: '\n' :: rest := fun hstart =>
    h (List.cons_prefix_cons.mp (List.cons_prefix_cons.mp hstart).2).2
  have hsecond : ¬ blankLine <+: '\n' :: rest := fun hstart =>
    absurd (List.cons_prefix_cons.mp hstart).1 (by decide)
  change cutAt blankLine ('\r' :: '\n' :: rest) = _
  rw [cutAt_of_not_isPrefix hfirst, cutAt_of_not_isPrefix hsecond, Option.map_map]
  rfl

/-- A line that is not empty does not begin with the end of a line. -/
theorem not_isPrefix_crlf {line : List Char} (hne : line ≠ []) (h : '\n' ∉ line)
    (rest : List Char) : ¬ crlf <+: line ++ (crlf ++ rest) := by
  intro hstart
  obtain ⟨c, line, rfl⟩ := List.exists_cons_of_ne_nil hne
  have hsecond := (List.cons_prefix_cons.mp hstart).2
  cases line with
  | nil => exact absurd (List.cons_prefix_cons.mp hsecond).1 (by decide)
  | cons x line =>
    rw [(List.cons_prefix_cons.mp hsecond).1] at h
    exact h (List.mem_cons_of_mem c List.mem_cons_self)

/-- Lines that are not empty, up to the first blank line behind them. -/
theorem cutAt_blankLine_lines {line : List Char} (h : '\n' ∉ line) {lines : List (List Char)}
    (hlines : ∀ l ∈ lines, l ≠ [] ∧ '\n' ∉ l) (more : List Char) :
    cutAt blankLine (crlf.intercalate (line :: lines) ++ (blankLine ++ more)) =
      some (crlf.intercalate (line :: lines), more) := by
  induction lines generalizing line with
  | nil =>
    have hat := cutAt_of_isPrefix (List.prefix_append blankLine more)
    have hsplit : blankLine ++ more = crlf ++ (crlf ++ more) := List.append_assoc ..
    rw [List.drop_left, hsplit] at hat
    rw [List.intercalate_singleton, hsplit, cutAt_blankLine_append h, hat, Option.map_some]
    simp only [List.append_nil]
  | cons next lines ih =>
    obtain ⟨⟨hne, hnext⟩, hlines⟩ := List.forall_mem_cons.mp hlines
    have hrest : ∃ rest, crlf.intercalate (next :: lines) ++ (blankLine ++ more) =
        next ++ (crlf ++ rest) := by
      cases lines with
      | nil =>
        refine ⟨crlf ++ more, ?_⟩
        rw [List.intercalate_singleton, blankLine, List.append_assoc]
      | cons l lines =>
        refine ⟨crlf.intercalate (l :: lines) ++ (blankLine ++ more), ?_⟩
        rw [List.intercalate_cons_cons, List.append_assoc, List.append_assoc]
    have hnot : ¬ crlf <+: crlf.intercalate (next :: lines) ++ (blankLine ++ more) := by
      obtain ⟨rest, heq⟩ := hrest
      rw [heq]
      exact not_isPrefix_crlf hne hnext rest
    rw [List.intercalate_cons_cons, List.append_assoc, List.append_assoc, cutAt_blankLine_append h,
      cutAt_blankLine_crlf hnot, ih hnext hlines]
    simp only [Option.map_some, List.append_assoc]

/-! ## Pieces -/

/-- `async_read_until`: the bytes up to the end of the delimiter, the buffer
with what came in with it, and the pieces that are still to come. -/
def readUntil (delim : List Char) :
    List (List Char) → List Char → Option (Nat × List Char × List (List Char))
  | arriving, buffer =>
    match cutAt delim buffer with
    | some (before, _) => some (before.length + delim.length, buffer, arriving)
    | none =>
      match arriving with
      | [] => none
      | piece :: arriving => readUntil delim arriving (buffer ++ piece)

/-- `async_read` with `transfer_exactly`: a longer piece is left in part. -/
def readExactly : Nat → List (List Char) → List Char → Option (List Char × List (List Char))
  | 0, arriving, buffer => some (buffer, arriving)
  | _ + 1, [], _ => none
  | n + 1, piece :: arriving, buffer =>
    if piece.length ≤ n + 1 then readExactly (n + 1 - piece.length) arriving (buffer ++ piece)
    else some (buffer ++ piece.take (n + 1), piece.drop (n + 1) :: arriving)

/-- **Pieces make no difference.** Whatever the pieces are, the delimiter is
found where it is in their sum. What is in the buffer behind it is the start of
what follows it there. -/
theorem readUntil_eq {delim : List Char} {arriving : List (List Char)}
    {buffer before after : List Char}
    (h : cutAt delim (buffer ++ arriving.flatten) = some (before, after)) :
    ∃ extra arriving', readUntil delim arriving buffer =
        some (before.length + delim.length, before ++ (delim ++ extra), arriving') ∧
      extra ++ arriving'.flatten = after := by
  induction arriving generalizing buffer with
  | nil =>
    rw [List.flatten_nil, List.append_nil] at h
    refine ⟨after, [], ?_, List.append_nil _⟩
    rw [readUntil, h, ← append_of_cutAt h]
  | cons piece arriving ih =>
    cases hcut : cutAt delim buffer with
    | some found =>
      obtain ⟨before', extra⟩ := found
      have happend := cutAt_append hcut (piece :: arriving).flatten
      rw [h] at happend
      cases happend
      refine ⟨extra, piece :: arriving, ?_, rfl⟩
      rw [readUntil, hcut, ← append_of_cutAt hcut]
    | none =>
      rw [List.flatten_cons, ← List.append_assoc] at h
      obtain ⟨extra, arriving', hread, hextra⟩ := ih h
      refine ⟨extra, arriving', ?_, hextra⟩
      rw [readUntil, hcut]
      exact hread

theorem readExactly_eq {n : Nat} {arriving : List (List Char)} (buffer : List Char)
    (h : n ≤ arriving.flatten.length) :
    ∃ arriving', readExactly n arriving buffer =
        some (buffer ++ arriving.flatten.take n, arriving') ∧
      arriving'.flatten = arriving.flatten.drop n := by
  induction arriving generalizing n buffer with
  | nil =>
    obtain rfl : n = 0 := Nat.le_zero.mp h
    exact ⟨[], by rw [readExactly, List.take_zero, List.append_nil], rfl⟩
  | cons piece arriving ih =>
    cases n with
    | zero => exact ⟨piece :: arriving, by rw [readExactly, List.take_zero, List.append_nil], rfl⟩
    | succ n =>
      rw [List.flatten_cons, List.length_append] at h
      rw [readExactly, List.flatten_cons]
      split
      · rename_i hpiece
        obtain ⟨arriving', hread, hrest⟩ := ih (buffer ++ piece)
          (by omega : n + 1 - piece.length ≤ arriving.flatten.length)
        refine ⟨arriving', ?_, ?_⟩
        · rw [hread, List.take_append, List.take_of_length_le hpiece, List.append_assoc]
        · rw [hrest, List.drop_append, List.drop_of_length_le hpiece, List.nil_append]
      · rename_i hpiece
        refine ⟨piece.drop (n + 1) :: arriving, ?_, ?_⟩
        · rw [List.take_append_of_le_length (by omega)]
        · rw [List.flatten_cons, List.drop_append_of_le_length (by omega)]

/-- A text of known length, of which a part may be in the buffer. -/
theorem readExactly_text {buffer text more : List Char} {arriving : List (List Char)}
    (h : buffer ++ arriving.flatten = text ++ more) :
    ∃ extra arriving', readExactly (text.length - buffer.length) arriving buffer =
        some (text ++ extra, arriving') ∧
      extra ++ arriving'.flatten = more := by
  have hlen := congrArg List.length h
  rw [List.length_append, List.length_append] at hlen
  obtain ⟨arriving', hread, hrest⟩ := readExactly_eq buffer
    (by omega : text.length - buffer.length ≤ arriving.flatten.length)
  rcases List.append_eq_append_iff.mp h with ⟨part, htext, hflat⟩ | ⟨extra, hbuffer, hmore⟩
  · -- the end of the text is still to come
    have hpart : text.length - buffer.length = part.length := by
      rw [htext, List.length_append]
      omega
    refine ⟨[], arriving', ?_, ?_⟩
    · rw [hread, hpart, hflat, List.take_left, List.append_nil, htext]
    · rw [hrest, hpart, hflat, List.drop_left, List.nil_append]
  · have hpart : text.length - buffer.length = 0 := by
      rw [hbuffer, List.length_append]
      omega
    refine ⟨extra, arriving', ?_, ?_⟩
    · rw [hread, hpart, List.take_zero, List.append_nil, hbuffer]
    · rw [hrest, hpart, List.drop_zero, hmore]

theorem readUntil_of_cutAt {delim buffer before after : List Char}
    (h : cutAt delim buffer = some (before, after)) (arriving : List (List Char)) :
    readUntil delim arriving buffer = some (before.length + delim.length, buffer, arriving) := by
  cases arriving <;> rw [readUntil, h]

/-- The last piece that is needed comes in as a whole. -/
theorem readUntil_last {delim before after : List Char} {pieces : List (List Char)}
    {last buffer : List Char} (hpieces : cutAt delim (buffer ++ pieces.flatten) = none)
    (hlast : cutAt delim (buffer ++ pieces.flatten ++ last) = some (before, after))
    (following : List (List Char)) :
    readUntil delim (pieces ++ last :: following) buffer =
      some (before.length + delim.length, before ++ (delim ++ after), following) := by
  induction pieces generalizing buffer with
  | nil =>
    rw [List.flatten_nil, List.append_nil] at hpieces hlast
    rw [List.nil_append, readUntil, hpieces]
    exact append_of_cutAt hlast ▸ readUntil_of_cutAt hlast following
  | cons piece pieces ih =>
    rw [List.flatten_cons, ← List.append_assoc] at hpieces hlast
    have hbuffer : cutAt delim buffer = none := by
      cases hcut : cutAt delim buffer with
      | none => rfl
      | some found =>
        have happend := cutAt_append hcut (piece ++ pieces.flatten)
        rw [← List.append_assoc, hpieces] at happend
        cases happend
    rw [List.cons_append, readUntil, hbuffer]
    exact ih hpieces hlast

/-- Pieces that are not needed stay where they are. -/
theorem readUntil_append {delim buffer buffer' : List Char} {arriving arriving' : List (List Char)}
    {n : Nat} (h : readUntil delim arriving buffer = some (n, buffer', arriving'))
    (following : List (List Char)) :
    readUntil delim (arriving ++ following) buffer = some (n, buffer', arriving' ++ following) := by
  induction arriving generalizing buffer with
  | nil =>
    rw [readUntil] at h
    split at h
    · rename_i hcut
      cases h
      exact readUntil_of_cutAt hcut following
    · cases h
  | cons piece arriving ih =>
    rw [readUntil] at h
    split at h
    · rename_i hcut
      cases h
      exact readUntil_of_cutAt hcut _
    · rename_i hcut
      rw [List.cons_append, readUntil, hcut]
      exact ih h

theorem readExactly_append {n : Nat} {buffer buffer' : List Char}
    {arriving arriving' : List (List Char)}
    (h : readExactly n arriving buffer = some (buffer', arriving'))
    (following : List (List Char)) :
    readExactly n (arriving ++ following) buffer = some (buffer', arriving' ++ following) := by
  induction arriving generalizing n buffer with
  | nil =>
    cases n with
    | zero =>
      cases h
      rw [readExactly, List.nil_append]
    | succ n => cases h
  | cons piece arriving ih =>
    cases n with
    | zero =>
      cases h
      rw [readExactly]
    | succ n =>
      rw [readExactly] at h
      rw [List.cons_append, readExactly]
      split at h
      · rw [if_pos ‹_›]
        exact ih h
      · rw [if_neg ‹_›]
        cases h
        rfl

/-- A read brings at least one byte, and so it stays. -/
theorem ne_nil_of_readUntil {delim buffer buffer' : List Char}
    {arriving arriving' : List (List Char)} {n : Nat}
    (h : readUntil delim arriving buffer = some (n, buffer', arriving'))
    (hne : ∀ piece ∈ arriving, piece ≠ []) : ∀ piece ∈ arriving', piece ≠ [] := by
  induction arriving generalizing buffer with
  | nil =>
    rw [readUntil] at h
    split at h
    · cases h
      exact hne
    · cases h
  | cons piece arriving ih =>
    rw [readUntil] at h
    split at h
    · cases h
      exact hne
    · exact ih h (List.forall_mem_cons.mp hne).2

theorem ne_nil_of_readExactly {n : Nat} {buffer buffer' : List Char}
    {arriving arriving' : List (List Char)}
    (h : readExactly n arriving buffer = some (buffer', arriving'))
    (hne : ∀ piece ∈ arriving, piece ≠ []) : ∀ piece ∈ arriving', piece ≠ [] := by
  induction arriving generalizing n buffer with
  | nil =>
    cases n with
    | zero =>
      cases h
      exact hne
    | succ n => cases h
  | cons piece arriving ih =>
    obtain ⟨-, hrest⟩ := List.forall_mem_cons.mp hne
    cases n with
    | zero =>
      cases h
      exact hne
    | succ n =>
      rw [readExactly] at h
      split at h
      · exact ih h hrest
      · rename_i hlong
        cases h
        refine List.forall_mem_cons.mpr ⟨fun hnil => hlong ?_, hrest⟩
        exact List.drop_eq_nil_iff.mp hnil

end Streams
