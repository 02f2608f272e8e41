import ResMonitor.Lib.Streams

/-! # What a mail server hears

Lines that end with CR LF. Commands come one a line; the lines after `DATA`, up
to one that is a single dot, are the message, and a line that begins with a dot
loses it. The two lines after `AUTH LOGIN` are answers. -/

namespace Smtp
open Streams

/-! ## Lines of a text -/

/-- What stands between the line ends of a text. -/
def segments : List Char → List (List Char)
  | [] => [[]]
  | '\r' :: '\n' :: s => [] :: segments s
  | c :: s => (segments s).modifyHead (c :: ·)

theorem not_crlf_of_pattern {c : Char} {s : List Char}
    (h : ∀ s', c = '\r' → s = '\n' :: s' → False) : ¬ crlf <+: c :: s := by
  rintro ⟨rest, heq⟩
  obtain ⟨rfl, rfl⟩ := List.cons.inj heq
  exact h rest rfl rfl

/-- A line end is not made by what is put behind, unless it begins with its second
character. -/
theorem not_crlf_append {c : Char} {s t : List Char} (h : ¬ crlf <+: c :: s)
    (ht : t.head? ≠ some '\n') : ¬ crlf <+: c :: (s ++ t) := by
  intro hstart
  obtain ⟨rfl, hsecond⟩ := List.cons_prefix_cons.mp hstart
  cases s with
  | nil =>
    obtain ⟨rest, rfl⟩ := hsecond
    exact ht rfl
  | cons d s =>
    obtain ⟨rfl, -⟩ := List.cons_prefix_cons.mp hsecond
    exact h (List.prefix_append crlf s)

theorem segments_cons {c : Char} {s : List Char} (h : ¬ crlf <+: c :: s) :
    segments (c :: s) = (segments s).modifyHead (c :: ·) := by
  rw [segments]
  rintro s' rfl rfl
  exact h (List.prefix_append crlf s')

/-- The first piece begins as the text does. -/
theorem exists_segments_eq_cons (s : List Char) : ∃ first rest, segments s = first :: rest ∧
    ∀ c : Char, c ≠ '\r' → (first.head? = some c ↔ s.head? = some c) := by
  fun_induction segments s with
  | case1 => exact ⟨[], [], rfl, fun c hc => Iff.rfl⟩
  | case2 s ih => exact ⟨[], segments s, rfl, fun c hc => by simp [Ne.symm hc]⟩
  | case3 d s hne ih =>
    obtain ⟨first, rest, heq, -⟩ := ih
    exact ⟨d :: first, rest, by rw [heq]; rfl, fun c hc => Iff.rfl⟩

theorem segments_append (s t : List Char) :
    segments (s ++ (crlf ++ t)) = segments s ++ segments t := by
  fun_induction segments s with
  | case1 => rfl
  | case2 s ih => exact congrArg ([] :: ·) ih
  | case3 c s hne ih =>
    have hnot : ¬ crlf <+: c :: (s ++ (crlf ++ t)) :=
      not_crlf_append (not_crlf_of_pattern hne) (by simp [crlf])
    obtain ⟨first, rest, heq, -⟩ := exists_segments_eq_cons s
    rw [List.cons_append, segments_cons hnot, ih, heq]
    rfl

theorem segments_plain {s : List Char} (h : '\r' ∉ s) : segments s = [s] := by
  induction s with
  | nil => rfl
  | cons c s ih =>
    obtain ⟨hc, hs⟩ := List.ne_and_not_mem_of_not_mem_cons h
    rw [segments_cons fun hstart => hc (List.cons_prefix_cons.mp hstart).1, ih hs]
    rfl

/-- Lines with nothing in them that ends a line. -/
theorem segments_lines {lines : List (List Char)} (h : ∀ line ∈ lines, '\r' ∉ line)
    (t : List Char) : segments (lines.flatMap (· ++ crlf) ++ t) = lines ++ segments t := by
  induction lines with
  | nil => rfl
  | cons line lines ih =>
    obtain ⟨hline, hlines⟩ := List.forall_mem_cons.mp h
    rw [List.flatMap_cons, List.append_assoc, List.append_assoc, segments_append,
      segments_plain hline, ih hlines]
    rfl

theorem exists_dot_tail_iff (s : List Char) :
    (∃ line ∈ (segments s).tail, line.head? = some '.') ↔ crlf ++ ['.'] <:+: s := by
  fun_induction segments s with
  | case1 => simp [crlf]
  | case2 s ih =>
    obtain ⟨first, rest, heq, hfirst⟩ := exists_segments_eq_cons s
    have hstart : crlf ++ ['.'] <+: '\r' :: '\n' :: s ↔ s.head? = some '.' := by
      cases s <;> simp [crlf, eq_comm]
    have hsecond : ¬ crlf ++ ['.'] <+: '\n' :: s := by simp [crlf]
    rw [heq, List.tail_cons] at ih
    rw [List.tail_cons, heq, List.infix_cons_iff, List.infix_cons_iff, hstart, ← ih,
      or_iff_right hsecond, ← hfirst '.' (by simp)]
    simp only [List.mem_cons, exists_eq_or_imp]
  | case3 c s hne ih =>
    obtain ⟨first, rest, heq, -⟩ := exists_segments_eq_cons s
    have hstart : ¬ crlf ++ ['.'] <+: c :: s := fun hstart =>
      not_crlf_of_pattern hne ((List.prefix_append crlf ['.']).trans hstart)
    rw [heq, List.tail_cons] at ih
    rw [heq, List.modifyHead_cons, List.tail_cons, List.infix_cons_iff, or_iff_right hstart, ih]

/-- A line of a text begins with a dot: the first one, or one behind a line end. -/
theorem exists_dot_iff (s : List Char) : (∃ line ∈ segments s, line.head? = some '.') ↔
    s.head? = some '.' ∨ crlf ++ ['.'] <:+: s := by
  obtain ⟨first, rest, heq, hfirst⟩ := exists_segments_eq_cons s
  rw [← exists_dot_tail_iff, ← hfirst '.' (by simp), heq]
  simp only [List.mem_cons, exists_eq_or_imp, List.tail_cons]

/-- Text in front that does not have the first character of a word. -/
theorem isInfix_skip {c : Char} {before : List Char} (h : c ∉ before) (word s : List Char) :
    c :: word <:+: before ++ s ↔ c :: word <:+: s := by
  induction before with
  | nil => rfl
  | cons d before ih =>
    obtain ⟨hd, hbefore⟩ := List.ne_and_not_mem_of_not_mem_cons h
    rw [List.cons_append, List.infix_cons_iff,
      or_iff_right fun hstart => hd (List.cons_prefix_cons.mp hstart).1, ih hbefore]

/-- Nothing behind a text is part of a line end with a dot in it. -/
theorem crlfDot_isInfix_append_iff {c : Char} {rest : List Char} (hdot : c ≠ '.') (hlf : c ≠ '\n')
    (h : '\r' ∉ c :: rest) (s : List Char) :
    crlf ++ ['.'] <:+: s ++ c :: rest ↔ crlf ++ ['.'] <:+: s := by
  induction s with
  | nil =>
    refine iff_of_false (fun hinside => h (hinside.subset List.mem_cons_self)) ?_
    simp [crlf]
  | cons d s ih =>
    have hstart : crlf ++ ['.'] <+: d :: (s ++ c :: rest) ↔ crlf ++ ['.'] <+: d :: s := by
      cases s with
      | nil => simp [crlf, hlf.symm]
      | cons x s =>
        cases s with
        | nil => simp [crlf, hdot.symm]
        | cons y s => simp [crlf]
    rw [List.cons_append, List.infix_cons_iff, List.infix_cons_iff, hstart, ih]

/-- The lines of a text with something behind it that ends no line: those of the
text, but for the last one, which goes on. -/
theorem segments_append_plain {c : Char} {rest : List Char} (hlf : c ≠ '\n') (h : '\r' ∉ c :: rest)
    (s : List Char) : ∀ line ∈ segments (s ++ c :: rest),
      line ⊆ s ∨ ∃ before, before ⊆ s ∧ line = before ++ c :: rest := by
  fun_induction segments s with
  | case1 =>
    intro line hline
    rw [List.nil_append, segments_plain h] at hline
    exact Or.inr ⟨[], List.nil_subset _, List.mem_singleton.mp hline⟩
  | case2 s ih =>
    intro line hline
    have hsub : s ⊆ '\r' :: '\n' :: s := fun d hd => by simp [hd]
    have hcons : line ∈ [] :: segments (s ++ c :: rest) := hline
    rcases List.mem_cons.mp hcons with rfl | hline
    · exact Or.inl (List.nil_subset _)
    · rcases ih line hline with hline | ⟨before, hbefore, rfl⟩
      · exact Or.inl (List.Subset.trans hline hsub)
      · exact Or.inr ⟨before, List.Subset.trans hbefore hsub, rfl⟩
  | case3 d s hne ih =>
    intro line hline
    have hnot : ¬ crlf <+: d :: (s ++ c :: rest) :=
      not_crlf_append (not_crlf_of_pattern hne) (by simpa using hlf)
    obtain ⟨first, more, heq, -⟩ := exists_segments_eq_cons (s ++ c :: rest)
    rw [List.cons_append, segments_cons hnot, heq, List.modifyHead_cons, List.mem_cons] at hline
    rw [heq] at ih
    rcases hline with rfl | hline
    · rcases ih first List.mem_cons_self with hfirst | ⟨before, hbefore, rfl⟩
      · exact Or.inl (List.cons_subset_cons d hfirst)
      · exact Or.inr ⟨d :: before, List.cons_subset_cons d hbefore, rfl⟩
    · rcases ih line (List.mem_cons_of_mem _ hline) with hline | ⟨before, hbefore, rfl⟩
      · exact Or.inl (List.Subset.trans hline (List.subset_cons_self _ _))
      · exact Or.inr ⟨before, List.Subset.trans hbefore (List.subset_cons_self _ _), rfl⟩

/-! ## The dialogue -/

/-- What a server has taken in. -/
inductive Heard where
  | command (line : List Char)
  | answer (line : List Char)
  | message (lines : List (List Char))
  deriving DecidableEq, Repr

/-- A command with an argument behind a colon, as `MAIL FROM:` and `RCPT TO:` in
whatever letters. There is no comma in its name. -/
def Addresses (line : List Char) : Prop :=
  ∃ name argument, line = name ++ ':' :: argument ∧ ',' ∉ name

theorem not_addresses_of_not_mem {line : List Char} (h : ':' ∉ line) : ¬ Addresses line := by
  rintro ⟨name, argument, rfl, -⟩
  simp at h

theorem not_addresses_of_comma {before : List Char} (h : ':' ∉ before) (rest : List Char) :
    ¬ Addresses (before ++ ',' :: rest) := by
  rintro ⟨name, argument, heq, hname⟩
  rcases List.append_eq_append_iff.mp heq with ⟨more, rfl, hrest⟩ | ⟨more, rfl, hrest⟩
  · cases more with
    | nil => cases hrest
    | cons c more =>
      obtain ⟨rfl, -⟩ := List.cons.inj hrest
      simp at hname
  · cases more with
    | nil => cases hrest
    | cons c more =>
      obtain ⟨rfl, -⟩ := List.cons.inj hrest
      simp at h

/-- What the next line is to a server. -/
inductive Mode where
  | command
  /-- One of the answers, with so many behind it. -/
  | answer (more : Nat)
  /-- A line of the message that has been read so far. -/
  | data (lines : List (List Char))

/-- The dot in front of a line is taken off. -/
def unstuff (line : List Char) : List Char :=
  if line.head? = some '.' then line.tail else line

def Mode.next : Mode → List Char → Mode
  | .command, line =>
    if line = "DATA".toList then .data []
    else if line = "AUTH LOGIN".toList then .answer 1
    else .command
  | .answer 0, _ => .command
  | .answer (more + 1), _ => .answer more
  | .data lines, line => if line = ['.'] then .command else .data (lines ++ [unstuff line])

def Mode.heard : Mode → List Char → Option Heard
  | .command, line => some (.command line)
  | .answer _, line => some (.answer line)
  | .data lines, line => if line = ['.'] then some (.message lines) else none

def receive : Mode → List (List Char) → List Heard
  | _, [] => []
  | mode, line :: lines => (mode.heard line).toList ++ receive (mode.next line) lines

/-- What a server hears of a text; what is behind the last line end is not yet a
line. -/
def received (text : List Char) : List Heard := receive .command (segments text).dropLast

theorem receive_command {line : List Char} (hdata : line ≠ "DATA".toList)
    (hauth : line ≠ "AUTH LOGIN".toList) (lines : List (List Char)) :
    receive .command (line :: lines) = .command line :: receive .command lines := by
  rw [receive, Mode.next, if_neg hdata, if_neg hauth]
  rfl

theorem unstuff_of_head {line : List Char} (h : line.head? ≠ some '.') : unstuff line = line :=
  if_neg h

theorem receive_line {line : List Char} (h : line ≠ ['.']) (lines more : List (List Char)) :
    receive (.data lines) (line :: more) = receive (.data (lines ++ [unstuff line])) more := by
  rw [receive, Mode.next, Mode.heard, if_neg h, if_neg h]
  rfl

theorem receive_dot (lines more : List (List Char)) :
    receive (.data lines) (['.'] :: more) = .message lines :: receive .command more := rfl

/-- Every command that is heard is a line. -/
theorem mem_of_command_mem_receive {mode : Mode} {lines : List (List Char)} {line : List Char}
    (h : .command line ∈ receive mode lines) : line ∈ lines := by
  induction lines generalizing mode with
  | nil => cases h
  | cons next lines ih =>
    rcases List.mem_append.mp h with h | h
    · have hheard : mode.heard next = some (.command line) := Option.mem_toList.mp h
      cases mode with
      | command =>
        cases hheard
        exact List.mem_cons_self
      | answer more => cases hheard
      | data received =>
        rw [Mode.heard] at hheard
        split at hheard <;> cases hheard
    · exact List.mem_cons_of_mem _ (ih h)

/-- What has been read of a message stays in it. -/
theorem isPrefix_of_receive {lines message more : List (List Char)} {heard : List Heard}
    (h : receive (.data lines) more = .message message :: heard) : lines <+: message := by
  induction more generalizing lines with
  | nil => cases h
  | cons line more ih =>
    by_cases hdot : line = ['.']
    · rw [hdot, receive_dot] at h
      cases h
      exact List.prefix_refl _
    · rw [receive_line hdot] at h
      exact (List.prefix_append _ _).trans (ih h)

/-- **A message is heard as it was sent** exactly if no line of it begins with a
dot. -/
theorem receive_data_iff (before lines more : List (List Char)) :
    receive (.data before) (lines ++ ['.'] :: more) =
      .message (before ++ lines) :: receive .command more ↔
    ∀ line ∈ lines, line.head? ≠ some '.' := by
  induction lines generalizing before with
  | nil => simp [receive_dot]
  | cons line lines ih =>
    rw [List.forall_mem_cons, List.cons_append]
    by_cases hhead : line.head? = some '.'
    · refine iff_of_false (fun h => ?_) fun h => h.1 hhead
      by_cases hdot : line = ['.']
      · rw [hdot, receive_dot] at h
        have hlines := Heard.message.inj (List.cons.inj h).1
        simp at hlines
      · rw [receive_line hdot] at h
        obtain ⟨rest, hrest⟩ := isPrefix_of_receive h
        rw [List.append_assoc, List.append_cancel_left_eq] at hrest
        have hline : unstuff line = line := (List.cons.inj hrest).1
        rw [unstuff, if_pos hhead] at hline
        have hlength := congrArg List.length hline
        cases line with
        | nil => cases hhead
        | cons c line => simp at hlength
    · have hdot : line ≠ ['.'] := fun heq => hhead (by rw [heq]; rfl)
      have hsplit : before ++ line :: lines = before ++ [line] ++ lines := by simp
      rw [receive_line hdot, unstuff_of_head hhead, hsplit, ih]
      exact ⟨fun h => ⟨hhead, h⟩, fun h => h.2⟩

end Smtp
