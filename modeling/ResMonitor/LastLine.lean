import ResMonitor.Lines
import ResMonitor.ParsedUnits

/-! # The last line of a file

A list in braces ends its statement by itself, and the ends of line after the
brace only belong to it. A plain duration is ended by the blanks or the ends of
line after it. The rule for them matches the empty text as well, but an empty
match at the end of the input is not executed: without a last end of line the
statement is lost. -/

namespace ResMonitor

open Flex (Reads HeadIn EndIn)

/-! ## Closing a last list -/

/-- A closing brace at the end of the text, and before its only end of line. -/
def closeAtEnd : Pattern := ws0 * closeBrace * 1
def closeWithLine : Pattern := closeAtEnd * RegularExpression.char '\n'

theorem closeAtEnd_lexeme : ∀ env ∈ [DurationEnv.triggerDurationSet, .logResolutionSet],
    IsLexeme env.condition closeAtEnd (.close env) [] := by decide +kernel

theorem closeWithLine_lexeme : ∀ env ∈ [DurationEnv.triggerDurationSet, .logResolutionSet],
    IsLexeme env.condition closeWithLine (.close env) [] := by decide +kernel

theorem endIn_closeAtEnd : EndIn ['}'] closeAtEnd.matches' := by
  have hbrace : closeBrace.matches' * 1 = (RegularExpression.char '}').matches' := by
    show (RegularExpression.char '}').matches' * 1 * 1 = _
    rw [mul_one, mul_one]
  show EndIn ['}'] (ws0.matches' * closeBrace.matches' * 1)
  rw [mul_assoc, hbrace]
  exact (EndIn.char List.mem_cons_self).mul _

theorem endIn_duration (duration : Items (Nat × TimeUnit)) :
    EndIn ['s', 'm', 'h', 'd'] (durationText duration) := by
  refine EndIn.prod (fun part => ?_) duration.first duration.rest
  have hunit : EndIn ['s', 'm', 'h', 'd'] (timeUnitPattern part.2).matches' := by
    cases part.2 <;>
    · show EndIn _ ((RegularExpression.char _).matches' * 1)
      rw [mul_one]
      exact EndIn.char (by decide)
  exact (hunit.mul _).mul _

/-! ## What is pending before the last list ends -/

namespace Globals

theorem readParts_frame (g : Globals) (parts : Items (Nat × TimeUnit)) :
    (g.readParts parts).triggerResourceValues = g.triggerResourceValues ∧
    (g.readParts parts).logDurations = g.logDurations := by
  unfold readParts
  induction parts.toList generalizing g with
  | nil => exact ⟨rfl, rfl⟩
  | cons part parts ih => exact ih (g.readPart part)

theorem length_readValues (g : Globals) (values : Items (Nat × ResourceUnit)) :
    (g.readValues values).triggerResourceValues.length =
      g.triggerResourceValues.length + values.toList.length := by
  unfold readValues
  induction values.toList generalizing g with
  | nil => rfl
  | cons v values ih =>
    rw [List.foldl_cons, ih]
    simp [pushValue, readValue]
    omega

theorem length_readList (g : Globals) (list : Items (Items (Nat × TimeUnit))) :
    (g.readList .logDurationSet list).logDurations.length =
      g.logDurations.length + list.toList.length := by
  unfold readList
  induction list.toList generalizing g with
  | nil => rfl
  | cons d list ih =>
    rw [List.foldl_cons, ih]
    simp [pushDuration, (g.readParts_frame d).2]
    omega

end Globals

/-- A list never is empty, so a statement that ends adds something. -/
theorem types_close_ne (line : Line) (g : Globals) {G : Globals}
    (hG : G = (g.readHead line).readParts line.lastList.first) :
    ((G.pushDuration (line.env false)).produce (line.env false)).triggerTypes ≠ G.triggerTypes ∨
    ((G.pushDuration (line.env false)).produce (line.env false)).logTypes ≠ G.logTypes := by
  obtain ⟨hvalues, hdurations⟩ := (g.readHead line).readParts_frame line.lastList.first
  obtain ⟨htriggers, hlogs⟩ := types_assigns (.close (line.env false)) [] G
  rw [← hG] at hvalues hdurations
  cases line with
  | trigger resource type values durations =>
    refine Or.inl fun heq => ?_
    have hpending : G.pendingTriggers = [] :=
      List.append_right_eq_self.mp (htriggers.symm.trans heq)
    have hlen := ((g.setTriggerResource resource).setFluctuation type).length_readValues values
    have hnil : G.triggerResourceValues = [] := by
      by_contra hne
      obtain ⟨v, vs, hv⟩ := List.exists_cons_of_ne_nil hne
      rw [Globals.pendingTriggers, hv] at hpending
      simp at hpending
    rw [hvalues] at hnil
    have hread : (((g.setTriggerResource resource).setFluctuation type).readValues
        values).triggerResourceValues = [] := hnil
    rw [hread] at hlen
    simp [Items.toList] at hlen
  | log resource durations resolutions =>
    refine Or.inr fun heq => ?_
    have hpending : G.pendingLogs = [] :=
      List.append_right_eq_self.mp (hlogs.symm.trans heq)
    have hlen := (g.setLogResource resource).length_readList durations
    have hnil : G.logDurations = [] := by
      by_contra hne
      obtain ⟨d, ds, hd⟩ := List.exists_cons_of_ne_nil hne
      rw [Globals.pendingLogs, hd] at hpending
      simp at hpending
    rw [hdurations] at hnil
    have hread : ((g.setLogResource resource).readList .logDurationSet durations).logDurations =
        [] := hnil
    rw [hread] at hlen
    simp [Items.toList] at hlen

/-! ## Files without a last end of line -/

/-- The lines of a file up to the last list of its last line. -/
def filePrefix (before : List Line) (last : Line) : Language Char :=
  (before.map Line.text).prod * last.headText

theorem reads_filePrefix (before : List Line) (last : Line) (g : Globals) :
    Reads configLexer ⟨.initial, [], g⟩ (filePrefix before last) last.keywordHeads
      ⟨last.scope, [.initial], (before.foldl Globals.readLine g).readHead last⟩ := by
  have hbefore := Reads.prod (fun line g => reads_line line g)
    (fun line => (headIn_headText line).mul _) before g
  exact hbefore.mul (reads_headText last _) (headIn_headText last)

/-- Parsing the text gives the same triggers and logs as parsing it with one
more end of line. -/
def NewlineOptional (g : Globals) (text : List Char) : Prop :=
  ∃ g₁ g₂, ConfigurationParser.run g text = .ok g₁ ∧
    ConfigurationParser.run g (text ++ ['\n']) = .ok g₂ ∧
    g₁.triggerTypes = g₂.triggerTypes ∧ g₁.logTypes = g₂.logTypes

theorem newlineOptional_of_set {before : List Line} {last : Line} {text : List Char} (g : Globals)
    (h : text ∈ filePrefix before last * ((opening last.keyword true).matches' *
      Flex.sepBy durationText commaPattern.matches' closeAtEnd.matches' last.lastList.first
        last.lastList.rest)) : NewlineOptional g text := by
  have hclose : ∀ close : Pattern, IsLexeme (last.env true).condition close
      (.close (last.env true)) [] → HeadIn afterTimeUnit close.matches' →
      Reads configLexer ⟨.initial, [], g.resetLexer⟩ (filePrefix before last *
        ((opening last.keyword true).matches' * Flex.sepBy durationText commaPattern.matches'
          close.matches' last.lastList.first last.lastList.rest)) []
        ⟨.initial, [], (before.foldl Globals.readLine g.resetLexer).readLine last⟩ :=
    fun close hlexeme hhead => (reads_filePrefix before last _).mul
      (reads_lastSet last hlexeme hhead _) ((headIn_opening last true).mul _)
  have hnewline : text ++ ['\n'] ∈ filePrefix before last *
      ((opening last.keyword true).matches' * Flex.sepBy durationText commaPattern.matches'
        closeWithLine.matches' last.lastList.first last.lastList.rest) := by
    have hmem := Language.append_mem_mul h
      (show ['\n'] ∈ (RegularExpression.char '\n').matches' from rfl)
    rw [mul_assoc, mul_assoc, Flex.sepBy_mul] at hmem
    exact hmem
  have h₁ := hclose closeAtEnd (closeAtEnd_lexeme _ last.env_mem.1) Flex.headIn_matches' text h []
    (fun a w h => by cases h)
  have h₂ := hclose closeWithLine (closeWithLine_lexeme _ last.env_mem.1) Flex.headIn_matches' _
    hnewline [] (fun a w h => by cases h)
  rw [List.append_nil] at h₁ h₂
  exact ⟨_, _, run_of_reaches h₁, run_of_reaches h₂, rfl, rfl⟩

/-- An end of line after a plain last duration. -/
theorem reaches_newline (last : Line) (g : Globals) :
    configLexer.Reaches ⟨(last.env false).condition, [last.scope, .initial], g⟩ ['\n']
      ⟨.initial, [], (g.pushDuration (last.env false)).produce (last.env false)⟩ [] := by
  have hstack : (Rule.close (last.env false)).stackEffect.run
      ((last.env false).condition, [last.scope, .initial]) = .ok (.initial, []) := by
    cases last <;> rfl
  have hread := reads_lexeme (g := g) (lexemeTable.endLines _ last.env_mem.2) hstack fun _ => rfl
  have hnewline : ['\n'] ∈ newlinesPattern.matches' := mem_of_rmatch rfl
  exact hread ['\n'] hnewline [] (fun a w h => by cases h)

theorem not_newlineOptional_of_single {before : List Line} {last : Line} {text : List Char}
    (g : Globals) (h : text ∈ filePrefix before last *
      ((opening last.keyword false).matches' * durationText last.lastList.first)) :
    ¬ NewlineOptional g text := by
  have hread : Reads configLexer ⟨.initial, [], g.resetLexer⟩ (filePrefix before last *
      ((opening last.keyword false).matches' * durationText last.lastList.first)) afterTimeUnit
      ⟨(last.env false).condition, [last.scope, .initial],
        ((before.foldl Globals.readLine g.resetLexer).readHead last).readParts
          last.lastList.first⟩ :=
    (reads_filePrefix before last _).mul (reads_lastSingle last _)
      ((headIn_opening last false).mul _)
  -- at the end of the text nothing more is executed; before an end of line the rule is
  have h₁ := hread text h [] (fun a w h => by cases h)
  have h₂ := (hread text h ['\n'] (fun a w h => by cases h; decide)).trans (reaches_newline last _)
  rw [List.append_nil] at h₁
  intro ⟨g₁, g₂, hrun₁, hrun₂, htriggers, hlogs⟩
  rw [run_of_reaches h₁] at hrun₁
  rw [run_of_reaches h₂] at hrun₂
  cases hrun₁
  cases hrun₂
  rcases types_close_ne last (before.foldl Globals.readLine g.resetLexer) rfl with hne | hne
  · exact hne htriggers.symm
  · exact hne hlogs.symm

/-- **Where the final newline is optional.** Of a file whose last line ends
right after its last unit or brace: exactly if it ends with a brace. -/
theorem newlineOptional_iff (g : Globals) (before : List Line) (last : Line) (text : List Char)
    (h : text ∈ (before.map Line.text).prod * last.unendedText) :
    NewlineOptional g text ↔ text.getLast? = some '}' := by
  have hform : text ∈ filePrefix before last *
      listText (opening last.keyword) (fun _ => 1) durationText last.lastList := by
    rw [filePrefix, mul_assoc]
    exact h
  obtain ⟨u, hu, v, hv, rfl⟩ := Language.mem_mul.mp hform
  rcases (Language.mem_add _ _ _).mp hv with hset | hsingle
  · refine iff_of_true (newlineOptional_of_set g (Language.append_mem_mul hu hset)) ?_
    have hend := (endIn_closeAtEnd.sepBy durationText commaPattern.matches'
      last.lastList.first last.lastList.rest).mul (opening last.keyword true).matches'
    obtain ⟨a, ha, hlast⟩ := (hend.mul (filePrefix before last)).getLast?_mem
      (Language.append_mem_mul hu hset)
    rw [hlast, List.mem_singleton.mp ha]
  · split at hsingle
    · have hsingle : v ∈ (opening last.keyword false).matches' *
          durationText last.lastList.first := by
        have hone : durationText last.lastList.first * (1 : Pattern).matches' =
            durationText last.lastList.first := mul_one _
        rwa [hone] at hsingle
      refine iff_of_false
        (not_newlineOptional_of_single g (Language.append_mem_mul hu hsingle)) ?_
      have hend := (endIn_duration last.lastList.first).mul (opening last.keyword false).matches'
      obtain ⟨a, ha, hlast⟩ := (hend.mul (filePrefix before last)).getLast?_mem
        (Language.append_mem_mul hu hsingle)
      rw [hlast]
      rintro ⟨⟩
      exact absurd ha (by decide)
    · exact absurd hsingle (Language.notMem_zero v)

/-! ## Both forms of a last list -/

/-- `trigger cpu over 5% last for 5s` -/
def cpuOver5 : Line := .trigger .cpu .over ⟨(5, .percent), []⟩ ⟨⟨(5, .sec), []⟩, []⟩

theorem headText_cpuOver5 : "trigger cpu over 5% ".toList ∈ cpuOver5.headText := by
  have hvalue : "5%".toList ∈ valueText (5, .percent) :=
    ⟨"5".toList, ⟨mem_of_rmatch rfl, rfl⟩, "%".toList, mem_of_rmatch rfl, rfl⟩
  have hvalues : "over 5% ".toList ∈ listText (opening (fluctuationPattern .over)) wsAfter
      valueText ⟨(5, .percent), []⟩ :=
    Or.inr ⟨"over ".toList, mem_of_rmatch rfl, "5% ".toList,
      ⟨"5%".toList, hvalue, " ".toList, mem_of_rmatch rfl, rfl⟩, rfl⟩
  exact ⟨"trigger ".toList, mem_of_rmatch rfl, "cpu over 5% ".toList,
    ⟨"cpu ".toList, mem_of_rmatch rfl, "over 5% ".toList, hvalues, rfl⟩, rfl⟩

theorem durationText_fiveSeconds : "5s".toList ∈ durationText ⟨(5, .sec), []⟩ :=
  ⟨"5s".toList, ⟨"5".toList, ⟨mem_of_rmatch rfl, rfl⟩, "s".toList,
    mem_of_rmatch rfl, rfl⟩, [], rfl, rfl⟩

theorem newlineOptional_iff_braces :
    NewlineOptional .fresh "trigger cpu over 5% last for \x7b5s\x7d".toList ↔
      "trigger cpu over 5% last for \x7b5s\x7d".toList.getLast? = some '}' := by
  have hdurations : "last for \x7b5s\x7d".toList ∈ listText (opening lastPattern) (fun _ => 1)
      durationText cpuOver5.lastList :=
    Or.inl ⟨"last for \x7b".toList, mem_of_rmatch rfl, "5s\x7d".toList,
      ⟨"5s".toList, durationText_fiveSeconds, "\x7d".toList, mem_of_rmatch rfl, rfl⟩, rfl⟩
  exact newlineOptional_iff .fresh [] cpuOver5 _
    ⟨[], Language.nil_mem_one, _, Language.append_mem_mul headText_cpuOver5 hdurations, rfl⟩

/-- Without braces and without an end of line, the trigger is lost. -/
theorem last_statement_is_lost :
    ¬ ∀ (before : List Line) (last : Line), ∀ text ∈ (before.map Line.text).prod * last.unendedText,
      NewlineOptional .fresh text := by
  intro h
  have hdurations : "last for 5s".toList ∈ listText (opening lastPattern) (fun _ => 1)
      durationText cpuOver5.lastList :=
    Or.inr ⟨"last for ".toList, mem_of_rmatch rfl, "5s".toList,
      ⟨"5s".toList, durationText_fiveSeconds, [], rfl, rfl⟩, rfl⟩
  have hmem := Language.append_mem_mul headText_cpuOver5 hdurations
  obtain ⟨g₁, g₂, hrun₁, hrun₂, htypes, _⟩ := h [] cpuOver5 "trigger cpu over 5% last for 5s".toList
    ⟨[], Language.nil_mem_one, _, hmem, rfl⟩
  have hnone : parsedTriggers "trigger cpu over 5% last for 5s" = some [] := by decide +kernel
  have hone : parsedTriggers "trigger cpu over 5% last for 5s\n" =
      some [⟨.cpu, .over, ⟨.percent, 5⟩, 5⟩] := by decide +kernel
  obtain ⟨g₁', hrun₁', htypes₁⟩ := run_of_parsedTriggers hnone
  obtain ⟨g₂', hrun₂', htypes₂⟩ := run_of_parsedTriggers hone
  cases hrun₁.symm.trans hrun₁'
  cases hrun₂.symm.trans hrun₂'
  rw [htypes₁, htypes₂] at htypes
  cases htypes

end ResMonitor
