import ResMonitor.ParseStatements

/-! # Configuration files are parsed to what they stand for

From variables with nothing pending, the assignments of a statement add its
triggers and logs and leave nothing pending, so a whole file is parsed to the
triggers and logs of its statements in their order. -/

namespace ResMonitor

/-! ## Durations -/

theorem le_mul_seconds (n : Nat) (unit : TimeUnit) : (n : Int) ≤ n * unit.seconds := by
  have hmul := Int.mul_le_mul_of_nonneg_left unit.one_le_seconds (Int.natCast_nonneg n)
  rwa [Int.mul_one] at hmul

theorem totalSeconds_nonneg (parts : List (Nat × TimeUnit)) : 0 ≤ totalSeconds parts := by
  induction parts with
  | nil => exact Int.le_refl 0
  | cons part parts ih =>
    obtain ⟨n, unit⟩ := part
    have hle := le_mul_seconds n unit
    show 0 ≤ n * unit.seconds + totalSeconds parts
    omega

/-- Within the range of `long`, nothing saturates and nothing wraps. -/
theorem readPart_eq {n : Nat} {unit : TimeUnit} {g : Globals} (hpos : 0 ≤ g.currentDurationTime)
    (hmax : g.currentDurationTime + n * unit.seconds ≤ longMax) :
    g.readPart (n, unit) = { g with
      lastReadDurationElement := n
      currentDurationTime := g.currentDurationTime + n * unit.seconds } := by
  have hle := le_mul_seconds n unit
  have hsaturated : min (n : Int) longMax = n := min_eq_left (by omega)
  have hproduct : wrap (n * unit.seconds) = n * unit.seconds := wrap_of_le (by omega) (by omega)
  have hsum := wrap_of_le (n := g.currentDurationTime + n * unit.seconds) (by omega) hmax
  unfold Globals.readPart Globals.addElement
  simp only [hsaturated, hproduct, hsum]

theorem foldl_readPart (parts : List (Nat × TimeUnit)) (g : Globals)
    (hpos : 0 ≤ g.currentDurationTime)
    (hmax : g.currentDurationTime + totalSeconds parts ≤ longMax) :
    ∃ last, parts.foldl Globals.readPart g = { g with
      lastReadDurationElement := last
      currentDurationTime := g.currentDurationTime + totalSeconds parts } := by
  induction parts generalizing g with
  | nil =>
    refine ⟨g.lastReadDurationElement, ?_⟩
    rw [totalSeconds, Int.add_zero]
    rfl
  | cons part parts ih =>
    obtain ⟨n, unit⟩ := part
    rw [totalSeconds] at hmax ⊢
    have hle := le_mul_seconds n unit
    have hrest := totalSeconds_nonneg parts
    have hread := @readPart_eq n unit g hpos (by omega)
    obtain ⟨last, hlast⟩ := ih (g.readPart (n, unit)) (by rw [hread]; show 0 ≤ _ + _; omega)
      (by rw [hread]; show _ + _ + _ ≤ _; omega)
    refine ⟨last, ?_⟩
    rw [List.foldl_cons, hlast, hread, Int.add_assoc]

theorem readDuration_eq (d : Duration) {g : Globals} (hg : g.currentDurationTime = 0) :
    ∃ last, g.readDuration d =
      { g with lastReadDurationElement := last, currentDurationTime := d.seconds } := by
  have hsum : g.currentDurationTime + totalSeconds d.parts.toList = d.seconds := by
    rw [hg, Int.zero_add]
    rfl
  obtain ⟨last, hlast⟩ := foldl_readPart d.parts.toList g (Int.le_of_eq hg.symm)
    (hsum.trans_le d.fits)
  rw [hsum] at hlast
  exact ⟨last, hlast⟩

/-- Add to the pending durations of an environment. -/
def Globals.addDurations (durations : List Int) (g : Globals) : DurationEnv → Globals
  | .triggerDurationSet | .triggerDurationSingle =>
    { g with triggerDurationTimes := g.triggerDurationTimes ++ durations }
  | .logDurationSet | .logDurationSingle => { g with logDurations := g.logDurations ++ durations }
  | .logResolutionSet | .logResolutionSingle =>
    { g with logResolutions := g.logResolutions ++ durations }

theorem readDurations_eq (env : DurationEnv) (durations : Items Duration) {g : Globals}
    (hg : g.currentDurationTime = 0) :
    ∃ last, g.readDurations env durations =
      { g.addDurations (durations.toList.map Duration.seconds) env with
        lastReadDurationElement := last } := by
  unfold Globals.readDurations
  generalize durations.toList = ds
  induction ds generalizing g with
  | nil =>
    refine ⟨g.lastReadDurationElement, ?_⟩
    cases env <;> simp [Globals.addDurations]
  | cons d ds ih =>
    obtain ⟨last, hread⟩ := readDuration_eq d hg
    obtain ⟨last', hrest⟩ := @ih ((g.readDuration d).pushDuration env) (by cases env <;> rfl)
    refine ⟨last', ?_⟩
    rw [List.foldl_cons, hrest, hread]
    cases env <;> simp [Globals.addDurations, Globals.pushDuration, hg]

theorem readThresholds_eq (values : Items Threshold) (g : Globals) :
    ∃ last, g.readThresholds values = { g with
      currentResourceValue := last
      triggerResourceValues := g.triggerResourceValues ++ values.toList.map Threshold.value } := by
  unfold Globals.readThresholds
  generalize values.toList = vs
  induction vs generalizing g with
  | nil => exact ⟨g.currentResourceValue, by simp⟩
  | cons v vs ih =>
    have hread : (g.readThreshold v).pushValue = { g with
        currentResourceValue := v.value
        triggerResourceValues := g.triggerResourceValues ++ [v.value] } := by
      unfold Globals.readThreshold
      rw [min_eq_left v.fits]
      rfl
    obtain ⟨last, hrest⟩ := ih (g.readThreshold v).pushValue
    refine ⟨last, ?_⟩
    rw [List.foldl_cons, hrest, hread]
    simp

/-! ## Statements -/

/-- Nothing is pending: no statement has been begun since the last one ended. -/
structure Globals.Idle (g : Globals) : Prop where
  duration : g.currentDurationTime = 0
  values : g.triggerResourceValues = []
  durations : g.triggerDurationTimes = []
  logDurations : g.logDurations = []
  logResolutions : g.logResolutions = []

theorem Globals.Idle.resetLexer {g : Globals} (h : g.Idle) : g.resetLexer.Idle :=
  ⟨h.duration, h.values, h.durations, h.logDurations, h.logResolutions⟩

theorem Globals.idle_fresh : Globals.fresh.Idle := ⟨rfl, rfl, rfl, rfl, rfl⟩

/-- A statement adds what it stands for. -/
theorem readStatement_spec (statement : Statement) {g : Globals} (h : g.Idle) :
    (g.readStatement statement).Idle ∧
    (g.readStatement statement).triggerTypes = g.triggerTypes ++ statement.triggers ∧
    (g.readStatement statement).logTypes = g.logTypes ++ statement.logs := by
  cases statement with
  | trigger resource type values durations =>
    obtain ⟨v, hvalues⟩ :=
      readThresholds_eq values ((g.setTriggerResource resource).setFluctuation type)
    have hidle : (((g.setTriggerResource resource).setFluctuation type).readThresholds
        values).currentDurationTime = 0 := by
      rw [hvalues]
      exact h.duration
    obtain ⟨last, hdurations⟩ := readDurations_eq .triggerDurationSet durations hidle
    simp only [Globals.readStatement]
    rw [hdurations, hvalues]
    obtain ⟨t, _, _, hproduct⟩ := produceTriggersCrossproduct_spec _
    rw [hproduct]
    refine ⟨⟨h.duration, rfl, rfl, h.logDurations, h.logResolutions⟩, ?_, ?_⟩
    · simp [Globals.addDurations, Globals.setFluctuation, Globals.setTriggerResource,
        Statement.triggers, h.values, h.durations, List.flatMap_map, Function.comp_def]
    · simp [Globals.addDurations, Globals.setFluctuation, Globals.setTriggerResource,
        Statement.logs]
  | log resource durations resolutions =>
    obtain ⟨last, hdurations⟩ := readDurations_eq .logDurationSet durations
      (show (g.setLogResource resource).currentDurationTime = 0 from h.duration)
    have hidle : ((g.setLogResource resource).readDurations .logDurationSet
        durations).currentDurationTime = 0 := by
      rw [hdurations]
      exact h.duration
    obtain ⟨last', hresolutions⟩ := readDurations_eq .logResolutionSet resolutions hidle
    simp only [Globals.readStatement]
    rw [hresolutions, hdurations]
    obtain ⟨l, _, hproduct⟩ := produceLogsCrossproduct_spec _
    rw [hproduct]
    refine ⟨⟨h.duration, h.values, h.durations, rfl, rfl⟩, ?_, ?_⟩
    · simp [Globals.addDurations, Globals.setLogResource, Statement.triggers]
    · simp [Globals.addDurations, Globals.setLogResource, Statement.logs, h.logDurations,
        h.logResolutions, List.flatMap_map, Function.comp_def]

theorem foldl_readStatement_spec (statements : List Statement) {g : Globals} (h : g.Idle) :
    (statements.foldl Globals.readStatement g).Idle ∧
    (statements.foldl Globals.readStatement g).triggerTypes =
      g.triggerTypes ++ statements.flatMap Statement.triggers ∧
    (statements.foldl Globals.readStatement g).logTypes =
      g.logTypes ++ statements.flatMap Statement.logs := by
  induction statements generalizing g with
  | nil => exact ⟨h, (List.append_nil _).symm, (List.append_nil _).symm⟩
  | cons statement statements ih =>
    obtain ⟨hidle, htriggers, hlogs⟩ := readStatement_spec statement h
    obtain ⟨hidle', htriggers', hlogs'⟩ := ih hidle
    rw [htriggers, List.append_assoc, ← List.flatMap_cons] at htriggers'
    rw [hlogs, List.append_assoc, ← List.flatMap_cons] at hlogs'
    exact ⟨hidle', htriggers', hlogs'⟩

/-! ## Files -/

/-- A parse over variables with nothing pending, as it is at the start and
after a parse of any configuration file. -/
theorem run_configText (statements : List Statement) {text : List Char}
    (htext : text ∈ configText statements) {g : Globals} (hg : g.Idle) :
    ∃ g', ConfigurationParser.run g text = .ok g' ∧ g'.Idle ∧
      g'.triggerTypes = statements.flatMap Statement.triggers ∧
      g'.logTypes = statements.flatMap Statement.logs := by
  have hreads := Flex.Reads.prod (fun statement g => reads_statement statement g) headIn_statement
    statements g.resetLexer text htext [] (fun a w h => by cases h)
  rw [List.append_nil] at hreads
  have hrun := run_of_reaches hreads
  exact ⟨_, hrun, foldl_readStatement_spec statements hg.resetLexer⟩

/-- **The parser is correct on its grammar.** A fresh process parses every text
of a list of statements to the triggers and logs of the statements, in their
order. -/
theorem parses_configText (statements : List Statement) (text : List Char)
    (h : text ∈ configText statements) :
    ∃ g, ConfigurationParser.run .fresh text = .ok g ∧
      g.triggerTypes = statements.flatMap Statement.triggers ∧
      g.logTypes = statements.flatMap Statement.logs := by
  obtain ⟨g, hrun, _, htypes⟩ := run_configText statements h Globals.idle_fresh
  exact ⟨g, hrun, htypes⟩

/-- `trigger cpu over {70%, 80%} last for 1m2s` -/
def cpuOver70And80 : Statement :=
  .trigger .cpu .over ⟨⟨70, .percent, by decide⟩, [⟨80, .percent, by decide⟩]⟩
    ⟨⟨⟨(1, .min), [(2, .sec)]⟩, by decide⟩, []⟩

theorem cpuOver70And80_mem :
    "trigger cpu over \x7b70%, 80%\x7d last for 1m2s\n".toList ∈ configText [cpuOver70And80] := by
  have h70 : "70%".toList ∈ Threshold.text ⟨70, .percent, by decide⟩ :=
    ⟨"70".toList, ⟨mem_of_rmatch rfl, rfl⟩, "%".toList, mem_of_rmatch rfl, rfl⟩
  have h80 : "80%".toList ∈ Threshold.text ⟨80, .percent, by decide⟩ :=
    ⟨"80".toList, ⟨mem_of_rmatch rfl, rfl⟩, "%".toList, mem_of_rmatch rfl, rfl⟩
  have hvalues : "over \x7b70%, 80%\x7d ".toList ∈
      listText (opening (fluctuationPattern .over)) wsAfter Threshold.text
        ⟨⟨70, .percent, by decide⟩, [⟨80, .percent, by decide⟩]⟩ :=
    Or.inl ⟨"over \x7b".toList, mem_of_rmatch rfl, "70%, 80%\x7d ".toList,
      ⟨"70%".toList, h70, ", 80%\x7d ".toList, ⟨", ".toList, mem_of_rmatch rfl,
        "80%\x7d ".toList, ⟨"80%".toList, h80, "\x7d ".toList, mem_of_rmatch rfl, rfl⟩, rfl⟩,
        rfl⟩, rfl⟩
  have hduration : "1m2s".toList ∈ Duration.text ⟨⟨(1, .min), [(2, .sec)]⟩, by decide⟩ :=
    ⟨"1m".toList, ⟨"1".toList, ⟨mem_of_rmatch rfl, rfl⟩, "m".toList,
        mem_of_rmatch rfl, rfl⟩,
      "2s".toList, ⟨"2s".toList, ⟨"2".toList, ⟨mem_of_rmatch rfl, rfl⟩, "s".toList,
        mem_of_rmatch rfl, rfl⟩, [], rfl, rfl⟩, rfl⟩
  have hdurations : "last for 1m2s\n".toList ∈ listText (opening lastPattern)
      (fun _ => lineEnd) Duration.text
        ⟨⟨⟨(1, .min), [(2, .sec)]⟩, by decide⟩, []⟩ :=
    Or.inr ⟨"last for ".toList, mem_of_rmatch rfl, "1m2s\n".toList,
      ⟨"1m2s".toList, hduration, "\n".toList, mem_of_rmatch rfl, rfl⟩, rfl⟩
  exact ⟨"trigger cpu over \x7b70%, 80%\x7d last for 1m2s\n".toList,
    ⟨"trigger ".toList, mem_of_rmatch rfl,
      "cpu over \x7b70%, 80%\x7d last for 1m2s\n".toList,
      ⟨"cpu ".toList, mem_of_rmatch rfl, "over \x7b70%, 80%\x7d last for 1m2s\n".toList,
        ⟨"over \x7b70%, 80%\x7d ".toList, hvalues, "last for 1m2s\n".toList, hdurations, rfl⟩,
        rfl⟩, rfl⟩, [], rfl, rfl⟩

theorem parses_cpuOver70And80 :
    ∃ g, ConfigurationParser.run .fresh
        "trigger cpu over \x7b70%, 80%\x7d last for 1m2s\n".toList = .ok g ∧
      g.triggerTypes =
        [⟨.cpu, .over, ⟨.percent, 70⟩, 62⟩, ⟨.cpu, .over, ⟨.percent, 80⟩, 62⟩] ∧
      g.logTypes = [] :=
  parses_configText [cpuOver70And80] _ cpuOver70And80_mem

end ResMonitor
