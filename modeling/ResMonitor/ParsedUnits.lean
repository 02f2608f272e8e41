import ResMonitor.Polls
import ResMonitor.StartStack

/-! # The units of parsed triggers

The comparisons of the samples assert that the unit of a trigger fits its
resource; the lexer reads resource, values and units in any order and checks
nothing. A sampler never aborts if and only if the units of all its triggers
fit, and those of a parsed configuration all fit if and only if every
statement ends with values that fit the resource it ends with. -/

namespace ResMonitor

/-! ## Aborts -/

/-- No sampler over these triggers ever aborts, whatever the samples, the logs
and the callbacks are. -/
def NeverAborts (F : Type) [Double F] (triggerTypes : List TriggerType) : Prop :=
  ∀ (logTypes : List LogType) (m : SamplingManager F), m.ConstructedFrom logTypes triggerTypes →
    ∀ (E : Type) (cb : Callbacks E) (e : E) (xs : Nat → Sample F) (n : Nat),
      ∃ r, m.polls cb xs 0 n e = .ok r

section Aborts
variable {F E : Type} [Double F]

theorem unitFits_of_processTriggers {m : SamplingManager F} {cb : Callbacks E} {e : E}
    {r : SamplingManager F × E} (h : m.processTriggers cb e = .ok r) :
    ∀ t ∈ m.triggerStates.keys, t.UnitFits := by
  intro t ht
  unfold SamplingManager.processTriggers at h
  cases hc : SamplingManager.back m.cpuSamples with
  | error a => rw [hc] at h; cases h
  | ok cpu =>
    cases hr : SamplingManager.back m.ramSamples with
    | error a => rw [hc, hr] at h; cases h
    | ok ram =>
      cases hh : SamplingManager.back m.hddSamples with
      | error a => rw [hc, hr, hh] at h; cases h
      | ok hdd =>
        rw [hc, hr, hh] at h
        cases hv : m.triggerStates.visit (SamplingManager.processTrigger cb cpu ram hdd) e with
        | error a => simp [hv, bind, Except.bind] at h
        | ok r' =>
          obtain ⟨entry, hentry, rfl⟩ := List.mem_map.mp ht
          obtain ⟨e₁, r₁, hbody⟩ := UnorderedMap.body_ok_of_visitEntries
            (UnorderedMap.visit_ok_iff.mp hv) entry hentry
          have hbody : SamplingManager.processTrigger cb (⟨cpu, ram, hdd⟩ : Sample F).cpu ram hdd
              entry.1 entry.2 e₁ = .ok r₁ := hbody
          by_contra hunit
          obtain ⟨a, ha⟩ := (⟨cpu, ram, hdd⟩ : Sample F).exceeds_of_not_unitFits hunit
          rw [processTrigger_eq cb ⟨cpu, ram, hdd⟩, ha] at hbody
          cases hbody

/-- The first poll already compares a sample with every trigger. -/
theorem neverAborts_iff {triggerTypes : List TriggerType} :
    NeverAborts F triggerTypes ↔ ∀ t ∈ triggerTypes, t.UnitFits := by
  constructor
  · intro h t ht
    let zero : F := ((0 : Int) : F)
    let sample : Sample F := ⟨⟨zero, zero⟩, ⟨zero, zero, zero⟩, ⟨zero, zero, zero, zero⟩⟩
    have hm := SamplingManager.unlogged_constructed (F := F) triggerTypes
    obtain ⟨r, hrun⟩ := h [] _ hm Unit .default () (fun _ => sample) 1
    have hpoll : (SamplingManager.unlogged triggerTypes).poll .default sample () = .ok r := hrun
    unfold SamplingManager.poll at hpoll
    cases hp : ((SamplingManager.unlogged triggerTypes).pushSample sample).processTriggers
        .default () with
    | error a => rw [hp] at hpoll; cases hpoll
    | ok r' => exact unitFits_of_processTriggers hp t ((hm.mem_keys t).mpr ht)
  · intro h logTypes m hm E cb e xs n
    obtain ⟨m', hrun, _⟩ := SamplingManager.polls_tableAt (hm.tableAt xs)
      (fun t ht => h t ((hm.mem_keys t).mp ht)) cb e n
    exact ⟨_, hrun⟩

end Aborts

/-! ## Matching units -/

/-- The pending values fit the resource read last. -/
def Globals.UnitsMatch (g : Globals) : Prop :=
  ∀ v ∈ g.triggerResourceValues, { g.currentTriggerType with triggerValue := v }.UnitFits

theorem Globals.unitsMatch_iff (g : Globals) :
    g.UnitsMatch ↔ ∀ t ∈ g.pendingTriggers, t.UnitFits := by
  constructor
  · intro h t ht
    obtain ⟨res, hres, ht⟩ := List.mem_flatMap.mp ht
    obtain ⟨d, _, rfl⟩ := List.mem_map.mp ht
    exact h res hres
  · intro h v hv
    refine h ⟨g.currentTriggerType.resource, g.currentTriggerType.fluctuationType, v,
      g.currentDurationTime⟩ (List.mem_flatMap.mpr ⟨v, hv, ?_⟩)
    exact List.mem_map.mpr ⟨_, List.mem_append_right _ List.mem_cons_self, rfl⟩

/-! ## Runs -/

/-- Every trigger statement of the text ends with values that fit its resource. -/
def EndsWithMatchingUnits (g : Globals) (text : List Char) : Prop :=
  ∀ s rule yytext, MatchesAt g text s rule yytext → rule.endsTrigger = true →
    s.globals.UnitsMatch

theorem unitFits_of_reaches {g : Globals} {text input : List Char} {s : Scanner}
    (hmatch : EndsWithMatchingUnits g text)
    (h : configLexer.Reaches (Scanner.new g.resetLexer) text s input) :
    ∀ t ∈ s.globals.triggerTypes, t.UnitFits := by
  refine h.invariant (I := fun s => ∀ t ∈ s.globals.triggerTypes, t.UnitFits)
    (fun t ht => absurd ht List.not_mem_nil) ?_
  intro s₁ s₂ i j hreach hfits hstep
  obtain ⟨hnext, haction⟩ := hstep
  rename_i rule yytext
  rw [(action_eq_ok_iff.mp haction).2, (types_assigns _ _ _).1]
  intro t ht
  rcases List.mem_append.mp ht with ht | ht
  · exact hfits t ht
  · split at ht
    · rename_i hends
      exact s₁.globals.unitsMatch_iff.mp (hmatch s₁ rule yytext ⟨i, j, hreach, hnext⟩ hends) t ht
    · cases ht

theorem triggerTypes_of_reaches {s s' : Scanner} {input rest : List Char}
    (h : configLexer.Reaches s input s' rest) :
    ∀ t ∈ s.globals.triggerTypes, t ∈ s'.globals.triggerTypes := by
  intro t ht
  refine h.invariant (I := fun s => t ∈ s.globals.triggerTypes) ht ?_
  intro s₁ s₂ i j _ ht hstep
  obtain ⟨_, haction⟩ := hstep
  rw [(action_eq_ok_iff.mp haction).2, (types_assigns _ _ _).1]
  exact List.mem_append_left _ ht

/-- **Which accepted texts never abort the monitor.** They are those in which
every trigger statement ends with values whose units fit its resource. -/
theorem neverAborts_parsed_iff {F : Type} [Double F] {g g' : Globals} {text : List Char}
    (h : ConfigurationParser.run g text = .ok g') :
    NeverAborts F g'.triggerTypes ↔ EndsWithMatchingUnits g text := by
  obtain ⟨s', hrun⟩ := parser_run_ok_iff.mp ⟨g', h⟩
  have hglobals : s'.globals = g' := by
    unfold ConfigurationParser.run at h
    rw [hrun] at h
    exact Except.ok.inj h
  rw [neverAborts_iff, ← hglobals]
  refine ⟨?_, fun hmatch => unitFits_of_reaches hmatch (Flex.Lexer.run_eq_ok_iff.mp hrun)⟩
  intro hfits s rule yytext ⟨input, rest, hreach, hnext⟩ hends
  obtain ⟨s₂, haction⟩ := Flex.Lexer.exists_run_eq_ok_iff.mp ⟨s', hrun⟩ hreach hnext
  have hlast : configLexer.Reaches s₂ rest s' [] := by
    rw [← Flex.Lexer.run_eq_ok_iff, ← hrun, Flex.Lexer.run_of_reaches hreach,
      Flex.Lexer.run_of_next hnext, haction]
    rfl
  refine s.globals.unitsMatch_iff.mpr fun t ht => hfits t (triggerTypes_of_reaches hlast t ?_)
  rw [(action_eq_ok_iff.mp haction).2, (types_assigns _ _ _).1, if_pos hends]
  exact List.mem_append_right _ ht

/-- What a text is parsed to from a fresh process, if it is accepted. -/
def parsedTriggers (text : String) : Option (List TriggerType) :=
  (ConfigurationParser.run .fresh text.toList).toOption.map Globals.triggerTypes

theorem run_of_parsedTriggers {text : String} {triggerTypes : List TriggerType}
    (h : parsedTriggers text = some triggerTypes) :
    ∃ g', ConfigurationParser.run .fresh text.toList = .ok g' ∧ g'.triggerTypes = triggerTypes := by
  unfold parsedTriggers at h
  cases hrun : ConfigurationParser.run .fresh text.toList with
  | error e => rw [hrun] at h; cases h
  | ok g' =>
    rw [hrun] at h
    exact ⟨g', rfl, Option.some.inj h⟩

theorem neverAborts_parsed_iff_percent :
    ∃ g', ConfigurationParser.run .fresh "trigger cpu over 80% last for 20s\n".toList = .ok g' ∧
      (NeverAborts Rat g'.triggerTypes ↔
        EndsWithMatchingUnits .fresh "trigger cpu over 80% last for 20s\n".toList) := by
  have h : parsedTriggers "trigger cpu over 80% last for 20s\n" =
      some [⟨.cpu, .over, ⟨.percent, 80⟩, 20⟩] := by decide +kernel
  obtain ⟨g', hrun, _⟩ := run_of_parsedTriggers h
  exact ⟨g', hrun, neverAborts_parsed_iff hrun⟩

/-- A CPU trigger in megabytes is parsed like any other, and aborts the first poll. -/
theorem cpu_in_megabytes_aborts : ¬ ∀ text g', ConfigurationParser.run .fresh text = .ok g' →
    NeverAborts Rat g'.triggerTypes := by
  intro h
  have hparsed : parsedTriggers "trigger cpu over 200MB last for 1s\n" =
      some [⟨.cpu, .over, ⟨.mb, 200⟩, 1⟩] := by decide +kernel
  obtain ⟨g', hrun, htypes⟩ := run_of_parsedTriggers hparsed
  have hfits := neverAborts_iff.mp (h _ g' hrun)
  rw [htypes] at hfits
  cases hfits _ List.mem_cons_self

end ResMonitor
