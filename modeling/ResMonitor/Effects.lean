import ResMonitor.ConfigLexer

/-! # What the actions do

An action is two things at once: a step of a machine of pushes and pops, which
alone decides where the lexer is and whether the process ends, and an
assignment to the variables. Which rules match therefore depends on the text
and not on the variables, and a parse is the replay of their assignments. -/

namespace ResMonitor

/-! ## Pushes and pops -/

inductive StackEffect where
  | keep
  | push (condition : StartCondition)
  | pop
  | popTwice

/-- The start condition, and those under it. -/
abbrev Position := StartCondition × List StartCondition

def Scanner.position (s : Scanner) : Position := (s.start, s.stack)

def StackEffect.run : StackEffect → Position → Except LexerError Position
  | .keep, p => .ok p
  | .push condition, (start, stack) => .ok (condition, start :: stack)
  | .pop, (_, top :: stack) => .ok (top, stack)
  | .popTwice, (_, _ :: top :: stack) => .ok (top, stack)
  | _, _ => .error .startConditionStackUnderflow

def Rule.stackEffect : Rule → StackEffect
  | .fluctuation _ set => .push (resourceEnv set)
  | .last set => .push (lastEnv set).condition
  | .logFor set => .push (forEnv set).condition
  | .resolution set => .push (resolutionEnv set).condition
  | .log => .push .logEnv
  | .trigger => .push .triggerEnv
  | .valueClose | .singleUnit _ => .pop
  | .close .logDurationSet | .close .logDurationSingle => .pop
  | .close _ => .popTwice
  | _ => .keep

/-! ## Assignments -/

namespace Globals

/-- The cross product an ending rule builds. -/
def produce : DurationEnv → Globals → Globals
  | .triggerDurationSet, g | .triggerDurationSingle, g => g.produceTriggersCrossproduct
  | .logDurationSet, g | .logDurationSingle, g => g
  | .logResolutionSet, g | .logResolutionSingle, g => g.produceLogsCrossproduct

end Globals

def Rule.assigns (yytext : List Char) : Rule → Globals → Globals
  | .triggerResource resource, g => g.setTriggerResource resource
  | .fluctuation type _, g => g.setFluctuation type
  | .valueNumber, g | .singleNumber, g => g.setValue yytext
  | .valueUnit unit, g => g.setUnit unit
  | .valueComma, g | .valueClose, g => g.pushValue
  | .singleUnit unit, g => (g.setUnit unit).pushValue
  | .number _, g => g.setElement yytext
  | .timeUnit _ unit, g => g.addElement unit
  | .comma env, g => g.pushDuration env
  | .close env, g => (g.pushDuration env).produce env
  | .logResource resource, g => g.setLogResource resource
  | .last _, g | .logFor _, g | .resolution _, g => g
  | .blanks, g | .newlines, g | .log, g | .trigger, g | .echo, g => g

/-- **The action of every rule**, its two parts together. -/
theorem action_eq (rule : Rule) (yytext : List Char) (s : Scanner) :
    action rule yytext s =
      (rule.stackEffect.run s.position).map fun p => ⟨p.1, p.2, rule.assigns yytext s.globals⟩ := by
  obtain ⟨start, stack, g⟩ := s
  cases rule with
  | valueClose | singleUnit => cases stack <;> rfl
  | close env => cases env <;> rcases stack with _ | ⟨top, _ | ⟨top', stack⟩⟩ <;> rfl
  | _ => rfl

theorem action_eq_ok_iff {rule : Rule} {yytext : List Char} {s s' : Scanner} :
    action rule yytext s = .ok s' ↔ rule.stackEffect.run s.position = .ok s'.position ∧
      s'.globals = rule.assigns yytext s.globals := by
  rw [action_eq]
  obtain ⟨start, stack, g⟩ := s'
  cases rule.stackEffect.run s.position with
  | error e => exact iff_of_false (fun h => by cases h) (fun h => by cases h.1)
  | ok p =>
    refine ⟨fun h => by cases h; exact ⟨rfl, rfl⟩, fun ⟨hp, hg⟩ => ?_⟩
    cases hp
    cases hg
    rfl

/-! ## What a statement adds -/

namespace Globals

/-- The triggers of a statement that ends now: the pending values with the
pending durations and the one being read. -/
def pendingTriggers (g : Globals) : List TriggerType :=
  g.triggerResourceValues.flatMap fun res =>
    (g.triggerDurationTimes ++ [g.currentDurationTime]).map fun d =>
      ⟨g.currentTriggerType.resource, g.currentTriggerType.fluctuationType, res, d⟩

/-- The logs of a statement that ends now. -/
def pendingLogs (g : Globals) : List LogType :=
  g.logDurations.flatMap fun d => (g.logResolutions ++ [g.currentDurationTime]).map fun r =>
    ⟨g.currentLogType.resource, d, r⟩

end Globals

def Rule.endsTrigger : Rule → Bool
  | .close .triggerDurationSet | .close .triggerDurationSingle => true
  | _ => false

def Rule.endsLog : Rule → Bool
  | .close .logResolutionSet | .close .logResolutionSingle => true
  | _ => false

/-- Triggers and logs are only ever added, and only where a statement ends. -/
theorem types_assigns (rule : Rule) (yytext : List Char) (g : Globals) :
    (rule.assigns yytext g).triggerTypes =
        g.triggerTypes ++ (if rule.endsTrigger then g.pendingTriggers else []) ∧
    (rule.assigns yytext g).logTypes =
        g.logTypes ++ (if rule.endsLog then g.pendingLogs else []) := by
  have hkeep : g.triggerTypes = g.triggerTypes ++ [] ∧ g.logTypes = g.logTypes ++ [] :=
    ⟨(List.append_nil _).symm, (List.append_nil _).symm⟩
  cases rule with
  | close env =>
    cases env with
    | triggerDurationSet | triggerDurationSingle =>
      obtain ⟨t, _, _, heq⟩ := produceTriggersCrossproduct_spec (g.pushDuration .triggerDurationSet)
      refine ⟨?_, ?_⟩
      · exact congrArg Globals.triggerTypes heq
      · exact (congrArg Globals.logTypes heq).trans hkeep.2
    | logResolutionSet | logResolutionSingle =>
      obtain ⟨l, _, heq⟩ := produceLogsCrossproduct_spec (g.pushDuration .logResolutionSet)
      refine ⟨?_, ?_⟩
      · exact (congrArg Globals.triggerTypes heq).trans hkeep.1
      · exact congrArg Globals.logTypes heq
    | logDurationSet | logDurationSingle => exact hkeep
  | comma env => cases env <;> exact hkeep
  | _ => exact hkeep

/-! ## Replay -/

/-- A rule and the text it matched. -/
abbrev Lexeme := Rule × List Char

/-- The lexer without variables, which writes down what it matches. -/
def tracer : Flex.Lexer Rule Char (Position × List Lexeme) LexerError where
  active s := activeRules s.1.1
  default := .echo
  action rule yytext s := (rule.stackEffect.run s.1).map fun p => (p, s.2 ++ [(rule, yytext)])

def Globals.replay (g : Globals) (lexemes : List Lexeme) : Globals :=
  lexemes.foldl (fun g e => e.1.assigns e.2 g) g

/-- Where the lexer is after some lexemes that it read from the variables `g`. -/
def Globals.scanner (g : Globals) (s : Position × List Lexeme) : Scanner :=
  ⟨s.1.1, s.1.2, g.replay s.2⟩

/-- What the lexer reads in a text, whatever the variables hold. -/
def lexemes (text : List Char) : Except LexerError (List Lexeme) :=
  (tracer.run ((.initial, []), []) text).map Prod.snd

/-- **A parse replays the lexemes of its text.** -/
theorem ConfigurationParser.run_eq (g : Globals) (text : List Char) :
    ConfigurationParser.run g text = (lexemes text).map g.resetLexer.replay := by
  have hrun : configLexer.run (Scanner.new g.resetLexer) text =
      (tracer.run ((.initial, []), []) text).map g.resetLexer.scanner := by
    refine Flex.Lexer.run_map (f := g.resetLexer.scanner) (fun s => rfl) rfl
      (fun rule yytext s => ?_) ((.initial, []), []) text
    obtain ⟨⟨start, stack⟩, lexemes⟩ := s
    show action rule yytext _ = _
    rw [action_eq]
    show _ = Except.map _ (Except.map _ _)
    cases hp : rule.stackEffect.run (start, stack) with
    | error e => simp [Globals.scanner, Scanner.position, Except.map, hp]
    | ok p => simp [Globals.scanner, Scanner.position, Except.map, hp, Globals.replay]
  unfold ConfigurationParser.run lexemes
  rw [hrun]
  cases tracer.run ((.initial, []), []) text <;> rfl

theorem run_of_lexemes {text : List Char} {es : List Lexeme} (h : lexemes text = .ok es)
    (g : Globals) : ConfigurationParser.run g text = .ok (g.resetLexer.replay es) := by
  rw [ConfigurationParser.run_eq, h]
  rfl

theorem exists_lexemes_of_run {text : List Char} {g h : Globals}
    (hrun : ConfigurationParser.run g text = .ok h) :
    ∃ es, lexemes text = .ok es ∧ h = g.resetLexer.replay es := by
  rw [ConfigurationParser.run_eq] at hrun
  cases hes : lexemes text with
  | error e => rw [hes] at hrun; cases hrun
  | ok es =>
    rw [hes] at hrun
    exact ⟨es, rfl, (Except.ok.inj hrun).symm⟩

end ResMonitor
