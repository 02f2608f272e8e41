import ResMonitor.ConfigRules

/-! # The configuration lexer

The actions of the rules, over the start-condition stack of the lexer object
and the file-level variables of the lexer, which outlive it. The characters of
the text are its bytes; what the default rule echoes is left out. -/

namespace ResMonitor

/-! ## Arithmetic of `long` -/

/-- A result of `+` or `*`, wrapped to 64 bits. -/
def wrap (n : Int) : Int := n.bmod (2 ^ 64)

/-- `LONG_MAX`, of 64 bits. -/
def longMax : Int := 9223372036854775807

theorem wrap_of_le {n : Int} (hpos : 0 ≤ n) (hmax : n ≤ longMax) : wrap n = n := by
  unfold longMax at hmax
  exact Int.bmod_eq_of_le (by omega) (by omega)

/-- `atol` of a digit string, which saturates. -/
def atol (yytext : List Char) : Int := min (Nat.ofDigitChars 10 yytext 0) longMax

def secInMin : Int := 60
def secInHour : Int := secInMin * 60
def secInDay : Int := secInHour * 24

/-- What a number of this unit is multiplied by. -/
def TimeUnit.seconds : TimeUnit → Int
  | .sec => 1
  | .min => secInMin
  | .hour => secInHour
  | .day => secInDay

theorem TimeUnit.one_le_seconds (unit : TimeUnit) : 1 ≤ unit.seconds := by
  cases unit <;> decide

/-! ## State -/

/-- The file-level variables. -/
structure Globals where
  currentDurationTime : Int
  lastReadDurationElement : Int
  currentTriggerType : TriggerType
  triggerTypes : List TriggerType
  currentResourceValue : ResourceValue
  triggerResourceValues : List ResourceValue
  triggerDurationTimes : List Int
  currentLogType : LogType
  logTypes : List LogType
  logDurations : List Int
  logResolutions : List Int

/-- Static storage: every variable is zero or empty when the process starts. -/
def Globals.fresh : Globals where
  currentDurationTime := 0
  lastReadDurationElement := 0
  currentTriggerType := ⟨.cpu, .under, ⟨.percent, 0⟩, 0⟩
  triggerTypes := []
  currentResourceValue := ⟨.percent, 0⟩
  triggerResourceValues := []
  triggerDurationTimes := []
  currentLogType := ⟨.cpu, 0, 0⟩
  logTypes := []
  logDurations := []
  logResolutions := []

/-- `yy_start`, the start-condition stack with its top first, and the variables. -/
structure Scanner where
  start : StartCondition
  stack : List StartCondition
  globals : Globals

/-- `LexerError`, which ends the process. -/
inductive LexerError where
  | startConditionStackUnderflow
  deriving DecidableEq, Repr

namespace Scanner

def assign (f : Globals → Globals) (s : Scanner) : Scanner := { s with globals := f s.globals }

def yyPushState (newState : StartCondition) (s : Scanner) : Scanner :=
  { s with start := newState, stack := s.start :: s.stack }

def yyPopState (s : Scanner) : Except LexerError Scanner :=
  match s.stack with
  | [] => .error .startConditionStackUnderflow
  | top :: stack => .ok { s with start := top, stack }

end Scanner

/-! ## Cross products -/

namespace Globals

/-- The body of the inner loop of `produceTriggersCrossproduct`. -/
def pushTrigger (res : ResourceValue) (g : Globals) (duration : Int) : Globals :=
  let trigger := { g.currentTriggerType with triggerValue := res, duration }
  { g with currentTriggerType := trigger, triggerTypes := g.triggerTypes ++ [trigger] }

def produceTriggersCrossproduct (g : Globals) : Globals :=
  let g' := g.triggerResourceValues.foldl
    (fun g' res => g.triggerDurationTimes.foldl (pushTrigger res) g') g
  { g' with triggerResourceValues := [], triggerDurationTimes := [] }

/-- The body of the inner loop of `produceLogsCrossproduct`. -/
def pushLog (duration : Int) (g : Globals) (res : Int) : Globals :=
  let log := { g.currentLogType with resolution := res, duration }
  { g with currentLogType := log, logTypes := g.logTypes ++ [log] }

def produceLogsCrossproduct (g : Globals) : Globals :=
  let g' := g.logDurations.foldl
    (fun g' duration => g.logResolutions.foldl (pushLog duration) g') g
  { g' with logDurations := [], logResolutions := [] }

/-! ## Actions -/

def setTriggerResource (resource : Resource) (g : Globals) : Globals :=
  { g with currentTriggerType := { g.currentTriggerType with resource } }

def setFluctuation (fluctuationType : FluctuationType) (g : Globals) : Globals :=
  { g with currentTriggerType := { g.currentTriggerType with fluctuationType } }

def setLogResource (resource : Resource) (g : Globals) : Globals :=
  { g with currentLogType := { g.currentLogType with resource } }

def setValue (yytext : List Char) (g : Globals) : Globals :=
  { g with currentResourceValue := { g.currentResourceValue with value := atol yytext } }

def setUnit (unitType : ResourceUnit) (g : Globals) : Globals :=
  { g with currentResourceValue := { g.currentResourceValue with unitType } }

def pushValue (g : Globals) : Globals :=
  { g with triggerResourceValues := g.triggerResourceValues ++ [g.currentResourceValue] }

def setElement (yytext : List Char) (g : Globals) : Globals :=
  { g with lastReadDurationElement := atol yytext }

def addElement (unit : TimeUnit) (g : Globals) : Globals :=
  let seconds := wrap (g.lastReadDurationElement * unit.seconds)
  { g with currentDurationTime := wrap (g.currentDurationTime + seconds) }

/-- The duration read so far goes to the list of its environment, and a new one begins. -/
def pushDuration : DurationEnv → Globals → Globals
  | .triggerDurationSet, g | .triggerDurationSingle, g =>
    { g with triggerDurationTimes := g.triggerDurationTimes ++ [g.currentDurationTime],
             currentDurationTime := 0 }
  | .logDurationSet, g | .logDurationSingle, g =>
    { g with logDurations := g.logDurations ++ [g.currentDurationTime], currentDurationTime := 0 }
  | .logResolutionSet, g | .logResolutionSingle, g =>
    { g with logResolutions := g.logResolutions ++ [g.currentDurationTime],
             currentDurationTime := 0 }

end Globals

def resourceEnv : Bool → StartCondition
  | true => .resourceSetEnv
  | false => .resourceSingleNoEnv

def lastEnv : Bool → DurationEnv
  | true => .triggerDurationSet
  | false => .triggerDurationSingle

def forEnv : Bool → DurationEnv
  | true => .logDurationSet
  | false => .logDurationSingle

def resolutionEnv : Bool → DurationEnv
  | true => .logResolutionSet
  | false => .logResolutionSingle

/-- The action of a rule. -/
def action (rule : Rule) (yytext : List Char) (s : Scanner) : Except LexerError Scanner :=
  match rule with
  | .triggerResource resource => .ok (s.assign (.setTriggerResource resource))
  | .fluctuation type set => .ok ((s.assign (.setFluctuation type)).yyPushState (resourceEnv set))
  | .valueNumber => .ok (s.assign (.setValue yytext))
  | .valueUnit unit => .ok (s.assign (.setUnit unit))
  | .valueComma => .ok (s.assign .pushValue)
  | .valueClose => (s.assign .pushValue).yyPopState
  | .singleNumber => .ok (s.assign (.setValue yytext))
  | .singleUnit unit => ((s.assign (.setUnit unit)).assign .pushValue).yyPopState
  | .last set => .ok (s.yyPushState (lastEnv set).condition)
  | .number _ => .ok (s.assign (.setElement yytext))
  | .timeUnit _ unit => .ok (s.assign (.addElement unit))
  | .comma env => .ok (s.assign (.pushDuration env))
  | .close env => match env with
    | .triggerDurationSet | .triggerDurationSingle => do
      let s ← (s.assign (.pushDuration env)).yyPopState
      let s ← s.yyPopState
      .ok (s.assign .produceTriggersCrossproduct)
    | .logDurationSet | .logDurationSingle => (s.assign (.pushDuration env)).yyPopState
    | .logResolutionSet | .logResolutionSingle => do
      let s ← (s.assign (.pushDuration env)).yyPopState
      let s ← s.yyPopState
      .ok (s.assign .produceLogsCrossproduct)
  | .logResource resource => .ok (s.assign (.setLogResource resource))
  | .logFor set => .ok (s.yyPushState (forEnv set).condition)
  | .resolution set => .ok (s.yyPushState (resolutionEnv set).condition)
  | .blanks | .newlines => .ok s
  | .log => .ok (s.yyPushState .logEnv)
  | .trigger => .ok (s.yyPushState .triggerEnv)
  | .echo => .ok s

/-- `yyFlexLexer` -/
def configLexer : Flex.Lexer Rule Char Scanner LexerError where
  active s := activeRules s.start
  default := .echo
  action := action

/-- `resetLexer` -/
def Globals.resetLexer (g : Globals) : Globals := { g with triggerTypes := [], logTypes := [] }

/-- A new lexer object, over variables that may have been used before. -/
def Scanner.new (g : Globals) : Scanner := ⟨.initial, [], g⟩

/-- `ConfigurationParser::run`: the variables afterwards, the parsed types
among them. `yylex` returns once, at the end of the text. -/
def ConfigurationParser.run (g : Globals) (text : List Char) : Except LexerError Globals := do
  let s ← configLexer.run (Scanner.new g.resetLexer) text
  .ok s.globals

/-! ## What the actions do -/

theorem foldl_pushTrigger (res : ResourceValue) (durations : List Int) (g : Globals) :
    (durations.foldl (Globals.pushTrigger res) g).triggerTypes =
        g.triggerTypes ++ durations.map (fun d =>
          { g.currentTriggerType with triggerValue := res, duration := d }) ∧
    ∃ t : TriggerType, t.resource = g.currentTriggerType.resource ∧
      t.fluctuationType = g.currentTriggerType.fluctuationType ∧
      durations.foldl (Globals.pushTrigger res) g =
        { g with currentTriggerType := t,
                 triggerTypes := (durations.foldl (Globals.pushTrigger res) g).triggerTypes } := by
  induction durations generalizing g with
  | nil => exact ⟨by simp, g.currentTriggerType, rfl, rfl, rfl⟩
  | cons d durations ih =>
    obtain ⟨htypes, t, hr, hf, heq⟩ := ih (g.pushTrigger res d)
    rw [List.foldl_cons]
    refine ⟨?_, t, hr, hf, ?_⟩
    · rw [htypes]
      simp [Globals.pushTrigger]
    · rw [heq]
      rfl

/-- Every value with every duration, the values outermost. -/
theorem produceTriggersCrossproduct_spec (g : Globals) :
    ∃ t : TriggerType, t.resource = g.currentTriggerType.resource ∧
      t.fluctuationType = g.currentTriggerType.fluctuationType ∧
      g.produceTriggersCrossproduct =
        { g with
          currentTriggerType := t
          triggerTypes := g.triggerTypes ++ g.triggerResourceValues.flatMap fun res =>
            g.triggerDurationTimes.map fun d =>
              ⟨g.currentTriggerType.resource, g.currentTriggerType.fluctuationType, res, d⟩
          triggerResourceValues := []
          triggerDurationTimes := [] } := by
  have hloop : ∀ (values : List ResourceValue) (g' : Globals),
      ∃ t : TriggerType, t.resource = g'.currentTriggerType.resource ∧
        t.fluctuationType = g'.currentTriggerType.fluctuationType ∧
        values.foldl (fun g' res => g.triggerDurationTimes.foldl (Globals.pushTrigger res) g') g' =
          { g' with
            currentTriggerType := t
            triggerTypes := g'.triggerTypes ++ values.flatMap fun res =>
              g.triggerDurationTimes.map fun d => ⟨g'.currentTriggerType.resource,
                g'.currentTriggerType.fluctuationType, res, d⟩ } := by
    intro values
    induction values with
    | nil => exact fun g' => ⟨g'.currentTriggerType, rfl, rfl, by simp⟩
    | cons res values ih =>
      intro g'
      obtain ⟨htypes, t, hr, hf, heq⟩ := foldl_pushTrigger res g.triggerDurationTimes g'
      obtain ⟨t', hr', hf', heq'⟩ := ih (g.triggerDurationTimes.foldl (Globals.pushTrigger res) g')
      rw [List.foldl_cons, heq']
      rw [heq] at hr' hf'
      refine ⟨t', hr'.trans hr, hf'.trans hf, ?_⟩
      rw [heq, htypes]
      simp only [hr, hf, List.flatMap_cons, List.append_assoc]
  obtain ⟨t, hr, hf, heq⟩ := hloop g.triggerResourceValues g
  refine ⟨t, hr, hf, ?_⟩
  rw [Globals.produceTriggersCrossproduct, heq]

theorem foldl_pushLog (duration : Int) (resolutions : List Int) (g : Globals) :
    (resolutions.foldl (Globals.pushLog duration) g).logTypes =
        g.logTypes ++ resolutions.map (fun r =>
          { g.currentLogType with resolution := r, duration }) ∧
    ∃ l : LogType, l.resource = g.currentLogType.resource ∧
      resolutions.foldl (Globals.pushLog duration) g =
        { g with currentLogType := l,
                 logTypes := (resolutions.foldl (Globals.pushLog duration) g).logTypes } := by
  induction resolutions generalizing g with
  | nil => exact ⟨by simp, g.currentLogType, rfl, rfl⟩
  | cons r resolutions ih =>
    obtain ⟨htypes, l, hr, heq⟩ := ih (g.pushLog duration r)
    rw [List.foldl_cons]
    refine ⟨?_, l, hr, ?_⟩
    · rw [htypes]
      simp [Globals.pushLog]
    · rw [heq]
      rfl

/-- Every duration with every resolution, the durations outermost. -/
theorem produceLogsCrossproduct_spec (g : Globals) :
    ∃ l : LogType, l.resource = g.currentLogType.resource ∧
      g.produceLogsCrossproduct =
        { g with
          currentLogType := l
          logTypes := g.logTypes ++ g.logDurations.flatMap fun d =>
            g.logResolutions.map fun r => ⟨g.currentLogType.resource, d, r⟩
          logDurations := []
          logResolutions := [] } := by
  have hloop : ∀ (durations : List Int) (g' : Globals),
      ∃ l : LogType, l.resource = g'.currentLogType.resource ∧
        durations.foldl (fun g' d => g.logResolutions.foldl (Globals.pushLog d) g') g' =
          { g' with
            currentLogType := l
            logTypes := g'.logTypes ++ durations.flatMap fun d =>
              g.logResolutions.map fun r => ⟨g'.currentLogType.resource, d, r⟩ } := by
    intro durations
    induction durations with
    | nil => exact fun g' => ⟨g'.currentLogType, rfl, by simp⟩
    | cons d durations ih =>
      intro g'
      obtain ⟨htypes, l, hr, heq⟩ := foldl_pushLog d g.logResolutions g'
      obtain ⟨l', hr', heq'⟩ := ih (g.logResolutions.foldl (Globals.pushLog d) g')
      rw [List.foldl_cons, heq']
      rw [heq] at hr'
      refine ⟨l', hr'.trans hr, ?_⟩
      rw [heq, htypes]
      simp only [hr, List.flatMap_cons, List.append_assoc]
  obtain ⟨l, hr, heq⟩ := hloop g.logDurations g
  refine ⟨l, hr, ?_⟩
  rw [Globals.produceLogsCrossproduct, heq]

end ResMonitor
