import ResMonitor.Config
import ResMonitor.Lib.Lexer

/-! # The rules of the configuration lexer

The definitions and rules of `configparser.l`, in their order. A rule inside a
scope is active in the start conditions of all enclosing scopes, and a rule
outside of any scope in every start condition. Near-identical rules of the six
duration environments are one rule with a parameter. -/

namespace ResMonitor

inductive StartCondition where
  | initial
  | logEnv | triggerEnv
  | resourceSetEnv | resourceSingleNoEnv
  | triggerDurationSetEnv | triggerDurationSingleNoEnv
  | logDurationSetEnv | logDurationSingleNoEnv
  | logResolutionSetEnv | logResolutionSingleNoEnv
  deriving DecidableEq, Repr

/-- The start conditions that read durations. -/
inductive DurationEnv where
  | triggerDurationSet | triggerDurationSingle
  | logDurationSet | logDurationSingle
  | logResolutionSet | logResolutionSingle
  deriving DecidableEq, Repr

inductive TimeUnit where
  | sec | min | hour | day
  deriving DecidableEq, Repr

inductive Rule where
  | triggerResource (resource : Resource)
  | fluctuation (type : FluctuationType) (set : Bool)
  | valueNumber
  | valueUnit (unit : ResourceUnit)
  | valueComma
  | valueClose
  | singleNumber
  | singleUnit (unit : ResourceUnit)
  | last (set : Bool)
  | number (env : DurationEnv)
  | timeUnit (env : DurationEnv) (unit : TimeUnit)
  | comma (env : DurationEnv)
  | close (env : DurationEnv)
  | logResource (resource : Resource)
  | logFor (set : Bool)
  | resolution (set : Bool)
  | blanks
  | newlines
  | log
  | trigger
  /-- The default rule. -/
  | echo
  deriving DecidableEq, Repr

/-! ## Patterns -/

section Patterns
open RegularExpression

abbrev Pattern := RegularExpression Char

def oneOf (cs : List Char) : Pattern := (cs.map char).foldr (· + ·) 0

/-- A quoted text. -/
def lit (text : String) : Pattern := (text.toList.map char).foldr (· * ·) 1

/-- `(?i:"text")` -/
def anyCase (text : String) : Pattern :=
  (text.toList.map fun c => if c.toUpper = c then char c else char c + char c.toUpper).foldr
    (· * ·) 1

def openBrace : Pattern := lit "\x7b"
def closeBrace : Pattern := lit "\x7d"
def ws : Pattern := oneOf [' ', '\t']
def ws0 : Pattern := star ws
def ws1 : Pattern := ws * star ws
def digit : Pattern := oneOf ['0', '1', '2', '3', '4', '5', '6', '7', '8', '9']
def numberPattern : Pattern := digit * star digit

def resourcePattern : Resource → Pattern
  | .cpu => anyCase "cpu"
  | .memory => anyCase "memory"
  | .disk => anyCase "disk"

def fluctuationPattern : FluctuationType → Pattern
  | .over => anyCase "over"
  | .under => anyCase "under"

def unitPattern : ResourceUnit → Pattern
  | .percent => lit "%"
  | .mb => anyCase "mb" + anyCase "mb/s" + anyCase "mbps"
  | .gb => anyCase "gb" + anyCase "gb/s" + anyCase "gbps"

def lastPattern : Pattern := anyCase "last for" + anyCase "last"

/-- The unit letters of the rules are not case insensitive. -/
def timeUnitPattern : TimeUnit → Pattern
  | .sec => lit "s"
  | .min => lit "m"
  | .hour => lit "h"
  | .day => lit "d"

/-- What ends the durations of each environment. -/
def closePattern : DurationEnv → Pattern
  | .triggerDurationSet => ws0 * closeBrace * ws0 * star (char '\n')
  | .triggerDurationSingle => ws0 + star (char '\n')
  | .logDurationSet => ws0 * closeBrace * ws1
  | .logDurationSingle => ws1
  | .logResolutionSet => ws0 * closeBrace * ws0 * star (char '\n')
  | .logResolutionSingle => ws0 + star (char '\n')

/-- `{keyword}{ws}+"{"{ws}*` or `{keyword}{ws}+` -/
def opening (keyword : Pattern) : Bool → Pattern
  | true => keyword * ws1 * openBrace * ws0
  | false => keyword * ws1

def Rule.pattern : Rule → Pattern
  | .triggerResource resource => resourcePattern resource * ws1
  | .fluctuation type set => opening (fluctuationPattern type) set
  | .valueNumber => numberPattern
  | .valueUnit unit => ws0 * unitPattern unit
  | .valueComma => ws0 * lit "," * ws0
  | .valueClose => ws0 * closeBrace * ws0
  | .singleNumber => numberPattern
  | .singleUnit unit => ws0 * unitPattern unit * ws1
  | .last set => opening (ws0 * lastPattern) set
  | .number _ => numberPattern
  | .timeUnit _ unit => ws0 * timeUnitPattern unit
  | .comma _ => ws0 * lit "," * ws0
  | .close env => closePattern env
  | .logResource resource => resourcePattern resource * ws1
  | .logFor set => opening (anyCase "for") set
  | .resolution set => opening (anyCase "resolution") set
  | .blanks => ws1
  | .newlines => char '\n' * star (char '\n')
  | .log => anyCase "log" * ws1
  | .trigger => anyCase "trigger" * ws1
  | .echo => 0

end Patterns

/-! ## Scopes -/

def DurationEnv.condition : DurationEnv → StartCondition
  | .triggerDurationSet => .triggerDurationSetEnv
  | .triggerDurationSingle => .triggerDurationSingleNoEnv
  | .logDurationSet => .logDurationSetEnv
  | .logDurationSingle => .logDurationSingleNoEnv
  | .logResolutionSet => .logResolutionSetEnv
  | .logResolutionSingle => .logResolutionSingleNoEnv

/-- The scope a duration environment is written in. -/
def DurationEnv.scope : DurationEnv → StartCondition
  | .triggerDurationSet | .triggerDurationSingle => .triggerEnv
  | _ => .logEnv

/-- The rule is active in a start condition. -/
def Rule.activeIn (condition : StartCondition) : Rule → Bool
  | .triggerResource _ | .fluctuation _ _ | .last _ => condition = .triggerEnv
  | .valueNumber | .valueUnit _ | .valueComma | .valueClose =>
    condition = .triggerEnv || condition = .resourceSetEnv
  | .singleNumber | .singleUnit _ => condition = .triggerEnv || condition = .resourceSingleNoEnv
  | .number env | .timeUnit env _ | .comma env | .close env =>
    condition = env.scope || condition = env.condition
  | .logResource _ | .logFor _ | .resolution _ => condition = .logEnv
  | .blanks | .newlines | .log | .trigger => true
  | .echo => false

def durationRules (env : DurationEnv) : List Rule :=
  [.number env, .timeUnit env .sec, .timeUnit env .min, .timeUnit env .hour, .timeUnit env .day]

/-- Rules 1 to 69 of `configparser.l`. -/
def rules : List Rule := List.flatten [
  [.triggerResource .cpu, .triggerResource .memory, .triggerResource .disk,
   .fluctuation .under true, .fluctuation .under false,
   .fluctuation .over true, .fluctuation .over false,
   .valueNumber, .valueUnit .percent, .valueUnit .mb, .valueUnit .gb, .valueComma, .valueClose,
   .singleNumber, .singleUnit .percent, .singleUnit .mb, .singleUnit .gb,
   .last true, .last false],
  durationRules .triggerDurationSet, [.comma .triggerDurationSet, .close .triggerDurationSet],
  durationRules .triggerDurationSingle, [.close .triggerDurationSingle],
  [.logResource .cpu, .logResource .memory, .logResource .disk, .logFor true, .logFor false],
  durationRules .logDurationSet, [.comma .logDurationSet, .close .logDurationSet],
  durationRules .logDurationSingle, [.close .logDurationSingle],
  [.resolution true, .resolution false],
  durationRules .logResolutionSet, [.comma .logResolutionSet, .close .logResolutionSet],
  durationRules .logResolutionSingle, [.close .logResolutionSingle],
  [.blanks, .newlines, .log, .trigger]]

example : rules.length = 69 := rfl

def activeRules (condition : StartCondition) : Flex.Rules Rule Char :=
  (rules.filter (·.activeIn condition)).map fun rule => (rule, rule.pattern)

theorem activeIn_of_mem {condition : StartCondition} {rule : Rule} {p : Pattern}
    (h : (rule, p) ∈ activeRules condition) :
    rule ∈ rules ∧ rule.activeIn condition = true ∧ p = rule.pattern := by
  obtain ⟨r, hr, heq⟩ := List.mem_map.mp h
  cases heq
  obtain ⟨hin, hact⟩ := List.mem_filter.mp hr
  exact ⟨hin, hact, rfl⟩

end ResMonitor
