import ResMonitor.ConfigLexer

/-! # Statements of a configuration file

What a configuration file is for, apart from how it is read: its statements,
the triggers and logs they stand for, and the texts they may be written as. A
list never is empty and a number always fits in a `long`: the types say so. -/

namespace ResMonitor

/-! ## Statements -/

structure Items (α : Type) where
  first : α
  rest : List α

def Items.toList {α : Type} (x : Items α) : List α := x.first :: x.rest

/-- The sum of numbers with their units. -/
def totalSeconds : List (Nat × TimeUnit) → Int
  | [] => 0
  | (n, unit) :: parts => n * unit.seconds + totalSeconds parts

/-- Numbers with their units, `1d12h`. -/
structure Duration where
  parts : Items (Nat × TimeUnit)
  fits : totalSeconds parts.toList ≤ longMax

def Duration.seconds (d : Duration) : Int := totalSeconds d.parts.toList

/-- A number with its unit, `70%`. -/
structure Threshold where
  number : Nat
  unit : ResourceUnit
  fits : (number : Int) ≤ longMax

def Threshold.value (v : Threshold) : ResourceValue := ⟨v.unit, v.number⟩

inductive Statement where
  | trigger (resource : Resource) (type : FluctuationType) (values : Items Threshold)
      (durations : Items Duration)
  | log (resource : Resource) (durations resolutions : Items Duration)

namespace Statement

/-- Every value with every duration. -/
def triggers : Statement → List TriggerType
  | trigger resource type values durations =>
    values.toList.flatMap fun v =>
      durations.toList.map fun d => ⟨resource, type, v.value, d.seconds⟩
  | log _ _ _ => []

/-- Every duration with every resolution. -/
def logs : Statement → List LogType
  | trigger _ _ _ _ => []
  | log resource durations resolutions =>
    durations.toList.flatMap fun d =>
      resolutions.toList.map fun r => ⟨resource, d.seconds, r.seconds⟩

end Statement

/-! ## Texts -/

section Texts
open RegularExpression

/-- Whether a pattern matches a given text can be computed. -/
theorem mem_of_rmatch {p : Pattern} {w : List Char} (h : p.rmatch w = true) : w ∈ p.matches' :=
  (rmatch_iff_matches' p w).mp h

/-- The ways to write a number. -/
def digits (n : Nat) : Language Char :=
  {w | w ∈ numberPattern.matches' ∧ Nat.ofDigitChars 10 w 0 = n}

def commaPattern : Pattern := ws0 * lit "," * ws0
def newlinesPattern : Pattern := char '\n' * star (char '\n')
def lineEnd : Pattern := ws0 * newlinesPattern

def partText (part : Nat × TimeUnit) : Language Char :=
  digits part.1 * (ws0 * timeUnitPattern part.2).matches'

def Duration.text (d : Duration) : Language Char := (d.parts.toList.map partText).prod

def Threshold.text (v : Threshold) : Language Char :=
  digits v.number * (ws0 * unitPattern v.unit).matches'

/-- A list in braces, or its only element without; `ending set` is what comes after. -/
def listText {α : Type} (head ending : Bool → Pattern) (text : α → Language Char) (x : Items α) :
    Language Char :=
  (head true).matches' * Flex.sepBy text commaPattern.matches'
      (ws0 * closeBrace * ending true).matches' x.first x.rest +
    if x.rest.isEmpty then (head false).matches' * (text x.first * (ending false).matches') else 0

/-- What separates a list from the next keyword: a list in braces need not be. -/
def wsAfter : Bool → Pattern
  | true => ws0
  | false => ws1

/-- One statement on a line of its own, with blanks around it. -/
def Statement.text : Statement → Language Char
  | .trigger resource type values durations =>
    (ws0 * (anyCase "trigger" * ws1)).matches' * ((resourcePattern resource * ws1).matches' *
      (listText (opening (fluctuationPattern type)) wsAfter Threshold.text values *
        listText (opening lastPattern) (fun _ => lineEnd) Duration.text durations))
  | .log resource durations resolutions =>
    (ws0 * (anyCase "log" * ws1)).matches' * ((resourcePattern resource * ws1).matches' *
      (listText (opening (anyCase "for")) (fun _ => ws1) Duration.text durations *
        listText (opening (anyCase "resolution")) (fun _ => lineEnd) Duration.text resolutions))

def configText (statements : List Statement) : Language Char :=
  (statements.map Statement.text).prod

end Texts
end ResMonitor
