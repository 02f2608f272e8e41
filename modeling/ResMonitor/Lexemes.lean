import ResMonitor.Effects
import ResMonitor.Statements

/-! # The lexemes of a statement

Which rule reads each piece of a statement, in the environment it stands in
and before the pieces that may come next. That the piece is one lexeme of that
rule, for all its texts, is computed from the rules, once, in `lexemeTable`. -/

namespace ResMonitor

open Flex (Reads HeadIn)

/-! ## First characters -/

def blank : List Char := [' ', '\t']
def digitHeads : List Char := ['0', '1', '2', '3', '4', '5', '6', '7', '8', '9']
def timeUnitHeads : List Char := blank ++ ['s', 'm', 'h', 'd']
def afterTimeUnit : List Char := digitHeads ++ blank ++ [',', '}', '\n']
def unitHeads : List Char := blank ++ ['%', 'm', 'M', 'g', 'G']
def afterUnit : List Char := blank ++ [',', '}']
def resourceHeads : List Char := ['c', 'C', 'm', 'M', 'd', 'D']
def fluctuationHeads : List Char := ['o', 'O', 'u', 'U']
def keywordHeads : List Char := ['l', 'L', 't', 'T']
def statementHeads : List Char := blank ++ keywordHeads

theorem headIn_digits (n : Nat) : HeadIn digitHeads (digits n) :=
  fun w hw => Flex.headIn_matches' (p := numberPattern) (by decide) w hw.1

theorem headIn_timeUnit (unit : TimeUnit) :
    HeadIn timeUnitHeads (ws0 * timeUnitPattern unit).matches' := by
  cases unit <;> exact Flex.headIn_matches'

theorem headIn_unit (unit : ResourceUnit) : HeadIn unitHeads (ws0 * unitPattern unit).matches' := by
  cases unit <;> exact Flex.headIn_matches'

theorem headIn_resource (resource : Resource) :
    HeadIn resourceHeads (resourcePattern resource * ws1).matches' := by
  cases resource <;> exact Flex.headIn_matches'

/-! ## The table -/

/-- Every text of `p`, in the start condition `c` and before a character of
`follow`, is one lexeme of `rule`. -/
abbrev IsLexeme (c : StartCondition) (p : Pattern) (rule : Rule) (follow : List Char) : Prop :=
  Flex.lexeme (activeRules c) p rule follow = true

/-- The pieces of a statement, by the rules that read them. -/
structure LexemeTable : Prop where
  blanks : IsLexeme .initial ws1 .blanks keywordHeads
  newlines : IsLexeme .initial newlinesPattern .newlines statementHeads
  trigger : IsLexeme .initial (anyCase "trigger" * ws1) .trigger resourceHeads
  log : IsLexeme .initial (anyCase "log" * ws1) .log resourceHeads
  triggerResource : ∀ resource, IsLexeme .triggerEnv (resourcePattern resource * ws1)
    (.triggerResource resource) fluctuationHeads
  logResource : ∀ resource, IsLexeme .logEnv (resourcePattern resource * ws1)
    (.logResource resource) ['f', 'F']
  fluctuation : ∀ type set, IsLexeme .triggerEnv (opening (fluctuationPattern type) set)
    (.fluctuation type set) digitHeads
  last : ∀ set, IsLexeme .triggerEnv (opening lastPattern set) (.last set) digitHeads
  logFor : ∀ set, IsLexeme .logEnv (opening (anyCase "for") set) (.logFor set) digitHeads
  resolution : ∀ set, IsLexeme .logEnv (opening (anyCase "resolution") set) (.resolution set)
    digitHeads
  number : ∀ env : DurationEnv, IsLexeme env.condition numberPattern (.number env) timeUnitHeads
  timeUnit : ∀ (env : DurationEnv) unit, IsLexeme env.condition (ws0 * timeUnitPattern unit)
    (.timeUnit env unit) afterTimeUnit
  comma : ∀ env : DurationEnv, .comma env ∈ rules →
    IsLexeme env.condition commaPattern (.comma env) digitHeads
  valueNumber : IsLexeme .resourceSetEnv numberPattern .valueNumber unitHeads
  singleNumber : IsLexeme .resourceSingleNoEnv numberPattern .singleNumber unitHeads
  valueUnit : ∀ unit, IsLexeme .resourceSetEnv (ws0 * unitPattern unit) (.valueUnit unit) afterUnit
  singleUnit : ∀ unit, IsLexeme .resourceSingleNoEnv (ws0 * unitPattern unit * ws1)
    (.singleUnit unit) ['l', 'L']
  valueComma : IsLexeme .resourceSetEnv commaPattern .valueComma digitHeads
  valueClose : IsLexeme .resourceSetEnv (ws0 * closeBrace * ws0) .valueClose ['l', 'L']
  logDurationSet : IsLexeme .logDurationSetEnv (ws0 * closeBrace * ws1) (.close .logDurationSet)
    ['r', 'R']
  logDurationSingle : IsLexeme .logDurationSingleNoEnv ws1 (.close .logDurationSingle) ['r', 'R']
  endSet : ∀ env ∈ [DurationEnv.triggerDurationSet, .logResolutionSet],
    IsLexeme env.condition (ws0 * closeBrace * lineEnd) (.close env) statementHeads
  endBlanks : ∀ env ∈ [DurationEnv.triggerDurationSingle, .logResolutionSingle],
    IsLexeme env.condition ws1 (.close env) ['\n']
  endLines : ∀ env ∈ [DurationEnv.triggerDurationSingle, .logResolutionSingle],
    IsLexeme env.condition newlinesPattern (.close env) statementHeads

theorem lexemeTable : LexemeTable where
  blanks := by decide +kernel
  newlines := by decide +kernel
  trigger := by decide +kernel
  log := by decide +kernel
  triggerResource resource := by cases resource <;> decide +kernel
  logResource resource := by cases resource <;> decide +kernel
  fluctuation type set := by cases type <;> cases set <;> decide +kernel
  last set := by cases set <;> decide +kernel
  logFor set := by cases set <;> decide +kernel
  resolution set := by cases set <;> decide +kernel
  number env := by cases env <;> decide +kernel
  timeUnit env unit := by cases env <;> cases unit <;> decide +kernel
  comma env := by cases env <;> decide +kernel
  valueNumber := by decide +kernel
  singleNumber := by decide +kernel
  valueUnit unit := by cases unit <;> decide +kernel
  singleUnit unit := by cases unit <;> decide +kernel
  valueComma := by decide +kernel
  valueClose := by decide +kernel
  logDurationSet := by decide +kernel
  logDurationSingle := by decide +kernel
  endSet := by decide +kernel
  endBlanks := by decide +kernel
  endLines := by decide +kernel

/-! ## Lexemes -/

theorem atol_of_digits {n : Nat} {w : List Char} (h : w ∈ digits n) :
    atol w = min (n : Int) longMax := by
  unfold atol
  rw [h.2]

section Lexemes
variable {c c' : StartCondition} {stack stack' : List StartCondition} {g g' : Globals}
  {rule : Rule} {follow : List Char}

/-- A lexeme whose assignment does not depend on its text. -/
theorem reads_lexeme {p : Pattern} (hlexeme : IsLexeme c p rule follow)
    (hstack : rule.stackEffect.run (c, stack) = .ok (c', stack'))
    (hassigns : ∀ yytext, rule.assigns yytext g = g') :
    Reads configLexer ⟨c, stack, g⟩ p.matches' follow ⟨c', stack', g'⟩ :=
  Reads.lexeme hlexeme (fun _ hw => hw)
    fun yytext _ => action_eq_ok_iff.mpr ⟨hstack, (hassigns yytext).symm⟩

/-- A number. -/
theorem reads_digits {n : Nat}
    (hlexeme : IsLexeme c numberPattern rule follow)
    (hstack : rule.stackEffect.run (c, stack) = .ok (c, stack))
    (hassigns : ∀ yytext, atol yytext = min (n : Int) longMax → rule.assigns yytext g = g') :
    Reads configLexer ⟨c, stack, g⟩ (digits n) follow ⟨c, stack, g'⟩ :=
  Reads.lexeme hlexeme (fun _ hw => hw.1)
    fun yytext hw => action_eq_ok_iff.mpr ⟨hstack, (hassigns yytext (atol_of_digits hw)).symm⟩

end Lexemes

/-! ## Blanks -/

/-- Blanks that may be missing. -/
theorem matches'_ws0_mul (p : Pattern) :
    (ws0 * p).matches' = p.matches' + (ws1 * p).matches' := by
  have hstar : ws0.matches' = 1 + ws1.matches' := one_add_mul_kstar.symm
  show ws0.matches' * p.matches' = p.matches' + ws1.matches' * p.matches'
  rw [hstar, add_mul, one_mul]

/-- A keyword, after blanks or not. -/
theorem reads_keyword {keyword : Pattern} {rule : Rule} {c : StartCondition} (g : Globals)
    (hlexeme : IsLexeme .initial keyword rule resourceHeads)
    (hstack : rule.stackEffect.run (.initial, []) = .ok (c, [.initial]))
    (hassigns : ∀ yytext, rule.assigns yytext g = g)
    (hhead : HeadIn keywordHeads keyword.matches') :
    Reads configLexer ⟨.initial, [], g⟩ (ws0 * keyword).matches' resourceHeads
      ⟨c, [.initial], g⟩ := by
  have hkeyword := reads_lexeme hlexeme hstack hassigns
  have hblanks : Reads configLexer ⟨.initial, [], g⟩ ws1.matches' keywordHeads ⟨.initial, [], g⟩ :=
    reads_lexeme lexemeTable.blanks rfl fun _ => rfl
  rw [matches'_ws0_mul]
  exact hkeyword.add (hblanks.mul hkeyword hhead)

/-- A plain last element is ended by blanks or by ends of line; after blanks,
the ends of line are read between statements. -/
theorem reads_end (env : DurationEnv) (g : Globals)
    (henv : env ∈ [DurationEnv.triggerDurationSingle, .logResolutionSingle]) :
    Reads configLexer ⟨env.condition, [env.scope, .initial], g⟩ lineEnd.matches' statementHeads
      ⟨.initial, [], (g.pushDuration env).produce env⟩ := by
  have hstack : (Rule.close env).stackEffect.run (env.condition, [env.scope, .initial]) =
      .ok (.initial, []) := by
    rcases List.mem_pair.mp henv with rfl | rfl <;> rfl
  have hlines := reads_lexeme (g := g) (lexemeTable.endLines env henv) hstack fun _ => rfl
  have hblanks := reads_lexeme (g := g) (lexemeTable.endBlanks env henv) hstack fun _ => rfl
  rw [lineEnd, matches'_ws0_mul]
  refine hlines.add (hblanks.mul (reads_lexeme lexemeTable.newlines rfl fun _ => rfl) ?_)
  exact Flex.headIn_matches'

end ResMonitor
