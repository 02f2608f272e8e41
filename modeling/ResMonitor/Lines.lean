import ResMonitor.Lexemes

/-! # Lines of a configuration file

A statement as it stands in a file, with numbers of any size, and with or
without the end of its line. Its text is followed lexeme by lexeme, in the order
of its grammar. How the variables change on the way depends on the line alone. -/

namespace ResMonitor

open Flex (Reads HeadIn)

/-- A statement as it is written. -/
inductive Line where
  | trigger (resource : Resource) (type : FluctuationType) (values : Items (Nat × ResourceUnit))
      (durations : Items (Items (Nat × TimeUnit)))
  | log (resource : Resource) (durations resolutions : Items (Items (Nat × TimeUnit)))

/-! ## Texts -/

def valueText (value : Nat × ResourceUnit) : Language Char :=
  digits value.1 * (ws0 * unitPattern value.2).matches'

def durationText (duration : Items (Nat × TimeUnit)) : Language Char :=
  (duration.toList.map partText).prod

namespace Line

/-- The text before the keyword of the last list. -/
def headText : Line → Language Char
  | trigger resource type values _ =>
    (ws0 * (anyCase "trigger" * ws1)).matches' * ((resourcePattern resource * ws1).matches' *
      listText (opening (fluctuationPattern type)) wsAfter valueText values)
  | log resource durations _ =>
    (ws0 * (anyCase "log" * ws1)).matches' * ((resourcePattern resource * ws1).matches' *
      listText (opening (anyCase "for")) (fun _ => ws1) durationText durations)

def keyword : Line → Pattern
  | trigger _ _ _ _ => lastPattern
  | log _ _ _ => anyCase "resolution"

/-- The last list. -/
def lastList : Line → Items (Items (Nat × TimeUnit))
  | trigger _ _ _ durations => durations
  | log _ _ resolutions => resolutions

/-- What the last list is read in, with braces and without. -/
def env : Line → Bool → DurationEnv
  | trigger _ _ _ _ => lastEnv
  | log _ _ _ => resolutionEnv

/-- The line, with what ends it. -/
def textWith (ending : Pattern) (line : Line) : Language Char :=
  line.headText * listText (opening line.keyword) (fun _ => ending) durationText line.lastList

def text : Line → Language Char := textWith lineEnd

/-- Without an end of line, up to the last unit or brace. -/
def unendedText : Line → Language Char := textWith 1

end Line

/-! ## Assignments -/

namespace Globals

def readPart (g : Globals) (part : Nat × TimeUnit) : Globals :=
  { g with lastReadDurationElement := min part.1 longMax }.addElement part.2

def readParts (g : Globals) (parts : Items (Nat × TimeUnit)) : Globals :=
  parts.toList.foldl readPart g

def readList (env : DurationEnv) (g : Globals) (list : Items (Items (Nat × TimeUnit))) : Globals :=
  list.toList.foldl (fun g d => (g.readParts d).pushDuration env) g

def readValue (g : Globals) (value : Nat × ResourceUnit) : Globals :=
  { g with currentResourceValue := ⟨value.2, min value.1 longMax⟩ }

def readValues (g : Globals) (values : Items (Nat × ResourceUnit)) : Globals :=
  values.toList.foldl (fun g v => (g.readValue v).pushValue) g

def readHead (g : Globals) : Line → Globals
  | .trigger resource type values _ =>
    ((g.setTriggerResource resource).setFluctuation type).readValues values
  | .log resource durations _ => (g.setLogResource resource).readList .logDurationSet durations

def readLine (g : Globals) (line : Line) : Globals :=
  ((g.readHead line).readList (line.env true) line.lastList).produce (line.env true)

end Globals

/-! ## Durations -/

section Lists
variable {stack : List StartCondition}

theorem reads_part (env : DurationEnv) (part : Nat × TimeUnit) (g : Globals) :
    Reads configLexer ⟨env.condition, stack, g⟩ (partText part) afterTimeUnit
      ⟨env.condition, stack, g.readPart part⟩ := by
  obtain ⟨n, unit⟩ := part
  have hnumber : Reads configLexer ⟨env.condition, stack, g⟩ (digits n) timeUnitHeads
      ⟨env.condition, stack, { g with lastReadDurationElement := min n longMax }⟩ := by
    refine reads_digits (lexemeTable.number env) rfl fun yytext h => ?_
    exact congrArg (fun m => { g with lastReadDurationElement := m }) h
  exact hnumber.mul (reads_lexeme (lexemeTable.timeUnit env unit) rfl fun _ => rfl)
    (headIn_timeUnit unit)

theorem headIn_part (part : Nat × TimeUnit) : HeadIn digitHeads (partText part) :=
  (headIn_digits part.1).mul _

theorem headIn_duration (duration : Items (Nat × TimeUnit)) :
    HeadIn digitHeads (durationText duration) := by
  show HeadIn digitHeads (partText duration.first * (duration.rest.map partText).prod)
  exact (headIn_part _).mul _

theorem reads_duration (env : DurationEnv) (duration : Items (Nat × TimeUnit)) (g : Globals) :
    Reads configLexer ⟨env.condition, stack, g⟩ (durationText duration) afterTimeUnit
      ⟨env.condition, stack, g.readParts duration⟩ := by
  refine Reads.prod (fun part g => reads_part env part g) (fun part => ?_) duration.toList g
  exact (headIn_part part).mono (by decide)

/-! ## Lists -/

theorem headIn_listText {α : Type} {head ending : Bool → Pattern} {text : α → Language Char}
    {cs : List Char} (h : ∀ set, HeadIn cs (head set).matches') (x : Items α) :
    HeadIn cs (listText head ending text x) := by
  refine ((h true).mul _).add ?_
  split
  · exact (h false).mul _
  · exact fun w hw => absurd hw (Language.notMem_zero w)

/-- A list, given what either form of it leads to. -/
theorem reads_listText {α : Type} {head ending : Bool → Pattern} {text : α → Language Char}
    {x : Items α} {s s' : Scanner} {follow : List Char}
    (hset : Reads configLexer s ((head true).matches' * Flex.sepBy text commaPattern.matches'
      (ws0 * closeBrace * ending true).matches' x.first x.rest) follow s')
    (hsingle : x.rest = [] →
      Reads configLexer s ((head false).matches' * (text x.first * (ending false).matches'))
        follow s') :
    Reads configLexer s (listText head ending text x) follow s' := by
  refine hset.add ?_
  split
  · rename_i hrest
    exact hsingle (List.isEmpty_iff.mp hrest)
  · exact Reads.zero

/-- Durations in braces, where `finish` is what the closing does besides
pushing the last one. -/
theorem reads_durationSet {head close : Pattern} {c c' : StartCondition}
    {stack₀ stack' : List StartCondition} {follow : List Char} {env : DurationEnv}
    (finish : Globals → Globals) (hcomma : .comma env ∈ rules) {g : Globals}
    (hhead : Reads configLexer ⟨c, stack₀, g⟩ head.matches' digitHeads ⟨env.condition, stack, g⟩)
    (hclose : ∀ g, Reads configLexer ⟨env.condition, stack, g⟩ close.matches' follow
      ⟨c', stack', finish (g.pushDuration env)⟩)
    (hcloseHead : HeadIn afterTimeUnit close.matches')
    (durations : Items (Items (Nat × TimeUnit))) :
    Reads configLexer ⟨c, stack₀, g⟩ (head.matches' * Flex.sepBy durationText
      commaPattern.matches' close.matches' durations.first durations.rest) follow
      ⟨c', stack', finish (g.readList env durations)⟩ := by
  have hsep : ∀ g : Globals, Reads configLexer ⟨env.condition, stack, g⟩ commaPattern.matches'
      digitHeads ⟨env.condition, stack, g.pushDuration env⟩ :=
    fun g => reads_lexeme (lexemeTable.comma _ hcomma) rfl fun _ => rfl
  refine hhead.mul ?_ (HeadIn.sepBy headIn_duration _ _ _ _)
  exact Reads.sepBy (fun g => ⟨c', stack', finish g⟩) (reads_duration env) hsep hclose
    headIn_duration Flex.headIn_matches' hcloseHead durations.first durations.rest g

/-- A single duration, before what ends it. -/
theorem reads_durationSingle {head : Pattern} {c : StartCondition} {stack₀ : List StartCondition}
    {env : DurationEnv} {g : Globals}
    (hhead : Reads configLexer ⟨c, stack₀, g⟩ head.matches' digitHeads ⟨env.condition, stack, g⟩)
    (duration : Items (Nat × TimeUnit)) :
    Reads configLexer ⟨c, stack₀, g⟩ (head.matches' * durationText duration) afterTimeUnit
      ⟨env.condition, stack, g.readParts duration⟩ :=
  hhead.mul (reads_duration env duration g) (headIn_duration duration)

theorem readList_of_rest {env : DurationEnv} {list : Items (Items (Nat × TimeUnit))}
    (h : list.rest = []) (g : Globals) :
    g.readList env list = (g.readParts list.first).pushDuration env := by
  rw [Globals.readList, Items.toList, h]
  rfl

/-! ## Values -/

theorem headIn_value (value : Nat × ResourceUnit) : HeadIn digitHeads (valueText value) :=
  (headIn_digits value.1).mul _

theorem reads_valueNumber {c : StartCondition} {rule : Rule} (n : Nat) (g : Globals)
    (hlexeme : IsLexeme c numberPattern rule unitHeads)
    (hstack : rule.stackEffect.run (c, stack) = .ok (c, stack))
    (hassigns : ∀ yytext, rule.assigns yytext g = g.setValue yytext) :
    Reads configLexer ⟨c, stack, g⟩ (digits n) unitHeads ⟨c, stack, { g with
      currentResourceValue := { g.currentResourceValue with value := min n longMax } }⟩ := by
  refine reads_digits hlexeme hstack fun yytext h => (hassigns yytext).trans ?_
  exact congrArg (fun m =>
    { g with currentResourceValue := { g.currentResourceValue with value := m } }) h

theorem reads_value (value : Nat × ResourceUnit) (g : Globals) :
    Reads configLexer ⟨.resourceSetEnv, stack, g⟩ (valueText value) afterUnit
      ⟨.resourceSetEnv, stack, g.readValue value⟩ :=
  (reads_valueNumber value.1 g lexemeTable.valueNumber rfl fun _ => rfl).mul
    (reads_lexeme (lexemeTable.valueUnit value.2) rfl fun _ => rfl) (headIn_unit value.2)

/-- The unit of a plain value is read together with the blanks after it. -/
theorem reads_plainValue (value : Nat × ResourceUnit) (g : Globals) :
    Reads configLexer ⟨.resourceSingleNoEnv, .triggerEnv :: stack, g⟩
      (valueText value * ws1.matches') ['l', 'L']
      ⟨.triggerEnv, stack, (g.readValue value).pushValue⟩ := by
  have htext : valueText value * ws1.matches' =
      digits value.1 * (ws0 * unitPattern value.2 * ws1).matches' := mul_assoc _ _ _
  rw [htext]
  exact (reads_valueNumber value.1 g lexemeTable.singleNumber rfl fun _ => rfl).mul
    (reads_lexeme (lexemeTable.singleUnit value.2) rfl fun _ => rfl) ((headIn_unit value.2).mul _)

theorem reads_values (type : FluctuationType) (values : Items (Nat × ResourceUnit))
    (g : Globals) :
    Reads configLexer ⟨.triggerEnv, stack, g⟩
      (listText (opening (fluctuationPattern type)) wsAfter valueText values) ['l', 'L']
      ⟨.triggerEnv, stack, (g.setFluctuation type).readValues values⟩ := by
  have hhead : ∀ set, Reads configLexer ⟨.triggerEnv, stack, g⟩
      (opening (fluctuationPattern type) set).matches' digitHeads
      ⟨resourceEnv set, .triggerEnv :: stack, g.setFluctuation type⟩ :=
    fun set => reads_lexeme (lexemeTable.fluctuation type set) rfl fun _ => rfl
  have hcomma : ∀ g : Globals, Reads configLexer ⟨.resourceSetEnv, .triggerEnv :: stack, g⟩
      commaPattern.matches' digitHeads ⟨.resourceSetEnv, .triggerEnv :: stack, g.pushValue⟩ :=
    fun g => reads_lexeme lexemeTable.valueComma rfl fun _ => rfl
  have hclose : ∀ g : Globals, Reads configLexer ⟨.resourceSetEnv, .triggerEnv :: stack, g⟩
      (ws0 * closeBrace * ws0).matches' ['l', 'L'] ⟨.triggerEnv, stack, g.pushValue⟩ :=
    fun g => reads_lexeme lexemeTable.valueClose rfl fun _ => rfl
  refine reads_listText ?_ fun hrest => ?_
  · refine (hhead true).mul ?_ (HeadIn.sepBy headIn_value _ _ _ _)
    exact Reads.sepBy (fun g => ⟨.triggerEnv, stack, g⟩) reads_value hcomma hclose headIn_value
      Flex.headIn_matches' Flex.headIn_matches' values.first values.rest (g.setFluctuation type)
  · have hone : (g.setFluctuation type).readValues values =
        ((g.setFluctuation type).readValue values.first).pushValue := by
      rw [Globals.readValues, Items.toList, hrest]
      rfl
    rw [hone]
    exact (hhead false).mul (reads_plainValue values.first _) ((headIn_value values.first).mul _)

end Lists

/-! ## Lines -/

/-- What a keyword of a last list begins with. -/
def Line.keywordHeads : Line → List Char
  | .trigger _ _ _ _ => ['l', 'L']
  | .log _ _ _ => ['r', 'R']

def Line.scope (line : Line) : StartCondition := (line.env true).scope

theorem Line.env_mem (line : Line) :
    line.env true ∈ [DurationEnv.triggerDurationSet, .logResolutionSet] ∧
    line.env false ∈ [DurationEnv.triggerDurationSingle, .logResolutionSingle] := by
  cases line with
  | trigger => exact ⟨List.mem_cons_self, List.mem_cons_self⟩
  | log => exact ⟨List.mem_cons_of_mem _ List.mem_cons_self,
      List.mem_cons_of_mem _ List.mem_cons_self⟩

theorem headIn_headText (line : Line) : HeadIn statementHeads line.headText := by
  cases line with
  | trigger resource type values durations =>
    have hkeyword : HeadIn statementHeads (ws0 * (anyCase "trigger" * ws1)).matches' :=
      Flex.headIn_matches' (by decide)
    exact hkeyword.mul _
  | log resource durations resolutions =>
    have hkeyword : HeadIn statementHeads (ws0 * (anyCase "log" * ws1)).matches' :=
      Flex.headIn_matches' (by decide)
    exact hkeyword.mul _

theorem headIn_opening (line : Line) (set : Bool) :
    HeadIn line.keywordHeads (opening line.keyword set).matches' := by
  have hlast : HeadIn ['l', 'L'] (opening lastPattern set).matches' := by
    cases set <;> exact Flex.headIn_matches'
  have hresolution : HeadIn ['r', 'R'] (opening (anyCase "resolution") set).matches' := by
    cases set <;> exact Flex.headIn_matches'
  cases line with
  | trigger => exact hlast
  | log => exact hresolution

theorem reads_opening (line : Line) (set : Bool) (g : Globals) :
    Reads configLexer ⟨line.scope, [.initial], g⟩ (opening line.keyword set).matches' digitHeads
      ⟨(line.env set).condition, [line.scope, .initial], g⟩ := by
  cases line with
  | trigger => cases set <;> exact reads_lexeme (lexemeTable.last _) rfl fun _ => rfl
  | log => cases set <;> exact reads_lexeme (lexemeTable.resolution _) rfl fun _ => rfl

/-- Everything before the last list. -/
theorem reads_headText (line : Line) (g : Globals) :
    Reads configLexer ⟨.initial, [], g⟩ line.headText line.keywordHeads
      ⟨line.scope, [.initial], g.readHead line⟩ := by
  cases line with
  | trigger resource type values durations =>
    have hkeyword := reads_keyword g lexemeTable.trigger rfl (fun _ => rfl) Flex.headIn_matches'
    have hresource : Reads configLexer ⟨.triggerEnv, [.initial], g⟩
        (resourcePattern resource * ws1).matches' fluctuationHeads
        ⟨.triggerEnv, [.initial], g.setTriggerResource resource⟩ :=
      reads_lexeme (lexemeTable.triggerResource resource) rfl fun _ => rfl
    have hfluctuation : HeadIn fluctuationHeads
        (listText (opening (fluctuationPattern type)) wsAfter valueText values) := by
      refine headIn_listText (fun set => ?_) values
      cases type <;> cases set <;> exact Flex.headIn_matches'
    exact hkeyword.mul (hresource.mul (reads_values type values _) hfluctuation)
      ((headIn_resource resource).mul _)
  | log resource durations resolutions =>
    have hkeyword := reads_keyword g lexemeTable.log rfl (fun _ => rfl) Flex.headIn_matches'
    have hresource : Reads configLexer ⟨.logEnv, [.initial], g⟩
        (resourcePattern resource * ws1).matches' ['f', 'F']
        ⟨.logEnv, [.initial], g.setLogResource resource⟩ :=
      reads_lexeme (lexemeTable.logResource resource) rfl fun _ => rfl
    have hfor : ∀ set g, Reads configLexer ⟨.logEnv, [.initial], g⟩
        (opening (anyCase "for") set).matches' digitHeads
        ⟨(forEnv set).condition, [.logEnv, .initial], g⟩ :=
      fun set g => reads_lexeme (lexemeTable.logFor set) rfl fun _ => rfl
    have hdurations : Reads configLexer ⟨.logEnv, [.initial], g.setLogResource resource⟩
        (listText (opening (anyCase "for")) (fun _ => ws1) durationText durations) ['r', 'R']
        ⟨.logEnv, [.initial], (g.setLogResource resource).readList .logDurationSet durations⟩ := by
      refine reads_listText ?_ fun hrest => ?_
      · exact reads_durationSet id (by decide) (hfor true _)
          (fun g => reads_lexeme lexemeTable.logDurationSet rfl fun _ => rfl)
          Flex.headIn_matches' durations
      · rw [readList_of_rest hrest, ← mul_assoc]
        exact (reads_durationSingle (hfor false _) durations.first).mul
          (reads_lexeme lexemeTable.logDurationSingle rfl fun _ => rfl) Flex.headIn_matches'
    have hhead : HeadIn ['f', 'F']
        (listText (opening (anyCase "for")) (fun _ => ws1) durationText durations) := by
      refine headIn_listText (fun set => ?_) durations
      cases set <;> exact Flex.headIn_matches'
    exact hkeyword.mul (hresource.mul hdurations hhead) ((headIn_resource resource).mul _)

/-- A last list in braces, with a closing that the rule of its environment reads. -/
theorem reads_lastSet (line : Line) {close : Pattern} {follow : List Char}
    (hclose : IsLexeme (line.env true).condition close (.close (line.env true)) follow)
    (hcloseHead : HeadIn afterTimeUnit close.matches') (g : Globals) :
    Reads configLexer ⟨line.scope, [.initial], g⟩
      ((opening line.keyword true).matches' * Flex.sepBy durationText commaPattern.matches'
        close.matches' line.lastList.first line.lastList.rest) follow
      ⟨.initial, [], (g.readList (line.env true) line.lastList).produce (line.env true)⟩ := by
  have hstack : (Rule.close (line.env true)).stackEffect.run
      ((line.env true).condition, [line.scope, .initial]) = .ok (.initial, []) := by
    cases line <;> rfl
  have hcomma : ∀ env ∈ [DurationEnv.triggerDurationSet, .logResolutionSet],
      .comma env ∈ rules := by decide
  exact reads_durationSet (.produce (line.env true)) (hcomma _ line.env_mem.1)
    (reads_opening line true g)
    (fun g => reads_lexeme hclose hstack fun _ => rfl) hcloseHead line.lastList

/-- A single last duration, before what ends it. -/
theorem reads_lastSingle (line : Line) (g : Globals) :
    Reads configLexer ⟨line.scope, [.initial], g⟩
      ((opening line.keyword false).matches' * durationText line.lastList.first) afterTimeUnit
      ⟨(line.env false).condition, [line.scope, .initial], g.readParts line.lastList.first⟩ :=
  reads_durationSingle (reads_opening line false g) line.lastList.first

theorem reads_line (line : Line) (g : Globals) :
    Reads configLexer ⟨.initial, [], g⟩ line.text statementHeads
      ⟨.initial, [], g.readLine line⟩ := by
  refine (reads_headText line g).mul ?_ (headIn_listText (headIn_opening line) _)
  refine reads_listText ?_ fun hrest => ?_
  · exact reads_lastSet line (lexemeTable.endSet _ line.env_mem.1) Flex.headIn_matches' _
  · rw [Globals.readLine, readList_of_rest hrest, ← mul_assoc]
    have hend : ∀ g : Globals, Reads configLexer
        ⟨(line.env false).condition, [line.scope, .initial], g⟩ lineEnd.matches' statementHeads
        ⟨.initial, [], (g.pushDuration (line.env true)).produce (line.env true)⟩ := by
      intro g
      cases line with
      | trigger => exact reads_end .triggerDurationSingle g List.mem_cons_self
      | log => exact reads_end .logResolutionSingle g (List.mem_cons_of_mem _ List.mem_cons_self)
    exact (reads_lastSingle line _).mul (hend _) Flex.headIn_matches'

/-- A text read to its end is parsed to the variables reached. -/
theorem run_of_reaches {g g' : Globals} {text : List Char} {c : StartCondition}
    {stack : List StartCondition}
    (h : configLexer.Reaches ⟨.initial, [], g.resetLexer⟩ text ⟨c, stack, g'⟩ []) :
    ConfigurationParser.run g text = .ok g' := by
  rw [← Flex.Lexer.run_eq_ok_iff] at h
  show (configLexer.run ⟨.initial, [], g.resetLexer⟩ text).bind _ = _
  rw [h]
  rfl

end ResMonitor
