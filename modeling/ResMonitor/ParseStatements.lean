import ResMonitor.Lines

/-! # Statements are parsed to what they stand for

A statement, whose numbers fit in a `long`, is a line. So its text is read as
that line, and how the variables change on the way depends on the statement
alone. -/

namespace ResMonitor

open Flex (Reads HeadIn)

/-! ## Assignments of a statement -/

namespace Globals

def readDuration (g : Globals) (d : Duration) : Globals := d.parts.toList.foldl readPart g

def readDurations (env : DurationEnv) (g : Globals) (durations : Items Duration) : Globals :=
  durations.toList.foldl (fun g d => (g.readDuration d).pushDuration env) g

def readThreshold (g : Globals) (v : Threshold) : Globals :=
  { g with currentResourceValue := ⟨v.unit, min v.number longMax⟩ }

def readThresholds (g : Globals) (values : Items Threshold) : Globals :=
  values.toList.foldl (fun g v => (g.readThreshold v).pushValue) g

def readStatement (g : Globals) : Statement → Globals
  | .trigger resource type values durations =>
    ((((g.setTriggerResource resource).setFluctuation type).readThresholds values).readDurations
      .triggerDurationSet durations).produceTriggersCrossproduct
  | .log resource durations resolutions =>
    (((g.setLogResource resource).readDurations .logDurationSet durations).readDurations
      .logResolutionSet resolutions).produceLogsCrossproduct

end Globals

/-! ## Statements as lines -/

def Items.map {α β : Type} (f : α → β) (x : Items α) : Items β := ⟨f x.first, x.rest.map f⟩

theorem Items.toList_map {α β : Type} (f : α → β) (x : Items α) :
    (x.map f).toList = x.toList.map f := rfl

theorem sepBy_map {α β : Type} (f : α → β) (text : β → Language Char) (sep close : Language Char)
    (a : α) (as : List α) :
    Flex.sepBy text sep close (f a) (as.map f) =
      Flex.sepBy (fun a => text (f a)) sep close a as := by
  induction as generalizing a with
  | nil => rfl
  | cons a' as ih =>
    rw [List.map_cons, Flex.sepBy, Flex.sepBy, ih]

theorem listText_map {α β : Type} (f : α → β) (text : β → Language Char)
    (head ending : Bool → Pattern) (x : Items α) :
    listText head ending text (x.map f) = listText head ending (fun a => text (f a)) x := by
  unfold listText Items.map
  dsimp only
  rw [sepBy_map, List.isEmpty_map]

/-- The statement, forgetting that its numbers fit. -/
def Statement.line : Statement → Line
  | .trigger resource type values durations =>
    .trigger resource type (values.map fun v => (v.number, v.unit)) (durations.map Duration.parts)
  | .log resource durations resolutions =>
    .log resource (durations.map Duration.parts) (resolutions.map Duration.parts)

theorem Statement.text_line (statement : Statement) : statement.line.text = statement.text := by
  cases statement with
  | trigger resource type values durations =>
    simp only [line, Line.text, Line.textWith, Line.headText, Line.lastList, listText_map,
      mul_assoc]
    rfl
  | log resource durations resolutions =>
    simp only [line, Line.text, Line.textWith, Line.headText, Line.lastList, listText_map,
      mul_assoc]
    rfl

theorem readLine_line (g : Globals) (statement : Statement) :
    g.readLine statement.line = g.readStatement statement := by
  have hlist : ∀ (env : DurationEnv) (g : Globals) (durations : Items Duration),
      g.readList env (durations.map Duration.parts) = g.readDurations env durations := by
    intro env g durations
    rw [Globals.readList, Items.toList_map, List.foldl_map]
    rfl
  have hvalues : ∀ (g : Globals) (values : Items Threshold),
      g.readValues (values.map fun v => (v.number, v.unit)) = g.readThresholds values := by
    intro g values
    rw [Globals.readValues, Items.toList_map, List.foldl_map]
    rfl
  cases statement with
  | trigger resource type values durations =>
    simp only [Statement.line, Globals.readLine, Globals.readHead, Line.lastList, hlist, hvalues]
    rfl
  | log resource durations resolutions =>
    simp only [Statement.line, Globals.readLine, Globals.readHead, Line.lastList, hlist]
    rfl

theorem headIn_statement (statement : Statement) : HeadIn statementHeads statement.text := by
  rw [← statement.text_line]
  exact (headIn_headText statement.line).mul _

theorem reads_statement (statement : Statement) (g : Globals) :
    Reads configLexer ⟨.initial, [], g⟩ statement.text statementHeads
      ⟨.initial, [], g.readStatement statement⟩ := by
  rw [← statement.text_line, ← readLine_line]
  exact reads_line statement.line g

end ResMonitor
