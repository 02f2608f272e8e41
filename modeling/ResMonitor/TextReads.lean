import ResMonitor.Effects
import ResMonitor.Lib.OpenList
import Mathlib.Tactic.Ring

/-! # What a text reads of before

A parse with open variables: each holds what the text wrote to it, or stands for
what it held before the text. Evaluated at the variables a parse starts from, it
is that parse, so it shows which of them the text reads before it writes them. -/

namespace ResMonitor

/-! ## Open variables -/

/-- The value being read; `none` is what was there. -/
structure OpenValue where
  unitType : Option ResourceUnit
  value : Option Int

def OpenValue.eval (g : Globals) (v : OpenValue) : ResourceValue :=
  ⟨v.unitType.getD g.currentResourceValue.unitType, v.value.getD g.currentResourceValue.value⟩

/-- A duration: whether the sum that was there is in it, the seconds of the
unit letters that took the number read before the text, and what the numbers
of the text add. -/
structure OpenDuration where
  kept : Bool
  units : Int
  own : Int

namespace OpenDuration

/-- What a duration takes from before the text. -/
def left (g : Globals) (d : OpenDuration) : Int :=
  (if d.kept then g.currentDurationTime else 0) + d.units * g.lastReadDurationElement

def eval (g : Globals) (d : OpenDuration) : Int := wrap (d.left g + d.own)

end OpenDuration

/-- The file-level variables that an action reads. -/
structure OpenGlobals where
  currentDurationTime : OpenDuration
  lastReadDurationElement : Option Int
  triggerResource : Option Resource
  triggerFluctuation : Option FluctuationType
  currentResourceValue : OpenValue
  triggerResourceValues : OpenList OpenValue
  triggerDurationTimes : OpenList OpenDuration
  logResource : Option Resource
  logDurations : OpenList OpenDuration
  logResolutions : OpenList OpenDuration

namespace OpenGlobals

/-- Before the text. -/
def untouched : OpenGlobals where
  currentDurationTime := ⟨true, 0, 0⟩
  lastReadDurationElement := none
  triggerResource := none
  triggerFluctuation := none
  currentResourceValue := ⟨none, none⟩
  triggerResourceValues := .untouched
  triggerDurationTimes := .untouched
  logResource := none
  logDurations := .untouched
  logResolutions := .untouched

def addElement (unit : TimeUnit) (o : OpenGlobals) : OpenGlobals :=
  let d := o.currentDurationTime
  { o with currentDurationTime := match o.lastReadDurationElement with
      | none => { d with units := d.units + unit.seconds }
      | some n => { d with own := d.own + n * unit.seconds } }

def setUnit (unitType : ResourceUnit) (o : OpenGlobals) : OpenGlobals :=
  { o with currentResourceValue := { o.currentResourceValue with unitType } }

def pushValue (o : OpenGlobals) : OpenGlobals :=
  { o with triggerResourceValues := o.triggerResourceValues.push o.currentResourceValue }

def pushDuration : DurationEnv → OpenGlobals → OpenGlobals
  | .triggerDurationSet, o | .triggerDurationSingle, o =>
    { o with triggerDurationTimes := o.triggerDurationTimes.push o.currentDurationTime,
             currentDurationTime := ⟨false, 0, 0⟩ }
  | .logDurationSet, o | .logDurationSingle, o =>
    { o with logDurations := o.logDurations.push o.currentDurationTime,
             currentDurationTime := ⟨false, 0, 0⟩ }
  | .logResolutionSet, o | .logResolutionSingle, o =>
    { o with logResolutions := o.logResolutions.push o.currentDurationTime,
             currentDurationTime := ⟨false, 0, 0⟩ }

/-- The pending lists that a cross product clears. -/
def clearPending : DurationEnv → OpenGlobals → OpenGlobals
  | .triggerDurationSet, o | .triggerDurationSingle, o =>
    { o with triggerResourceValues := .cleared, triggerDurationTimes := .cleared }
  | .logDurationSet, o | .logDurationSingle, o => o
  | .logResolutionSet, o | .logResolutionSingle, o =>
    { o with logDurations := .cleared, logResolutions := .cleared }

/-- The variables of a parse of the text from `g`. -/
def eval (g : Globals) (o : OpenGlobals) : Globals where
  currentDurationTime := o.currentDurationTime.eval g
  lastReadDurationElement := o.lastReadDurationElement.getD g.lastReadDurationElement
  currentTriggerType := ⟨o.triggerResource.getD g.currentTriggerType.resource,
    o.triggerFluctuation.getD g.currentTriggerType.fluctuationType, ⟨.percent, 0⟩, 0⟩
  triggerTypes := []
  currentResourceValue := o.currentResourceValue.eval g
  triggerResourceValues := o.triggerResourceValues.eval g.triggerResourceValues (·.eval g)
  triggerDurationTimes := o.triggerDurationTimes.eval g.triggerDurationTimes (·.eval g)
  currentLogType := ⟨o.logResource.getD g.currentLogType.resource, 0, 0⟩
  logTypes := []
  logDurations := o.logDurations.eval g.logDurations (·.eval g)
  logResolutions := o.logResolutions.eval g.logResolutions (·.eval g)

end OpenGlobals

/-- What an action does to the open variables. -/
def Rule.opens (yytext : List Char) : Rule → OpenGlobals → OpenGlobals
  | .triggerResource resource, o => { o with triggerResource := some resource }
  | .fluctuation type _, o => { o with triggerFluctuation := some type }
  | .valueNumber, o | .singleNumber, o =>
    { o with currentResourceValue := { o.currentResourceValue with value := some (atol yytext) } }
  | .valueUnit unit, o => o.setUnit unit
  | .valueComma, o | .valueClose, o => o.pushValue
  | .singleUnit unit, o => (o.setUnit unit).pushValue
  | .number _, o => { o with lastReadDurationElement := some (atol yytext) }
  | .timeUnit _ unit, o => o.addElement unit
  | .comma env, o => o.pushDuration env
  | .close env, o => (o.pushDuration env).clearPending env
  | .logResource resource, o => { o with logResource := some resource }
  | .last _, o | .logFor _, o | .resolution _, o => o
  | .blanks, o | .newlines, o | .log, o | .trigger, o | .echo, o => o

/-! ## The parse -/

namespace Globals

/-- The variables without the parsed types, which no action reads, and without
the fields that the cross products overwrite. -/
def visible (g : Globals) : Globals :=
  { g with
    currentTriggerType := { g.currentTriggerType with triggerValue := ⟨.percent, 0⟩, duration := 0 }
    triggerTypes := []
    currentLogType := { g.currentLogType with duration := 0, resolution := 0 }
    logTypes := [] }

theorem visible_produceTriggersCrossproduct (g : Globals) :
    g.produceTriggersCrossproduct.visible =
      { g.visible with triggerResourceValues := [], triggerDurationTimes := [] } := by
  obtain ⟨t, hr, hf, heq⟩ := produceTriggersCrossproduct_spec g
  rw [heq]
  simp only [visible, hr, hf]

theorem visible_produceLogsCrossproduct (g : Globals) :
    g.produceLogsCrossproduct.visible =
      { g.visible with logDurations := [], logResolutions := [] } := by
  obtain ⟨l, hr, heq⟩ := produceLogsCrossproduct_spec g
  rw [heq]
  simp only [visible, hr]

end Globals

/-- No assignment reads what is not visible. -/
theorem visible_assigns (rule : Rule) (yytext : List Char) (g : Globals) :
    (rule.assigns yytext g).visible = (rule.assigns yytext g.visible).visible := by
  cases rule with
  | comma env => cases env <;> rfl
  | close env =>
    cases env with
    | triggerDurationSet | triggerDurationSingle =>
      have hproduct := Globals.visible_produceTriggersCrossproduct
      exact (hproduct (g.pushDuration .triggerDurationSet)).trans
        (hproduct (g.visible.pushDuration .triggerDurationSet)).symm
    | logResolutionSet | logResolutionSingle =>
      have hproduct := Globals.visible_produceLogsCrossproduct
      exact (hproduct (g.pushDuration .logResolutionSet)).trans
        (hproduct (g.visible.pushDuration .logResolutionSet)).symm
    | logDurationSet | logDurationSingle => rfl
  | _ => rfl

namespace OpenGlobals

theorem eval_addElement (g : Globals) (unit : TimeUnit) (o : OpenGlobals) :
    (o.eval g).addElement unit = (o.addElement unit).eval g := by
  have hsum : wrap (o.currentDurationTime.eval g +
      wrap (o.lastReadDurationElement.getD g.lastReadDurationElement * unit.seconds)) =
      (o.addElement unit).currentDurationTime.eval g := by
    unfold wrap OpenDuration.eval wrap OpenDuration.left addElement
    rw [Int.add_bmod_bmod, Int.bmod_add_bmod]
    cases o.lastReadDurationElement with
    | none => exact congrArg (Int.bmod · _) (by simp only [Option.getD_none]; ring)
    | some n => exact congrArg (Int.bmod · _) (by simp only [Option.getD_some]; ring)
  calc (o.eval g).addElement unit
      = { o.eval g with currentDurationTime := (o.addElement unit).currentDurationTime.eval g } :=
        congrArg (fun d => { o.eval g with currentDurationTime := d }) hsum
    _ = (o.addElement unit).eval g := rfl

theorem eval_pushValue (g : Globals) (o : OpenGlobals) :
    (o.eval g).pushValue = o.pushValue.eval g := by
  simp only [Globals.pushValue, pushValue, eval, OpenList.eval_push]

theorem eval_pushDuration (g : Globals) (env : DurationEnv) (o : OpenGlobals) :
    (o.eval g).pushDuration env = (o.pushDuration env).eval g := by
  have hzero : (⟨false, 0, 0⟩ : OpenDuration).eval g = 0 := by
    unfold OpenDuration.eval OpenDuration.left
    rw [Int.zero_mul]
    rfl
  cases env <;> simp only [Globals.pushDuration, pushDuration, eval, OpenList.eval_push, hzero]

/-- **The action of a rule on the open variables** is its action on those they
stand for. -/
theorem eval_opens (g : Globals) (rule : Rule) (yytext : List Char) (o : OpenGlobals) :
    (rule.assigns yytext (o.eval g)).visible = (rule.opens yytext o).eval g := by
  cases rule with
  | valueComma | valueClose => exact congrArg Globals.visible (eval_pushValue g o)
  | singleUnit unit => exact congrArg Globals.visible (eval_pushValue g (o.setUnit unit))
  | timeUnit env unit => exact congrArg Globals.visible (eval_addElement g unit o)
  | comma env => exact congrArg Globals.visible (eval_pushDuration g env o)
  | close env =>
    have hpushed := eval_pushDuration g env o
    cases env with
    | triggerDurationSet | triggerDurationSingle =>
      refine (Globals.visible_produceTriggersCrossproduct _).trans ?_
      rw [hpushed]
      rfl
    | logResolutionSet | logResolutionSingle =>
      refine (Globals.visible_produceLogsCrossproduct _).trans ?_
      rw [hpushed]
      rfl
    | logDurationSet | logDurationSingle => exact congrArg Globals.visible hpushed
  | _ => rfl

end OpenGlobals

end ResMonitor
