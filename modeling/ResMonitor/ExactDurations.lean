import ResMonitor.Effects
import ResMonitor.Logs
import ResMonitor.Statements

/-! # Durations as they are written

A number is read with `atol`, multiplied by the seconds of its unit and added
to the duration read so far, all in a `long` and with no check. What the text
says has no bounds: its numbers are exact, and so are their sums. As long as
nothing overflows, every variable holds the exact number cut at `LONG_MAX`. -/

namespace ResMonitor

/-! ## What the text says -/

/-- The assignments of a rule, over numbers of any size. -/
def Rule.assignsExactly (yytext : List Char) : Rule → Globals → Globals
  | .number _, g => { g with lastReadDurationElement := Nat.ofDigitChars 10 yytext 0 }
  | .timeUnit _ unit, g =>
    { g with currentDurationTime :=
        g.currentDurationTime + g.lastReadDurationElement * unit.seconds }
  | rule, g => rule.assigns yytext g

def Globals.replayExactly (g : Globals) (lexemes : List Lexeme) : Globals :=
  lexemes.foldl (fun g e => e.1.assignsExactly e.2 g) g

/-- Numbers and the units after them add up to their sum. -/
theorem replayExactly_parts (env : DurationEnv)
    (parts : List (List Char × TimeUnit × List Char)) (g : Globals) :
    (g.replayExactly (parts.flatMap fun part =>
      [(.number env, part.1), (.timeUnit env part.2.1, part.2.2)])).currentDurationTime =
      g.currentDurationTime +
        totalSeconds (parts.map fun part => (Nat.ofDigitChars 10 part.1 0, part.2.1)) := by
  induction parts generalizing g with
  | nil => exact (Int.add_zero _).symm
  | cons part parts ih =>
    obtain ⟨number, unit, letter⟩ := part
    rw [List.flatMap_cons, List.map_cons, totalSeconds, ← Int.add_assoc]
    exact ih _

/-! ## The same function on every duration -/

def TriggerType.mapDuration (f : Int → Int) (t : TriggerType) : TriggerType :=
  { t with duration := f t.duration }

def LogType.mapDurations (f : Int → Int) (l : LogType) : LogType :=
  { l with duration := f l.duration, resolution := f l.resolution }

namespace Globals

def mapDurations (f : Int → Int) (g : Globals) : Globals :=
  { g with
    currentDurationTime := f g.currentDurationTime
    lastReadDurationElement := f g.lastReadDurationElement
    currentTriggerType := g.currentTriggerType.mapDuration f
    triggerTypes := g.triggerTypes.map (.mapDuration f)
    triggerDurationTimes := g.triggerDurationTimes.map f
    currentLogType := g.currentLogType.mapDurations f
    logTypes := g.logTypes.map (.mapDurations f)
    logDurations := g.logDurations.map f
    logResolutions := g.logResolutions.map f }

variable {f : Int → Int}

end Globals

/-- No duration is negative. -/
def Globals.Nonneg (g : Globals) : Prop := g.mapDurations (max 0) = g

/-- Which types a function of the durations leaves as they are. -/
theorem mapDurations_types_eq_iff {f : Int → Int} (g : Globals) :
    ((g.mapDurations f).triggerTypes = g.triggerTypes ∧
      (g.mapDurations f).logTypes = g.logTypes) ↔
    (∀ t ∈ g.triggerTypes, f t.duration = t.duration) ∧
      ∀ l ∈ g.logTypes, f l.duration = l.duration ∧ f l.resolution = l.resolution := by
  have hmap : ∀ {α : Type} {f : α → α} {l : List α}, l.map f = l ↔ ∀ a ∈ l, f a = a := by
    intro α f l
    conv_lhs => rw [← List.map_id l, List.map_map]
    exact List.map_inj_left
  refine and_congr (hmap.trans ?_) (hmap.trans ?_)
  · refine forall₂_congr fun t _ => ⟨fun h => congrArg TriggerType.duration h, fun h => ?_⟩
    rw [TriggerType.mapDuration, h]
  · refine forall₂_congr fun l _ => ⟨fun h => ⟨congrArg LogType.duration h,
      congrArg LogType.resolution h⟩, fun h => ?_⟩
    rw [LogType.mapDurations, h.1, h.2]

theorem Globals.Nonneg.types {g : Globals} (h : g.Nonneg) :
    (∀ t ∈ g.triggerTypes, 0 ≤ t.duration) ∧
    (∀ l ∈ g.logTypes, 0 ≤ l.duration ∧ 0 ≤ l.resolution) := by
  obtain ⟨htriggers, hlogs⟩ := (mapDurations_types_eq_iff g).mp
    ⟨congrArg Globals.triggerTypes h, congrArg Globals.logTypes h⟩
  refine ⟨fun t ht => ?_, fun l hl => ?_⟩
  · have hmax := htriggers t ht
    omega
  · obtain ⟨hduration, hresolution⟩ := hlogs l hl
    omega

end ResMonitor
