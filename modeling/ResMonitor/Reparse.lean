import ResMonitor.TextReads

/-! # A parse after another

The reset of the lexer clears two of the eleven variables. A text is parsed as
in a fresh process exactly when the others, where it reads them before it writes
them, are as they were when the process started. -/

namespace ResMonitor

/-! ## What comes through from before -/

/-- What a duration takes from before the text adds nothing to it. -/
def OpenDuration.AsFresh (g : Globals) (d : OpenDuration) : Prop := wrap (d.left g) = 0

def OpenValue.AsFresh (g : Globals) (v : OpenValue) : Prop :=
  (v.unitType = none → g.currentResourceValue.unitType = .percent) ∧
  (v.value = none → g.currentResourceValue.value = 0)

namespace OpenGlobals

/-- A trigger statement that ends here reads no variable before the text has
written it, or only such as are as in a fresh process. -/
def TriggersAsFresh (g : Globals) (o : OpenGlobals) : Prop :=
  (o.triggerResourceValues.kept → g.triggerResourceValues = []) ∧
  (o.triggerResourceValues.pushed ≠ [] →
    (o.triggerDurationTimes.kept → g.triggerDurationTimes = []) ∧
    (o.triggerResource = none → g.currentTriggerType.resource = .cpu) ∧
    (o.triggerFluctuation = none → g.currentTriggerType.fluctuationType = .under) ∧
    (∀ v ∈ o.triggerResourceValues.pushed, v.AsFresh g) ∧
    ∀ d ∈ (o.triggerDurationTimes.push o.currentDurationTime).pushed, d.AsFresh g)

/-- The same for a log statement. -/
def LogsAsFresh (g : Globals) (o : OpenGlobals) : Prop :=
  (o.logDurations.kept → g.logDurations = []) ∧
  (o.logDurations.pushed ≠ [] →
    (o.logResolutions.kept → g.logResolutions = []) ∧
    (o.logResource = none → g.currentLogType.resource = .cpu) ∧
    (∀ d ∈ o.logDurations.pushed, d.AsFresh g) ∧
    ∀ d ∈ (o.logResolutions.push o.currentDurationTime).pushed, d.AsFresh g)

/-- Every statement that ends in the lexemes is as from a fresh process. -/
def AsFresh (g : Globals) : OpenGlobals → List Lexeme → Prop
  | _, [] => True
  | o, (rule, yytext) :: es =>
    (rule.endsTrigger → o.TriggersAsFresh g) ∧ (rule.endsLog → o.LogsAsFresh g) ∧
    AsFresh g (rule.opens yytext o) es

end OpenGlobals

section Decidable

variable (g : Globals)

instance OpenDuration.decidableAsFresh (d : OpenDuration) : Decidable (d.AsFresh g) :=
  inferInstanceAs (Decidable (_ = _))

instance OpenValue.decidableAsFresh (v : OpenValue) : Decidable (v.AsFresh g) :=
  inferInstanceAs (Decidable (_ ∧ _))

instance OpenGlobals.decidableTriggersAsFresh (o : OpenGlobals) : Decidable (o.TriggersAsFresh g) :=
  inferInstanceAs (Decidable (_ ∧ _))

instance OpenGlobals.decidableLogsAsFresh (o : OpenGlobals) : Decidable (o.LogsAsFresh g) :=
  inferInstanceAs (Decidable (_ ∧ _))

instance OpenGlobals.decidableAsFresh :
    ∀ (o : OpenGlobals) (es : List Lexeme), Decidable (o.AsFresh g es)
  | _, [] => isTrue trivial
  | o, (rule, yytext) :: es =>
    have := decidableAsFresh (rule.opens yytext o) es
    inferInstanceAs (Decidable (_ ∧ _ ∧ _))

end Decidable

/-- The variables that the text reads before it writes them, and that reach a
trigger or a log, are in `g` as in a fresh process. -/
def ReadsAsFresh (g : Globals) (text : List Char) : Prop :=
  ∀ es, lexemes text = .ok es → OpenGlobals.untouched.AsFresh g es

theorem getD_eq_iff {α : Type} {o : Option α} {a b : α} :
    o.getD a = o.getD b ↔ (o = none → a = b) := by
  cases o <;> simp

theorem OpenDuration.eval_eq_iff (g : Globals) (d : OpenDuration) :
    d.eval g = d.eval .fresh ↔ d.AsFresh g := by
  have hfresh : d.left .fresh = 0 := by
    unfold OpenDuration.left
    rw [show Globals.fresh.lastReadDurationElement = 0 from rfl, Int.mul_zero]
    cases d.kept <;> rfl
  unfold OpenDuration.eval OpenDuration.AsFresh wrap
  rw [hfresh, Int.bmod_add_cancel_right, Int.zero_bmod]

theorem OpenValue.eval_eq_iff (g : Globals) (v : OpenValue) :
    v.eval g = v.eval .fresh ↔ v.AsFresh g := by
  obtain ⟨unitType, value⟩ := v
  unfold OpenValue.eval OpenValue.AsFresh
  rw [ResourceValue.mk.injEq, getD_eq_iff, getD_eq_iff]
  rfl

namespace OpenGlobals

theorem pendingTriggers_eval (g : Globals) (o : OpenGlobals) :
    (o.eval g).pendingTriggers =
      (o.triggerResourceValues.eval g.triggerResourceValues (·.eval g)).flatMap fun res =>
        ((o.triggerDurationTimes.push o.currentDurationTime).eval g.triggerDurationTimes
          (·.eval g)).map fun d => ⟨o.triggerResource.getD g.currentTriggerType.resource,
            o.triggerFluctuation.getD g.currentTriggerType.fluctuationType, res, d⟩ := by
  rw [OpenList.eval_push]
  rfl

theorem pendingLogs_eval (g : Globals) (o : OpenGlobals) :
    (o.eval g).pendingLogs =
      (o.logDurations.eval g.logDurations (·.eval g)).flatMap fun d =>
        ((o.logResolutions.push o.currentDurationTime).eval g.logResolutions (·.eval g)).map
          fun r => ⟨o.logResource.getD g.currentLogType.resource, d, r⟩ := by
  rw [OpenList.eval_push]
  rfl

theorem pendingTriggers_eq_iff (g : Globals) (o : OpenGlobals) :
    (o.eval g).pendingTriggers = (o.eval .fresh).pendingTriggers ↔ o.TriggersAsFresh g := by
  rw [pendingTriggers_eval, pendingTriggers_eval]
  refine (OpenList.eval_product_eq_iff (OpenList.pushed_push_ne_nil _ _)).trans ?_
  unfold TriggersAsFresh
  refine and_congr_right fun _ => forall_congr' fun hvalues => and_congr_right fun _ => ?_
  simp only [TriggerType.mk.injEq, getD_eq_iff, OpenValue.eval_eq_iff, OpenDuration.eval_eq_iff]
  obtain ⟨v, hv⟩ := List.exists_mem_of_ne_nil _ hvalues
  obtain ⟨d, hd⟩ := List.exists_mem_of_ne_nil _
    (OpenList.pushed_push_ne_nil o.triggerDurationTimes o.currentDurationTime)
  constructor
  · intro h
    obtain ⟨hr, hf, _, _⟩ := h v hv d hd
    exact ⟨hr, hf, fun v hv => (h v hv d hd).2.2.1, fun d hd => (h v hv d hd).2.2.2⟩
  · rintro ⟨hr, hf, hvs, hds⟩ v hv d hd
    exact ⟨hr, hf, hvs v hv, hds d hd⟩

theorem pendingLogs_eq_iff (g : Globals) (o : OpenGlobals) :
    (o.eval g).pendingLogs = (o.eval .fresh).pendingLogs ↔ o.LogsAsFresh g := by
  rw [pendingLogs_eval, pendingLogs_eval]
  refine (OpenList.eval_product_eq_iff (OpenList.pushed_push_ne_nil _ _)).trans ?_
  unfold LogsAsFresh
  refine and_congr_right fun _ => forall_congr' fun hdurations => and_congr_right fun _ => ?_
  simp only [LogType.mk.injEq, getD_eq_iff, OpenDuration.eval_eq_iff]
  obtain ⟨d, hd⟩ := List.exists_mem_of_ne_nil _ hdurations
  obtain ⟨r, hr⟩ := List.exists_mem_of_ne_nil _
    (OpenList.pushed_push_ne_nil o.logResolutions o.currentDurationTime)
  constructor
  · intro h
    exact ⟨(h d hd r hr).1, fun d hd => (h d hd r hr).2.1, fun r hr => (h d hd r hr).2.2⟩
  · rintro ⟨hresource, hds, hrs⟩ d hd r hr
    exact ⟨hresource, hds d hd, hrs r hr⟩

theorem length_pendingTriggers_le (g : Globals) (o : OpenGlobals) :
    (o.eval .fresh).pendingTriggers.length ≤ (o.eval g).pendingTriggers.length := by
  rw [pendingTriggers_eval, pendingTriggers_eval]
  exact OpenList.length_product_le

theorem length_pendingLogs_le (g : Globals) (o : OpenGlobals) :
    (o.eval .fresh).pendingLogs.length ≤ (o.eval g).pendingLogs.length := by
  rw [pendingLogs_eval, pendingLogs_eval]
  exact OpenList.length_product_le

end OpenGlobals

/-! ## Two parses -/

/-- The lexer over `g` and over the variables of a fresh process, after the
same lexemes. -/
structure SideBySide (g : Globals) (o : OpenGlobals) (x y : Globals) : Prop where
  after : x.visible = o.eval g
  fresh : y.visible = o.eval .fresh
  triggers : y.triggerTypes.length ≤ x.triggerTypes.length
  logs : y.logTypes.length ≤ x.logTypes.length

namespace SideBySide

variable {g : Globals} {o : OpenGlobals} {x y : Globals}

theorem step (h : SideBySide g o x y) (rule : Rule) (yytext : List Char) :
    SideBySide g (rule.opens yytext o) (rule.assigns yytext x) (rule.assigns yytext y) ∧
    ((rule.assigns yytext x).triggerTypes = (rule.assigns yytext y).triggerTypes ↔
      x.triggerTypes = y.triggerTypes ∧ (rule.endsTrigger → o.TriggersAsFresh g)) ∧
    ((rule.assigns yytext x).logTypes = (rule.assigns yytext y).logTypes ↔
      x.logTypes = y.logTypes ∧ (rule.endsLog → o.LogsAsFresh g)) := by
  have htriggers : x.pendingTriggers = (o.eval g).pendingTriggers := by rw [← h.after]; rfl
  have htriggers' : y.pendingTriggers = (o.eval .fresh).pendingTriggers := by rw [← h.fresh]; rfl
  have hlogs : x.pendingLogs = (o.eval g).pendingLogs := by rw [← h.after]; rfl
  have hlogs' : y.pendingLogs = (o.eval .fresh).pendingLogs := by rw [← h.fresh]; rfl
  obtain ⟨htriggersEq, htriggersLe⟩ :=
    OpenList.append_eq_append_iff h.triggers (o.length_pendingTriggers_le g) rule.endsTrigger
  obtain ⟨hlogsEq, hlogsLe⟩ :=
    OpenList.append_eq_append_iff h.logs (o.length_pendingLogs_le g) rule.endsLog
  obtain ⟨hx, hx'⟩ := types_assigns rule yytext x
  obtain ⟨hy, hy'⟩ := types_assigns rule yytext y
  rw [htriggers] at hx
  rw [htriggers'] at hy
  rw [hlogs] at hx'
  rw [hlogs'] at hy'
  refine ⟨⟨?_, ?_, ?_, ?_⟩, ?_, ?_⟩
  · rw [visible_assigns, h.after, OpenGlobals.eval_opens]
  · rw [visible_assigns, h.fresh, OpenGlobals.eval_opens]
  · rw [hx, hy]
    exact htriggersLe
  · rw [hx', hy']
    exact hlogsLe
  · rw [hx, hy, htriggersEq, OpenGlobals.pendingTriggers_eq_iff]
  · rw [hx', hy', hlogsEq, OpenGlobals.pendingLogs_eq_iff]

theorem replay (h : SideBySide g o x y) (es : List Lexeme) :
    (x.replay es).triggerTypes = (y.replay es).triggerTypes ∧
        (x.replay es).logTypes = (y.replay es).logTypes ↔
      (x.triggerTypes = y.triggerTypes ∧ x.logTypes = y.logTypes) ∧ o.AsFresh g es := by
  induction es generalizing o x y with
  | nil => exact (and_iff_left trivial).symm
  | cons e es ih =>
    obtain ⟨rule, yytext⟩ := e
    obtain ⟨hnext, htriggers, hlogs⟩ := h.step rule yytext
    refine (ih hnext).trans ?_
    rw [htriggers, hlogs, OpenGlobals.AsFresh]
    tauto

end SideBySide

/-- The sum of a duration is a `long`. -/
theorem sum_assigns (rule : Rule) (yytext : List Char) {g : Globals}
    (hg : wrap g.currentDurationTime = g.currentDurationTime) :
    wrap (rule.assigns yytext g).currentDurationTime =
      (rule.assigns yytext g).currentDurationTime := by
  have hzero : ∀ {n : Int}, n = 0 → wrap n = n := by
    rintro n rfl
    rfl
  cases rule with
  | timeUnit env unit => exact Int.bmod_bmod
  | comma env => cases env <;> rfl
  | close env =>
    cases env with
    | triggerDurationSet | triggerDurationSingle =>
      have heq := Globals.visible_produceTriggersCrossproduct (g.pushDuration .triggerDurationSet)
      exact hzero (congrArg Globals.currentDurationTime heq)
    | logResolutionSet | logResolutionSingle =>
      have heq := Globals.visible_produceLogsCrossproduct (g.pushDuration .logResolutionSet)
      exact hzero (congrArg Globals.currentDurationTime heq)
    | logDurationSet | logDurationSingle => rfl
  | _ => exact hg

theorem sum_replay (es : List Lexeme) {g : Globals}
    (hg : wrap g.currentDurationTime = g.currentDurationTime) :
    wrap (g.replay es).currentDurationTime = (g.replay es).currentDurationTime := by
  induction es generalizing g with
  | nil => exact hg
  | cons e es ih => exact ih (sum_assigns e.1 e.2 hg)

theorem SideBySide.start {g : Globals} (hg : wrap g.currentDurationTime = g.currentDurationTime) :
    SideBySide g .untouched g.resetLexer .fresh := by
  have heval : ∀ g : Globals, wrap g.currentDurationTime = g.currentDurationTime →
      g.resetLexer.visible = OpenGlobals.untouched.eval g := by
    intro g hg
    have hsum : (⟨true, 0, 0⟩ : OpenDuration).eval g = g.currentDurationTime := by
      unfold OpenDuration.eval OpenDuration.left
      simpa using hg
    simp [OpenGlobals.eval, OpenGlobals.untouched, OpenList.eval, OpenList.untouched,
      OpenValue.eval, hsum, Globals.visible, Globals.resetLexer]
  exact ⟨heval g hg, heval .fresh rfl, Nat.le_refl _, Nat.le_refl _⟩

/-- **When a parse does not depend on the one before.** After a text `A`, a
text `B` is parsed as in a fresh process if and only if `A` left the variables
that `B` reads before it writes them as they were when the process started. -/
theorem parsesAsFresh_iff {A B : List Char} {g h : Globals}
    (hA : ConfigurationParser.run .fresh A = .ok g)
    (hB : ConfigurationParser.run .fresh B = .ok h) :
    ∃ h', ConfigurationParser.run g B = .ok h' ∧
      (h'.triggerTypes = h.triggerTypes ∧ h'.logTypes = h.logTypes ↔ ReadsAsFresh g B) := by
  obtain ⟨esA, -, rfl⟩ := exists_lexemes_of_run hA
  obtain ⟨esB, hes, rfl⟩ := exists_lexemes_of_run hB
  have hsum := sum_replay esA (g := Globals.fresh.resetLexer) rfl
  have hreplay := (SideBySide.start hsum).replay esB
  refine ⟨_, run_of_lexemes hes _, ?_⟩
  have hreads : ReadsAsFresh (Globals.fresh.resetLexer.replay esA) B ↔
      OpenGlobals.untouched.AsFresh (Globals.fresh.resetLexer.replay esA) esB := by
    constructor
    · intro hreads
      exact hreads esB hes
    · intro hreads es hes'
      cases hes.symm.trans hes'
      exact hreads
  rw [hreads]
  exact hreplay.trans (and_iff_right ⟨rfl, rfl⟩)

theorem lexemes_trigger_over_seven : lexemes "trigger cpu over 7% last for 1s\n".toList = .ok
    [(.trigger, "trigger ".toList), (.triggerResource .cpu, "cpu ".toList),
      (.fluctuation .over false, "over ".toList), (.singleNumber, "7".toList),
      (.singleUnit .percent, "% ".toList), (.last false, "last for ".toList),
      (.number .triggerDurationSingle, "1".toList),
      (.timeUnit .triggerDurationSingle .sec, "s".toList),
      (.close .triggerDurationSingle, "\n".toList)] := by decide +kernel

/-- Both statements end, and the second writes all that it reads. -/
theorem parsesAsFresh_iff_ended : ∃ g h h',
    ConfigurationParser.run .fresh "trigger cpu over 5% last for 5s\n".toList = .ok g ∧
    ConfigurationParser.run .fresh "trigger cpu over 7% last for 1s\n".toList = .ok h ∧
    ConfigurationParser.run g "trigger cpu over 7% last for 1s\n".toList = .ok h' ∧
    h'.triggerTypes = h.triggerTypes ∧ h'.logTypes = h.logTypes := by
  have hA : lexemes "trigger cpu over 5% last for 5s\n".toList = .ok
      [(.trigger, "trigger ".toList), (.triggerResource .cpu, "cpu ".toList),
        (.fluctuation .over false, "over ".toList), (.singleNumber, "5".toList),
        (.singleUnit .percent, "% ".toList), (.last false, "last for ".toList),
        (.number .triggerDurationSingle, "5".toList),
        (.timeUnit .triggerDurationSingle .sec, "s".toList),
        (.close .triggerDurationSingle, "\n".toList)] := by decide +kernel
  have hB := lexemes_trigger_over_seven
  have hrunA := run_of_lexemes hA .fresh
  have hrunB := run_of_lexemes hB .fresh
  obtain ⟨h', hrun, hiff⟩ := parsesAsFresh_iff hrunA hrunB
  refine ⟨_, _, h', hrunA, hrunB, hrun, hiff.2 ?_⟩
  intro es hes
  cases hB.symm.trans hes
  decide +kernel

/-- The first text lacks its last end of line, so its value and its duration
are still pending when the second one starts. -/
theorem unfinished_statement_leaks :
    ¬ ∀ A B g h h', ConfigurationParser.run .fresh A = .ok g →
      ConfigurationParser.run .fresh B = .ok h → ConfigurationParser.run g B = .ok h' →
      h'.triggerTypes = h.triggerTypes ∧ h'.logTypes = h.logTypes := by
  intro h
  have hA : lexemes "trigger cpu over 5% last for 5s".toList = .ok
      [(.trigger, "trigger ".toList), (.triggerResource .cpu, "cpu ".toList),
        (.fluctuation .over false, "over ".toList), (.singleNumber, "5".toList),
        (.singleUnit .percent, "% ".toList), (.last false, "last for ".toList),
        (.number .triggerDurationSingle, "5".toList),
        (.timeUnit .triggerDurationSingle .sec, "s".toList)] := by decide +kernel
  have hB := lexemes_trigger_over_seven
  have htypes := (h _ _ _ _ _ (run_of_lexemes hA .fresh) (run_of_lexemes hB .fresh)
    (run_of_lexemes hB _)).1
  revert htypes
  decide +kernel

end ResMonitor
