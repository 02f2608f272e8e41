import ResMonitor.Effects

/-! # The start-condition stack

`INITIAL` lies at the bottom of the stack and nowhere else, so an action that
pops once never finds the stack empty, and an action that ends a statement
leaves it as a statement should if and only if two conditions are on it. -/

namespace ResMonitor

/-! ## INITIAL at the bottom -/

/-- `INITIAL` is the lowest condition, and no other one is `INITIAL`. -/
def Based (p : Position) : Prop :=
  ∃ inner, .initial ∉ inner ∧ p.1 :: p.2 = inner ++ [.initial]

theorem Based.length {start : StartCondition} {stack inner : List StartCondition}
    (h : start :: stack = inner ++ [.initial]) : stack.length = inner.length := by
  have hlen := congrArg List.length h
  rw [List.length_append, List.length_cons, List.length_singleton] at hlen
  omega

theorem Based.tail {start top : StartCondition} {stack : List StartCondition}
    (h : Based (start, top :: stack)) : Based (top, stack) := by
  obtain ⟨inner, hinner, heq⟩ := h
  cases inner with
  | nil => cases heq
  | cons c inner =>
    exact ⟨inner, fun hc => hinner (List.mem_cons_of_mem c hc), (List.cons.inj heq).2⟩

theorem Based.run {effect : StackEffect} {p p' : Position} (hp : Based p)
    (hpush : ∀ c, effect = .push c → c ≠ .initial) (h : effect.run p = .ok p') : Based p' := by
  obtain ⟨start, stack⟩ := p
  cases effect with
  | keep => cases h; exact hp
  | push c =>
    cases h
    obtain ⟨inner, hinner, heq⟩ := hp
    refine ⟨c :: inner, ?_, congrArg (c :: ·) heq⟩
    rw [List.mem_cons, not_or]
    exact ⟨(hpush c rfl).symm, hinner⟩
  | pop =>
    rcases stack with _ | ⟨top, stack⟩
    · cases h
    · cases h; exact hp.tail
  | popTwice =>
    rcases stack with _ | ⟨top, _ | ⟨top', stack⟩⟩
    · cases h
    · cases h
    · cases h; exact hp.tail.tail

/-- Away from `INITIAL` there is something to pop. -/
theorem Based.pop {start : StartCondition} {stack : List StartCondition}
    (h : Based (start, stack)) (hstart : start ≠ .initial) :
    ∃ p', StackEffect.pop.run (start, stack) = .ok p' := by
  cases stack with
  | nil =>
    obtain ⟨inner, _, heq⟩ := h
    cases inner with
    | nil => exact absurd (List.cons.inj heq).1 hstart
    | cons c inner => cases Based.length heq
  | cons top stack => exact ⟨(top, stack), rfl⟩

/-- Two pops lead back to `INITIAL` from two conditions deep, and from nowhere else. -/
theorem Based.popTwice_iff {p : Position} (h : Based p) :
    StackEffect.popTwice.run p = .ok (.initial, []) ↔ p.2.length = 2 := by
  obtain ⟨start, stack⟩ := p
  rcases stack with _ | ⟨top, _ | ⟨top', _ | ⟨top'', stack⟩⟩⟩
  · exact iff_of_false (fun hrun => by cases hrun) (fun hlen => by cases hlen)
  · exact iff_of_false (fun hrun => by cases hrun) (fun hlen => by cases hlen)
  · obtain ⟨inner, _, heq⟩ := h.tail.tail
    cases inner with
    | nil => cases heq; exact iff_of_true rfl rfl
    | cons c inner => cases Based.length heq
  · exact iff_of_false (fun hrun => by cases hrun) (fun hlen => by cases hlen)

/-! ## The rules -/

theorem ne_initial_of_push {rule : Rule} {c : StartCondition}
    (h : rule.stackEffect = .push c) : c ≠ .initial := by
  intro hc
  subst hc
  unfold Rule.stackEffect at h
  split at h
  case h_1 set | h_2 set | h_3 set | h_4 set => cases set <;> cases h
  all_goals cases h

/-- Rules that pop are not active in `INITIAL`. -/
theorem ne_initial_of_pop {rule : Rule} {start : StartCondition}
    (hactive : rule.activeIn start = true)
    (h : rule.stackEffect = .pop ∨ rule.stackEffect = .popTwice) : start ≠ .initial := by
  intro hc
  subst hc
  cases rule with
  | valueClose | singleUnit => cases hactive
  | close env => cases env <;> cases hactive
  | _ => rcases h with h | h <;> cases h

/-- The four rules that end a statement. -/
def Rule.endsStatement : Rule → Bool
  | .close .triggerDurationSet | .close .triggerDurationSingle => true
  | .close .logResolutionSet | .close .logResolutionSingle => true
  | _ => false

theorem endsStatement_iff {rule : Rule} :
    rule.endsStatement = true ↔ rule.stackEffect = .popTwice := by
  cases rule with
  | close env => cases env <;> exact ⟨fun h => by cases h <;> rfl, fun h => by cases h <;> rfl⟩
  | _ => exact iff_of_false (fun h => by cases h) (fun h => by cases h)

/-! ## Runs -/

/-- In a run of the parser on the text, from the variables `g`, the lexer
comes to match `yytext` by `rule` in the state `s`. -/
def MatchesAt (g : Globals) (text : List Char) (s : Scanner) (rule : Rule) (yytext : List Char) :
    Prop :=
  ∃ input rest, configLexer.Reaches (Scanner.new g.resetLexer) text s input ∧
    configLexer.next s input = some (rule, yytext, rest)

theorem activeIn_of_next {s : Scanner} {rule : Rule} {input yytext rest : List Char}
    (h : configLexer.next s input = some (rule, yytext, rest)) :
    rule = .echo ∨ rule.activeIn s.start = true := by
  obtain ⟨_, _, hrule⟩ := Flex.Lexer.next_spec h
  rcases hrule with hrule | ⟨p, hmem, _⟩
  · exact Or.inl hrule
  · exact Or.inr (activeIn_of_mem hmem).2.1

theorem based_of_reaches {g : Globals} {text input : List Char} {s : Scanner}
    (h : configLexer.Reaches (Scanner.new g) text s input) : Based s.position := by
  refine h.invariant (I := fun s => Based s.position) ⟨[], List.not_mem_nil, rfl⟩ ?_
  intro s₁ s₂ i j _ hbased hstep
  obtain ⟨_, haction⟩ := hstep
  exact hbased.run (fun c => ne_initial_of_push) (action_eq_ok_iff.mp haction).1

/-- Only the rules that pop twice can fail. -/
theorem action_ok_of_reaches {g : Globals} {text input yytext rest : List Char} {s : Scanner}
    {rule : Rule} (hreach : configLexer.Reaches (Scanner.new g) text s input)
    (hnext : configLexer.next s input = some (rule, yytext, rest))
    (htwice : rule.endsStatement = true → s.stack.length = 2) :
    ∃ s', action rule yytext s = .ok s' := by
  have hbased := based_of_reaches hreach
  have hpop : rule.stackEffect = .pop ∨ rule.stackEffect = .popTwice → s.start ≠ .initial := by
    intro heffect
    rcases activeIn_of_next hnext with rfl | hactive
    · rcases heffect with h | h <;> cases h
    · exact ne_initial_of_pop hactive heffect
  obtain ⟨p', hp'⟩ : ∃ p', rule.stackEffect.run s.position = .ok p' := by
    cases heffect : rule.stackEffect with
    | keep => exact ⟨_, rfl⟩
    | push c => exact ⟨_, rfl⟩
    | pop => exact hbased.pop (hpop (Or.inl heffect))
    | popTwice => exact ⟨_, hbased.popTwice_iff.mpr (htwice (endsStatement_iff.mpr heffect))⟩
  rw [action_eq, hp']
  exact ⟨_, rfl⟩

/-- The stack is well used on a text: no pop finds it empty, and after a rule
that ends a statement the lexer is back to `INITIAL`. -/
structure WellUsed (text : List Char) : Prop where
  noUnderflow : ∀ g, ∃ g', ConfigurationParser.run g text = .ok g'
  backToInitial : ∀ g s rule yytext s', MatchesAt g text s rule yytext →
    rule.endsStatement = true → action rule yytext s = .ok s' → s'.start = .initial ∧ s'.stack = []

/-- The rules that end a statement match two conditions deep. -/
def EndsTwoDeep (text : List Char) : Prop :=
  ∀ g s rule yytext, MatchesAt g text s rule yytext → rule.endsStatement = true →
    s.stack.length = 2

theorem parser_run_ok_iff {g : Globals} {text : List Char} :
    (∃ g', ConfigurationParser.run g text = .ok g') ↔
      ∃ s', configLexer.run (Scanner.new g.resetLexer) text = .ok s' := by
  unfold ConfigurationParser.run
  cases configLexer.run (Scanner.new g.resetLexer) text with
  | error e => exact iff_of_false (fun ⟨_, h⟩ => by cases h) (fun ⟨_, h⟩ => by cases h)
  | ok s' => exact iff_of_true ⟨s'.globals, rfl⟩ ⟨s', rfl⟩

/-- **The stack is well used on exactly the texts whose statements end two
conditions deep.** A statement that ends outside of its inner environment, or
below a second keyword, breaks the stack. -/
theorem wellUsed_iff (text : List Char) : WellUsed text ↔ EndsTwoDeep text := by
  refine ⟨?_, fun hdeep => ⟨fun g => ?_, ?_⟩⟩
  · intro hused g s rule yytext hmatch hends
    obtain ⟨s', haction⟩ : ∃ s', action rule yytext s = .ok s' := by
      obtain ⟨input, rest, hreach, hnext⟩ := hmatch
      exact Flex.Lexer.exists_run_eq_ok_iff.mp
        (parser_run_ok_iff.mp (hused.noUnderflow g)) hreach hnext
    obtain ⟨hstart, hstack⟩ := hused.backToInitial g s rule yytext s' hmatch hends haction
    have hpos := (action_eq_ok_iff.mp haction).1
    rw [endsStatement_iff.mp hends, Scanner.position, Scanner.position, hstart, hstack] at hpos
    obtain ⟨_, _, hreach, _⟩ := hmatch
    exact (based_of_reaches hreach).popTwice_iff.mp hpos
  · rw [parser_run_ok_iff, Flex.Lexer.exists_run_eq_ok_iff]
    intro s input rest rule yytext hreach hnext
    exact action_ok_of_reaches hreach hnext (hdeep g s rule yytext ⟨input, rest, hreach, hnext⟩)
  · intro g s rule yytext s' hmatch hends haction
    have hpos := (action_eq_ok_iff.mp haction).1
    have hlen := hdeep g s rule yytext hmatch hends
    obtain ⟨_, _, hreach, _⟩ := hmatch
    rw [endsStatement_iff.mp hends, (based_of_reaches hreach).popTwice_iff.mpr hlen] at hpos
    obtain ⟨hstart, hstack⟩ := Prod.ext_iff.mp (Except.ok.inj hpos)
    exact ⟨hstart.symm, hstack.symm⟩

/-- A line with nothing but the keyword: the end of line pops twice with one
condition on the stack, and the process ends. -/
theorem trigger_newline_underflows : ¬ ∀ text, WellUsed text := by
  intro h
  obtain ⟨g', hrun⟩ := (h "trigger \n".toList).noUnderflow .fresh
  have hfail : (ConfigurationParser.run .fresh "trigger \n".toList).toBool = false := by
    decide +kernel
  rw [hrun] at hfail
  cases hfail

/-! ## Keywords in their place -/

/-- The scopes around a start condition. -/
def StartCondition.enclosing : StartCondition → List StartCondition
  | .initial => []
  | .logEnv | .triggerEnv => [.initial]
  | .resourceSetEnv | .resourceSingleNoEnv => [.triggerEnv, .initial]
  | .triggerDurationSetEnv | .triggerDurationSingleNoEnv => [.triggerEnv, .initial]
  | .logDurationSetEnv | .logDurationSingleNoEnv => [.logEnv, .initial]
  | .logResolutionSetEnv | .logResolutionSingleNoEnv => [.logEnv, .initial]

/-- `log` and `trigger` are read in `INITIAL` only. -/
def KeywordsAtTop (text : List Char) : Prop :=
  ∀ g s rule yytext, MatchesAt g text s rule yytext → rule = .log ∨ rule = .trigger →
    s.start = .initial

theorem enclosing_of_push {rule : Rule} {start c : StartCondition}
    (hactive : rule.activeIn start = true) (h : rule.stackEffect = .push c)
    (hkeyword : rule = .log ∨ rule = .trigger → start = .initial) :
    c.enclosing = start :: start.enclosing := by
  cases rule with
  | fluctuation type set | last set | logFor set | resolution set =>
    obtain rfl := of_decide_eq_true hactive
    cases h
    cases set <;> rfl
  | log | trigger =>
    obtain rfl := hkeyword (by simp)
    cases h
    rfl
  | close env => cases env <;> cases h
  | _ => cases h

theorem enclosing_of_run {effect : StackEffect} {p p' : Position} (hp : p.2 = p.1.enclosing)
    (hpush : ∀ c, effect = .push c → c.enclosing = p.1 :: p.1.enclosing)
    (h : effect.run p = .ok p') : p'.2 = p'.1.enclosing := by
  obtain ⟨start, stack⟩ := p
  obtain rfl : stack = start.enclosing := hp
  cases effect with
  | keep => cases h; rfl
  | push c => cases h; exact (hpush c rfl).symm
  | pop => cases start <;> cases h <;> rfl
  | popTwice => cases start <;> cases h <;> rfl

/-- With the keywords in their place, the stack holds the scopes of the rules
file around the current condition. -/
theorem stack_eq_enclosing {g : Globals} {text input : List Char} {s : Scanner}
    (hkeywords : KeywordsAtTop text)
    (h : configLexer.Reaches (Scanner.new g.resetLexer) text s input) :
    s.stack = s.start.enclosing := by
  refine h.invariant (I := fun s => s.stack = s.start.enclosing) rfl ?_
  intro s₁ s₂ i j hreach henclosing hstep
  obtain ⟨hnext, haction⟩ := hstep
  refine enclosing_of_run henclosing ?_ (action_eq_ok_iff.mp haction).1
  intro c hpush
  refine enclosing_of_push ?_ hpush (hkeywords g s₁ _ _ ⟨i, j, hreach, hnext⟩)
  rcases activeIn_of_next hnext with rfl | hactive
  · cases hpush
  · exact hactive

/-- What is left to go wrong then is a statement that ends directly in the
scope of its keyword, where the rules of the inner scopes are active too. -/
theorem wellUsed_iff_of_keywordsAtTop {text : List Char} (hkeywords : KeywordsAtTop text) :
    WellUsed text ↔ ∀ g s rule yytext, MatchesAt g text s rule yytext →
      rule.endsStatement = true → s.start ≠ .triggerEnv ∧ s.start ≠ .logEnv := by
  rw [wellUsed_iff]
  refine forall₄_congr fun g s rule yytext => forall₂_congr fun hmatch hends => ?_
  obtain ⟨input, rest, hreach, hnext⟩ := hmatch
  have hstart : s.start ≠ .initial := by
    rcases activeIn_of_next hnext with rfl | hactive
    · cases hends
    · exact ne_initial_of_pop hactive (Or.inr (endsStatement_iff.mp hends))
  rw [stack_eq_enclosing hkeywords hreach]
  cases hs : s.start <;> simp_all [StartCondition.enclosing]

end ResMonitor
