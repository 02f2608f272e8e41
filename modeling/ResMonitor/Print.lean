import ResMonitor.ParseConfig
import ResMonitor.Predicate

/-! # Printing

The output operators of triggers, logs and predicates. The page offers these
texts and the mails quote them. They tell what they print apart, and the text
of a CPU trigger is a line of a configuration file that asks for it; the other
resources are printed under names the parser does not know. -/

namespace ResMonitor

/-- A `long` on a stream. -/
def showLong : Int → List Char
  | .ofNat n => Nat.toDigits 10 n
  | .negSucc n => '-' :: Nat.toDigits 10 (n + 1)

def FluctuationType.print : FluctuationType → List Char
  | .under => "under".toList
  | .over => "over".toList

def Resource.print : Resource → List Char
  | .cpu => "CPU".toList
  | .memory => "RAM".toList
  | .disk => "HDD".toList

def ResourceUnit.print : ResourceUnit → List Char
  | .percent => "%".toList
  | .mb => "MB".toList
  | .gb => "GB".toList

def ResourceValue.print (resource : ResourceValue) : List Char :=
  showLong resource.value ++ resource.unitType.print

def TriggerType.print (triggerType : TriggerType) : List Char :=
  let perSecond := if triggerType.resource = .disk then "/s".toList else []
  "Trigger ".toList ++ (triggerType.resource.print ++ ' ' ::
    (triggerType.fluctuationType.print ++ ' ' ::
      (triggerType.triggerValue.print ++ perSecond ++ ' ' ::
        ("last for ".toList ++ (showLong triggerType.duration ++ ['s'])))))

def LogType.print (logType : LogType) : List Char :=
  "Log ".toList ++ (logType.resource.print ++ ' ' ::
    ("resolution ".toList ++ (showLong logType.resolution ++ 's' :: ' ' ::
      ("last for ".toList ++ (showLong logType.duration ++ ['s'])))))

def PredicateKind.print : PredicateKind TriggerType → List Char
  | .predicate1or2and3 or1Operand or2Operand andOperand =>
    or1Operand.print ++ (" OR ".toList ++ (or2Operand.print ++ (" AND ".toList ++
      andOperand.print)))
  | .predicate1and2 and1Operand and2Operand =>
    and1Operand.print ++ (" AND ".toList ++ and2Operand.print)
  | .predicate1element operand => operand.print

/-! ## Numbers -/

/-- The characters of a number. -/
def isSigned (c : Char) : Bool := c.isDigit || c == '-'

theorem isSigned_of_mem_showLong {n : Int} {c : Char} (h : c ∈ showLong n) :
    isSigned c = true := by
  have hdigits : ∀ n, c ∈ Nat.toDigits 10 n → isSigned c = true := fun n hc => by
    rw [isSigned, Nat.isDigit_of_mem_toDigits (by decide) (by decide) hc, Bool.true_or]
  cases n with
  | ofNat n => exact hdigits n h
  | negSucc n =>
    rcases List.mem_cons.mp h with rfl | h
    · rfl
    · exact hdigits (n + 1) h

theorem toDigits_injective {n n' : Nat} (h : Nat.toDigits 10 n = Nat.toDigits 10 n') : n = n' := by
  have hvalue := congrArg (fun ds => Nat.ofDigitChars 10 ds 0) h
  simpa only [Nat.ofDigitChars_ten_toDigits] using hvalue

theorem showLong_injective {n n' : Int} (h : showLong n = showLong n') : n = n' := by
  have hminus : ∀ n, '-' ∉ Nat.toDigits 10 n := fun n hmem =>
    absurd (Nat.isDigit_of_mem_toDigits (by decide) (by decide) hmem) (by decide)
  cases n with
  | ofNat n =>
    cases n' with
    | ofNat n' => rw [toDigits_injective h]
    | negSucc n' =>
      have h : Nat.toDigits 10 n = '-' :: Nat.toDigits 10 (n' + 1) := h
      exact absurd (h ▸ List.mem_cons_self) (hminus n)
  | negSucc n =>
    cases n' with
    | ofNat n' =>
      have h : '-' :: Nat.toDigits 10 (n + 1) = Nat.toDigits 10 n' := h
      exact absurd (h ▸ List.mem_cons_self) (hminus n')
    | negSucc n' =>
      have hsucc := toDigits_injective (List.cons.inj h).2
      rw [Nat.succ.inj hsucc]

/-- A number ends where a character follows that is none of its own. -/
theorem showLong_append_inj {n n' : Int} {c c' : Char} {s s' : List Char}
    (hc : isSigned c = false) (hc' : isSigned c' = false)
    (h : showLong n ++ c :: s = showLong n' ++ c' :: s') : n = n' ∧ c :: s = c' :: s' := by
  have htake := congrArg (List.takeWhile isSigned) h
  rw [List.takeWhile_append_of_pos fun a ha => isSigned_of_mem_showLong ha,
    List.takeWhile_append_of_pos fun a ha => isSigned_of_mem_showLong ha,
    List.takeWhile_cons_of_neg (by simp [hc]), List.takeWhile_cons_of_neg (by simp [hc']),
    List.append_nil, List.append_nil] at htake
  rw [htake] at h
  exact ⟨showLong_injective htake, List.append_cancel_left h⟩

/-! ## What the texts tell apart -/

/-- Texts before their first separator. -/
theorem append_sep_inj {sep : Char} {x x' z z' : List Char} (hx : sep ∉ x) (hx' : sep ∉ x')
    (h : x ++ sep :: z = x' ++ sep :: z') : x = x' ∧ z = z' := by
  have hpos : ∀ y : List Char, sep ∉ y → ∀ a ∈ y, (a != sep) = true := fun y hy a ha =>
    bne_iff_ne.mpr fun heq => hy (heq ▸ ha)
  have htake := congrArg (List.takeWhile (· != sep)) h
  rw [List.takeWhile_append_of_pos (hpos x hx), List.takeWhile_append_of_pos (hpos x' hx'),
    List.takeWhile_cons_of_neg (by simp), List.takeWhile_cons_of_neg (by simp), List.append_nil,
    List.append_nil] at htake
  rw [htake] at h
  exact ⟨htake, (List.cons.inj (List.append_cancel_left h)).2⟩

theorem Resource.print_injective {r r' : Resource} (h : r.print = r'.print) : r = r' := by
  cases r <;> cases r' <;> first | rfl | cases h

theorem FluctuationType.print_injective {f f' : FluctuationType} (h : f.print = f'.print) :
    f = f' := by
  cases f <;> cases f' <;> first | rfl | cases h

theorem ResourceUnit.print_injective {u u' : ResourceUnit} (h : u.print = u'.print) : u = u' := by
  cases u <;> cases u' <;> first | rfl | cases h

/-- A number with its unit, and what comes after them. -/
theorem ResourceValue.print_append_inj {v v' : ResourceValue} {s : List Char}
    (h : v.print ++ s = v'.print ++ s) : v = v' := by
  have hunit : ∀ u : ResourceUnit, ∃ c w, u.print = c :: w ∧ isSigned c = false := by
    intro u
    cases u with
    | percent => exact ⟨'%', [], rfl, rfl⟩
    | mb => exact ⟨'M', ['B'], rfl, rfl⟩
    | gb => exact ⟨'G', ['B'], rfl, rfl⟩
  obtain ⟨c, w, hw, hc⟩ := hunit v.unitType
  obtain ⟨c', w', hw', hc'⟩ := hunit v'.unitType
  have hcancel : v.print = v'.print := List.append_cancel_right h
  unfold print at hcancel
  rw [hw, hw'] at hcancel
  obtain ⟨hvalue, hrest⟩ := showLong_append_inj hc hc' hcancel
  rw [← hw, ← hw'] at hrest
  have hunits := ResourceUnit.print_injective hrest
  cases v
  cases v'
  cases hvalue
  cases hunits
  rfl

theorem not_blank_showLong (n : Int) : ' ' ∉ showLong n := fun hmem =>
  absurd (isSigned_of_mem_showLong hmem) (by decide)

/-- **A printed trigger is that trigger.** -/
theorem TriggerType.print_injective {t t' : TriggerType} (h : t.print = t'.print) : t = t' := by
  obtain ⟨resource, type, value, duration⟩ := t
  obtain ⟨resource', type', value', duration'⟩ := t'
  have hresource : ∀ r : Resource, ' ' ∉ r.print := fun r => by cases r <;> decide
  have htype : ∀ f : FluctuationType, ' ' ∉ f.print := fun f => by cases f <;> decide
  have hvalue : ∀ (v : ResourceValue) (r : Resource),
      ' ' ∉ v.print ++ if r = .disk then "/s".toList else [] := by
    intro v r hmem
    rcases List.mem_append.mp hmem with hmem | hmem
    · rcases List.mem_append.mp hmem with hmem | hmem
      · exact not_blank_showLong _ hmem
      · revert hmem
        cases v.unitType <;> decide
    · revert hmem
      cases r <;> decide
  unfold print at h
  obtain ⟨hr, h⟩ := append_sep_inj (hresource _) (hresource _) (List.append_cancel_left h)
  obtain rfl := Resource.print_injective hr
  obtain ⟨hf, h⟩ := append_sep_inj (htype _) (htype _) h
  obtain rfl := FluctuationType.print_injective hf
  obtain ⟨hv, h⟩ := append_sep_inj (hvalue _ _) (hvalue _ _) h
  obtain rfl := ResourceValue.print_append_inj hv
  obtain rfl := showLong_injective (List.append_cancel_right (List.append_cancel_left h))
  rfl

theorem LogType.print_injective {l l' : LogType} (h : l.print = l'.print) : l = l' := by
  obtain ⟨resource, duration, resolution⟩ := l
  obtain ⟨resource', duration', resolution'⟩ := l'
  have hresource : ∀ r : Resource, ' ' ∉ r.print := fun r => by cases r <;> decide
  unfold print at h
  obtain ⟨hr, h⟩ := append_sep_inj (hresource _) (hresource _) (List.append_cancel_left h)
  obtain rfl := Resource.print_injective hr
  obtain ⟨hresolution, h⟩ := showLong_append_inj rfl rfl (List.append_cancel_left h)
  obtain rfl := hresolution
  have h := List.append_cancel_left (List.cons.inj (List.cons.inj h).2).2
  obtain rfl := showLong_injective (List.append_cancel_right h)
  rfl

/-- A printed trigger has no line end and none of the letters that only occur in
`OR` and `AND`. -/
theorem TriggerType.not_mem_print {c : Char} (hc : c = 'O' ∨ c = 'N' ∨ c = '\r')
    (t : TriggerType) : c ∉ t.print := by
  have hsigned : ∀ n, c ∉ showLong n := fun n hmem => by
    have := isSigned_of_mem_showLong hmem
    rcases hc with rfl | rfl | rfl <;> cases this
  unfold print ResourceValue.print
  simp only [List.mem_append, List.mem_cons, hsigned, false_or, not_or]
  rcases hc with rfl | rfl | rfl <;> cases t.resource <;> cases t.fluctuationType <;>
    cases t.triggerValue.unitType <;> decide

/-- **A printed predicate is that predicate**: its operands, in their places. -/
theorem PredicateKind.print_injective {k k' : PredicateKind TriggerType}
    (h : k.print = k'.print) : k = k' := by
  have hO : ∀ t : TriggerType, 'O' ∉ t.print := TriggerType.not_mem_print (Or.inl rfl)
  have hN : ∀ t : TriggerType, 'N' ∉ t.print := TriggerType.not_mem_print (Or.inr (Or.inl rfl))
  -- two operands joined by the same word
  have hand : ∀ {a b a' b' : TriggerType},
      a.print ++ (" AND ".toList ++ b.print) = a'.print ++ (" AND ".toList ++ b'.print) →
      a = a' ∧ b = b' := by
    intro a b a' b' h
    have hsplit : ∀ x y : TriggerType, x.print ++ (" AND ".toList ++ y.print) =
        (x.print ++ " A".toList) ++ 'N' :: ("D ".toList ++ y.print) := by simp
    have hmem : ∀ x : TriggerType, 'N' ∉ x.print ++ " A".toList := by simp [hN]
    rw [hsplit, hsplit] at h
    obtain ⟨hx, hy⟩ := append_sep_inj (hmem a) (hmem a') h
    exact ⟨TriggerType.print_injective (List.append_cancel_right hx),
      TriggerType.print_injective (List.append_cancel_left hy)⟩
  have hor : ∀ {a a' : TriggerType} {s s' : List Char},
      a.print ++ (" OR ".toList ++ s) = a'.print ++ (" OR ".toList ++ s') → a = a' ∧ s = s' := by
    intro a a' s s' h
    have hsplit : ∀ (x : TriggerType) (s : List Char), x.print ++ (" OR ".toList ++ s) =
        (x.print ++ [' ']) ++ 'O' :: ("R ".toList ++ s) := by simp
    have hmem : ∀ x : TriggerType, 'O' ∉ x.print ++ [' '] := by simp [hO]
    rw [hsplit, hsplit] at h
    obtain ⟨hx, hy⟩ := append_sep_inj (hmem a) (hmem a') h
    exact ⟨TriggerType.print_injective (List.append_cancel_right hx), List.append_cancel_left hy⟩
  -- the words tell the classes apart
  have hmemO := congrArg ('O' ∈ ·) h
  have hmemN := congrArg ('N' ∈ ·) h
  cases k <;> cases k' <;> simp [print, hO, hN] at hmemO hmemN
  case predicate1or2and3.predicate1or2and3 =>
    obtain ⟨rfl, hrest⟩ := hor h
    obtain ⟨rfl, rfl⟩ := hand hrest
    rfl
  case predicate1and2.predicate1and2 =>
    obtain ⟨rfl, rfl⟩ := hand h
    rfl
  case predicate1element.predicate1element => rw [TriggerType.print_injective h]

/-- **What is printed tells what it was**: triggers, logs, and predicates with
their operands in their places. -/
theorem print_tells_apart : Function.Injective TriggerType.print ∧
    Function.Injective LogType.print ∧ Function.Injective PredicateKind.print :=
  ⟨fun _ _ => TriggerType.print_injective, fun _ _ => LogType.print_injective,
    fun _ _ => PredicateKind.print_injective⟩

/-! ## Reading a printed trigger -/

theorem toDigits_mem_digits (n : Nat) : Nat.toDigits 10 n ∈ digits n := by
  refine ⟨?_, Nat.ofDigitChars_ten_toDigits⟩
  have hdigit : ∀ c : Char, c.isDigit = true → [c] ∈ digit.matches' := by
    intro c hc
    have hnat : 48 ≤ c.toNat ∧ c.toNat ≤ 57 := by
      simp only [Char.isDigit, ge_iff_le, Bool.and_eq_true, decide_eq_true_eq] at hc
      exact hc
    have hall : ∀ k, k < 10 → digit.rmatch [Char.ofNat (48 + k)] = true := by decide
    have hmem := mem_of_rmatch (hall (c.toNat - 48) (by omega))
    rwa [Nat.add_sub_cancel' hnat.1, Char.ofNat_toNat] at hmem
  have hdigits := fun c => Nat.isDigit_of_mem_toDigits (b := 10) (n := n) (c := c) (by decide)
    (by decide)
  cases hn : Nat.toDigits 10 n with
  | nil => exact absurd hn Nat.toDigits_ne_nil
  | cons c s =>
    rw [hn] at hdigits
    refine ⟨[c], hdigit c (hdigits c List.mem_cons_self), s, ?_, rfl⟩
    refine ⟨s.map fun a => [a], (List.flatMap_singleton' s).symm, fun w hw => ?_⟩
    obtain ⟨a, ha, rfl⟩ := List.mem_map.mp hw
    exact hdigit a (hdigits a (List.mem_cons_of_mem _ ha))

theorem showLong_of_nonneg {n : Int} (h : 0 ≤ n) : showLong n = Nat.toDigits 10 n.toNat := by
  obtain ⟨k, rfl⟩ := Int.eq_ofNat_of_zero_le h
  rfl

/-- A CPU trigger with the numbers a file can ask for. -/
structure TriggerType.Writable (t : TriggerType) : Prop where
  resource : t.resource = .cpu
  value : 0 ≤ t.triggerValue.value ∧ t.triggerValue.value ≤ longMax
  duration : 0 ≤ t.duration ∧ t.duration ≤ longMax

/-- The statement that asks for a trigger. -/
def TriggerType.statement (t : TriggerType) (h : t.Writable) : Statement :=
  .trigger .cpu t.fluctuationType
    ⟨⟨t.triggerValue.value.toNat, t.triggerValue.unitType,
      by rw [Int.toNat_of_nonneg h.value.1]; exact h.value.2⟩, []⟩
    ⟨⟨⟨(t.duration.toNat, .sec), []⟩, by
      simp only [totalSeconds, Items.toList, TimeUnit.seconds]
      rw [Int.toNat_of_nonneg h.duration.1]
      have := h.duration.2
      omega⟩, []⟩

theorem TriggerType.triggers_statement (t : TriggerType) (h : t.Writable) :
    (t.statement h).triggers = [t] := by
  have hvalue := Int.toNat_of_nonneg h.value.1
  have hduration := Int.toNat_of_nonneg h.duration.1
  have hresource := h.resource
  simp only [statement, Statement.triggers, Items.toList, List.flatMap_cons, List.flatMap_nil,
    List.map_cons, List.map_nil, List.append_nil, Threshold.value, Duration.seconds, totalSeconds,
    TimeUnit.seconds, hvalue, hduration, Int.mul_one, Int.add_zero]
  rw [← hresource]

/-- The text of a CPU trigger is a line that asks for it. -/
theorem TriggerType.print_mem_text (t : TriggerType) (h : t.Writable) :
    t.print ++ ['\n'] ∈ (t.statement h).text := by
  have htext : t.print ++ ['\n'] = "Trigger ".toList ++ ("CPU ".toList ++
      ((t.fluctuationType.print ++ [' '] ++
          (Nat.toDigits 10 t.triggerValue.value.toNat ++ t.triggerValue.unitType.print ++ [' '])) ++
        ("last for ".toList ++ ((Nat.toDigits 10 t.duration.toNat ++ ['s']) ++ ['\n'])))) := by
    unfold print ResourceValue.print
    rw [h.resource, showLong_of_nonneg h.value.1, showLong_of_nonneg h.duration.1]
    simp [Resource.print]
  have htype : t.fluctuationType.print ++ [' '] ∈
      (opening (fluctuationPattern t.fluctuationType) false).matches' := by
    cases t.fluctuationType <;> exact mem_of_rmatch rfl
  have hunit : t.triggerValue.unitType.print ∈
      (ws0 * unitPattern t.triggerValue.unitType).matches' := by
    cases t.triggerValue.unitType <;> exact mem_of_rmatch rfl
  rw [htext]
  refine ⟨_, mem_of_rmatch rfl, _, ⟨_, mem_of_rmatch rfl, _, ⟨_, Or.inr ?_, _, Or.inr ?_, rfl⟩,
    rfl⟩, rfl⟩
  · exact ⟨_, htype, _, ⟨_, ⟨_, toDigits_mem_digits _, _, hunit, rfl⟩, _, mem_of_rmatch rfl, rfl⟩,
      rfl⟩
  · exact ⟨_, mem_of_rmatch rfl, _, ⟨_, ⟨_, ⟨_, toDigits_mem_digits _, _, mem_of_rmatch rfl, rfl⟩,
      [], rfl, List.append_nil _⟩, _, mem_of_rmatch rfl, rfl⟩, rfl⟩

/-- Printed triggers, each on a line of its own, are the text of statements
that ask for them. -/
theorem exists_statements {ts : List TriggerType} (h : ∀ t ∈ ts, t.Writable) :
    ∃ statements, (ts.flatMap fun t => t.print ++ ['\n']) ∈ configText statements ∧
      statements.flatMap Statement.triggers = ts ∧ statements.flatMap Statement.logs = [] := by
  induction ts with
  | nil => exact ⟨[], rfl, rfl, rfl⟩
  | cons t ts ih =>
    obtain ⟨ht, hts⟩ := List.forall_mem_cons.mp h
    obtain ⟨statements, htext, htriggers, hlogs⟩ := ih hts
    refine ⟨t.statement ht :: statements, ?_, ?_, ?_⟩
    · exact ⟨_, t.print_mem_text ht, _, htext, rfl⟩
    · rw [List.flatMap_cons, t.triggers_statement ht, htriggers, List.singleton_append]
    · rw [List.flatMap_cons, hlogs]
      rfl

/-- **Printed triggers are a configuration.** CPU triggers, each printed on a
line of its own, are parsed back to themselves in their order. -/
theorem run_print {ts : List TriggerType} (h : ∀ t ∈ ts, t.Writable) {g : Globals}
    (hg : g.Idle) :
    ∃ g', ConfigurationParser.run g (ts.flatMap fun t => t.print ++ ['\n']) = .ok g' ∧
      g'.Idle ∧ g'.triggerTypes = ts ∧ g'.logTypes = [] := by
  obtain ⟨statements, htext, htriggers, hlogs⟩ := exists_statements h
  obtain ⟨g', hrun, hidle, htriggers', hlogs'⟩ := run_configText statements htext hg
  exact ⟨g', hrun, hidle, htriggers'.trans htriggers, hlogs'.trans hlogs⟩

/-- `Trigger CPU over 80% last for 2s` -/
theorem run_print_cpuOver80 :
    ∃ g', ConfigurationParser.run .fresh "Trigger CPU over 80% last for 2s\n".toList = .ok g' ∧
      g'.Idle ∧ g'.triggerTypes = [⟨.cpu, .over, ⟨.percent, 80⟩, 2⟩] ∧ g'.logTypes = [] := by
  have hwritable : ∀ t ∈ [(⟨.cpu, .over, ⟨.percent, 80⟩, 2⟩ : TriggerType)], t.Writable := by
    intro t ht
    rw [List.mem_singleton.mp ht]
    exact ⟨rfl, ⟨by decide, by decide⟩, ⟨by decide, by decide⟩⟩
  exact run_print hwritable Globals.idle_fresh

end ResMonitor
