import ResMonitor.LateSubscriber
import ResMonitor.Monitor

/-! # Mails along a run

Polls and requests in any order. Every mail goes back to one request, and to
the name, the address and the triggers of that moment. How many mails a
subscription gets is decided by the samples alone. -/

namespace ResMonitor
namespace Monitor
open Transitions
variable {F : Type} [Double F] {showDouble : F → List Char}

/-! ## What the callbacks hold -/

theorem notifications_polled (m : Monitor F) (x : Sample F) :
    (m.polled x).mailer.notifications = m.mailer.notifications := by
  have hcall : ∀ (calls : List TriggerCall) (mailer : Mailer),
      (calls.foldl Mailer.callbacks.call mailer).notifications = mailer.notifications := by
    intro calls
    induction calls with
    | nil => exact fun mailer => rfl
    | cons c calls ih =>
      intro mailer
      rw [List.foldl_cons, ih]
      cases c <;> rfl
  unfold polled
  split
  · exact hcall _ _
  · rfl

/-- A step changes the callbacks only by a subscription. -/
theorem Effect.notifications {m m' : Monitor F} {a : MonitorAction F} (h : Effect m a m') :
    m'.mailer.notifications = m.mailer.notifications ∨
    ∃ kind, m.Subscribes a kind ∧ m' = m.subscribed kind := by
  cases h with
  | poll x hu => exact Or.inl (m.notifications_polled x)
  | connect h => exact Or.inl rfl
  | subscribe h hkind => exact Or.inr ⟨_, hkind, rfl⟩
  | answer method path queryString queryFields user h hkind => exact Or.inl rfl

theorem notifications_prefix {m m' : Monitor F} {actions : List (MonitorAction F)}
    (hrun : run (step showDouble) m actions = some m') :
    m.mailer.notifications <+: m'.mailer.notifications := by
  refine invariant_of_run (I := fun s => m.mailer.notifications <+: s.mailer.notifications) ?_
    (List.prefix_refl _) hrun
  intro s a s' hs hstep
  rcases (effect_of_step showDouble hstep).notifications with heq | ⟨kind, -, rfl⟩
  · rwa [heq]
  · exact hs.trans (List.prefix_append _ _)

/-- What a subscription captured stays with its predicate. -/
theorem getElem?_captured {m m' : Monitor F} {kind : PredicateKind TriggerType}
    {actions : List (MonitorAction F)}
    (hrun : run (step showDouble) (m.subscribed kind) actions = some m') :
    m'.mailer.notifications[m.mailer.notifications.length]? = some (m.captured kind) := by
  obtain ⟨rest, hstart⟩ := notifications_prefix hrun
  rw [← hstart]
  change (m.mailer.notifications ++ [m.captured kind] ++ rest)[_]? = _
  rw [List.append_assoc, List.getElem?_append_right (Nat.le_refl _), Nat.sub_self]
  rfl

/-- **Every callback is that of one request**, with what the user had entered
when it came. -/
theorem exists_subscription {m m' : Monitor F} {actions : List (MonitorAction F)}
    (hrun : run (step showDouble) m actions = some m') {id : Nat} {n : Notification}
    (hn : m'.mailer.notifications[id]? = some n) (hid : m.mailer.notifications.length ≤ id) :
    ∃ before a after s kind, actions = before ++ a :: after ∧
      run (step showDouble) m before = some s ∧ s.Subscribes a kind ∧
      s.mailer.notifications.length = id ∧ n = s.captured kind := by
  induction actions generalizing m with
  | nil =>
    obtain rfl := Option.some.inj hrun
    have := (List.getElem?_eq_some_iff.mp hn).1
    omega
  | cons a actions ih =>
    obtain ⟨m₁, hstep, hrest⟩ := run_cons.mp hrun
    -- a subscription further on
    have later : m₁.mailer.notifications.length ≤ id →
        ∃ before a' after s kind, a :: actions = before ++ a' :: after ∧
          run (step showDouble) m before = some s ∧ s.Subscribes a' kind ∧
          s.mailer.notifications.length = id ∧ n = s.captured kind := by
      intro hid
      obtain ⟨before, a', after, s, kind, rfl, hbefore, hrest⟩ := ih hrest hid
      exact ⟨a :: before, a', after, s, kind, rfl, run_cons.mpr ⟨m₁, hstep, hbefore⟩, hrest⟩
    rcases (effect_of_step showDouble hstep).notifications with heq | ⟨kind, hkind, rfl⟩
    · exact later (by rwa [heq])
    · rcases Nat.lt_or_eq_of_le hid with hlt | rfl
      · refine later ?_
        change (m.mailer.notifications ++ [m.captured kind]).length ≤ id
        rw [List.length_append]
        exact hlt
      · rw [getElem?_captured hrest] at hn
        exact ⟨[], a, actions, m, kind, rfl, rfl, hkind, rfl, (Option.some.inj hn).symm⟩

theorem sound_run {m m' : Monitor F} {actions : List (MonitorAction F)} (hm : m.mailer.Sound)
    (hrun : run (step showDouble) m actions = some m') : m'.mailer.Sound := by
  refine invariant_of_run (I := fun s => s.mailer.Sound) ?_ hm hrun
  intro s a s' hs hstep
  cases effect_of_step showDouble hstep with
  | poll x hu =>
    unfold polled
    split
    · exact List.foldlRecOn (motive := Mailer.Sound) _ _ hs fun _ h c _ => h.call c
    · exact hs
  | connect h => exact hs
  | subscribe h hkind => exact hs.subscribe _ _
  | answer method path queryString queryFields user h hkind => exact hs

/-- **Every mail was asked for.** Whatever is sent in a run goes back to one
request of it: the mail names the triggers which that request chose and goes to
the name and the address that were entered by then, whatever is entered later. -/
theorem sent_attributed {text : List Char} {m m' : Monitor F} (hm : m.Started text)
    {actions : List (MonitorAction F)} (hrun : run (step showDouble) m actions = some m')
    {id : Nat} {mail : Mail} (hsent : (id, mail) ∈ m'.mailer.sent) :
    ∃ before a after s kind, actions = before ++ a :: after ∧
      run (step showDouble) m before = some s ∧ s.Subscribes a kind ∧
      s.mailer.notifications.length = id ∧ mail = (s.captured kind).mail := by
  have hempty := hm.noMails
  have hsound : m'.mailer.Sound := sound_run (by rw [hempty]; exact Mailer.sound_empty) hrun
  obtain ⟨n, hn, rfl⟩ := hsound.quoted id mail hsent
  obtain ⟨before, a, after, s, kind, hactions, hbefore, hkind, hid, rfl⟩ :=
    exists_subscription hrun hn (by rw [hempty]; exact Nat.zero_le _)
  exact ⟨before, a, after, s, kind, hactions, hbefore, hkind, hid, rfl⟩

/-- A subscription that is followed by two polls at 85%. -/
def watchRun : List (MonitorAction Rat) :=
  [.connectPredicateEngine, setAnn] ++ chooseFirst :: [.poll (mockSample 85), .poll (mockSample 85)]

/-- `Hello Ann` -/
def annMail : Mail :=
  (Notification.mk " Ann".toList " ann@host".toList "Trigger CPU over 80% last for 2s".toList).mail

/-- The mail to Ann after two polls. -/
theorem sent_attributed_watch :
    ∃ before a after s kind, watchRun = before ++ a :: after ∧
      run (step showWhole) watch before = some s ∧ s.Subscribes a kind ∧
      s.mailer.notifications.length = 0 ∧ annMail = (s.captured kind).mail := by
  have hrun : run (step showWhole) watch watchRun = some _ := rfl
  have hsent : (0, annMail) ∈ [(0, annMail)] := List.mem_singleton.mpr rfl
  exact sent_attributed watch_started hrun hsent

/-! ## How many mails -/

/-- The samples of a run, in their order. -/
def samplesOf (actions : List (MonitorAction F)) : List (Sample F) :=
  actions.filterMap fun
    | .poll x => some x
    | _ => none

/-- The stream starts with the samples of the run. -/
def Streams (xs : Nat → Sample F) (r : Nat) (actions : List (MonitorAction F)) : Prop :=
  ∀ k x, (samplesOf actions)[k]? = some x → xs (r + k) = x

omit [Double F] in
theorem samplesOf_append (before after : List (MonitorAction F)) :
    samplesOf (before ++ after) = samplesOf before ++ samplesOf after := List.filterMap_append

omit [Double F] in
theorem Streams.left {xs : Nat → Sample F} {r : Nat} {before after : List (MonitorAction F)}
    (h : Streams xs r (before ++ after)) : Streams xs r before := fun k x hk => by
  refine h k x ?_
  rw [samplesOf_append, List.getElem?_append_left (List.getElem?_eq_some_iff.mp hk).1]
  exact hk

omit [Double F] in
theorem Streams.right {xs : Nat → Sample F} {r : Nat} {before after : List (MonitorAction F)}
    (h : Streams xs r (before ++ after)) : Streams xs (r + (samplesOf before).length) after := by
  intro k x hk
  rw [Nat.add_assoc]
  refine h _ x ?_
  rw [samplesOf_append, List.getElem?_append_right (Nat.le_add_right _ _),
    Nat.add_sub_cancel_left]
  exact hk

theorem run_concat {m m' : Monitor F} {actions : List (MonitorAction F)} {a : MonitorAction F} :
    run (step showDouble) m (actions ++ [a]) = some m' ↔
      ∃ s, run (step showDouble) m actions = some s ∧ step showDouble s a = some m' := by
  rw [run_append]
  refine exists_congr fun s => and_congr_right fun _ => ?_
  rw [run_cons]
  constructor
  · intro ⟨s', hs', heq⟩
    rwa [← Option.some.inj heq]
  · exact fun h => ⟨m', h, rfl⟩

theorem Effect.samplingManager {m m' : Monitor F} {a : MonitorAction F} (h : Effect m a m') :
    (∃ x, a = .poll x ∧ m' = m.polled x ∧
      ∀ t ∈ m.samplingManager.triggerStates.keys, t.UnitFits) ∨
    (samplesOf [a] = [] ∧ m'.samplingManager = m.samplingManager) := by
  cases h with
  | poll x hu => exact Or.inl ⟨x, rfl, rfl, hu⟩
  | connect h => exact Or.inr ⟨rfl, rfl⟩
  | subscribe h hkind =>
    obtain ⟨_, _, rfl, _⟩ := hkind
    exact Or.inr ⟨rfl, rfl⟩
  | answer method path queryString queryFields user h hkind => exact Or.inr ⟨rfl, rfl⟩

/-- The samples alone move the sampler: with any callbacks, polls of the same
samples take it where the run takes it. A relation to what the callbacks act on
is kept if a poll keeps it and the other steps do. -/
theorem polls_related {E : Type} (cb : Callbacks E) (R : Monitor F → E → Prop)
    (hpoll : ∀ s x e, R s e → R (s.polled x) ((s.samplingManager.callsIn x).foldl cb.call e))
    (hother : ∀ s a s' e, R s e → Effect s a s' → samplesOf [a] = [] → R s' e)
    {m m' : Monitor F} {actions : List (MonitorAction F)}
    (hrun : run (step showDouble) m actions = some m') {e : E} (he : R m e)
    {xs : Nat → Sample F} {r : Nat} (hxs : Streams xs r actions) :
    ∃ e', m.samplingManager.polls cb xs r (samplesOf actions).length e =
      .ok (m'.samplingManager, e') ∧ R m' e' := by
  induction actions using List.reverseRecOn generalizing m' with
  | nil =>
    obtain rfl := Option.some.inj hrun
    exact ⟨e, rfl, he⟩
  | append_singleton actions a ih =>
    obtain ⟨s, hs, hstep⟩ := run_concat.mp hrun
    obtain ⟨e', hpolls, he'⟩ := ih hs hxs.left
    have heffect := effect_of_step showDouble hstep
    rw [samplesOf_append]
    rcases heffect.samplingManager with ⟨x, rfl, rfl, hu⟩ | ⟨hnone, hsame⟩
    · have hx : xs (r + (samplesOf actions).length) = x := hxs.right 0 x rfl
      refine ⟨(s.samplingManager.callsIn x).foldl cb.call e', ?_, hpoll s x e' he'⟩
      change m.samplingManager.polls cb xs r ((samplesOf actions ++ [x]).length) e = _
      rw [List.length_append, List.length_singleton, SamplingManager.polls, hpolls, ← hx]
      exact SamplingManager.poll_eq cb _ s.samplingManager e' hu
    · rw [hnone, List.append_nil, hsame]
      exact ⟨e', hpolls, hother s a m' e' he' heffect hnone⟩

theorem polls_run {m m' : Monitor F} {actions : List (MonitorAction F)}
    (hrun : run (step showDouble) m actions = some m') {xs : Nat → Sample F} {r : Nat}
    (hxs : Streams xs r actions) :
    m.samplingManager.polls Callbacks.default xs r (samplesOf actions).length () =
      .ok (m'.samplingManager, ()) := by
  obtain ⟨_, hpolls, -⟩ := polls_related Callbacks.default (fun _ _ => True)
    (fun _ _ _ _ => trivial) (fun _ _ _ _ _ _ _ => trivial) hrun trivial hxs
  exact hpolls

/-- The predicate `id` of the monitor's engine is, flag by flag, the predicate 0
of an engine of its own. -/
def Twins (hears : TriggerType → Nat) (id : Nat) (m : Monitor F) (e : PredicateEngine) : Prop :=
  m.connected = true ∧ ∃ p, m.mailer.Mirrors hears id p ∧ ResMonitor.Mirrors hears 0 e p

theorem twins_polled {hears : TriggerType → Nat} {id : Nat} {m : Monitor F} {e : PredicateEngine}
    (h : Twins hears id m e) (x : Sample F) :
    Twins hears id (m.polled x)
      ((m.samplingManager.callsIn x).foldl PredicateEngine.callbacks.call e) := by
  obtain ⟨hconn, p, hmailer, hengine⟩ := h
  have hcalls : ∀ (calls : List TriggerCall) (mailer : Mailer) (e : PredicateEngine)
      (p : Predicate), mailer.Mirrors hears id p → ResMonitor.Mirrors hears 0 e p →
      ∃ p', (calls.foldl Mailer.callbacks.call mailer).Mirrors hears id p' ∧
        ResMonitor.Mirrors hears 0 (calls.foldl PredicateEngine.callbacks.call e) p' := by
    intro calls
    induction calls with
    | nil => exact fun mailer e p hm he => ⟨p, hm, he⟩
    | cons c calls ih =>
      intro mailer e p hm he
      refine ih _ _ _ (hm.call c) ?_
      cases c with
      | activate t => exact mirrors_signal he (fun p => p.kind_activate t) t
      | deactivate t => exact mirrors_signal he (fun p => p.kind_deactivate t) t
  refine ⟨hconn, ?_⟩
  unfold polled
  rw [if_pos hconn]
  exact hcalls _ _ _ _ hmailer hengine

theorem twins_other {hears : TriggerType → Nat} {id : Nat} {m m' : Monitor F}
    {a : MonitorAction F} {e : PredicateEngine} (h : Twins hears id m e) (heffect : Effect m a m')
    (hnone : samplesOf [a] = []) : Twins hears id m' e := by
  obtain ⟨hconn, p, hmailer, hengine⟩ := h
  cases heffect with
  | poll x hu => cases hnone
  | connect h => exact ⟨rfl, p, hmailer, hengine⟩
  | subscribe h hkind => exact ⟨hconn, p, hmailer.subscribe _ _, hengine⟩
  | answer method path queryString queryFields user h hkind =>
    exact ⟨hconn, p, hmailer, hengine⟩

theorem step_of_subscribes {m m' : Monitor F} {a : MonitorAction F}
    {kind : PredicateKind TriggerType} (hkind : m.Subscribes a kind)
    (hstep : step showDouble m a = some m') : m.connected = true ∧ m' = m.subscribed kind := by
  cases effect_of_step showDouble hstep with
  | poll x hu =>
    obtain ⟨_, _, heq, _⟩ := hkind
    cases heq
  | connect h =>
    obtain ⟨_, _, heq, _⟩ := hkind
    cases heq
  | @subscribe _ kind' h hkind' =>
    obtain ⟨_, _, rfl, hchosen⟩ := hkind
    obtain ⟨_, _, heq, hchosen'⟩ := hkind'
    cases heq
    rw [hchosen] at hchosen'
    cases hchosen'
    exact ⟨h, rfl⟩
  | answer method path queryString queryFields user h hnone => exact absurd hkind (hnone kind)

/-- A run through a subscription: before it, at it and after it. -/
structure Through (showDouble : F → List Char) (m : Monitor F)
    (before : List (MonitorAction F)) (a : MonitorAction F) (after : List (MonitorAction F))
    (s : Monitor F) (kind : PredicateKind TriggerType) (m' : Monitor F) : Prop where
  reaches : run (step showDouble) m before = some s
  subscribes : s.Subscribes a kind
  ends : run (step showDouble) m (before ++ a :: after) = some m'

theorem Through.after {m s m' : Monitor F} {before after : List (MonitorAction F)}
    {a : MonitorAction F} {kind : PredicateKind TriggerType}
    (h : Through showDouble m before a after s kind m') :
    s.connected = true ∧ run (step showDouble) (s.subscribed kind) after = some m' := by
  obtain ⟨s', hs', hrest⟩ := run_append.mp h.ends
  obtain rfl := Option.some.inj (h.reaches.symm.trans hs')
  obtain ⟨s₁, hstep, hafter⟩ := run_cons.mp hrest
  obtain ⟨hconn, rfl⟩ := step_of_subscribes h.subscribes hstep
  exact ⟨hconn, hafter⟩

omit [Double F] in
theorem Streams.after {xs : Nat → Sample F} {before after : List (MonitorAction F)}
    {a : MonitorAction F} (h : Streams xs 0 (before ++ a :: after)) (hnone : samplesOf [a] = []) :
    Streams xs (samplesOf before).length after := by
  rw [List.append_cons] at h
  have hright := h.right
  rwa [samplesOf_append, hnone, List.append_nil, Nat.zero_add] at hright

omit [Double F] in
theorem Subscribes.samplesOf {s : Monitor F} {a : MonitorAction F}
    {kind : PredicateKind TriggerType} (h : s.Subscribes a kind) : samplesOf [a] = [] := by
  obtain ⟨_, _, rfl, _⟩ := h
  rfl

/-- An engine in which this predicate alone is registered goes through the same
samples, and its predicate counts the mails of the subscription. -/
theorem Through.lone {text : List Char} {m s m' : Monitor F} (hm : m.Started text)
    {before after : List (MonitorAction F)} {a : MonitorAction F}
    {kind : PredicateKind TriggerType} (h : Through showDouble m before a after s kind m')
    {xs : Nat → Sample F} (hxs : Streams xs 0 (before ++ a :: after)) :
    ∃ e p, m.samplingManager.connectedRun xs (samplesOf before).length
        (PredicateEngine.empty.subscribe kind) (samplesOf after).length =
          .ok (m'.samplingManager, e) ∧ e.lock 0 = some p ∧
      p.calls = (m'.mailer.sent.map Prod.fst).count s.mailer.notifications.length := by
  have hsound : m'.mailer.Sound :=
    sound_run (by rw [hm.noMails]; exact Mailer.sound_empty) h.ends
  obtain ⟨hconn, hafter⟩ := h.after
  have htwins : Twins (fun t => kind.getPredicateOperands.count t)
      s.mailer.predEngine.objects.length (s.subscribed kind)
      (PredicateEngine.empty.subscribe kind) := by
    have hlone := PredicateEngine.registeredOnce_subscribe .empty kind
    exact ⟨hconn, Predicate.make kind, s.mailer.mirrors_subscribe kind _,
      funext hlone.heard, hlone.fresh⟩
  obtain ⟨e', hpolls, -, p, ⟨-, hlock⟩, -, hlock'⟩ := polls_related PredicateEngine.callbacks
    (Twins _ _) (fun _ x _ h => twins_polled h x) (fun _ _ _ _ h he hn => twins_other h he hn)
    hafter htwins (hxs.after h.subscribes.samplesOf)
  have hstart := polls_run h.reaches hxs.left
  have hcalls : p.calls = (m'.mailer.sent.map Prod.fst).count s.mailer.notifications.length := by
    rw [PredicateEngine.lock] at hlock
    rw [hsound.counted, s.mailer.notified, PredicateEngine.callsOf, hlock]
  refine ⟨e', p, ?_, hlock', hcalls⟩
  have hpolls : s.samplingManager.polls PredicateEngine.callbacks xs (samplesOf before).length
      (samplesOf after).length (PredicateEngine.empty.subscribe kind) =
        .ok (m'.samplingManager, e') := hpolls
  simp only [SamplingManager.connectedRun, hstart, hpolls, bind, Except.bind]

/-- **No request changes how many mails another gets.** A subscription is sent
as many mails as one predicate alone, in an engine of its own, would invoke its
callback on the same samples: other subscriptions, changes of the user and
failing requests before and after it make no difference. -/
theorem mails_isolated {text : List Char} {m s m' : Monitor F} (hm : m.Started text)
    {before after : List (MonitorAction F)} {a : MonitorAction F}
    {kind : PredicateKind TriggerType} (h : Through showDouble m before a after s kind m')
    {xs : Nat → Sample F} (hxs : Streams xs 0 (before ++ a :: after)) :
    m.samplingManager.invocations xs (samplesOf before).length
        (PredicateEngine.empty.subscribe kind) 0 (samplesOf after).length =
      .ok ((m'.mailer.sent.map Prod.fst).count s.mailer.notifications.length) := by
  obtain ⟨e, p, hrun, hlock, hcalls⟩ := h.lone hm hxs
  simp only [SamplingManager.invocations, hrun, hlock, hcalls, bind, Except.bind]

/-- The engine is connected and the user is entered. -/
def watching : Monitor Rat :=
  { watch with connected := true, user := ⟨" Ann".toList, " ann@host".toList⟩ }

theorem through_watch : ∃ m', Through showWhole watch [.connectPredicateEngine, setAnn] chooseFirst
    [.poll (mockSample 85), .poll (mockSample 85)] watching (.predicate1element cpuOver80) m' :=
  ⟨_, rfl, ⟨_, _, rfl, rfl⟩, rfl⟩

theorem streams_watch : Streams (fun _ => mockSample 85) 0 watchRun := by
  intro k x hk
  exact (List.eq_of_mem_replicate (n := 2) (List.mem_of_getElem? hk)).symm

/-- Two polls at 85% make one mail. -/
theorem mails_isolated_watch : ∃ m', run (step showWhole) watch watchRun = some m' ∧
    (m'.mailer.sent.map Prod.fst).count 0 = 1 := by
  obtain ⟨m', h⟩ := through_watch
  have halone : watchSampler.invocations (fun _ => mockSample 85) 0
      (PredicateEngine.empty.subscribe (.predicate1element cpuOver80)) 0 2 = .ok 1 := rfl
  have hcount := (mails_isolated watch_started h streams_watch).symm.trans halone
  exact ⟨m', h.ends, Except.ok.inj hcount⟩

/-! ## When a mail is sent -/

theorem triggerTypes_run {m m' : Monitor F} {actions : List (MonitorAction F)}
    (hrun : run (step showDouble) m actions = some m') : m'.triggerTypes = m.triggerTypes := by
  refine invariant_of_run (I := fun s => s.triggerTypes = m.triggerTypes) ?_ rfl hrun
  intro s a s' hs hstep
  cases effect_of_step showDouble hstep <;> exact hs

omit [Double F] in
theorem mem_of_vectorAt {α : Type} {xs : List α} {i : Int} {x : α}
    (h : StdString.vectorAt xs i = .ok x) : x ∈ xs := by
  unfold StdString.vectorAt at h
  split at h
  · cases h
  · split at h
    · rename_i hget
      cases h
      exact List.mem_of_getElem? hget
    · cases h

/-- Only configured triggers are chosen. -/
theorem mem_of_chosenPredicate {triggerTypes : List TriggerType} {queryFields : List Field}
    {kind : PredicateKind TriggerType}
    (h : chosenPredicate triggerTypes queryFields = .ok (some kind)) :
    ∀ t ∈ kind.getPredicateOperands, t ∈ triggerTypes := by
  have hmem : ∀ {i t}, triggerAt triggerTypes (seglist queryFields) i = .ok t →
      t ∈ triggerTypes := by
    intro i t ht
    obtain ⟨segment, -, ht⟩ := StdString.bind_ok ht
    obtain ⟨n, -, ht⟩ := StdString.bind_ok ht
    exact mem_of_vectorAt ht
  unfold chosenPredicate at h
  dsimp only at h
  split at h
  · obtain ⟨a, ha, h⟩ := StdString.bind_ok h
    obtain ⟨b, hb, h⟩ := StdString.bind_ok h
    obtain ⟨c, hc, h⟩ := StdString.bind_ok h
    cases h
    simp [PredicateKind.getPredicateOperands, hmem ha, hmem hb, hmem hc]
  · obtain ⟨a, ha, h⟩ := StdString.bind_ok h
    obtain ⟨b, hb, h⟩ := StdString.bind_ok h
    cases h
    simp [PredicateKind.getPredicateOperands, hmem ha, hmem hb]
  · obtain ⟨a, ha, h⟩ := StdString.bind_ok h
    cases h
    simp [PredicateKind.getPredicateOperands, hmem ha]
  · cases h

/-- A run with a poll has met no assertion, so the units fit. -/
theorem unitFits_run {m m' : Monitor F} {actions : List (MonitorAction F)}
    (hrun : run (step showDouble) m actions = some m') {xs : Nat → Sample F}
    (hxs : Streams xs 0 actions) (hpos : 0 < (samplesOf actions).length) :
    ∀ t ∈ m.samplingManager.triggerStates.keys, t.UnitFits := by
  obtain ⟨m₁, e₁, hone⟩ := SamplingManager.polls_of_le (k := 1) hpos (polls_run hrun hxs)
  have hpoll : m.samplingManager.poll Callbacks.default (xs 0) () = .ok (m₁, e₁) := hone
  exact SamplingManager.unitFits_of_poll hpoll

omit [Double F] in
theorem exists_stream {actions : List (MonitorAction F)} (h : 0 < (samplesOf actions).length) :
    ∃ xs, Streams xs 0 actions := by
  refine ⟨fun k => (samplesOf actions)[k]?.getD (samplesOf actions)[0], fun k x hk => ?_⟩
  dsimp only
  rw [Nat.zero_add, hk]
  rfl

/-- **A mail in time.** From a subscription on, in any run: if the comparisons
of operands that satisfy the formula hold for as many samples as the longest of
them asks for, the user who was entered at the request has got the mail that
quotes the chosen triggers. -/
theorem mail_in_time {text : List Char} {m s m' : Monitor F} (hm : m.Started text)
    {before after : List (MonitorAction F)} {a : MonitorAction F}
    {kind : PredicateKind TriggerType} (h : Through showDouble m before a after s kind m')
    {operands : List TriggerType}
    (hsub : ∀ t ∈ operands, t ∈ kind.getPredicateOperands ∧ 1 ≤ t.duration)
    (hformula : kind.Formula fun t => t ∈ operands) {D : Nat} (hD : ∀ t ∈ operands, t.duration ≤ D)
    (hlen : D ≤ (samplesOf after).length)
    (hsat : ∀ x ∈ (samplesOf after).take D, ∀ t ∈ operands, x.satisfies t = true) :
    (s.mailer.notifications.length, (s.captured kind).mail) ∈ m'.mailer.sent := by
  have hpos : 0 < D := by
    by_contra hzero
    have hnone : ∀ t, t ∉ operands := fun t ht => by
      have := hD t ht
      have := (hsub t ht).2
      omega
    cases kind <;> simp [PredicateKind.Formula, hnone] at hformula
  have hlong : 0 < (samplesOf (before ++ a :: after)).length := by
    rw [List.append_cons, samplesOf_append, List.length_append]
    omega
  obtain ⟨xs, hxs⟩ := exists_stream hlong
  have hu : ∀ t ∈ m.triggerTypes, t.UnitFits := fun t ht =>
    unitFits_run h.ends hxs hlong t ((hm.constructed.mem_keys t).mpr ht)
  have hconfigured : ∀ t ∈ kind.getPredicateOperands, t ∈ m.triggerTypes := by
    obtain ⟨_, _, _, hchosen⟩ := h.subscribes
    rw [triggerTypes_run h.reaches] at hchosen
    exact mem_of_chosenPredicate hchosen
  -- the samples from the subscription on
  have hafter := hxs.after h.subscribes.samplesOf
  have hholds : HoldsFor xs operands (samplesOf before).length D := fun t ht j hj => by
    have hget := List.getElem?_eq_getElem (Nat.lt_of_lt_of_le hj hlen)
    rw [outcomes, hafter j _ hget]
    refine hsat _ (List.mem_of_getElem? (i := j) ?_) t ht
    rw [List.getElem?_take_of_lt hj]
    exact hget
  have hlone : (PredicateEngine.empty.subscribe kind).Registered 0 kind :=
    (PredicateEngine.registeredOnce_subscribe .empty kind).registered
  obtain ⟨e, p, hrun, hlock, hcalls⟩ := h.lone hm hxs
  have hcount := invocations_eq hm.constructed hu hlone xs (samplesOf before).length
    (samplesOf after).length
  simp only [SamplingManager.invocations, hrun, hlock, bind, Except.bind] at hcount
  have hrings : 0 < (m'.mailer.sent.map Prod.fst).count s.mailer.notifications.length := by
    rw [← hcalls, Except.ok.inj hcount]
    refine PredicateKind.ringsIn_pos_of_edge ?_ ?_
    · cases kind <;> simp [PredicateKind.holds]
    · refine (PredicateKind.holds_iff _ _).mpr (PredicateKind.formula_mono ?_ hformula)
      intro t hop ht
      obtain ⟨j, hj, hact⟩ := exists_activatesAt (hsub t ht).2 (hD t ht) (hholds t ht)
      rw [raised_eq_raiseAll hm.constructed.mem_keys hlone xs _ _ t hop, raised_iff]
      exact ⟨hconfigured t hop, _, by omega, by omega, hact⟩
  obtain ⟨⟨_, mail⟩, hsent, rfl⟩ := List.mem_map.mp (List.count_pos_iff.mp hrings)
  -- the mail is the one of the callback that was captured
  have hsound : m'.mailer.Sound := sound_run (by rw [hm.noMails]; exact Mailer.sound_empty) h.ends
  obtain ⟨n, hn, rfl⟩ := hsound.quoted _ mail hsent
  rw [getElem?_captured h.after.2] at hn
  cases hn
  exact hsent

/-- Ann has her mail after two polls at 85%. -/
theorem mail_in_time_watch : ∃ m', run (step showWhole) watch watchRun = some m' ∧
    (0, annMail) ∈ m'.mailer.sent := by
  obtain ⟨m', h⟩ := through_watch
  have hsub : ∀ t ∈ [cpuOver80],
      t ∈ (PredicateKind.predicate1element cpuOver80).getPredicateOperands ∧ 1 ≤ t.duration := by
    intro t ht
    rw [List.mem_singleton.mp ht]
    exact ⟨List.mem_singleton.mpr rfl, by decide⟩
  have hD : ∀ t ∈ [cpuOver80], t.duration ≤ (2 : Nat) := by
    intro t ht
    rw [List.mem_singleton.mp ht]
    exact Int.le_refl 2
  refine ⟨m', h.ends, mail_in_time watch_started h hsub (List.mem_singleton.mpr rfl) hD
    (Nat.le_refl 2) fun x hx t ht => ?_⟩
  rw [List.eq_of_mem_replicate (n := 2) (a := mockSample 85) hx, List.mem_singleton.mp ht]
  rfl

/-! ## What `/getlogs` shows -/

theorem logTypes_run {m m' : Monitor F} {actions : List (MonitorAction F)}
    (hrun : run (step showDouble) m actions = some m') : m'.logTypes = m.logTypes := by
  refine invariant_of_run (I := fun s => s.logTypes = m.logTypes) ?_ rfl hrun
  intro s a s' hs hstep
  cases effect_of_step showDouble hstep <;> exact hs

/-- **The log that is shown.** At any moment of a run `/getlogs` prints the
means of the full windows of the samples taken so far, oldest first, the last
of them if there are more than the log has room for. No request changes it. -/
theorem getlogs_in_run {text : List Char} {m m' : Monitor F} (hm : m.Started text)
    {actions : List (MonitorAction F)} (hrun : run (step showDouble) m actions = some m')
    {xs : Nat → Sample F} (hxs : Streams xs 0 actions) {i r : Nat} {l l' : LogType}
    (hi : (i : Int) ≤ StdString.intMax) (hl : m.logTypes[i]? = some l)
    (hlast : lastLike m.logTypes l = some l') (hr : 0 < r) (hlr : l.resolution = r)
    {name value : List Char} (hname : ':' ∉ name) (hvalue : StdString.Decimal value i) :
    m'.respond showDouble [(name, value)] .getlogs =
      .ok (m', ((Windows.before (SamplingManager.windowMean xs l.resource r)
        ((samplesOf actions).length / r)).rtake (SamplingManager.logSize l').toNat).flatMap
          fun state => State.print showDouble l.resource state ++ ['\n']) := by
  obtain ⟨-, log, hinit, hlog⟩ := hm.constructed.log_initialized l.resource
  have hfind := (hlog.find? l).trans (SamplingManager.find?_initializeLog hinit rfl).2
  rw [hlast] at hfind
  obtain ⟨ring, hring, hcap, hitems⟩ :=
    hm.constructed.entry_after hfind hr hlr (polls_run hrun hxs)
  rw [CircularBuffer.capacity_ofCapacity] at hcap
  rw [← logTypes_run hrun] at hl
  simp only [respond, getLogs_of_index showDouble hname hvalue hi hl hring, bind, Except.bind,
    printLog, hitems, hcap]

/-- Two polls at 85% make one line. -/
theorem getlogs_in_run_watch : ∃ m', run (step showWhole) watch watchRun = some m' ∧
    m'.respond showWhole [("trigger".toList, "0".toList)] .getlogs =
      .ok (m', "CPU (system) [%]: 85, CPU (monitor) [%]: 10\n".toList) := by
  obtain ⟨m', h⟩ := through_watch
  have hname : ':' ∉ "trigger".toList := by decide
  have hvalue : StdString.Decimal "0".toList 0 := by decide
  have hpage := getlogs_in_run (l := ⟨.cpu, 3600, 2⟩) watch_started h.ends streams_watch
    (by decide) rfl rfl Nat.two_pos rfl hname hvalue
  refine ⟨m', h.ends, hpage.trans (congrArg (fun page => Except.ok (m', page)) ?_)⟩
  decide +kernel

end Monitor
end ResMonitor
