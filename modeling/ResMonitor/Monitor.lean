import ResMonitor.Lib.Transitions
import ResMonitor.Mailer
import Mathlib.Data.List.Perm.Basic

/-! # The monitor

The whole program as `main` puts it together. It parses the configuration,
starts sampling, connects the engine and serves requests, while the poller
keeps taking samples. A poll is one step and a request is one step; what the
two threads do to each other inside of one is not modelled. -/

namespace ResMonitor
open StdString

structure Monitor (F : Type) where
  triggerTypes : List TriggerType
  logTypes : List LogType
  samplingManager : SamplingManager F
  /-- `connectPredicateEngine` has been called, and the server is running. -/
  connected : Bool
  mailer : Mailer
  /-- The pointers that keep the predicates alive. -/
  predicates : List Nat
  user : User

inductive MonitorAction (F : Type) where
  | poll (x : Sample F)
  | connectPredicateEngine
  /-- A request, with its fields in the iteration order of their multimap. -/
  | request (method path queryString : List Char) (queryFields : List Field)

namespace Monitor
variable {F : Type} [Double F] (showDouble : F → List Char)

/-- A handler: the monitor afterwards, and the response. -/
def respond (m : Monitor F) (queryFields : List Field) :
    Handler → Except StdString.Exception (Monitor F × List Char)
  | .getlogs => do .ok (m, ← getLogs showDouble m.logTypes m.samplingManager queryFields)
  | .triggerChoose => do
    match ← chosenPredicate m.triggerTypes queryFields with
    | some kind => .ok ({ m with
        mailer := m.mailer.subscribe kind ⟨m.user.userName, m.user.userEmail, kind.print⟩
        predicates := m.predicates ++ [m.mailer.predEngine.objects.length] },
      "Your subscription has been saved!".toList)
    | none => .ok (m, "Wrong data!".toList)
  | .setEmail => do
    let html := String.ofList (writeHtmlToString m.triggerTypes m.logTypes)
    let (user, resp) ← setEmail html queryFields m.user
    .ok ({ m with user }, resp.toList)
  | .defaultResource => .ok (m, writeHtmlToString m.triggerTypes m.logTypes)

/-- An exception of the handler ends in `on_error`, which does nothing. -/
def serve (m : Monitor F) (method path : List Char) (queryFields : List Field) : Monitor F :=
  match findResource method path with
  | none => m
  | some handler =>
    match m.respond showDouble queryFields handler with
    | .ok (m', _) => m'
    | .error _ => m

/-- `none` where the action is not enabled, or an assertion ends the process. -/
def step (m : Monitor F) : MonitorAction F → Option (Monitor F)
  | .poll x =>
    if m.connected then
      match m.samplingManager.poll Mailer.callbacks x m.mailer with
      | .ok (samplingManager, mailer) => some { m with samplingManager, mailer }
      | .error _ => none
    else
      match m.samplingManager.poll Callbacks.default x () with
      | .ok (samplingManager, _) => some { m with samplingManager }
      | .error _ => none
  | .connectPredicateEngine => if m.connected then none else some { m with connected := true }
  | .request method path queryString queryFields =>
    if m.connected ∧ queryFields.Perm (QueryString.parse queryString) then
      some (m.serve showDouble method path queryFields)
    else none

/-- `main` before the server starts: the configuration is parsed, and nothing
is connected, subscribed or entered. -/
structure Started (text : List Char) (m : Monitor F) : Prop where
  parsed : ∃ g, ConfigurationParser.run .fresh text = .ok g ∧
    g.triggerTypes = m.triggerTypes ∧ g.logTypes = m.logTypes
  constructed : m.samplingManager.ConstructedFrom m.logTypes m.triggerTypes
  unconnected : m.connected = false
  noMails : m.mailer = .empty
  noPredicates : m.predicates = []
  noUser : m.user = ⟨[], []⟩

/-! ## What one step can do -/

/-- In `m` the action is a request that subscribes to `kind`. -/
def Subscribes (m : Monitor F) (a : MonitorAction F) (kind : PredicateKind TriggerType) : Prop :=
  ∃ queryString queryFields,
    a = .request "GET".toList "/trigger_choose".toList queryString queryFields ∧
    chosenPredicate m.triggerTypes queryFields = .ok (some kind)

/-- What `sendMailFunction` would capture now. -/
def captured (m : Monitor F) (kind : PredicateKind TriggerType) : Notification :=
  ⟨m.user.userName, m.user.userEmail, kind.print⟩

def polled (m : Monitor F) (x : Sample F) : Monitor F := { m with
  samplingManager := m.samplingManager.polled x
  mailer := if m.connected then
      (m.samplingManager.callsIn x).foldl Mailer.callbacks.call m.mailer
    else m.mailer }

def subscribed (m : Monitor F) (kind : PredicateKind TriggerType) : Monitor F := { m with
  mailer := m.mailer.subscribe kind (m.captured kind)
  predicates := m.predicates ++ [m.mailer.predEngine.objects.length] }

/-- The four things a step can be. -/
inductive Effect (m : Monitor F) : MonitorAction F → Monitor F → Prop where
  | poll (x : Sample F) (hu : ∀ t ∈ m.samplingManager.triggerStates.keys, t.UnitFits) :
      Effect m (.poll x) (m.polled x)
  | connect (h : m.connected = false) :
      Effect m .connectPredicateEngine { m with connected := true }
  | subscribe {a : MonitorAction F} {kind : PredicateKind TriggerType} (h : m.connected = true)
      (hkind : m.Subscribes a kind) : Effect m a (m.subscribed kind)
  /-- A request that subscribes to nothing at most enters the user. -/
  | answer (method path queryString : List Char) (queryFields : List Field) (user : User)
      (h : m.connected = true)
      (hkind : ∀ kind, ¬ m.Subscribes (.request method path queryString queryFields) kind) :
      Effect m (.request method path queryString queryFields) { m with user }

theorem findResource_eq_triggerChoose {method path : List Char} :
    findResource method path = some .triggerChoose ↔
      method = "GET".toList ∧ path = "/trigger_choose".toList := by
  unfold findResource
  constructor
  · intro h
    split at h
    · split at h
      · cases h
      · split at h
        · cases h
        · split at h
          · exact ⟨‹_›, ‹_›⟩
          · cases h
    · cases h
  · rintro ⟨rfl, rfl⟩
    rfl

theorem effect_serve (m : Monitor F) (method path queryString : List Char)
    (queryFields : List Field) (h : m.connected = true) :
    Effect m (.request method path queryString queryFields)
      (m.serve showDouble method path queryFields) := by
  -- a request that no predicate is chosen for
  have answer : ∀ user : User, (∀ kind, findResource method path = some .triggerChoose →
      chosenPredicate m.triggerTypes queryFields ≠ .ok (some kind)) →
      Effect m (.request method path queryString queryFields) { m with user } := by
    intro user hnone
    refine .answer _ _ _ _ user h fun kind hkind => ?_
    obtain ⟨_, _, heq, hchosen⟩ := hkind
    cases heq
    exact hnone kind rfl hchosen
  have other : ∀ {handler : Handler}, findResource method path = some handler →
      handler ≠ .triggerChoose → ∀ user : User,
      Effect m (.request method path queryString queryFields) { m with user } := by
    intro handler hfind hother user
    refine answer user fun kind h => ?_
    rw [hfind] at h
    exact absurd (Option.some.inj h) hother
  unfold serve
  cases hfind : findResource method path with
  | none => exact answer m.user fun kind h => by rw [hfind] at h; cases h
  | some handler =>
    have other := fun hother => @other handler hfind hother
    cases handler with
    | getlogs =>
      dsimp only [respond]
      cases getLogs showDouble m.logTypes m.samplingManager queryFields with
      | error e => exact other nofun m.user
      | ok resp => exact other nofun m.user
    | setEmail =>
      dsimp only [respond]
      cases setEmail (String.ofList (writeHtmlToString m.triggerTypes m.logTypes)) queryFields
        m.user with
      | error e => exact other nofun m.user
      | ok r => exact other nofun r.1
    | triggerChoose =>
      dsimp only [respond]
      cases hchosen : chosenPredicate m.triggerTypes queryFields with
      | error e => exact answer m.user fun kind _ h => by rw [hchosen] at h; cases h
      | ok pred =>
        cases pred with
        | none => exact answer m.user fun kind _ h => by rw [hchosen] at h; cases h
        | some kind =>
          obtain ⟨rfl, rfl⟩ := findResource_eq_triggerChoose.mp hfind
          exact .subscribe h ⟨_, _, rfl, hchosen⟩
    | defaultResource => exact other nofun m.user

/-- **What a step does.** -/
theorem effect_of_step {m m' : Monitor F} {a : MonitorAction F}
    (h : m.step showDouble a = some m') : Effect m a m' := by
  cases a with
  | poll x =>
    simp only [step] at h
    split at h
    · rename_i hconn
      split at h
      · rename_i hpoll
        obtain rfl := Option.some.inj h
        have hu := SamplingManager.unitFits_of_poll hpoll
        rw [SamplingManager.poll_eq _ _ _ _ hu] at hpoll
        cases hpoll
        have heffect := Effect.poll (m := m) x hu
        rwa [polled, if_pos hconn] at heffect
      · cases h
    · rename_i hconn
      split at h
      · rename_i hpoll
        obtain rfl := Option.some.inj h
        have hu := SamplingManager.unitFits_of_poll hpoll
        rw [SamplingManager.poll_eq _ _ _ _ hu] at hpoll
        cases hpoll
        have heffect := Effect.poll (m := m) x hu
        rwa [polled, if_neg hconn] at heffect
      · cases h
  | connectPredicateEngine =>
    simp only [step] at h
    split at h
    · cases h
    · rename_i hconn
      obtain rfl := Option.some.inj h
      exact .connect (Bool.eq_false_iff.mpr hconn)
  | request method path queryString queryFields =>
    simp only [step] at h
    split at h
    · rename_i hserve
      obtain rfl := Option.some.inj h
      exact effect_serve showDouble m method path queryString queryFields hserve.1
    · cases h

/-! ## A monitor -/

/-- `log cpu for 1h resolution 2s` -/
def cpuHour : Statement :=
  .log .cpu ⟨⟨⟨(1, .hour), []⟩, by decide⟩, []⟩ ⟨⟨⟨(2, .sec), []⟩, by decide⟩, []⟩

theorem cpuHour_mem : "log cpu for 1h resolution 2s\n".toList ∈ cpuHour.text := by
  have part : ∀ {n : Nat} {unit : TimeUnit} {s suffix : List Char},
      numberPattern.rmatch s = true → Nat.ofDigitChars 10 s 0 = n →
      (ws0 * timeUnitPattern unit).rmatch suffix = true →
      s ++ suffix ∈ ([(n, unit)].map partText).prod := fun hs hn hunit =>
    ⟨_, ⟨_, ⟨mem_of_rmatch hs, hn⟩, _, mem_of_rmatch hunit, rfl⟩, [], rfl, List.append_nil _⟩
  refine ⟨"log ".toList, mem_of_rmatch rfl, "cpu for 1h resolution 2s\n".toList,
    ⟨"cpu ".toList, mem_of_rmatch rfl, "for 1h resolution 2s\n".toList, ⟨"for 1h ".toList, Or.inr
      ⟨"for ".toList, mem_of_rmatch rfl, "1h ".toList,
        ⟨"1h".toList, part (s := ['1']) rfl rfl rfl, " ".toList, mem_of_rmatch rfl, rfl⟩, rfl⟩,
      "resolution 2s\n".toList, Or.inr ⟨"resolution ".toList, mem_of_rmatch rfl, "2s\n".toList,
        ⟨"2s".toList, part (s := ['2']) rfl rfl rfl, "\n".toList, mem_of_rmatch rfl, rfl⟩, rfl⟩,
      rfl⟩, rfl⟩, rfl⟩

/-- A trigger and a log. -/
def watchText : List Char :=
  "Trigger CPU over 80% last for 2s\nlog cpu for 1h resolution 2s\n".toList

def watchSampler : SamplingManager Rat := { SamplingManager.unlogged [cpuOver80] with
  cpuSamples := SamplingManager.sampleRing .cpu [⟨.cpu, 3600, 2⟩]
  cpuLog := UnorderedMap.empty.insert ⟨.cpu, 3600, 2⟩ (.ofCapacity 1800, 0)
  cpuSamples_pos := SamplingManager.sampleRing_pos _ _ }

/-- The monitor that watches it. -/
def watch : Monitor Rat where
  triggerTypes := [cpuOver80]
  logTypes := [⟨.cpu, 3600, 2⟩]
  samplingManager := watchSampler
  connected := false
  mailer := .empty
  predicates := []
  user := ⟨[], []⟩

theorem cpuOver80_writable : cpuOver80.Writable :=
  ⟨rfl, ⟨by decide, by decide⟩, ⟨by decide, by decide⟩⟩

theorem watch_started : watch.Started watchText := by
  have htext : watchText ∈ configText [cpuOver80.statement cpuOver80_writable, cpuHour] :=
    ⟨_, cpuOver80.print_mem_text cpuOver80_writable, _, ⟨_, cpuHour_mem, [], rfl, rfl⟩, rfl⟩
  obtain ⟨g, hrun, -, htriggers, hlogs⟩ := run_configText _ htext Globals.idle_fresh
  exact ⟨⟨g, hrun, htriggers, hlogs⟩, SamplingManager.constructedFrom_construct rfl, rfl, rfl,
    rfl, rfl⟩

/-- The user enters a name and an address. -/
def setAnn : MonitorAction Rat :=
  .request "GET".toList "/set_email".toList "email=ann%40host&name=Ann".toList
    [("name".toList, "Ann".toList), ("email".toList, "ann@host".toList)]

/-- The user subscribes to the trigger. -/
def chooseFirst : MonitorAction Rat :=
  .request "GET".toList "/trigger_choose".toList "trigger0=0".toList
    [("trigger0".toList, "0".toList)]

/-- Whole numbers as `operator<<` prints them. -/
def showWhole (x : Rat) : List Char := showLong x.num

end Monitor
end ResMonitor
