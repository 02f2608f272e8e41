import ResMonitor.Lib.Transitions
import Mathlib.Data.List.Basic

/-! # The life cycle of sampling

One thread calls `startSampling`, `stopSampling` and at last the destructor;
the polling function runs in threads of its own. They share `isSampling`, and
each access to it is one step, as is the creation of a thread, its assignment
to `pollerThread` and its join. `isSampling` stands in for "there is a thread to
join": the two part when a poller ends by itself. -/

namespace ResMonitor

/-- Where a thread is in `pollingFunction`. -/
inductive PollerAt where
  | whileTest
  /-- the samples, the triggers and the logs -/
  | sampling
  | callback
  | breakTest
  | sleeping
  /-- `isSampling = false`, after the loop -/
  | lastStore
  | ended
  deriving DecidableEq, Repr

/-- Where the controlling thread is; `destroying` if `stopSampling` was called
by the destructor. -/
inductive ControllerAt where
  | idle
  | startStore
  | startSpawn
  | startAssign
  | stopStore (destroying : Bool)
  | stopJoin (destroying : Bool)
  | destroyMembers
  | destroyed
  deriving DecidableEq, Repr

/-- What ends the process: `std::terminate` twice, and the `std::system_error`
of a join without a thread. -/
inductive ThreadFailure where
  | assignJoinable
  | destroyJoinable
  | joinNotJoinable
  deriving DecidableEq, Repr

structure LifeCycle where
  isSampling : Bool
  /-- The thread that `pollerThread` represents, while it is joinable. -/
  pollerThread : Option Nat
  /-- The temporary on the right of the assignment in `startSampling`. -/
  spawned : Option Nat
  /-- Every thread created so far. -/
  threads : List PollerAt
  controller : ControllerAt
  failure : Option ThreadFailure
  deriving DecidableEq, Repr

inductive LifeCycleAction where
  | startSampling
  | stopSampling
  | destroy
  /-- The next step of the call that the controlling thread is in. -/
  | controller
  /-- The next step of a poller; `hookClears` if it is `afterPollCallback`
  and that clears `isSampling`. -/
  | poller (id : Nat) (hookClears : Bool)
  deriving DecidableEq, Repr

namespace LifeCycle

/-- After the constructor. -/
def init : LifeCycle := ⟨false, none, none, [], .idle, none⟩

/-- `stopSampling` is left, to the caller or to the rest of the destructor. -/
def returned (s : LifeCycle) (destroying : Bool) : LifeCycle :=
  { s with controller := if destroying then .destroyMembers else .idle }

def startSampling (s : LifeCycle) : LifeCycle :=
  if s.isSampling then s else { s with controller := .startStore }

def stopSampling (s : LifeCycle) (destroying : Bool) : LifeCycle :=
  if !s.isSampling then s.returned destroying else { s with controller := .stopStore destroying }

def controllerStep (s : LifeCycle) : Option LifeCycle :=
  match s.controller with
  | .idle => none
  | .startStore => some { s with isSampling := true, controller := .startSpawn }
  | .startSpawn => some { s with
      threads := s.threads ++ [.whileTest]
      spawned := some s.threads.length
      controller := .startAssign }
  | .startAssign =>
    if s.pollerThread.isSome then some { s with failure := some .assignJoinable }
    else some { s with pollerThread := s.spawned, spawned := none, controller := .idle }
  | .stopStore destroying => some { s with isSampling := false, controller := .stopJoin destroying }
  | .stopJoin destroying =>
    match s.pollerThread with
    | none => some { s with failure := some .joinNotJoinable }
    | some id =>
      -- the join waits for the end of the thread
      if s.threads[id]? = some .ended then
        some ({ s with pollerThread := none }.returned destroying)
      else none
  | .destroyMembers =>
    if s.pollerThread.isSome then some { s with failure := some .destroyJoinable }
    else some { s with controller := .destroyed }
  | .destroyed => none

def moveTo (s : LifeCycle) (id : Nat) (pos : PollerAt) : LifeCycle :=
  { s with threads := s.threads.set id pos }

def pollerStep (s : LifeCycle) (id : Nat) (hookClears : Bool) : PollerAt → Option LifeCycle
  | .whileTest => some (s.moveTo id (if s.isSampling then .sampling else .lastStore))
  | .sampling => some (s.moveTo id .callback)
  | .callback =>
    some ({ s with isSampling := s.isSampling && !hookClears }.moveTo id .breakTest)
  | .breakTest => some (s.moveTo id (if s.isSampling then .sleeping else .lastStore))
  | .sleeping => some (s.moveTo id .whileTest)
  | .lastStore => some ({ s with isSampling := false }.moveTo id .ended)
  | .ended => none

/-- One step. Nothing happens after a failure. -/
def step (s : LifeCycle) (action : LifeCycleAction) : Option LifeCycle :=
  if s.failure.isSome then none
  else match action with
  | .startSampling => if s.controller = .idle then some s.startSampling else none
  | .stopSampling => if s.controller = .idle then some (s.stopSampling false) else none
  | .destroy => if s.controller = .idle then some (s.stopSampling true) else none
  | .controller => s.controllerStep
  | .poller id hookClears =>
    match s.threads[id]? with
    | some pos => s.pollerStep id hookClears pos
    | none => none

def run (s : LifeCycle) (actions : List LifeCycleAction) : Option LifeCycle :=
  Transitions.run step s actions

/-! ## What is to hold -/

/-- At most one poller runs. -/
def AtMostOne (s : LifeCycle) : Prop :=
  ∀ (id id' : Nat) (pos pos' : PollerAt), s.threads[id]? = some pos → s.threads[id']? = some pos' →
    pos ≠ .ended → pos' ≠ .ended → id = id'

structure Safe (s : LifeCycle) : Prop where
  noFailure : s.failure = none
  atMostOne : s.AtMostOne

/-- Every state that the run passes through is safe. -/
def SafeThroughout (actions : List LifeCycleAction) : Prop :=
  ∀ before, before <+: actions → ∀ s, run init before = some s → s.Safe

/-- The destructor is through, or the process has ended before. -/
def Over (s : LifeCycle) : Prop := s.controller = .destroyed ∨ s.failure ≠ none

/-- `stopSampling` is past its test, and about to clear `isSampling` and join, or doing so. -/
def isStopping (s : LifeCycle) : Bool :=
  match s.controller with
  | .stopStore _ => true
  | .stopJoin _ => true
  | _ => false

/-- If the hook clears `isSampling` in this step, then in the course of a stop. -/
def ClearsWhileStopping (s : LifeCycle) : LifeCycleAction → Prop
  | .poller id true => s.threads[id]? = some .callback → s.isStopping = true
  | _ => True

instance : ∀ s action, Decidable (ClearsWhileStopping s action)
  | s, .poller id true =>
    inferInstanceAs (Decidable (s.threads[id]? = some .callback → s.isStopping = true))
  | _, .poller _ false => isTrue trivial
  | _, .startSampling => isTrue trivial
  | _, .stopSampling => isTrue trivial
  | _, .destroy => isTrue trivial
  | _, .controller => isTrue trivial

/-! ## Flag and thread -/

/-- No thread runs. -/
def Quiet (s : LifeCycle) : Prop :=
  ∀ (id : Nat) (pos : PollerAt), s.threads[id]? = some pos → pos = .ended

/-- No thread runs but `id`, and while the flag is up that one is in its loop. -/
structure Polls (s : LifeCycle) (id : Nat) : Prop where
  only : ∀ (id' : Nat) (pos : PollerAt), s.threads[id']? = some pos → pos ≠ .ended → id' = id
  inLoop : s.isSampling = true →
    ∃ pos, s.threads[id]? = some pos ∧ pos ≠ .lastStore ∧ pos ≠ .ended

/-- What relates the flag, the threads and the one to join, wherever the
controlling thread is: while nobody but it clears the flag. -/
def Related (s : LifeCycle) : Prop :=
  match s.controller with
  | .idle =>
    (s.isSampling = false ∧ s.pollerThread = none ∧ s.Quiet) ∨
      (s.isSampling = true ∧ ∃ id, s.pollerThread = some id ∧ s.Polls id)
  | .startStore => s.pollerThread = none ∧ s.Quiet
  | .startSpawn => s.isSampling = true ∧ s.pollerThread = none ∧ s.Quiet
  | .startAssign =>
    s.isSampling = true ∧ s.pollerThread = none ∧ ∃ id, s.spawned = some id ∧ s.Polls id
  | .stopStore _ => ∃ id, s.pollerThread = some id ∧ s.Polls id
  | .stopJoin _ => s.isSampling = false ∧ ∃ id, s.pollerThread = some id ∧ s.Polls id
  | .destroyMembers => s.pollerThread = none ∧ s.Quiet
  | .destroyed => s.Quiet

structure Inv (s : LifeCycle) : Prop where
  noFailure : s.failure = none
  related : s.Related

theorem Quiet.atMostOne {s : LifeCycle} (h : s.Quiet) : s.AtMostOne :=
  fun id _ pos _ hpos _ hne _ => absurd (h id pos hpos) hne

theorem Polls.atMostOne {s : LifeCycle} {id : Nat} (h : s.Polls id) : s.AtMostOne :=
  fun _ _ _ _ hpos hpos' hne hne' => (h.only _ _ hpos hne).trans (h.only _ _ hpos' hne').symm

theorem Inv.safe {s : LifeCycle} (h : s.Inv) : s.Safe := by
  refine ⟨h.noFailure, ?_⟩
  have hrel := h.related
  unfold Related at hrel
  cases hat : s.controller with
  | idle =>
    rw [hat] at hrel
    obtain ⟨_, _, hquiet⟩ | ⟨_, _, _, hpolls⟩ := hrel
    · exact hquiet.atMostOne
    · exact hpolls.atMostOne
  | startStore | destroyMembers =>
    rw [hat] at hrel
    exact hrel.2.atMostOne
  | startSpawn =>
    rw [hat] at hrel
    exact hrel.2.2.atMostOne
  | startAssign =>
    rw [hat] at hrel
    obtain ⟨_, _, _, _, hpolls⟩ := hrel
    exact hpolls.atMostOne
  | stopStore destroying =>
    rw [hat] at hrel
    obtain ⟨_, _, hpolls⟩ := hrel
    exact hpolls.atMostOne
  | stopJoin destroying =>
    rw [hat] at hrel
    obtain ⟨_, _, _, hpolls⟩ := hrel
    exact hpolls.atMostOne
  | destroyed =>
    rw [hat] at hrel
    exact hrel.atMostOne

theorem inv_init : init.Inv := by
  refine ⟨rfl, Or.inl ⟨rfl, rfl, ?_⟩⟩
  intro id pos hpos
  simp [init] at hpos

/-! ## A step of a poller -/

/-- What a step of a poller can do. -/
theorem pollerStep_cases {s s' : LifeCycle} {id : Nat} {hookClears : Bool} {pos : PollerAt}
    (h : s.pollerStep id hookClears pos = some s') :
    ∃ pos' flag, s' = { s with isSampling := flag, threads := s.threads.set id pos' } ∧
      pos ≠ .ended ∧ (pos' = .ended → pos = .lastStore) ∧
      (pos' = .lastStore → s.isSampling = false) ∧
      (flag = s.isSampling ∨
        flag = false ∧ (pos = .lastStore ∨ pos = .callback ∧ hookClears = true)) := by
  cases pos with
  | whileTest =>
    obtain rfl := Option.some.inj h
    refine ⟨_, s.isSampling, rfl, by simp, ?_, ?_, Or.inl rfl⟩ <;>
    cases s.isSampling <;> simp
  | sampling =>
    obtain rfl := Option.some.inj h
    exact ⟨.callback, s.isSampling, rfl, by simp, by simp, by simp, Or.inl rfl⟩
  | callback =>
    obtain rfl := Option.some.inj h
    refine ⟨.breakTest, _, rfl, by simp, by simp, by simp, ?_⟩
    cases hookClears with
    | false => exact Or.inl (by simp)
    | true => exact Or.inr ⟨by simp, Or.inr ⟨rfl, rfl⟩⟩
  | breakTest =>
    obtain rfl := Option.some.inj h
    refine ⟨_, s.isSampling, rfl, by simp, ?_, ?_, Or.inl rfl⟩ <;>
    cases s.isSampling <;> simp
  | sleeping =>
    obtain rfl := Option.some.inj h
    exact ⟨.whileTest, s.isSampling, rfl, by simp, by simp, by simp, Or.inl rfl⟩
  | lastStore =>
    obtain rfl := Option.some.inj h
    exact ⟨.ended, false, rfl, by simp, by simp, by simp, Or.inr ⟨rfl, Or.inl rfl⟩⟩
  | ended => cases h

theorem Quiet.not_pollerStep {s s' : LifeCycle} {id : Nat} {hookClears : Bool} {pos : PollerAt}
    (hquiet : s.Quiet) (hpos : s.threads[id]? = some pos) :
    s.pollerStep id hookClears pos ≠ some s' := by
  obtain rfl := hquiet id pos hpos
  simp [pollerStep]

/-- The flag is still up, unless the hook has cleared it. -/
theorem Polls.pollerStep {s s' : LifeCycle} {running id : Nat} {hookClears : Bool} {pos : PollerAt}
    (hpolls : s.Polls running) (hpos : s.threads[id]? = some pos)
    (h : s.pollerStep id hookClears pos = some s') :
    s'.Polls running ∧ (s'.isSampling = s.isSampling ∨
      s'.isSampling = false ∧ pos = .callback ∧ hookClears = true) := by
  obtain ⟨pos', flag, rfl, hne, hended, hlast, hflag⟩ := pollerStep_cases h
  obtain rfl : id = running := hpolls.only id pos hpos hne
  have hlt : id < s.threads.length := (List.getElem?_eq_some_iff.mp hpos).1
  have hloop : s.isSampling = true → pos ≠ .lastStore := by
    intro hup
    obtain ⟨_, hat, hnot, _⟩ := hpolls.inLoop hup
    rwa [Option.some.inj (hpos.symm.trans hat)]
  refine ⟨⟨?_, ?_⟩, ?_⟩
  · intro id' pos'' hat hne''
    by_contra hother
    rw [List.getElem?_set_ne (Ne.symm hother)] at hat
    exact hother (hpolls.only id' pos'' hat hne'')
  · intro hup
    have hwas : s.isSampling = true := by
      obtain hsame | ⟨hdown, _⟩ := hflag
      · exact hsame ▸ hup
      · cases hdown.symm.trans hup
    refine ⟨pos', List.getElem?_set_self hlt, ?_, fun he => hloop hwas (hended he)⟩
    intro he
    cases (hlast he).symm.trans hwas
  · obtain hsame | ⟨hdown, hstore | hhook⟩ := hflag
    · exact Or.inl hsame
    · refine Or.inl (hdown.trans ?_)
      cases hup : s.isSampling with
      | false => rfl
      | true => exact absurd hstore (hloop hup)
    · exact Or.inr ⟨hdown, hhook⟩

/-- A step of a poller leaves the controlling thread and the thread to join as they are. -/
theorem pollerStep_frame {s s' : LifeCycle} {id : Nat} {hookClears : Bool} {pos : PollerAt}
    (h : s.pollerStep id hookClears pos = some s') :
    s'.controller = s.controller ∧ s'.pollerThread = s.pollerThread ∧ s'.spawned = s.spawned ∧
      s'.failure = s.failure ∧ (s.isSampling = false → s'.isSampling = false) := by
  obtain ⟨pos', flag, rfl, _, _, _, hflag⟩ := pollerStep_cases h
  refine ⟨rfl, rfl, rfl, rfl, fun hdown => ?_⟩
  obtain hsame | ⟨hdown', _⟩ := hflag
  · exact hsame.trans hdown
  · exact hdown'

/-- The new thread is the only one that runs. -/
theorem Quiet.polls_spawned {s : LifeCycle} (hquiet : s.Quiet) :
    Polls { s with threads := s.threads ++ [.whileTest], spawned := some s.threads.length,
                   controller := .startAssign } s.threads.length := by
  refine ⟨?_, fun _ => ⟨.whileTest, by simp, by simp, by simp⟩⟩
  intro id pos hat hne
  obtain hlt | heq | hgt := Nat.lt_trichotomy id s.threads.length
  · rw [List.getElem?_append_left hlt] at hat
    exact absurd (hquiet id pos hat) hne
  · exact heq
  · rw [List.getElem?_eq_none (by simp; omega)] at hat
    cases hat

/-- After the join no thread runs. -/
theorem Polls.quiet {s : LifeCycle} {id : Nat} (hpolls : s.Polls id)
    (hended : s.threads[id]? = some .ended) : s.Quiet := by
  intro id' pos hat
  by_contra hne
  obtain rfl := hpolls.only id' pos hat hne
  exact hne (Option.some.inj (hat.symm.trans hended))

/-! ## Every step -/

/-- The flag is up still if this was no step of the hook. -/
theorem Polls.pollerStep_up {s s' : LifeCycle} {running id : Nat} {hookClears : Bool}
    {pos : PollerAt} (hpolls : s.Polls running) (hpos : s.threads[id]? = some pos)
    (hnot : s.isStopping = false) (hok : s.ClearsWhileStopping (.poller id hookClears))
    (h : s.pollerStep id hookClears pos = some s') : s'.isSampling = s.isSampling := by
  obtain ⟨_, hsame | ⟨_, rfl, rfl⟩⟩ := hpolls.pollerStep hpos h
  · exact hsame
  · cases hnot.symm.trans (hok hpos)

theorem Inv.pollerStep {s s' : LifeCycle} {id : Nat} {hookClears : Bool} {pos : PollerAt}
    (hinv : s.Inv) (hpos : s.threads[id]? = some pos)
    (hok : s.ClearsWhileStopping (.poller id hookClears))
    (h : s.pollerStep id hookClears pos = some s') : s'.Inv := by
  obtain ⟨hcontroller, hthread, hspawned, hfailure, hdown⟩ := pollerStep_frame h
  refine ⟨hfailure.trans hinv.noFailure, ?_⟩
  have hrel := hinv.related
  unfold Related at hrel ⊢
  rw [hcontroller, hthread, hspawned]
  cases hat : s.controller with
  | idle =>
    rw [hat] at hrel
    obtain ⟨_, _, hquiet⟩ | ⟨hup, running, hid, hpolls⟩ := hrel
    · exact absurd h (hquiet.not_pollerStep hpos)
    · have hsame := hpolls.pollerStep_up hpos (by simp [isStopping, hat]) hok h
      exact Or.inr ⟨hsame.trans hup, running, hid, (hpolls.pollerStep hpos h).1⟩
  | startStore =>
    rw [hat] at hrel
    exact absurd h (hrel.2.not_pollerStep hpos)
  | startSpawn =>
    rw [hat] at hrel
    exact absurd h (hrel.2.2.not_pollerStep hpos)
  | startAssign =>
    rw [hat] at hrel
    obtain ⟨hup, hnone, running, hid, hpolls⟩ := hrel
    have hsame := hpolls.pollerStep_up hpos (by simp [isStopping, hat]) hok h
    exact ⟨hsame.trans hup, hnone, running, hid, (hpolls.pollerStep hpos h).1⟩
  | stopStore destroying =>
    rw [hat] at hrel
    obtain ⟨running, hid, hpolls⟩ := hrel
    exact ⟨running, hid, (hpolls.pollerStep hpos h).1⟩
  | stopJoin destroying =>
    rw [hat] at hrel
    obtain ⟨hflag, running, hid, hpolls⟩ := hrel
    exact ⟨hdown hflag, running, hid, (hpolls.pollerStep hpos h).1⟩
  | destroyMembers =>
    rw [hat] at hrel
    exact absurd h (hrel.2.not_pollerStep hpos)
  | destroyed =>
    rw [hat] at hrel
    exact absurd h (hrel.not_pollerStep hpos)

/-- Between calls, or in the rest of the destructor, with nothing to join. -/
theorem Inv.returned {s : LifeCycle} (hfailure : s.failure = none) (hflag : s.isSampling = false)
    (hthread : s.pollerThread = none) (hquiet : s.Quiet) (destroying : Bool) :
    (s.returned destroying).Inv := by
  refine ⟨hfailure, ?_⟩
  cases destroying with
  | false => exact Or.inl ⟨hflag, hthread, hquiet⟩
  | true => exact ⟨hthread, hquiet⟩

theorem Inv.controllerStep {s s' : LifeCycle} (hinv : s.Inv)
    (h : s.controllerStep = some s') : s'.Inv := by
  obtain ⟨hfailure, hrel⟩ := hinv
  unfold Related at hrel
  unfold LifeCycle.controllerStep at h
  cases hat : s.controller with
  | idle =>
    rw [hat] at h
    cases h
  | startStore =>
    rw [hat] at h hrel
    obtain rfl := Option.some.inj h
    exact ⟨hfailure, rfl, hrel.1, hrel.2⟩
  | startSpawn =>
    rw [hat] at h hrel
    obtain rfl := Option.some.inj h
    obtain ⟨hup, hnone, hquiet⟩ := hrel
    exact ⟨hfailure, hup, hnone, _, rfl, hquiet.polls_spawned⟩
  | startAssign =>
    rw [hat] at h hrel
    obtain ⟨hup, hnone, id, hid, hpolls⟩ := hrel
    simp only [hnone, Option.isSome_none, Bool.false_eq_true, if_false] at h
    obtain rfl := Option.some.inj h
    exact ⟨hfailure, Or.inr ⟨hup, id, hid, hpolls.only, hpolls.inLoop⟩⟩
  | stopStore destroying =>
    rw [hat] at h hrel
    obtain rfl := Option.some.inj h
    obtain ⟨id, hid, hpolls⟩ := hrel
    exact ⟨hfailure, rfl, id, hid, hpolls.only, fun hup => by cases hup⟩
  | stopJoin destroying =>
    rw [hat] at h hrel
    obtain ⟨hflag, id, hid, hpolls⟩ := hrel
    simp only [hid] at h
    split at h
    · rename_i hended
      obtain rfl := Option.some.inj h
      exact Inv.returned (s := { s with pollerThread := none }) hfailure hflag rfl
        (hpolls.quiet hended) destroying
    · cases h
  | destroyMembers =>
    rw [hat] at h hrel
    simp only [hrel.1, Option.isSome_none, Bool.false_eq_true, if_false] at h
    obtain rfl := Option.some.inj h
    exact ⟨hfailure, hrel.2⟩
  | destroyed =>
    rw [hat] at h
    cases h

theorem Inv.startSampling {s : LifeCycle} (hinv : s.Inv) (hidle : s.controller = .idle) :
    s.startSampling.Inv := by
  unfold LifeCycle.startSampling
  split
  · exact hinv
  · rename_i hflag
    have hrel := hinv.related
    unfold Related at hrel
    rw [hidle] at hrel
    obtain ⟨_, hnone, hquiet⟩ | ⟨hup, _⟩ := hrel
    · exact ⟨hinv.noFailure, hnone, hquiet⟩
    · exact absurd hup hflag

theorem Inv.stopSampling {s : LifeCycle} (hinv : s.Inv) (hidle : s.controller = .idle)
    (destroying : Bool) : (s.stopSampling destroying).Inv := by
  have hrel := hinv.related
  unfold Related at hrel
  rw [hidle] at hrel
  unfold LifeCycle.stopSampling
  obtain ⟨hdown, hnone, hquiet⟩ | ⟨hup, hpolls⟩ := hrel
  · rw [if_pos (by simp [hdown])]
    exact Inv.returned hinv.noFailure hdown hnone hquiet destroying
  · rw [if_neg (by simp [hup])]
    obtain ⟨id, hid, hpolls⟩ := hpolls
    exact ⟨hinv.noFailure, id, hid, hpolls.only, hpolls.inLoop⟩

/-- What a step can be. -/
theorem step_cases {s s' : LifeCycle} {action : LifeCycleAction} (h : step s action = some s') :
    s.failure = none ∧
      (s.controller = .idle ∧
          (s' = s.startSampling ∨ ∃ destroying, s' = s.stopSampling destroying) ∨
        s.controllerStep = some s' ∨
        ∃ id hookClears pos, action = .poller id hookClears ∧ s.threads[id]? = some pos ∧
          s.pollerStep id hookClears pos = some s') := by
  unfold step at h
  split at h
  · cases h
  rename_i hfailure
  refine ⟨by simpa using hfailure, ?_⟩
  cases action with
  | startSampling =>
    obtain ⟨hidle, hs⟩ := Option.ite_none_right_eq_some.mp h
    obtain rfl := Option.some.inj hs
    exact Or.inl ⟨hidle, Or.inl rfl⟩
  | stopSampling =>
    obtain ⟨hidle, hs⟩ := Option.ite_none_right_eq_some.mp h
    obtain rfl := Option.some.inj hs
    exact Or.inl ⟨hidle, Or.inr ⟨false, rfl⟩⟩
  | destroy =>
    obtain ⟨hidle, hs⟩ := Option.ite_none_right_eq_some.mp h
    obtain rfl := Option.some.inj hs
    exact Or.inl ⟨hidle, Or.inr ⟨true, rfl⟩⟩
  | controller => exact Or.inr (Or.inl h)
  | poller id hookClears =>
    cases hpos : s.threads[id]? with
    | none => simp [hpos] at h
    | some pos =>
      simp only [hpos] at h
      exact Or.inr (Or.inr ⟨id, hookClears, pos, rfl, hpos, h⟩)

theorem Inv.step {s s' : LifeCycle} {action : LifeCycleAction} (hinv : s.Inv)
    (hok : s.ClearsWhileStopping action) (h : step s action = some s') : s'.Inv := by
  obtain ⟨_, ⟨hidle, rfl | ⟨destroying, rfl⟩⟩ | hcontroller |
    ⟨id, hookClears, pos, rfl, hpos, hpoller⟩⟩ := step_cases h
  · exact hinv.startSampling hidle
  · exact hinv.stopSampling hidle destroying
  · exact hinv.controllerStep hcontroller
  · exact hinv.pollerStep hpos hok hpoller

/-! ## A thread that nobody will join

Once the hook has cleared the flag outside a stop, `pollerThread` is joinable
with the flag down, or about to be, or some call is on its way to a failure. -/

def Doomed (s : LifeCycle) : Prop :=
  match s.controller with
  | .idle => s.isSampling = false ∧ s.pollerThread.isSome
  | .startStore => s.pollerThread.isSome
  | .startSpawn => s.pollerThread.isSome
  | .startAssign => s.pollerThread.isSome ∨ s.isSampling = false ∧ s.spawned.isSome
  | .stopStore _ => False
  | .stopJoin _ => False
  | .destroyMembers => s.pollerThread.isSome
  | .destroyed => False

theorem Doomed.pollerStep {s s' : LifeCycle} {id : Nat} {hookClears : Bool} {pos : PollerAt}
    (hdoomed : s.Doomed) (h : s.pollerStep id hookClears pos = some s') : s'.Doomed := by
  obtain ⟨hcontroller, hthread, hspawned, _, hdown⟩ := pollerStep_frame h
  unfold Doomed at hdoomed ⊢
  rw [hcontroller, hthread, hspawned]
  cases hat : s.controller with
  | idle =>
    rw [hat] at hdoomed
    exact ⟨hdown hdoomed.1, hdoomed.2⟩
  | startAssign =>
    rw [hat] at hdoomed
    exact hdoomed.imp_right fun h => ⟨hdown h.1, h.2⟩
  | startStore | startSpawn | destroyMembers =>
    rw [hat] at hdoomed
    exact hdoomed
  | stopStore | stopJoin | destroyed =>
    rw [hat] at hdoomed
    exact hdoomed

theorem Doomed.controllerStep {s s' : LifeCycle} (hdoomed : s.Doomed)
    (h : s.controllerStep = some s') : s'.failure ≠ none ∨ s'.Doomed := by
  unfold Doomed at hdoomed
  unfold LifeCycle.controllerStep at h
  cases hat : s.controller with
  | idle =>
    rw [hat] at h
    cases h
  | startStore =>
    rw [hat] at h hdoomed
    obtain rfl := Option.some.inj h
    exact Or.inr hdoomed
  | startSpawn =>
    rw [hat] at h hdoomed
    obtain rfl := Option.some.inj h
    exact Or.inr (Or.inl hdoomed)
  | startAssign =>
    rw [hat] at h hdoomed
    simp only at h
    split at h
    · obtain rfl := Option.some.inj h
      exact Or.inl (by simp)
    · rename_i hnone
      obtain rfl := Option.some.inj h
      exact Or.inr (hdoomed.resolve_left hnone)
  | destroyMembers =>
    rw [hat] at h hdoomed
    simp only [hdoomed, if_true] at h
    obtain rfl := Option.some.inj h
    exact Or.inl (by simp)
  | stopStore | stopJoin | destroyed =>
    rw [hat] at hdoomed
    exact hdoomed.elim

theorem Doomed.startSampling {s : LifeCycle} (hdoomed : s.Doomed) (hidle : s.controller = .idle) :
    s.startSampling.Doomed := by
  unfold Doomed at hdoomed
  rw [hidle] at hdoomed
  unfold LifeCycle.startSampling
  rw [if_neg (by simp [hdoomed.1])]
  exact hdoomed.2

theorem Doomed.stopSampling {s : LifeCycle} (hdoomed : s.Doomed) (hidle : s.controller = .idle)
    (destroying : Bool) : (s.stopSampling destroying).Doomed := by
  unfold Doomed at hdoomed
  rw [hidle] at hdoomed
  unfold LifeCycle.stopSampling
  rw [if_pos (by simp [hdoomed.1])]
  cases destroying with
  | false => exact hdoomed
  | true => exact hdoomed.2

theorem Doomed.step {s s' : LifeCycle} {action : LifeCycleAction}
    (hdoomed : s.failure ≠ none ∨ s.Doomed) (h : step s action = some s') :
    s'.failure ≠ none ∨ s'.Doomed := by
  obtain ⟨hfailure, hcases⟩ := step_cases h
  have hdoomed := hdoomed.resolve_left (not_not.mpr hfailure)
  obtain ⟨hidle, rfl | ⟨destroying, rfl⟩⟩ | hcontroller | ⟨id, hookClears, pos, _, _, hpoller⟩ :=
    hcases
  · exact Or.inr (hdoomed.startSampling hidle)
  · exact Or.inr (hdoomed.stopSampling hidle destroying)
  · exact hdoomed.controllerStep hcontroller
  · exact Or.inr (hdoomed.pollerStep hpoller)

theorem clears_of_not {s : LifeCycle} {action : LifeCycleAction}
    (hnot : ¬ s.ClearsWhileStopping action) :
    ∃ id, action = .poller id true ∧ s.threads[id]? = some .callback ∧ s.isStopping = false := by
  cases action with
  | poller id hookClears =>
    cases hookClears with
    | false => exact absurd trivial hnot
    | true =>
      obtain ⟨hcallback, hstopping⟩ := Classical.not_imp.mp hnot
      exact ⟨id, rfl, hcallback, by simpa using hstopping⟩
  | startSampling | stopSampling | destroy | controller => exact absurd trivial hnot

/-- The hook clears the flag and no call is stopping. -/
theorem Inv.doomed {s s' : LifeCycle} {action : LifeCycleAction} (hinv : s.Inv)
    (hnot : ¬ s.ClearsWhileStopping action) (h : LifeCycle.step s action = some s') :
    s'.Doomed := by
  obtain ⟨id, rfl, hpos, hstopping⟩ := clears_of_not hnot
  have hpoller : s.pollerStep id true .callback = some s' := by
    simpa [LifeCycle.step, hinv.noFailure, hpos] using h
  obtain ⟨hsame, hthread, hspawned, _, _⟩ := pollerStep_frame hpoller
  have hflag : s'.isSampling = false := by
    obtain rfl := Option.some.inj hpoller
    simp [moveTo]
  have hrel := hinv.related
  unfold Related at hrel
  unfold Doomed
  rw [hsame, hthread, hspawned]
  cases hat : s.controller with
  | idle =>
    rw [hat] at hrel
    obtain ⟨_, _, hquiet⟩ | ⟨_, running, hid, _⟩ := hrel
    · exact absurd hpoller (hquiet.not_pollerStep hpos)
    · exact ⟨hflag, by simp [hid]⟩
  | startAssign =>
    rw [hat] at hrel
    obtain ⟨_, _, running, hid, _⟩ := hrel
    exact Or.inr ⟨hflag, by simp [hid]⟩
  | startStore | destroyMembers =>
    rw [hat] at hrel
    exact absurd hpoller (hrel.2.not_pollerStep hpos)
  | startSpawn =>
    rw [hat] at hrel
    exact absurd hpoller (hrel.2.2.not_pollerStep hpos)
  | stopStore | stopJoin =>
    simp [isStopping, hat] at hstopping
  | destroyed =>
    rw [hat] at hrel
    exact absurd hpoller (hrel.not_pollerStep hpos)

/-! ## Joins

Whatever the hook does, a stop that gets past its test finds a thread to join. -/

def JoinsAThread (s : LifeCycle) : Prop :=
  match s.controller with
  | .idle => s.isSampling = true → s.pollerThread.isSome
  | .startAssign => s.spawned.isSome
  | .stopStore _ => s.pollerThread.isSome
  | .stopJoin _ => s.isSampling = false ∧ s.pollerThread.isSome
  | _ => True

theorem JoinsAThread.pollerStep {s s' : LifeCycle} {id : Nat} {hookClears : Bool}
    {pos : PollerAt} (hjoins : s.JoinsAThread)
    (h : s.pollerStep id hookClears pos = some s') : s'.JoinsAThread := by
  obtain ⟨hcontroller, hthread, hspawned, _, hdown⟩ := pollerStep_frame h
  unfold JoinsAThread at hjoins ⊢
  rw [hcontroller, hthread, hspawned]
  cases hat : s.controller with
  | idle =>
    rw [hat] at hjoins
    intro hup
    refine hjoins ?_
    by_contra hnot
    cases (hdown (Bool.eq_false_iff.mpr hnot)).symm.trans hup
  | stopJoin destroying =>
    rw [hat] at hjoins
    exact ⟨hdown hjoins.1, hjoins.2⟩
  | startAssign | stopStore =>
    rw [hat] at hjoins
    exact hjoins
  | startStore | startSpawn | destroyMembers | destroyed => trivial

theorem joinsAThread_returned {s : LifeCycle} (hflag : s.isSampling = false) (destroying : Bool) :
    (s.returned destroying).JoinsAThread := by
  cases destroying with
  | false =>
    intro hup
    cases hflag.symm.trans hup
  | true => trivial

theorem JoinsAThread.controllerStep {s s' : LifeCycle} (hjoins : s.JoinsAThread)
    (hfailure : s.failure = none) (h : s.controllerStep = some s') :
    s'.failure ≠ some .joinNotJoinable ∧ s'.JoinsAThread := by
  unfold JoinsAThread at hjoins
  unfold LifeCycle.controllerStep at h
  cases hat : s.controller with
  | idle | destroyed =>
    rw [hat] at h
    cases h
  | startStore =>
    rw [hat] at h
    obtain rfl := Option.some.inj h
    exact ⟨by simp [hfailure], trivial⟩
  | startSpawn =>
    rw [hat] at h
    obtain rfl := Option.some.inj h
    exact ⟨by simp [hfailure], rfl⟩
  | startAssign =>
    rw [hat] at h hjoins
    simp only at h
    split at h
    · obtain rfl := Option.some.inj h
      exact ⟨by simp, hjoins⟩
    · obtain rfl := Option.some.inj h
      exact ⟨by simp [hfailure], fun _ => hjoins⟩
  | stopStore destroying =>
    rw [hat] at h hjoins
    obtain rfl := Option.some.inj h
    exact ⟨by simp [hfailure], rfl, hjoins⟩
  | stopJoin destroying =>
    rw [hat] at h hjoins
    obtain ⟨hflag, hsome⟩ := hjoins
    obtain ⟨id, hid⟩ := Option.isSome_iff_exists.mp hsome
    simp only [hid] at h
    split at h
    · obtain rfl := Option.some.inj h
      exact ⟨by simp [LifeCycle.returned, hfailure],
        joinsAThread_returned (s := { s with pollerThread := none }) hflag destroying⟩
    · cases h
  | destroyMembers =>
    rw [hat] at h
    simp only at h
    split at h
    · obtain rfl := Option.some.inj h
      exact ⟨by simp, trivial⟩
    · obtain rfl := Option.some.inj h
      exact ⟨by simp [hfailure], trivial⟩

theorem JoinsAThread.step {s s' : LifeCycle} {action : LifeCycleAction}
    (hjoins : s.JoinsAThread) (h : LifeCycle.step s action = some s') :
    s'.failure ≠ some .joinNotJoinable ∧ s'.JoinsAThread := by
  obtain ⟨hfailure, ⟨hidle, rfl | ⟨destroying, rfl⟩⟩ | hcontroller |
    ⟨id, hookClears, pos, _, _, hpoller⟩⟩ := step_cases h
  · unfold LifeCycle.startSampling
    split
    · exact ⟨by simp [hfailure], hjoins⟩
    · exact ⟨by simp [hfailure], trivial⟩
  · unfold JoinsAThread at hjoins
    rw [hidle] at hjoins
    unfold LifeCycle.stopSampling
    split
    · rename_i hflag
      exact ⟨by simp [LifeCycle.returned, hfailure],
        joinsAThread_returned (by simpa using hflag) destroying⟩
    · rename_i hflag
      exact ⟨by simp [hfailure], hjoins (by simpa using hflag)⟩
  · exact hjoins.controllerStep hfailure hcontroller
  · have hsame := (pollerStep_frame hpoller).2.2.2.1
    exact ⟨by simp [hsame, hfailure], hjoins.pollerStep hpoller⟩

/-- **Joins.** In no run, with any hook, is `join` called without a thread to join. -/
theorem never_joins_without_thread {actions : List LifeCycleAction} {s : LifeCycle}
    (hrun : run init actions = some s) : s.failure ≠ some .joinNotJoinable := by
  have hinit : init.failure ≠ some .joinNotJoinable ∧ init.JoinsAThread :=
    ⟨by simp [init], fun hup => by cases hup⟩
  exact (Transitions.invariant_of_run
    (I := fun s => s.failure ≠ some .joinNotJoinable ∧ s.JoinsAThread)
    (fun _ _ _ hinv hs => hinv.2.step hs) hinit hrun).1

/-! ## Runs -/

/-- **The hook leaves the flag to `stopSampling`**: a run is safe throughout
if whenever the hook clears `isSampling` a stop is under way that has passed
its test; and of the runs that come to their end only these are. -/
theorem safeThroughout_iff (actions : List LifeCycleAction) :
    (Transitions.AllSteps step ClearsWhileStopping init actions → SafeThroughout actions) ∧
      ∀ s, run init actions = some s → s.Over → SafeThroughout actions →
        Transitions.AllSteps step ClearsWhileStopping init actions := by
  constructor
  · intro hok before hbefore s hrun
    obtain ⟨after, rfl⟩ := hbefore
    exact (Transitions.invariant_of_allSteps (fun _ _ _ hinv hok hs => Inv.step hinv hok hs)
      inv_init (Transitions.allSteps_prefix hok) hrun).safe
  · intro s hrun hover hsafe
    by_contra hnot
    have hdoomed : s.failure ≠ none ∨ s.Doomed :=
      Transitions.trapped_of_not_allSteps (fun _ _ _ hinv hok hs => Inv.step hinv hok hs)
        (fun _ _ _ hinv hclears hs => Or.inr (hinv.doomed hclears hs))
        (fun _ _ _ hdoomed hs => Doomed.step hdoomed hs) inv_init hrun hnot
    have hfailure := (hsafe actions List.prefix_rfl s hrun).noFailure
    have hdestroyed := hover.resolve_right (not_not.mpr hfailure)
    have hdoomed := hdoomed.resolve_left (not_not.mpr hfailure)
    simp [Doomed, hdestroyed] at hdoomed

/-- Two polls, a stop in the middle of the second, a new start and the
destructor. The second time the hook clears the flag while the destructor stops. -/
def orderly : List LifeCycleAction :=
  [.startSampling, .controller, .controller, .controller,
   .poller 0 false, .poller 0 false, .poller 0 false, .poller 0 false, .poller 0 false,
   .poller 0 false, .stopSampling, .poller 0 false, .controller, .poller 0 false,
   .poller 0 false, .poller 0 false, .controller,
   .startSampling, .controller, .controller, .poller 1 false, .controller, .poller 1 false,
   .destroy, .poller 1 true, .controller, .poller 1 false, .poller 1 false, .controller,
   .controller]

theorem safeThroughout_iff_orderly :
    Transitions.AllSteps step ClearsWhileStopping init orderly ∧ SafeThroughout orderly ∧
      (run init orderly).map controller = some .destroyed := by
  have hok : Transitions.AllSteps step ClearsWhileStopping init orderly := by decide
  exact ⟨hok, (safeThroughout_iff orderly).1 hok, by decide⟩

/-- One poll whose hook clears the flag, after which the poller ends by itself. -/
def endedByHook : List LifeCycleAction :=
  [.startSampling, .controller, .controller, .controller, .poller 0 false, .poller 0 false,
   .poller 0 true, .poller 0 false, .poller 0 false]

/-- The same up to the hook, and a new start before the poller looks at the flag again. -/
def startedOver : List LifeCycleAction :=
  [.startSampling, .controller, .controller, .controller, .poller 0 false, .poller 0 false,
   .poller 0 true, .startSampling, .controller, .poller 0 false, .controller]

/-- After `endedByHook` another start assigns to a joinable thread, a stop
returns without the join and the destructor destroys a joinable thread; in
`startedOver` two pollers run. -/
theorem self_ended_poller_unjoined :
    ((run init (endedByHook ++ [.startSampling, .controller, .controller, .controller])).map
        failure = some (some .assignJoinable)) ∧
      ((run init (endedByHook ++ [.stopSampling, .destroy, .controller])).map failure =
        some (some .destroyJoinable)) ∧
      ((run init startedOver).map threads = some [.sleeping, .whileTest]) ∧
      ¬ SafeThroughout (endedByHook ++ [.startSampling, .controller, .controller, .controller]) ∧
      ¬ SafeThroughout (endedByHook ++ [.stopSampling, .destroy, .controller]) ∧
      ¬ SafeThroughout startedOver := by
  refine ⟨by decide, by decide, by decide, ?_, ?_, ?_⟩
  · intro h
    cases (h _ List.prefix_rfl _ rfl).noFailure
  · intro h
    cases (h _ List.prefix_rfl _ rfl).noFailure
  · intro h
    exact absurd ((h _ List.prefix_rfl _ rfl).atMostOne 0 1 .sleeping .whileTest rfl rfl (by simp)
      (by simp)) (by simp)

end LifeCycle
end ResMonitor
