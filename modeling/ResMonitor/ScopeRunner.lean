import Mathlib.Data.Finset.Card
import ResMonitor.Lib.Transitions

/-! # Stopping the handlers

`SimpleWeb::ScopeRunner`. Handlers of any threads ask for a shared lock and go
on only if they get one; `stop` waits until no lock is held and lets nobody in
from then on. All of it is one atomic counter. Any number of calls are under
way at once and take their atomic operations in any order; the weak exchanges
may also fail without a reason. The counter stays far from the ends of `long`. -/

namespace ResMonitor
open Transitions

/-! ## A gate

What it is for: clients are inside or not, and a closed gate has nobody inside
and lets nobody in. -/

structure Gate (κ : Type) where
  closed : Bool
  inside : Finset κ
  empty_of_closed : closed = true → inside = ∅

inductive GateAction (κ : Type) where
  | enter (i : κ)
  | refuse (i : κ)
  | leave (i : κ)
  | close (i : κ)
  deriving DecidableEq, Repr

namespace Gate
variable {κ : Type} [DecidableEq κ]

def step (g : Gate κ) : GateAction κ → Option (Gate κ)
  | .enter i =>
    if g.closed = false ∧ i ∉ g.inside then some ⟨false, insert i g.inside, nofun⟩ else none
  | .refuse _ => if g.closed then some g else none
  | .leave i =>
    if i ∈ g.inside then
      some ⟨g.closed, g.inside.erase i, fun h => by rw [g.empty_of_closed h, Finset.erase_empty]⟩
    else none
  | .close _ => if h : g.inside = ∅ then some ⟨true, g.inside, fun _ => h⟩ else none

/-- A closed gate stays closed. -/
theorem closed_step {g g' : Gate κ} {a : GateAction κ} (hclosed : g.closed = true)
    (h : g.step a = some g') : g'.closed = true := by
  cases a with
  | enter i =>
    simp only [step, hclosed, Bool.true_eq_false, false_and, if_false] at h
    cases h
  | refuse i =>
    simp only [step, hclosed, if_true] at h
    rwa [← Option.some.inj h]
  | leave i =>
    simp only [step, g.empty_of_closed hclosed, Finset.notMem_empty, if_false] at h
    cases h
  | close i =>
    simp only [step, g.empty_of_closed hclosed, dite_true] at h
    rw [← Option.some.inj h]

end Gate

/-! ## The counter -/

/-- How far a call has come. -/
inductive Call where
  /-- `continue_lock` before it reads the counter. -/
  | entered
  /-- In the loop of `continue_lock`. -/
  | retrying (expected : Int)
  /-- `continue_lock` has returned a lock. -/
  | locked
  /-- That lock is destroyed. -/
  | unlocked
  /-- `continue_lock` has returned `nullptr`. -/
  | refused
  /-- In the loop of `stop`, with 0 expected. -/
  | stopping
  /-- `stop` has returned. -/
  | stopped
  deriving DecidableEq, Repr

structure ScopeRunner where
  count : Int
  /-- All calls so far, in the order in which they were made. -/
  calls : List Call

namespace ScopeRunner

/-- The constructor. -/
def fresh : ScopeRunner := ⟨0, []⟩

inductive Action where
  | continueLock
  | stop
  /-- The next atomic operation of call `i`; `spurious` if a weak exchange fails
  although the counter has the expected value. -/
  | advance (i : Nat) (spurious : Bool)
  deriving DecidableEq, Repr

/-- `compare_exchange_weak` -/
def compareExchangeWeak (count expected : Int) (spurious : Bool) : Bool :=
  decide (count = expected) && !spurious

theorem compareExchangeWeak_iff {count expected : Int} {spurious : Bool} :
    compareExchangeWeak count expected spurious = true ↔
      count = expected ∧ spurious = false := by
  simp [compareExchangeWeak]

/-- The counter and the call `i` after its next operation, and what it shows. -/
def next (count : Int) (i : Nat) (spurious : Bool) :
    Call → Option (Int × Call × Option (GateAction Nat))
  | .entered => some (count, .retrying count, none)
  | .retrying expected =>
    if expected < 0 then some (count, .refused, some (.refuse i))
    else if compareExchangeWeak count expected spurious then
      some (expected + 1, .locked, some (.enter i))
    else some (count, .retrying count, none)
  | .locked => some (count - 1, .unlocked, some (.leave i))
  | .stopping =>
    if compareExchangeWeak count 0 spurious then some (-1, .stopped, some (.close i))
    else if count < 0 then some (count, .stopped, some (.close i))
    else some (count, .stopping, none)
  | .unlocked | .refused | .stopped => none

def step (s : ScopeRunner) : Action → Option ScopeRunner
  | .continueLock => some { s with calls := s.calls ++ [.entered] }
  | .stop => some { s with calls := s.calls ++ [.stopping] }
  | .advance i spurious => do
    let (count, call, _) ← next s.count i spurious (← s.calls[i]?)
    some ⟨count, s.calls.set i call⟩

def event (s : ScopeRunner) : Action → Option (GateAction Nat)
  | .continueLock | .stop => none
  | .advance i spurious => do
    let (_, _, event) ← next s.count i spurious (← s.calls[i]?)
    event

/-- What an operation of a call does. -/
theorem step_advance {s s' : ScopeRunner} {i : Nat} {spurious : Bool} :
    s.step (.advance i spurious) = some s' ↔
      ∃ call count' call' shown, s.calls[i]? = some call ∧
        next s.count i spurious call = some (count', call', shown) ∧
        s.event (.advance i spurious) = shown ∧ s' = ⟨count', s.calls.set i call'⟩ := by
  constructor
  · intro h
    obtain ⟨call, hcall, h⟩ := Option.bind_eq_some_iff.mp h
    obtain ⟨⟨count', call', shown⟩, hnext, h⟩ := Option.bind_eq_some_iff.mp h
    refine ⟨call, count', call', shown, hcall, hnext, ?_, (Option.some.inj h).symm⟩
    simp only [event, hcall, hnext, bind, Option.bind]
  · intro ⟨call, count', call', shown, hcall, hnext, _, heq⟩
    simp only [step, hcall, hnext, bind, Option.bind, heq]

/-! ## The counter is a gate -/

/-- A call that knows that the gate is closed. -/
def Knows : Call → Prop
  | .retrying expected => expected < 0
  | .refused | .stopped => True
  | _ => False

/-- The counter is the number of locks that are held, or -1 and there are none. -/
structure Shows (s : ScopeRunner) (g : Gate Nat) : Prop where
  count : s.count = if g.closed then -1 else (g.inside.card : Int)
  inside : ∀ i, i ∈ g.inside ↔ s.calls[i]? = some .locked
  knows : ∀ (i : Nat) (call : Call), s.calls[i]? = some call → Knows call → g.closed = true

theorem shows_fresh : Shows fresh ⟨false, ∅, nofun⟩ := by
  refine ⟨rfl, fun i => ?_, fun i call h => ?_⟩
  · simp [fresh]
  · cases h

theorem Shows.neg_iff {s : ScopeRunner} {g : Gate Nat} (h : Shows s g) :
    s.count < 0 ↔ g.closed = true := by
  rw [h.count]
  cases g.closed <;> simp

/-- A new call is not inside and knows nothing. -/
theorem Shows.call {s : ScopeRunner} {g : Gate Nat} (h : Shows s g) {call : Call}
    (hlocked : call ≠ .locked) (hknows : ¬ Knows call) :
    Shows { s with calls := s.calls ++ [call] } g := by
  have hget : ∀ (i : Nat) (c : Call), (s.calls ++ [call])[i]? = some c →
      s.calls[i]? = some c ∨ c = call := by
    intro i c hc
    rw [List.getElem?_append] at hc
    split at hc
    · exact Or.inl hc
    · exact Or.inr (List.mem_singleton.mp (List.mem_of_getElem? hc))
  refine ⟨h.count, fun i => ?_, fun i c hc hk => ?_⟩
  · rw [h.inside]
    constructor
    · intro hi
      rw [List.getElem?_append_left (List.getElem?_eq_some_iff.mp hi).1]
      exact hi
    · intro hi
      exact (hget i _ hi).resolve_right fun heq => hlocked heq.symm
  · rcases hget i c hc with hc | rfl
    · exact h.knows i c hc hk
    · exact absurd hk hknows

/-- One call goes on. -/
theorem Shows.set {s : ScopeRunner} {g g' : Gate Nat} (h : Shows s g) {i : Nat}
    (hi : i < s.calls.length) {count' : Int} {call' : Call}
    (hcount : count' = if g'.closed then -1 else (g'.inside.card : Int))
    (hinside : ∀ j, j ∈ g'.inside ↔ if j = i then call' = .locked else j ∈ g.inside)
    (hclosed : g.closed = true → g'.closed = true) (hknows : Knows call' → g'.closed = true) :
    Shows ⟨count', s.calls.set i call'⟩ g' := by
  have hself : (s.calls.set i call')[i]? = some call' := List.getElem?_set_self hi
  refine ⟨hcount, fun j => ?_, fun j c hc hk => ?_⟩
  · rw [hinside]
    by_cases hj : j = i
    · rw [if_pos hj, hj, hself, Option.some.injEq]
    · rw [if_neg hj, h.inside, List.getElem?_set_ne (Ne.symm hj)]
  · by_cases hj : j = i
    · rw [hj, hself] at hc
      obtain rfl := Option.some.inj hc
      exact hknows hk
    · rw [List.getElem?_set_ne (Ne.symm hj)] at hc
      exact hclosed (h.knows j c hc hk)

/-- An operation that moves nobody. -/
theorem Shows.silent {s : ScopeRunner} {g : Gate Nat} (h : Shows s g) {i : Nat} {call call' : Call}
    (hcall : s.calls[i]? = some call) (hout : call ≠ .locked) (hout' : call' ≠ .locked)
    (hknows : Knows call' → g.closed = true) : Shows ⟨s.count, s.calls.set i call'⟩ g := by
  refine h.set (List.getElem?_eq_some_iff.mp hcall).1 h.count (fun j => ?_) id hknows
  by_cases hj : j = i
  · rw [if_pos hj, hj, h.inside, hcall, Option.some.injEq]
    exact iff_of_false hout hout'
  · rw [if_neg hj]

theorem Shows.enter {s : ScopeRunner} {g : Gate Nat} (h : Shows s g) {i : Nat} {call : Call}
    (hcall : s.calls[i]? = some call) (hout : call ≠ .locked) (hcount : 0 ≤ s.count) :
    ∃ g', g.step (.enter i) = some g' ∧ Shows ⟨s.count + 1, s.calls.set i .locked⟩ g' := by
  have hopen : g.closed = false := Bool.eq_false_iff.mpr fun hclosed => by
    have := h.neg_iff.mpr hclosed
    omega
  have hnotin : i ∉ g.inside := fun hin => by
    rw [h.inside, hcall] at hin
    exact hout (Option.some.inj hin)
  refine ⟨⟨false, insert i g.inside, nofun⟩, if_pos ⟨hopen, hnotin⟩,
    h.set (List.getElem?_eq_some_iff.mp hcall).1 ?_ (fun j => ?_) ?_ False.elim⟩
  · have hcard := h.count
    rw [hopen] at hcard
    rw [Finset.card_insert_of_notMem hnotin, hcard]
    rfl
  · rw [Finset.mem_insert]
    by_cases hj : j = i <;> simp [hj]
  · rw [hopen]
    exact fun h => absurd h Bool.false_ne_true

theorem Shows.leave {s : ScopeRunner} {g : Gate Nat} (h : Shows s g) {i : Nat}
    (hcall : s.calls[i]? = some .locked) :
    ∃ g', g.step (.leave i) = some g' ∧ Shows ⟨s.count - 1, s.calls.set i .unlocked⟩ g' := by
  have hin : i ∈ g.inside := (h.inside i).mpr hcall
  have hopen : ¬ g.closed = true := fun hclosed => by
    rw [g.empty_of_closed hclosed] at hin
    exact absurd hin (Finset.notMem_empty i)
  refine ⟨_, if_pos hin, h.set (List.getElem?_eq_some_iff.mp hcall).1 ?_ (fun j => ?_) id
    False.elim⟩
  · have hcount := h.count
    have hcard := Finset.card_erase_add_one hin
    rw [if_neg hopen] at hcount ⊢
    dsimp only
    omega
  · rw [Finset.mem_erase]
    by_cases hj : j = i <;> simp [hj]

theorem Shows.close {s : ScopeRunner} {g : Gate Nat} (h : Shows s g) {i : Nat}
    (hi : i < s.calls.length) (hcount : s.count ≤ 0) :
    ∃ g', g.step (.close i) = some g' ∧ Shows ⟨-1, s.calls.set i .stopped⟩ g' := by
  have hempty : g.inside = ∅ := by
    by_cases hclosed : g.closed = true
    · exact g.empty_of_closed hclosed
    · have hcard := h.count
      rw [if_neg hclosed] at hcard
      exact Finset.card_eq_zero.mp (by omega)
  refine ⟨_, dif_pos hempty, h.set hi rfl (fun j => ?_) (fun _ => rfl) fun _ => rfl⟩
  by_cases hj : j = i <;> simp [hj, hempty]

/-- **One operation.** What it shows is enabled at the gate, and the counter
shows the gate afterwards. -/
theorem Shows.advance {s s' : ScopeRunner} {g : Gate Nat} (h : Shows s g) {a : Action}
    (hstep : s.step a = some s') :
    ∃ g', run Gate.step g (s.event a).toList = some g' ∧ Shows s' g' := by
  cases a with
  | continueLock =>
    obtain rfl := Option.some.inj hstep
    exact ⟨g, rfl, h.call nofun id⟩
  | stop =>
    obtain rfl := Option.some.inj hstep
    exact ⟨g, rfl, h.call nofun id⟩
  | advance i spurious =>
    obtain ⟨call, count', call', shown, hcall, hnext, hevent, rfl⟩ := step_advance.mp hstep
    have hi := (List.getElem?_eq_some_iff.mp hcall).1
    rw [hevent]
    cases call with
    | entered =>
      cases hnext
      exact ⟨g, rfl, h.silent hcall nofun nofun h.neg_iff.mp⟩
    | retrying expected =>
      simp only [next, compareExchangeWeak_iff] at hnext
      split at hnext
      · rename_i hneg
        cases hnext
        have hclosed := h.knows i _ hcall hneg
        exact ⟨g, (run_singleton ..).trans (if_pos hclosed),
          h.silent hcall nofun nofun fun _ => hclosed⟩
      · split at hnext
        · rename_i hneg hexchange
          cases hnext
          obtain ⟨g', hg', hshows⟩ := h.enter hcall nofun (by omega)
          rw [hexchange.1] at hshows
          exact ⟨g', (run_singleton ..).trans hg', hshows⟩
        · cases hnext
          exact ⟨g, rfl, h.silent hcall nofun nofun h.neg_iff.mp⟩
    | locked =>
      cases hnext
      obtain ⟨g', hg', hshows⟩ := h.leave hcall
      exact ⟨g', (run_singleton ..).trans hg', hshows⟩
    | stopping =>
      simp only [next, compareExchangeWeak_iff] at hnext
      split at hnext
      · rename_i hexchange
        cases hnext
        obtain ⟨g', hg', hshows⟩ := h.close hi (by omega)
        exact ⟨g', (run_singleton ..).trans hg', hshows⟩
      · split at hnext
        · rename_i hneg
          cases hnext
          obtain ⟨g', hg', hshows⟩ := h.close hi (by omega)
          have hcount := h.count
          rw [if_pos (h.neg_iff.mp hneg)] at hcount
          exact ⟨g', (run_singleton ..).trans hg', by rwa [hcount]⟩
        · cases hnext
          exact ⟨g, rfl, h.silent hcall nofun nofun False.elim⟩
    | unlocked => cases hnext
    | refused => cases hnext
    | stopped => cases hnext

/-- **The counter is a gate.** In every order of the operations of any number
of calls, what the calls return is what a gate allows: locks while it is open,
`nullptr` once it is closed, and `stop` returns when nobody is inside. -/
theorem gate_of_run {s : ScopeRunner} {actions : List Action}
    (hrun : run step fresh actions = some s) :
    ∃ g, run Gate.step ⟨false, ∅, nofun⟩ (events step event fresh actions) = some g ∧ Shows s g :=
  run_events (fun _ _ _ _ h => h.advance) shows_fresh hrun

/-- Two handlers ask for a lock. The first has it when `stop` is called, the
second has only read the counter. -/
def twoHandlers : List Action :=
  [.continueLock, .continueLock, .advance 1 false, .advance 0 false, .advance 0 true,
    .advance 0 false, .stop, .advance 2 false]

/-- Then the lock is destroyed and `stop` returns. -/
def thenStopped : List Action := twoHandlers ++ [.advance 0 false, .advance 2 false]

/-- The second handler is refused. -/
theorem gate_of_run_twoHandlers : ∃ g,
    run Gate.step ⟨false, ∅, nofun⟩ [.enter 0, .leave 0, .close 2, .refuse 1] = some g ∧
    Shows ⟨-1, [.unlocked, .refused, .stopped]⟩ g := by
  have hrun : run step fresh (thenStopped ++ [.advance 1 false, .advance 1 false]) =
      some ⟨-1, [.unlocked, .refused, .stopped]⟩ := rfl
  exact gate_of_run hrun

/-! ## After `stop` -/

/-- A call of `continue_lock` that has no lock. -/
def Asks : Call → Prop
  | .entered | .retrying _ | .refused => True
  | _ => False

/-- The operations such a call needs to be refused once the gate is closed. -/
def left : Call → Nat
  | .entered => 2
  | .retrying expected => if expected < 0 then 1 else 2
  | _ => 0

/-- How many operations of call `i` a run has. -/
def turns (i : Nat) (actions : List Action) : Nat :=
  actions.countP fun
    | .advance k _ => k == i
    | _ => false

theorem left_le_two (call : Call) : left call ≤ 2 := by
  cases call with
  | retrying expected =>
    rw [left]
    split <;> omega
  | _ => decide

theorem eq_refused {call : Call} (hasks : Asks call) (hleft : left call = 0) : call = .refused := by
  cases call with
  | retrying expected =>
    rw [left] at hleft
    split at hleft <;> omega
  | refused => rfl
  | entered => cases hleft
  | _ => cases hasks

/-- One step while the gate is closed, seen from a call that asks. -/
theorem left_step {s s' : ScopeRunner} (hclosed : s.count < 0) {a : Action}
    (hstep : s.step a = some s') {i : Nat} {call : Call} (hcall : s.calls[i]? = some call)
    (hasks : Asks call) : ∃ call', s'.calls[i]? = some call' ∧ Asks call' ∧
      left call' + turns i [a] = left call := by
  have hi := (List.getElem?_eq_some_iff.mp hcall).1
  cases a with
  | continueLock =>
    obtain rfl := Option.some.inj hstep
    exact ⟨call, (List.getElem?_append_left hi).trans hcall, hasks, rfl⟩
  | stop =>
    obtain rfl := Option.some.inj hstep
    exact ⟨call, (List.getElem?_append_left hi).trans hcall, hasks, rfl⟩
  | advance k spurious =>
    obtain ⟨callₖ, count', call', shown, hcallₖ, hnext, -, rfl⟩ := step_advance.mp hstep
    by_cases hk : k = i
    · subst hk
      obtain rfl := Option.some.inj (hcallₖ.symm.trans hcall)
      refine ⟨call', List.getElem?_set_self hi, ?_⟩
      have hturn : turns k [.advance k spurious] = 1 := by simp [turns]
      rw [hturn]
      cases callₖ with
      | entered =>
        cases hnext
        exact ⟨trivial, by rw [left, left, if_pos hclosed]⟩
      | retrying expected =>
        simp only [next, compareExchangeWeak_iff] at hnext
        split at hnext
        · rename_i hneg
          cases hnext
          exact ⟨trivial, by simp [left, hneg]⟩
        · rename_i hneg
          split at hnext
          · rename_i hexchange
            omega
          · cases hnext
            exact ⟨trivial, by rw [left, left, if_pos hclosed, if_neg hneg]⟩
      | refused => cases hnext
      | _ => cases hasks
    · have hturn : turns i [.advance k spurious] = 0 := by simp [turns, hk]
      refine ⟨call, ?_, hasks, by rw [hturn, Nat.add_zero]⟩
      rw [List.getElem?_set_ne hk]
      exact hcall

/-- The counter stays negative. -/
theorem Shows.closed_run {s s' : ScopeRunner} {g : Gate Nat} (h : Shows s g)
    (hclosed : g.closed = true) {actions : List Action} (hrun : run step s actions = some s') :
    ∃ g', Shows s' g' ∧ g'.closed = true := by
  obtain ⟨g', hg', hshows'⟩ := run_events (fun _ _ _ _ h => h.advance) h hrun
  exact ⟨g', hshows', invariant_of_run (I := fun g => g.closed = true)
    (fun _ _ _ hclosed h => Gate.closed_step hclosed h) hclosed hg'⟩

/-- **Nobody gets in after `stop`.** Once some call of `stop` has returned, no
lock is held, in any continuation, and every call of `continue_lock` is refused
by its second operation from then on, whatever the others do. -/
theorem refused_after_stop {s s' : ScopeRunner} {before after : List Action}
    (hbefore : run step fresh before = some s) {j : Nat} (hj : s.calls[j]? = some .stopped)
    (hafter : run step s after = some s') :
    (∀ i : Nat, s'.calls[i]? ≠ some .locked) ∧
    ∀ (i : Nat) (call : Call), s.calls[i]? = some call → Asks call →
      turns i after ≤ 2 ∧ (turns i after = 2 → s'.calls[i]? = some .refused) := by
  obtain ⟨g, -, hshows⟩ := gate_of_run hbefore
  have hclosed : g.closed = true := hshows.knows j _ hj trivial
  constructor
  · intro i hi
    obtain ⟨g', hshows', hclosed'⟩ := hshows.closed_run hclosed hafter
    have hin := (hshows'.inside i).mpr hi
    rw [g'.empty_of_closed hclosed'] at hin
    exact absurd hin (Finset.notMem_empty i)
  · intro i call hcall hasks
    have hleft : ∃ call', s'.calls[i]? = some call' ∧ Asks call' ∧
        left call' + turns i after = left call := by
      clear hbefore hj
      induction after generalizing s call g with
      | nil =>
        obtain rfl := Option.some.inj hafter
        exact ⟨call, hcall, hasks, rfl⟩
      | cons a after ih =>
        obtain ⟨s₁, hs₁, hrest⟩ := run_cons.mp hafter
        obtain ⟨call₁, hcall₁, hasks₁, hleft₁⟩ :=
          left_step (hshows.neg_iff.mpr hclosed) hs₁ hcall hasks
        obtain ⟨g₁, hshows₁, hclosed₁⟩ :=
          hshows.closed_run hclosed ((run_singleton ..).trans hs₁)
        obtain ⟨call', hcall', hasks', hleft'⟩ := ih hrest g₁ hshows₁ hclosed₁ call₁ hcall₁ hasks₁
        refine ⟨call', hcall', hasks', ?_⟩
        have hturns : turns i (a :: after) = turns i [a] + turns i after := by
          rw [turns, turns, turns, List.countP_cons, List.countP_singleton, Nat.add_comm]
        omega
    obtain ⟨call', hcall', hasks', hleft'⟩ := hleft
    have hle := left_le_two call
    refine ⟨by omega, fun hturns => ?_⟩
    rw [hcall', eq_refused hasks' (by omega)]

/-- The second handler is refused by its second operation. -/
theorem refused_after_stop_twoHandlers :
    ∃ s', run step fresh (thenStopped ++ [.advance 1 true, .advance 1 false]) = some s' ∧
      s'.calls[1]? = some .refused := by
  have hbefore : run step fresh thenStopped = some ⟨-1, [.unlocked, .retrying 0, .stopped]⟩ := rfl
  have hafter : run step ⟨-1, [.unlocked, .retrying 0, .stopped]⟩
      [.advance 1 true, .advance 1 false] = some ⟨-1, [.unlocked, .refused, .stopped]⟩ := rfl
  obtain ⟨-, hrefused⟩ := refused_after_stop (j := 2) hbefore rfl hafter
  exact ⟨_, rfl, (hrefused 1 (.retrying 0) rfl trivial).2 rfl⟩

/-! ## Progress -/

/-- `stop` returns once the locks that are held are destroyed. -/
theorem Shows.releases {s : ScopeRunner} {g : Gate Nat} (h : Shows s g) {j : Nat}
    (hj : s.calls[j]? = some .stopping) : ∃ actions s', run step s actions = some s' ∧
      s'.calls[j]? = some .stopped ∧
      ∀ a ∈ actions, ∃ i, a = .advance i false ∧ (i = j ∨ s.calls[i]? = some .locked) := by
  -- as many locks are destroyed as are held
  induction hn : g.inside.card generalizing s g with
  | zero =>
    have hnext : next s.count j false .stopping = some (-1, .stopped, some (.close j)) := by
      have hcount := h.count
      rw [hn] at hcount
      rw [hcount]
      cases g.closed <;> rfl
    have hstep : s.step (.advance j false) = some ⟨-1, s.calls.set j .stopped⟩ := by
      simp only [step, hj, hnext, bind, Option.bind]
    refine ⟨[.advance j false], _, (run_singleton ..).trans hstep,
      List.getElem?_set_self (List.getElem?_eq_some_iff.mp hj).1, fun a ha => ?_⟩
    exact ⟨j, List.mem_singleton.mp ha, Or.inl rfl⟩
  | succ n ih =>
    obtain ⟨i, hi⟩ := Finset.card_pos.mp (by omega : 0 < g.inside.card)
    have hlocked := (h.inside i).mp hi
    have hij : i ≠ j := by
      rintro rfl
      rw [hlocked] at hj
      cases hj
    obtain ⟨g', hg', hshows'⟩ := h.leave hlocked
    have hcard : g'.inside.card = n := by
      simp only [Gate.step, hi, if_true, Option.some.injEq] at hg'
      have := Finset.card_erase_add_one hi
      rw [← hg']
      dsimp only
      omega
    have hj' : (s.calls.set i .unlocked)[j]? = some .stopping := by
      rw [List.getElem?_set_ne hij]
      exact hj
    obtain ⟨actions, s', hrun, hstopped, hactions⟩ := ih hshows' hj' hcard
    have hstep : s.step (.advance i false) = some ⟨s.count - 1, s.calls.set i .unlocked⟩ := by
      simp only [step, hlocked, next, bind, Option.bind]
    refine ⟨.advance i false :: actions, s', run_cons.mpr ⟨_, hstep, hrun⟩, hstopped,
      fun a ha => ?_⟩
    rcases List.mem_cons.mp ha with rfl | ha
    · exact ⟨i, rfl, Or.inr hlocked⟩
    · obtain ⟨k, rfl, hk⟩ := hactions a ha
      refine ⟨k, rfl, hk.imp_right fun hk => ?_⟩
      by_cases hki : k = i
      · rw [hki]
        exact hlocked
      · rwa [List.getElem?_set_ne (Ne.symm hki)] at hk

/-- **`stop` waits for the locks only.** In every reachable state a call of
`stop` returns if the locks that are held are destroyed: nothing else has to
happen, and no call of `continue_lock` has to return. -/
theorem stop_returns {s : ScopeRunner} {before : List Action}
    (hbefore : run step fresh before = some s) {j : Nat} (hj : s.calls[j]? = some .stopping) :
    ∃ actions s', run step s actions = some s' ∧ s'.calls[j]? = some .stopped ∧
      ∀ a ∈ actions, ∃ i, a = .advance i false ∧ (i = j ∨ s.calls[i]? = some .locked) := by
  obtain ⟨g, -, hshows⟩ := gate_of_run hbefore
  exact hshows.releases hj

/-- Only the first handler has to go on. -/
theorem stop_returns_twoHandlers :
    ∃ actions s', run step ⟨1, [.locked, .retrying 0, .stopping]⟩ actions = some s' ∧
      s'.calls[2]? = some .stopped ∧ ∀ a ∈ actions, ∃ i, a = .advance i false ∧
        (i = 2 ∨ [Call.locked, .retrying 0, .stopping][i]? = some .locked) := by
  have hbefore : run step fresh twoHandlers = some ⟨1, [.locked, .retrying 0, .stopping]⟩ := rfl
  exact stop_returns hbefore rfl

/-- The counter is not what call `i` of `continue_lock` expects. -/
def stale (i : Nat) (s : ScopeRunner) : Bool :=
  match s.calls[i]? with
  | some (.retrying expected) => decide (0 ≤ expected ∧ s.count ≠ expected)
  | _ => false

/-- The exchange of call `i` fails, and not without a reason. -/
def failure (i : Nat) (s : ScopeRunner) (a : Action) : Option Action :=
  if a = .advance i false ∧ stale i s then some a else none

/-- Not a refusal. -/
def passes : GateAction Nat → Bool
  | .refuse _ => false
  | _ => true

/-- Somebody gets in, leaves or closes. -/
def passage (s : ScopeRunner) (a : Action) : Option (GateAction Nat) := (s.event a).filter passes

/-- A call that goes on expects the counter as it is, and who changes it passes. -/
theorem next_spec {count count' : Int} {i : Nat} {spurious : Bool} {call call' : Call}
    {shown : Option (GateAction Nat)}
    (h : next count i spurious call = some (count', call', shown)) :
    (∀ expected, call' = .retrying expected → count' = expected) ∧
    (count' ≠ count → (shown.filter passes).isSome = true) := by
  cases call with
  | entered =>
    cases h
    exact ⟨fun expected heq => Call.retrying.inj heq, fun hne => absurd rfl hne⟩
  | retrying expected =>
    rw [next] at h
    split at h
    · cases h
      exact ⟨nofun, fun hne => absurd rfl hne⟩
    · split at h
      · cases h
        exact ⟨nofun, fun _ => rfl⟩
      · cases h
        exact ⟨fun expected heq => Call.retrying.inj heq, fun hne => absurd rfl hne⟩
  | locked =>
    cases h
    exact ⟨nofun, fun _ => rfl⟩
  | stopping =>
    rw [next] at h
    split at h
    · cases h
      exact ⟨nofun, fun _ => rfl⟩
    · split at h
      · cases h
        exact ⟨nofun, fun hne => absurd rfl hne⟩
      · cases h
        exact ⟨nofun, fun hne => absurd rfl hne⟩
  | unlocked => cases h
  | refused => cases h
  | stopped => cases h

theorem length_failure_le (i : Nat) (s : ScopeRunner) (a : Action) :
    (failure i s a).toList.length ≤ (stale i s).toNat := by
  unfold failure
  split
  · rename_i h
    rw [h.2]
    exact Nat.le_refl 1
  · exact Nat.zero_le _

/-- A new call expects nothing yet. -/
theorem stale_call {s : ScopeRunner} {call : Call} (hcall : ∀ expected, call ≠ .retrying expected)
    (i : Nat) : stale i { s with calls := s.calls ++ [call] } = stale i s := by
  unfold stale
  dsimp only
  rcases Nat.lt_trichotomy i s.calls.length with hlt | rfl | hgt
  · rw [List.getElem?_append_left hlt]
  · rw [List.getElem?_concat_length, List.getElem?_eq_none (Nat.le_refl _)]
    cases call with
    | retrying expected => exact absurd rfl (hcall expected)
    | _ => rfl
  · rw [List.getElem?_eq_none (by simp; omega), List.getElem?_eq_none (by omega)]

/-- A failure makes the expectation true, and only a passage makes it false. -/
theorem failure_step {s s' : ScopeRunner} {a : Action} (hstep : s.step a = some s') (i : Nat) :
    (failure i s a).toList.length + (stale i s').toNat ≤
      (stale i s).toNat + (passage s a).toList.length := by
  cases a with
  | continueLock =>
    obtain rfl := Option.some.inj hstep
    have hsame : stale i { s with calls := s.calls ++ [.entered] } = stale i s :=
      stale_call (by simp) i
    rw [hsame]
    exact Nat.le_of_eq (Nat.zero_add _)
  | stop =>
    obtain rfl := Option.some.inj hstep
    have hsame : stale i { s with calls := s.calls ++ [.stopping] } = stale i s :=
      stale_call (by simp) i
    rw [hsame]
    exact Nat.le_of_eq (Nat.zero_add _)
  | advance k spurious =>
    obtain ⟨call, count', call', shown, hcall, hnext, hevent, rfl⟩ := step_advance.mp hstep
    obtain ⟨hexpects, hpasses⟩ := next_spec hnext
    rw [passage, hevent]
    by_cases hk : k = i
    · subst hk
      have hfresh : stale k ⟨count', s.calls.set k call'⟩ = false := by
        have hself : (s.calls.set k call')[k]? = some call' :=
          List.getElem?_set_self (List.getElem?_eq_some_iff.mp hcall).1
        simp only [stale, hself]
        cases call' with
        | retrying expected => simp [hexpects expected rfl]
        | _ => rfl
      have hle := length_failure_le k s (.advance k spurious)
      rw [hfresh, Bool.toNat_false]
      omega
    · have hnone : failure i s (.advance k spurious) = none := by
        simp [failure, hk]
      have hsame : (s.calls.set k call')[i]? = s.calls[i]? := List.getElem?_set_ne hk
      rw [hnone]
      by_cases hcount : count' = s.count
      · have hstale : stale i ⟨count', s.calls.set k call'⟩ = stale i s := by
          simp only [stale, hsame, hcount]
        rw [hstale, Option.toList_none, List.length_nil]
        omega
      · obtain ⟨event, hsome⟩ := Option.isSome_iff_exists.mp (hpasses hcount)
        have hle := Bool.toNat_le (stale i ⟨count', s.calls.set k call'⟩)
        rw [hsome, Option.toList_none, List.length_nil, Option.toList_some, List.length_singleton]
        omega

/-- **The counter is lock-free.** In every run the exchange of a call of
`continue_lock` fails for a reason at most as often as others get in, leave or
close, wherever the run starts and one more if it starts with an old value. -/
theorem failures_le_passages {s s' : ScopeRunner} {actions : List Action}
    (hrun : run step s actions = some s') (i : Nat) :
    (events step (failure i) s actions).length ≤
      (stale i s).toNat + (events step passage s actions).length := by
  induction actions generalizing s with
  | nil => exact Nat.zero_le _
  | cons a actions ih =>
    obtain ⟨s₁, hs₁, hrest⟩ := run_cons.mp hrun
    have hone := failure_step hs₁ i
    have hlater := ih hrest
    rw [events_cons hs₁, events_cons hs₁, List.length_append, List.length_append]
    omega

/-- The exchange of the second handler fails once, after the first got in. -/
theorem failures_le_passages_twoHandlers :
    (events step (failure 1) fresh (twoHandlers ++ [.advance 1 false])).length = 1 ∧
    (events step (failure 1) fresh (twoHandlers ++ [.advance 1 false])).length ≤
      0 + (events step passage fresh (twoHandlers ++ [.advance 1 false])).length := by
  have hrun : run step fresh (twoHandlers ++ [.advance 1 false]) =
      some ⟨1, [.locked, .retrying 1, .stopping]⟩ := rfl
  exact ⟨rfl, failures_le_passages hrun 1⟩

end ScopeRunner
end ResMonitor
