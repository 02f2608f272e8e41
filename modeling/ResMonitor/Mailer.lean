import ResMonitor.Dispatch
import ResMonitor.ExactlyOnce
import ResMonitor.Handlers

/-! # Mails

The engine together with what the callbacks of its predicates captured and the
mails they have sent. A mail goes out exactly when a predicate is satisfied
right after one of its flags was raised, so the mails of a predicate are as
many as the invocations it counts. -/

namespace ResMonitor

namespace PredicateEngine

/-- How often the callback of object `id` has been invoked. -/
def callsOf (objects : List (Option Predicate)) (id : Nat) : Nat :=
  match objects[id]?.join with
  | some p => p.calls
  | none => 0

/-- The callback is invoked if `isPredicateSatisfied` after the flag is up. -/
def rings (p : Predicate) (triggerType : TriggerType) : Bool :=
  (p.setState triggerType true).isPredicateSatisfied.1

theorem calls_activate (p : Predicate) (t : TriggerType) :
    (p.activate t).calls = p.calls + if rings p t then 1 else 0 := by
  unfold Predicate.activate rings
  change (if (p.setState t true).isPredicateSatisfied.1 then p.calls + 1 else p.calls) = _
  split <;> rfl

/-- The callback that telling object `id` invokes, if any. -/
def invocation (triggerType : TriggerType) (objects : List (Option Predicate)) (id : Nat) :
    List Nat :=
  match objects[id]?.join with
  | some p => if rings p triggerType then [id] else []
  | none => []

/-- Whose callbacks the loop of `triggerActivation` invokes, in its order. -/
def invoked (triggerType : TriggerType) : List Nat → List (Option Predicate) → List Nat
  | [], _ => []
  | id :: ids, objects => invocation triggerType objects id ++
      invoked triggerType ids (objects.modify id (Option.map (·.activate triggerType)))

theorem eq_of_mem_invocation {t : TriggerType} {objects : List (Option Predicate)} {id i : Nat}
    (h : i ∈ invocation t objects id) : i = id ∧ i < objects.length := by
  unfold invocation at h
  cases hp : objects[id]?.join with
  | none => rw [hp] at h; cases h
  | some p =>
    obtain ⟨hlt, -⟩ := List.getElem?_eq_some_iff.mp (Option.join_eq_some_iff.mp hp)
    rw [hp] at h
    dsimp only at h
    split at h
    · rw [List.mem_singleton.mp h]
      exact ⟨rfl, hlt⟩
    · cases h

theorem callsOf_modify (t : TriggerType) (objects : List (Option Predicate)) (id i : Nat) :
    callsOf (objects.modify id (Option.map (·.activate t))) i =
      callsOf objects i + (invocation t objects id).count i := by
  by_cases hid : id = i
  · subst hid
    unfold callsOf invocation
    rw [List.getElem?_modify]
    cases objects[id]? with
    | none => rfl
    | some o =>
      cases o with
      | none => simp
      | some p =>
        have hcalls := calls_activate p t
        cases hr : rings p t <;> simpa [hr] using hcalls
  · have hcount : (invocation t objects id).count i = 0 :=
      List.count_eq_zero_of_not_mem fun hmem => hid (eq_of_mem_invocation hmem).1.symm
    unfold callsOf
    rw [hcount, Nat.add_zero, List.getElem?_modify_ne _ _ hid]

theorem lt_of_mem_invoked {t : TriggerType} {ids : List Nat} {objects : List (Option Predicate)}
    {i : Nat} (h : i ∈ invoked t ids objects) : i < objects.length := by
  induction ids generalizing objects with
  | nil => cases h
  | cons id ids ih =>
    rcases List.mem_append.mp h with h | h
    · exact (eq_of_mem_invocation h).2
    · have := ih h
      rwa [List.length_modify] at this

/-- The callbacks invoked are those that the predicates count. -/
theorem callsOf_tell (t : TriggerType) (ids : List Nat) (objects : List (Option Predicate))
    (i : Nat) : callsOf (tell (·.activate t) ids objects) i =
      callsOf objects i + (invoked t ids objects).count i := by
  induction ids generalizing objects with
  | nil => rfl
  | cons id ids ih =>
    have h := ih (objects.modify id (Option.map (·.activate t)))
    rw [callsOf_modify] at h
    rw [invoked, List.count_append, ← Nat.add_assoc]
    exact h

/-- Lowering flags invokes nothing. -/
theorem callsOf_tell_deactivate (t : TriggerType) (ids : List Nat)
    (objects : List (Option Predicate)) (i : Nat) :
    callsOf (tell (·.deactivate t) ids objects) i = callsOf objects i := by
  have hcalls : ∀ (n : Nat) (p : Predicate), ((·.deactivate t)^[n] p).calls = p.calls := by
    intro n
    induction n with
    | zero => exact fun p => rfl
    | succ n ih => exact fun p => (ih (p.deactivate t)).trans rfl
  unfold callsOf
  rw [getElem?_tell]
  cases objects[i]? with
  | none => rfl
  | some o =>
    cases o with
    | none => rfl
    | some p => exact hcalls _ p

end PredicateEngine

/-! ## The engine and its mails -/

/-- The engine, the callbacks of its predicates and the mails sent, oldest
first, each with the predicate that sent it. -/
structure Mailer where
  predEngine : PredicateEngine
  /-- What `sendMailFunction` of each predicate captured. -/
  notifications : List Notification
  sent : List (Nat × Mail)
  /-- Every predicate has got its callback. -/
  notified : notifications.length = predEngine.objects.length

namespace Mailer

def empty : Mailer := ⟨.empty, [], [], rfl⟩

/-- The mails that the callbacks of `ids` send. -/
def mails (notifications : List Notification) (ids : List Nat) : List (Nat × Mail) :=
  ids.filterMap fun id => notifications[id]?.map fun n => (id, n.mail)

def triggerActivation (triggerType : TriggerType) (m : Mailer) : Mailer where
  predEngine := m.predEngine.triggerActivation triggerType
  notifications := m.notifications
  sent := m.sent ++ mails m.notifications (PredicateEngine.invoked triggerType
    (observers m.predEngine.predicates triggerType) m.predEngine.objects)
  notified := m.notified.trans (PredicateEngine.length_tell ..).symm

def triggerDeactivation (triggerType : TriggerType) (m : Mailer) : Mailer where
  predEngine := m.predEngine.triggerDeactivation triggerType
  notifications := m.notifications
  sent := m.sent
  notified := m.notified.trans (PredicateEngine.length_tell ..).symm

def callbacks : Callbacks Mailer := ⟨triggerActivation, triggerDeactivation⟩

theorem objects_subscribe (e : PredicateEngine) (kind : PredicateKind TriggerType) :
    (e.subscribe kind).objects = e.objects ++ [some (Predicate.make kind)] :=
  (PredicateEngine.addPredicate_eq _ _).2

/-- A predicate is constructed, given its callback and registered. -/
def subscribe (m : Mailer) (kind : PredicateKind TriggerType) (n : Notification) : Mailer where
  predEngine := m.predEngine.subscribe kind
  notifications := m.notifications ++ [n]
  sent := m.sent
  notified := by
    rw [objects_subscribe, List.length_append, List.length_append, m.notified]
    rfl

/-! ## What is sent -/

/-- Each predicate has sent as many mails as it counts invocations, all of them
the mail of its own callback. -/
structure Sound (m : Mailer) : Prop where
  counted : ∀ id, (m.sent.map Prod.fst).count id = PredicateEngine.callsOf m.predEngine.objects id
  quoted : ∀ id mail, (id, mail) ∈ m.sent →
    ∃ n, m.notifications[id]? = some n ∧ mail = n.mail

theorem sound_empty : empty.Sound := ⟨fun _ => rfl, fun _ _ h => by cases h⟩

theorem map_fst_mails {notifications : List Notification} {ids : List Nat}
    (h : ∀ id ∈ ids, id < notifications.length) :
    (mails notifications ids).map Prod.fst = ids := by
  induction ids with
  | nil => rfl
  | cons id ids ih =>
    obtain ⟨hid, hids⟩ := List.forall_mem_cons.mp h
    rw [mails, List.filterMap_cons, List.getElem?_eq_getElem hid]
    exact congrArg (id :: ·) (ih hids)

theorem Sound.triggerActivation {m : Mailer} (h : m.Sound) (t : TriggerType) :
    (m.triggerActivation t).Sound := by
  refine ⟨fun id => ?_, fun id mail hmem => ?_⟩
  · have hids : ∀ i ∈ PredicateEngine.invoked t (observers m.predEngine.predicates t)
        m.predEngine.objects, i < m.notifications.length := fun i hi => by
      rw [m.notified]
      exact PredicateEngine.lt_of_mem_invoked hi
    have hcalls := PredicateEngine.callsOf_tell t (observers m.predEngine.predicates t)
      m.predEngine.objects id
    refine Eq.trans ?_ hcalls.symm
    rw [Mailer.triggerActivation, List.map_append, List.count_append, map_fst_mails hids,
      h.counted]
  · rcases List.mem_append.mp hmem with hmem | hmem
    · exact h.quoted id mail hmem
    · obtain ⟨i, -, hi⟩ := List.mem_filterMap.mp hmem
      obtain ⟨n, hn, heq⟩ := Option.map_eq_some_iff.mp hi
      cases heq
      exact ⟨n, hn, rfl⟩

theorem Sound.triggerDeactivation {m : Mailer} (h : m.Sound) (t : TriggerType) :
    (m.triggerDeactivation t).Sound :=
  ⟨fun id => (h.counted id).trans (PredicateEngine.callsOf_tell_deactivate t _ _ id).symm,
    h.quoted⟩

theorem Sound.call {m : Mailer} (h : m.Sound) (c : TriggerCall) : (callbacks.call m c).Sound := by
  cases c with
  | activate t => exact h.triggerActivation t
  | deactivate t => exact h.triggerDeactivation t

/-- A new predicate has not been invoked. -/
theorem Sound.subscribe {m : Mailer} (h : m.Sound) (kind : PredicateKind TriggerType)
    (n : Notification) : (m.subscribe kind n).Sound := by
  refine ⟨fun id => (h.counted id).trans ?_, fun id mail hmem => ?_⟩
  · unfold PredicateEngine.callsOf Mailer.subscribe
    dsimp only
    rw [objects_subscribe]
    rcases Nat.lt_trichotomy id m.predEngine.objects.length with hlt | heq | hgt
    · rw [List.getElem?_append_left hlt]
    · rw [heq, List.getElem?_concat_length, List.getElem?_eq_none (Nat.le_refl _)]
      rfl
    · rw [List.getElem?_eq_none (by omega), List.getElem?_eq_none (by simp; omega)]
  · obtain ⟨n', hn', hmail⟩ := h.quoted id mail hmem
    refine ⟨n', ?_, hmail⟩
    rw [Mailer.subscribe, List.getElem?_append_left (List.getElem?_eq_some_iff.mp hn').1]
    exact hn'

/-! ## One predicate among others -/

/-- What predicate `id` is, and hears, in the mailer's engine. -/
abbrev Mirrors (m : Mailer) (hears : TriggerType → Nat) (id : Nat) (p : Predicate) : Prop :=
  ResMonitor.Mirrors hears id m.predEngine p

theorem Mirrors.call {m : Mailer} {hears : TriggerType → Nat} {id : Nat} {p : Predicate}
    (h : m.Mirrors hears id p) (c : TriggerCall) :
    (callbacks.call m c).Mirrors hears id ((Predicate.callbacks hears).call p c) := by
  cases c with
  | activate t => exact mirrors_signal h (fun p => p.kind_activate t) t
  | deactivate t => exact mirrors_signal h (fun p => p.kind_deactivate t) t

/-- Later subscriptions leave the predicate alone. -/
theorem Mirrors.subscribe {m : Mailer} {hears : TriggerType → Nat} {id : Nat} {p : Predicate}
    (h : m.Mirrors hears id p) (kind : PredicateKind TriggerType) (n : Notification) :
    (m.subscribe kind n).Mirrors hears id p := by
  obtain ⟨hhears, hlock⟩ := h
  have hlt : id < m.predEngine.objects.length := PredicateEngine.lock_lt hlock
  have hnew : (m.predEngine.construct kind).lock m.predEngine.objects.length =
      some (Predicate.make kind) := PredicateEngine.lock_eq_some.mpr List.getElem?_concat_length
  refine ⟨?_, ?_⟩
  · rw [← hhears]
    funext t
    refine (PredicateEngine.hears_addPredicate hnew id t).trans ?_
    rw [if_neg (by omega)]
    rfl
  · refine (PredicateEngine.lock_addPredicate _ _ id).trans ?_
    rw [PredicateEngine.lock_eq_some] at hlock ⊢
    rw [PredicateEngine.construct, List.getElem?_append_left hlt]
    exact hlock

/-- A new predicate hears each of its operands as often as it has it. -/
theorem mirrors_subscribe (m : Mailer) (kind : PredicateKind TriggerType) (n : Notification) :
    (m.subscribe kind n).Mirrors (fun t => kind.getPredicateOperands.count t)
      m.predEngine.objects.length (Predicate.make kind) := by
  have h := PredicateEngine.registeredOnce_subscribe m.predEngine kind
  exact ⟨funext h.heard, h.fresh⟩

end Mailer
end ResMonitor
