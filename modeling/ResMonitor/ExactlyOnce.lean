import ResMonitor.FalseAlarm

/-! # Whom a signal reaches

A history of the engine: predicates are constructed, each is registered at most
once by either overload of `addPredicate`, signals go out, and predicates
expire. After any of them the engine lists a predicate under a trigger as often
as the trigger occurs among its operands, and a signal calls it that often. -/

namespace ResMonitor
namespace PredicateEngine

/-- The engines a history reaches, with the predicates it has registered. -/
inductive Registers : PredicateEngine → List Nat → Prop where
  | empty : Registers .empty []
  | construct {e : PredicateEngine} {ids : List Nat} (kind : PredicateKind TriggerType) :
      Registers e ids → Registers (e.construct kind) ids
  | addPredicate {e : PredicateEngine} {ids : List Nat} {id : Nat} {p : Predicate} :
      Registers e ids → e.lock id = some p → id ∉ ids →
      Registers (e.addPredicate id) (ids ++ [id])
  | addPredicates {e : PredicateEngine} {ids newPredicates : List Nat} :
      Registers e ids → (∀ id ∈ newPredicates, ∃ p, e.lock id = some p) →
      newPredicates.Nodup → (∀ id ∈ newPredicates, id ∉ ids) →
      Registers (e.addPredicates newPredicates) (ids ++ newPredicates)
  | destroy {e : PredicateEngine} {ids : List Nat} (id : Nat) :
      Registers e ids → Registers (e.destroy id) ids
  | triggerActivation {e : PredicateEngine} {ids : List Nat} (t : TriggerType) :
      Registers e ids → Registers (triggerActivation t e) ids
  | triggerDeactivation {e : PredicateEngine} {ids : List Nat} (t : TriggerType) :
      Registers e ids → Registers (triggerDeactivation t e) ids

/-! ## The index -/

/-- The engine hears of registered predicates only, as often as their operands say. -/
structure Indexed (e : PredicateEngine) (ids : List Nat) : Prop where
  inRange : ∀ id ∈ ids, id < e.objects.length
  hears : ∀ id p, e.lock id = some p → ∀ t,
    e.hears id t = if id ∈ ids then p.kind.getPredicateOperands.count t else 0

theorem lock_lt {e : PredicateEngine} {id : Nat} {p : Predicate} (h : e.lock id = some p) :
    id < e.objects.length := (List.getElem?_eq_some_iff.mp (lock_eq_some.mp h)).1

theorem hears_of_not_lt {e : PredicateEngine} {id : Nat} (h : ¬ id < e.objects.length)
    (t : TriggerType) : e.hears id t = 0 :=
  List.count_eq_zero_of_not_mem fun hid => h (e.listed t id hid).1

theorem lock_addPredicate (e : PredicateEngine) (id id' : Nat) :
    (e.addPredicate id).lock id' = e.lock id' := by
  unfold lock addPredicate
  split <;> rfl

theorem hears_addPredicate {e : PredicateEngine} {id : Nat} {p : Predicate}
    (h : e.lock id = some p) (id' : Nat) (t : TriggerType) :
    (e.addPredicate id).hears id' t =
      e.hears id' t + if id = id' then p.kind.getPredicateOperands.count t else 0 := by
  unfold hears
  rw [(addPredicate_eq e id).1, pushPredicate, lock_eq_some.mp h, observers_pushOperands,
    List.count_append, List.count_replicate]
  simp only [beq_iff_eq]

theorem indexed_construct {e : PredicateEngine} {ids : List Nat} (h : e.Indexed ids)
    (kind : PredicateKind TriggerType) : (e.construct kind).Indexed ids := by
  have hlen : (e.construct kind).objects.length = e.objects.length + 1 := by simp [construct]
  refine ⟨fun id hid => by have := h.inRange id hid; omega, fun id p hp t => ?_⟩
  by_cases hid : id < e.objects.length
  · refine h.hears id p ?_ t
    rw [lock_eq_some] at hp ⊢
    rwa [construct, List.getElem?_append_left hid] at hp
  · -- the new one is not listed anywhere, and not registered
    rw [if_neg fun hmem => hid (h.inRange id hmem)]
    exact hears_of_not_lt hid t

theorem indexed_addPredicate {e : PredicateEngine} {ids : List Nat} (h : e.Indexed ids) {id : Nat}
    {p : Predicate} (hp : e.lock id = some p) (hnew : id ∉ ids) :
    (e.addPredicate id).Indexed (ids ++ [id]) := by
  refine ⟨fun id' hid' => ?_, fun id' p' hp' t => ?_⟩
  · rw [(addPredicate_eq e id).2]
    rcases List.mem_append.mp hid' with hold | hone
    · exact h.inRange id' hold
    · rw [List.mem_singleton.mp hone]
      exact lock_lt hp
  · rw [lock_addPredicate] at hp'
    rw [hears_addPredicate hp, h.hears id' p' hp' t]
    by_cases hid : id = id'
    · subst hid
      rw [hp] at hp'
      cases hp'
      rw [if_neg hnew, if_pos rfl, if_pos (List.mem_append_right _ List.mem_cons_self),
        Nat.zero_add]
    · have hmem : id' ∈ ids ++ [id] ↔ id' ∈ ids := by simp [Ne.symm hid]
      simp only [hmem, if_neg hid, Nat.add_zero]

/-- A vector of predicates is registered one after the other. -/
theorem indexed_addPredicates {e : PredicateEngine} {ids newPredicates : List Nat}
    (h : e.Indexed ids) (hlive : ∀ id ∈ newPredicates, ∃ p, e.lock id = some p)
    (hnodup : newPredicates.Nodup) (hnew : ∀ id ∈ newPredicates, id ∉ ids) :
    (e.addPredicates newPredicates).Indexed (ids ++ newPredicates) := by
  rw [addPredicates_eq_foldl]
  induction newPredicates generalizing e ids with
  | nil => rwa [List.append_nil]
  | cons id newPredicates ih =>
    obtain ⟨p, hp⟩ := hlive id List.mem_cons_self
    obtain ⟨hid, hnodup⟩ := List.nodup_cons.mp hnodup
    have hone := indexed_addPredicate h hp (hnew id List.mem_cons_self)
    have hrest := ih hone (fun id' hid' => ?_) hnodup fun id' hid' hmem => ?_
    · rwa [List.append_assoc, List.singleton_append] at hrest
    · rw [lock_addPredicate]
      exact hlive id' (List.mem_cons_of_mem _ hid')
    · rcases List.mem_append.mp hmem with hold | hone
      · exact hnew id' (List.mem_cons_of_mem _ hid') hold
      · rw [List.mem_singleton.mp hone] at hid'
        exact hid hid'

theorem indexed_destroy {e : PredicateEngine} {ids : List Nat} (h : e.Indexed ids) (id : Nat) :
    (e.destroy id).Indexed ids := by
  refine ⟨fun id' hid' => ?_, fun id' p hp t => h.hears id' p ?_ t⟩
  · have := h.inRange id' hid'
    rwa [destroy, List.length_set]
  · rw [lock_eq_some] at hp ⊢
    rw [destroy, List.getElem?_set] at hp
    split at hp
    · split at hp <;> cases hp
    · exact hp

theorem indexed_signal {e : PredicateEngine} {ids : List Nat} (h : e.Indexed ids)
    (f : Predicate → Predicate) (hf : ∀ p, (f p).kind = p.kind) (t : TriggerType) :
    (signal f hf t e).Indexed ids := by
  refine ⟨fun id hid => ?_, fun id p hp t' => ?_⟩
  · have := h.inRange id hid
    rwa [signal, length_tell]
  · rw [lock_signal] at hp
    obtain ⟨q, hq, rfl⟩ := Option.map_eq_some_iff.mp hp
    rw [hears_signal, h.hears id q hq t', kind_iterate hf]

/-- **The index.** It holds after every history. -/
theorem Registers.indexed {e : PredicateEngine} {ids : List Nat} (h : e.Registers ids) :
    e.Indexed ids := by
  induction h with
  | empty => exact ⟨fun id hid => absurd hid List.not_mem_nil, fun id p hp => by cases hp⟩
  | construct kind _ ih => exact indexed_construct ih kind
  | addPredicate _ hp hnew ih => exact indexed_addPredicate ih hp hnew
  | addPredicates _ hlive hnodup hnew ih => exact indexed_addPredicates ih hlive hnodup hnew
  | destroy id _ ih => exact indexed_destroy ih id
  | triggerActivation t _ ih => exact indexed_signal ih _ _ t
  | triggerDeactivation t _ ih => exact indexed_signal ih _ _ t

/-! ## The calls of a signal -/

/-- The predicates that a signal for `t` calls, one entry for each call: those
weak pointers whose object is still there. -/
def called (e : PredicateEngine) (t : TriggerType) : List Nat :=
  (observers e.predicates t).filter fun id => (e.lock id).isSome

theorem tell_filter (f : Predicate → Predicate) (live : Nat → Bool) (ids : List Nat)
    (objects : List (Option Predicate)) (h : ∀ id, live id = objects[id]?.join.isSome) :
    tell f ids objects = tell f (ids.filter live) objects := by
  induction ids generalizing objects with
  | nil => rfl
  | cons id ids ih =>
    have hlive : ∀ id', live id' = (objects.modify id (Option.map f))[id']?.join.isSome := by
      intro id'
      rw [h, List.getElem?_modify]
      by_cases hid : id = id'
      · cases objects[id']? with
        | none => rfl
        | some o => cases o <;> simp [hid]
      · cases objects[id']? <;> simp [hid]
    rw [tell, List.foldl_cons]
    refine (ih _ hlive).trans ?_
    rw [List.filter_cons]
    split
    · rfl
    · -- an expired pointer: nothing is called
      rename_i hdead
      congr 1
      rw [h] at hdead
      refine List.ext_getElem? fun i => ?_
      rw [List.getElem?_modify]
      by_cases hi : id = i
      · subst hi
        cases ho : objects[id]? with
        | none => rfl
        | some o =>
          cases o with
          | none => simp
          | some p => rw [ho] at hdead; simp at hdead
      · cases objects[i]? <;> simp [hi]

/-- What the loop of a signal does to the objects: one call for each entry. -/
theorem objects_signal (f : Predicate → Predicate) (hf : ∀ p, (f p).kind = p.kind)
    (t : TriggerType) (e : PredicateEngine) :
    (signal f hf t e).objects = tell f (e.called t) e.objects :=
  tell_filter f (fun id => (e.lock id).isSome) (observers e.predicates t) e.objects fun _ => rfl

theorem count_called (e : PredicateEngine) (t : TriggerType) (id : Nat) :
    (e.called t).count id = if (e.lock id).isSome then e.hears id t else 0 := by
  unfold called hears
  split
  · rename_i h
    exact List.count_filter h
  · rename_i h
    refine List.count_eq_zero_of_not_mem fun hmem => h ?_
    exact (List.mem_filter.mp hmem).2

/-- Live, registered, and with `t` among its operands. -/
def Concerned (e : PredicateEngine) (ids : List Nat) (t : TriggerType) (id : Nat) : Prop :=
  id ∈ ids ∧ ∃ p, e.lock id = some p ∧ t ∈ p.kind.getPredicateOperands

/-- A signal for `t` is one call for each entry of `called`; they are one call of
every predicate it concerns and none of another; and a vector is registered as
its elements are. -/
structure ExactlyOnce (e : PredicateEngine) (ids : List Nat) (t : TriggerType) : Prop where
  activation : (triggerActivation t e).objects = tell (·.activate t) (e.called t) e.objects
  deactivation : (triggerDeactivation t e).objects = tell (·.deactivate t) (e.called t) e.objects
  concerned : ∀ id, e.Concerned ids t id → (e.called t).count id = 1
  noOther : ∀ id, ¬ e.Concerned ids t id → (e.called t).count id = 0
  oneByOne : ∀ newPredicates, e.addPredicates newPredicates = newPredicates.foldl addPredicate e

/-- **Where a signal is dispatched exactly once.** After every history, exactly
if no live registered predicate has the trigger twice among its operands. -/
theorem exactlyOnce_iff {e : PredicateEngine} {ids : List Nat} (h : e.Registers ids)
    (t : TriggerType) : e.ExactlyOnce ids t ↔
      ∀ id ∈ ids, ∀ p, e.lock id = some p → p.kind.getPredicateOperands.count t ≤ 1 := by
  have hcount : ∀ id p, e.lock id = some p → (e.called t).count id =
      if id ∈ ids then p.kind.getPredicateOperands.count t else 0 := by
    intro id p hp
    rw [count_called, hp, Option.isSome_some, if_pos rfl, h.indexed.hears id p hp t]
  constructor
  · intro honce id hid p hp
    by_cases hop : t ∈ p.kind.getPredicateOperands
    · have hone := honce.concerned id ⟨hid, p, hp, hop⟩
      rw [hcount id p hp, if_pos hid] at hone
      omega
    · rw [List.count_eq_zero_of_not_mem hop]
      omega
  · intro hrep
    refine ⟨objects_signal _ _ t e, objects_signal _ _ t e, ?_, ?_, addPredicates_eq_foldl e⟩
    · intro id ⟨hid, p, hp, hop⟩
      have hpos := List.count_pos_iff.mpr hop
      have hle := hrep id hid p hp
      rw [hcount id p hp, if_pos hid]
      omega
    · intro id hnot
      cases hp : e.lock id with
      | none => rw [count_called, hp]; rfl
      | some p =>
        rw [hcount id p hp]
        split
        · rename_i hid
          exact List.count_eq_zero_of_not_mem fun hop => hnot ⟨hid, p, hp, hop⟩
        · rfl

/-- An engine with one predicate. -/
theorem registers_subscribe (kind : PredicateKind TriggerType) :
    (PredicateEngine.empty.subscribe kind).Registers [0] := by
  have hlock : (PredicateEngine.empty.construct kind).lock 0 = some (Predicate.make kind) :=
    lock_eq_some.mpr rfl
  exact .addPredicate (.construct kind .empty) hlock List.not_mem_nil

theorem exactlyOnce_iff_distinct :
    (PredicateEngine.empty.subscribe overAndUnder).ExactlyOnce [0] cpuOver80 := by
  refine (exactlyOnce_iff (registers_subscribe overAndUnder) cpuOver80).mpr ?_
  intro id hid p hp
  obtain rfl := List.mem_singleton.mp hid
  have hfresh := (registeredOnce_subscribe .empty overAndUnder).fresh
  rw [show PredicateEngine.empty.objects.length = 0 from rfl, hp] at hfresh
  cases hfresh
  decide

/-- The same trigger on both sides, as the web form allows. -/
def sameTwice : PredicateKind TriggerType := .predicate1and2 cpuOver80 cpuOver80

/-- One activation of the trigger calls the predicate twice, and its callback
is invoked twice. -/
theorem same_operand_called_twice :
    (PredicateEngine.empty.subscribe sameTwice).Registers [0] ∧
    (PredicateEngine.empty.subscribe sameTwice).called cpuOver80 = [0, 0] ∧
    ((triggerActivation cpuOver80 (PredicateEngine.empty.subscribe sameTwice)).lock 0).map
      Predicate.calls = some 2 ∧
    ¬ (PredicateEngine.empty.subscribe sameTwice).ExactlyOnce [0] cpuOver80 := by
  have hcalled : (PredicateEngine.empty.subscribe sameTwice).called cpuOver80 = [0, 0] := by
    decide +kernel
  refine ⟨registers_subscribe sameTwice, hcalled, by decide +kernel, fun h => ?_⟩
  have hfresh := (registeredOnce_subscribe .empty sameTwice).fresh
  have hone := h.concerned 0 ⟨List.mem_cons_self, _, hfresh, List.mem_cons_self⟩
  rw [hcalled] at hone
  cases hone

end PredicateEngine
end ResMonitor
