import ResMonitor.Config
import ResMonitor.Lib.UnorderedMap

/-! # Predicates

A predicate keeps one flag for each of its operands and evaluates its formula
over the flags whenever one of them is raised. The callback is modelled by the
number of its invocations. What is printed along the way is left out. -/

namespace ResMonitor

/-- The classes derived from `Predicate`, with their operands. -/
inductive PredicateKind (κ : Type) where
  /-- `(or1Operand OR or2Operand) AND andOperand` -/
  | predicate1or2and3 (or1Operand or2Operand andOperand : κ)
  /-- `and1Operand AND and2Operand` -/
  | predicate1and2 (and1Operand and2Operand : κ)
  | predicate1element (operand : κ)
  deriving DecidableEq, Repr

def PredicateKind.getPredicateOperands {κ : Type} : PredicateKind κ → List κ
  | .predicate1or2and3 or1Operand or2Operand andOperand => [or1Operand, or2Operand, andOperand]
  | .predicate1and2 and1Operand and2Operand => [and1Operand, and2Operand]
  | .predicate1element operand => [operand]

/-- A predicate object. Every operand has a flag, so `triggerState.at` never throws. -/
structure Predicate where
  kind : PredicateKind TriggerType
  triggerState : UnorderedMap TriggerType Bool
  /-- Only `Predicate_1or2and3` reads and writes it. -/
  lastSatisfied : Bool
  /-- How often the callback has been invoked. -/
  calls : Nat
  covered : ∀ t ∈ kind.getPredicateOperands, triggerState.contains t = true

namespace Predicate

/-- The loop of the three constructors. -/
def initialStates (operands : List TriggerType) : UnorderedMap TriggerType Bool :=
  operands.foldl (fun states trigger => states.insert trigger false) .empty

theorem initialStates_spec (operands : List TriggerType) :
    (∀ t ∈ operands, (initialStates operands).contains t = true) ∧
    ∀ t, ((initialStates operands).find? t).getD false = false := by
  suffices h : ∀ (ts : List TriggerType) (m : UnorderedMap TriggerType Bool),
      (∀ t, (m.find? t).getD false = false) →
      (∀ t, t ∈ ts ∨ m.contains t = true →
        (ts.foldl (fun s t => s.insert t false) m).contains t = true) ∧
      ∀ t, ((ts.foldl (fun s t => s.insert t false) m).find? t).getD false = false by
    obtain ⟨hc, hf⟩ := h operands .empty (fun t => rfl)
    exact ⟨fun t ht => hc t (Or.inl ht), hf⟩
  intro ts
  induction ts with
  | nil => exact fun m hm => ⟨fun t ht => ht.resolve_left List.not_mem_nil, hm⟩
  | cons a ts ih =>
    intro m hm
    have hm' : ∀ t, ((m.insert a false).find? t).getD false = false := by
      intro t
      rw [UnorderedMap.find?_insert]
      split
      · rfl
      · exact hm t
    obtain ⟨hc, hf⟩ := ih (m.insert a false) hm'
    refine ⟨fun t ht => hc t ?_, hf⟩
    rw [UnorderedMap.contains_insert, Bool.or_eq_true, beq_iff_eq]
    rcases ht with hta | hmt
    · rcases List.mem_cons.mp hta with rfl | hts
      · exact Or.inr (Or.inl rfl)
      · exact Or.inl hts
    · exact Or.inr (Or.inr hmt)

/-- The constructors. -/
def make (kind : PredicateKind TriggerType) : Predicate where
  kind := kind
  triggerState := initialStates kind.getPredicateOperands
  lastSatisfied := false
  calls := 0
  covered := (initialStates_spec _).1

/-- `triggerState.at(t)` -/
def stateAt (p : Predicate) (t : TriggerType) (h : t ∈ p.kind.getPredicateOperands) : Bool :=
  p.triggerState.get t (p.covered t h)

/-- `isPredicateSatisfied`: its answer, and `lastSatisfied` afterwards. -/
def isPredicateSatisfied (p : Predicate) : Bool × Bool :=
  match h : p.kind with
  | .predicate1or2and3 or1Operand or2Operand andOperand =>
    let or1 := p.stateAt or1Operand (by simp [h, PredicateKind.getPredicateOperands])
    let or2 := p.stateAt or2Operand (by simp [h, PredicateKind.getPredicateOperands])
    let and := p.stateAt andOperand (by simp [h, PredicateKind.getPredicateOperands])
    -- the alarm has been raised already: the second or-operand is not to raise it again
    if or1 && or2 && p.lastSatisfied && and then (false, p.lastSatisfied)
    else ((or1 || or2) && and, (or1 || or2) && and)
  | .predicate1and2 and1Operand and2Operand =>
    (p.stateAt and1Operand (by simp [h, PredicateKind.getPredicateOperands]) &&
      p.stateAt and2Operand (by simp [h, PredicateKind.getPredicateOperands]), p.lastSatisfied)
  | .predicate1element operand =>
    (p.stateAt operand (by simp [h, PredicateKind.getPredicateOperands]), p.lastSatisfied)

/-- `triggerState[triggerType] = value` -/
def setState (p : Predicate) (triggerType : TriggerType) (value : Bool) : Predicate :=
  { p with
    triggerState := p.triggerState.insert triggerType value
    covered := fun t ht => by
      rw [UnorderedMap.contains_insert, p.covered t ht, Bool.or_true] }

def activate (p : Predicate) (triggerType : TriggerType) : Predicate :=
  let p := p.setState triggerType true
  let (satisfied, lastSatisfied) := p.isPredicateSatisfied
  { p with lastSatisfied, calls := if satisfied then p.calls + 1 else p.calls }

def deactivate (p : Predicate) (triggerType : TriggerType) : Predicate :=
  p.setState triggerType false

/-! ## Flags -/

/-- The flag of a trigger; triggers without one count as down. -/
def flag (p : Predicate) (t : TriggerType) : Bool := (p.triggerState.find? t).getD false

theorem stateAt_eq (p : Predicate) (t : TriggerType) (h : t ∈ p.kind.getPredicateOperands) :
    p.stateAt t h = p.flag t := by
  unfold stateAt UnorderedMap.get flag
  exact Option.get_eq_getD _

theorem flag_make (kind : PredicateKind TriggerType) (t : TriggerType) :
    (make kind).flag t = false := (initialStates_spec kind.getPredicateOperands).2 t

theorem flag_setState (p : Predicate) (t : TriggerType) (v : Bool) (t' : TriggerType) :
    (p.setState t v).flag t' = if t = t' then v else p.flag t' := by
  unfold flag setState
  simp only [UnorderedMap.find?_insert, beq_iff_eq]
  split <;> rfl

@[simp] theorem kind_setState (p : Predicate) (t : TriggerType) (v : Bool) :
    (p.setState t v).kind = p.kind := rfl
@[simp] theorem kind_activate (p : Predicate) (t : TriggerType) :
    (p.activate t).kind = p.kind := rfl
@[simp] theorem kind_deactivate (p : Predicate) (t : TriggerType) :
    (p.deactivate t).kind = p.kind := rfl

theorem ext_setState {p p' : Predicate} (hk : p.kind = p'.kind)
    (hs : p.triggerState = p'.triggerState) (hl : p.lastSatisfied = p'.lastSatisfied)
    (hc : p.calls = p'.calls) : p = p' := by
  cases p; cases p'; cases hk; cases hs; cases hl; cases hc; rfl

/-- Lowering a flag just before raising it leaves no trace. -/
theorem activate_deactivate (p : Predicate) (t : TriggerType) :
    (p.deactivate t).activate t = p.activate t := by
  have h : (p.deactivate t).setState t true = p.setState t true :=
    ext_setState rfl (UnorderedMap.insert_insert p.triggerState t false true) rfl rfl
  unfold activate
  rw [h]

/-- Lowering the flag of an operand that is down changes nothing. -/
theorem deactivate_of_down {p : Predicate} {t : TriggerType}
    (ht : t ∈ p.kind.getPredicateOperands) (hf : p.flag t = false) : p.deactivate t = p := by
  refine ext_setState rfl (UnorderedMap.insert_eq_self p.triggerState t false ?_) rfl rfl
  have hc := p.covered t ht
  rw [UnorderedMap.contains_eq_isSome] at hc
  obtain ⟨v, hv⟩ := Option.isSome_iff_exists.mp hc
  unfold flag at hf
  rw [hv] at hf ⊢
  exact congrArg some hf

end Predicate
end ResMonitor
