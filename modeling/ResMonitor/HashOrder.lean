import ResMonitor.Activation
import ResMonitor.AlarmRuns
import Mathlib.Data.Fin.VecNotation
import Mathlib.Data.Fintype.Pi
import Mathlib.Data.List.FinRange
import Mathlib.Data.List.Permutation
import Mathlib.Data.Set.List
import Mathlib.Tactic.FinCases

/-! # The order of dispatch

Triggers that fire in the same poll are dispatched in the iteration order of
the trigger table. The number of callback invocations in a poll depends on
that order in some states only; they are characterised here. A predicate has
at most three distinct operands, so one poll is decided by computation over
`Fin 3`, and carried to the operands by renaming. -/

namespace ResMonitor

namespace PredicateKind
section Abstract
variable {κ ι : Type}

/-- The same predicate over renamed operands. -/
def map (pos : ι → κ) : PredicateKind ι → PredicateKind κ
  | .predicate1or2and3 o₁ o₂ a => .predicate1or2and3 (pos o₁) (pos o₂) (pos a)
  | .predicate1and2 a₁ a₂ => .predicate1and2 (pos a₁) (pos a₂)
  | .predicate1element a => .predicate1element (pos a)

theorem getPredicateOperands_map (pos : ι → κ) (k : PredicateKind ι) :
    (k.map pos).getPredicateOperands = k.getPredicateOperands.map pos := by
  cases k <;> rfl

theorem holds_map (pos : ι → κ) (k : PredicateKind ι) (f : κ → Bool) :
    (k.map pos).holds f = k.holds (f ∘ pos) := by
  cases k <;> rfl

theorem saturated_map (pos : ι → κ) (k : PredicateKind ι) (f : κ → Bool) :
    (k.map pos).saturated f = k.saturated (f ∘ pos) := by
  cases k <;> rfl

variable [DecidableEq κ] [DecidableEq ι]

/-- The invocations when each of `ts` is dispatched once to each operand it is. -/
def dispatch (k : PredicateKind κ) (f : κ → Bool) (ts : List κ) : Nat :=
  k.ringsIn f (ts.flatMap fun t => List.replicate (k.getPredicateOperands.count t) t)

/-- The flags `up` are such that the order in which the triggers `fire` are
dispatched makes a difference. For two operands: both fire, one of them being
up. For three, one of the or-operands is down, and either the formula does not
hold yet and the and-operand fires together with an or-operand that is not in
its state, or the formula holds and the operand that is down fires together
with another one. When an or-operand is also the and-operand, both fire and
the other one is down. -/
def OrderSensitive (k : PredicateKind κ) (up fire : κ → Bool) : Prop :=
  match k with
  | .predicate1or2and3 o₁ o₂ a =>
    if o₁ = o₂ then False
    else if o₁ = a then fire a = true ∧ fire o₂ = true ∧ up o₂ = false
    else if o₂ = a then fire a = true ∧ fire o₁ = true ∧ up o₁ = false
    else if k.holds up = true then
      (up o₂ = false ∧ fire o₂ = true ∧ (fire o₁ = true ∨ fire a = true)) ∨
      (up o₁ = false ∧ fire o₁ = true ∧ (fire o₂ = true ∨ fire a = true))
    else ¬ (up o₁ = true ∧ up o₂ = true) ∧ fire a = true ∧
      ((fire o₁ = true ∧ up o₁ ≠ up a) ∨ (fire o₂ = true ∧ up o₂ ≠ up a))
  | .predicate1and2 a₁ a₂ => fire a₁ = true ∧ fire a₂ = true ∧ up a₁ ≠ up a₂
  | .predicate1element _ => False

instance (k : PredicateKind κ) (up fire : κ → Bool) : Decidable (k.OrderSensitive up fire) := by
  unfold OrderSensitive
  split <;> infer_instance

/-! ### Renaming -/

theorem raise_comp {pos : ι → κ} (hinj : Function.Injective pos) (f : κ → Bool) (i : ι) :
    raise f (pos i) ∘ pos = raise (f ∘ pos) i := by
  funext y
  simp [raise, hinj.eq_iff]

theorem ringsIn_map {pos : ι → κ} (hinj : Function.Injective pos) (k : PredicateKind ι)
    (f : κ → Bool) (ts : List ι) : (k.map pos).ringsIn f (ts.map pos) = k.ringsIn (f ∘ pos) ts := by
  induction ts generalizing f with
  | nil => rfl
  | cons t ts ih =>
    have hr : (k.map pos).rings f (pos t) = k.rings (f ∘ pos) t := by
      rw [rings, rings, holds_map, holds_map, saturated_map, raise_comp hinj]
    rw [List.map_cons, ringsIn, ringsIn, ih, raise_comp hinj, hr]

theorem dispatch_map {pos : ι → κ} (hinj : Function.Injective pos) (k : PredicateKind ι)
    (f : κ → Bool) (ts : List ι) :
    (k.map pos).dispatch f (ts.map pos) = k.dispatch (f ∘ pos) ts := by
  unfold dispatch
  rw [← ringsIn_map hinj, List.flatMap_map, List.map_flatMap, getPredicateOperands_map]
  congr 1
  refine List.flatMap_congr fun t _ => ?_
  rw [List.count_map_of_injective _ pos hinj, List.map_replicate]

theorem orderSensitive_map {pos : ι → κ} (hinj : Function.Injective pos) (k : PredicateKind ι)
    (up fire : κ → Bool) :
    (k.map pos).OrderSensitive up fire ↔ k.OrderSensitive (up ∘ pos) (fire ∘ pos) := by
  cases k with
  | predicate1or2and3 o₁ o₂ a =>
    unfold OrderSensitive map
    simp only [hinj.eq_iff, Function.comp_apply, holds]
    rfl
  | predicate1and2 a₁ a₂ => exact Iff.rfl
  | predicate1element a => exact Iff.rfl

/-- Triggers that are no operands are not heard. -/
theorem dispatch_filter (k : PredicateKind κ) (f : κ → Bool) (ts : List κ) :
    k.dispatch f (ts.filter fun t => t ∈ k.getPredicateOperands) = k.dispatch f ts := by
  unfold dispatch
  congr 1
  induction ts with
  | nil => rfl
  | cons t ts ih =>
    rw [List.filter_cons]
    split
    · rw [List.flatMap_cons, List.flatMap_cons, ih]
    · rename_i h
      have hcount : k.getPredicateOperands.count t = 0 :=
        List.count_eq_zero_of_not_mem (by simpa using h)
      rw [ih, List.flatMap_cons, hcount, List.replicate_zero, List.nil_append]

end Abstract

/-! ### One poll, by computation -/

/-- All orders of dispatch agree. -/
def Agrees {n : Nat} (k : PredicateKind (Fin n)) (up fire : Fin n → Bool) : Prop :=
  ∀ p ∈ (List.finRange n).permutations', ∀ q ∈ (List.finRange n).permutations',
    k.dispatch up (p.filter fun i => fire i) = k.dispatch up (q.filter fun i => fire i)

instance {n : Nat} (k : PredicateKind (Fin n)) (up fire : Fin n → Bool) :
    Decidable (k.Agrees up fire) := by
  unfold Agrees
  infer_instance

/-- `fires` lists the triggers that fire, in some order. -/
def Lists {κ : Type} (fires : List κ) (fire : κ → Prop) : Prop :=
  fires.Nodup ∧ ∀ t, t ∈ fires ↔ fire t

theorem agrees_iff {n : Nat} {k : PredicateKind (Fin n)} {up fire : Fin n → Bool} :
    k.Agrees up fire ↔ ∀ ts ts', Lists ts (fun i => fire i = true) →
      Lists ts' (fun i => fire i = true) → k.dispatch up ts = k.dispatch up ts' := by
  -- an order of the triggers that fire extends to an order of all of them
  have extend : ∀ ts, Lists ts (fun i => fire i = true) →
      ∃ p ∈ (List.finRange n).permutations', p.filter (fun i => fire i) = ts := by
    intro ts ⟨hn, hmem⟩
    refine ⟨ts ++ (List.finRange n).filter (fun i => !fire i), List.mem_permutations'.mpr ?_, ?_⟩
    · refine (List.perm_ext_iff_of_nodup ?_ (List.nodup_finRange n)).mpr fun i => ?_
      · refine hn.append ((List.nodup_finRange n).filter _) fun i hi hi' => ?_
        simp [(hmem i).mp hi] at hi'
      · simp only [List.mem_append, hmem, List.mem_filter, List.mem_finRange, true_and]
        cases fire i <;> simp
    · rw [List.filter_append, List.filter_filter,
        List.filter_eq_self.mpr fun i hi => (hmem i).mp hi]
      simp
  have restrict : ∀ p ∈ (List.finRange n).permutations',
      Lists (p.filter fun i => fire i) (fun i => fire i = true) := by
    intro p hp
    have hperm := List.mem_permutations'.mp hp
    refine ⟨(hperm.nodup_iff.mpr (List.nodup_finRange n)).filter _, fun i => ?_⟩
    simp [hperm.mem_iff]
  constructor
  · intro h ts ts' hts hts'
    obtain ⟨p, hp, rfl⟩ := extend ts hts
    obtain ⟨q, hq, rfl⟩ := extend ts' hts'
    exact h p hp q hq
  · intro h p hp q hq
    exact h _ _ (restrict p hp) (restrict q hq)

/-- Any predicate is one over `Fin n`, where the two sides have been compared. -/
theorem exists_shape {κ : Type} [DecidableEq κ] (k : PredicateKind κ) :
    ∃ (n : Nat) (k' : PredicateKind (Fin n)) (pos : Fin n → κ), Function.Injective pos ∧
      k = k'.map pos ∧ (∀ t ∈ k.getPredicateOperands, t ∈ Set.range pos) ∧
      (∀ i, pos i ∈ k.getPredicateOperands) ∧
      ∀ up fire : Fin n → Bool, k'.Agrees up fire ↔ ¬ k'.OrderSensitive up fire := by
  have one : ∀ x : κ, Function.Injective ![x] := fun x i j _ => Subsingleton.elim i j
  have two : ∀ x y : κ, x ≠ y → Function.Injective ![x, y] := by
    intro x y h i j hij
    fin_cases i <;> fin_cases j <;> simp_all [eq_comm]
  have three : ∀ x y z : κ, x ≠ y → x ≠ z → y ≠ z → Function.Injective ![x, y, z] := by
    intro x y z hxy hxz hyz i j hij
    fin_cases i <;> fin_cases j <;> simp_all [eq_comm]
  cases k with
  | predicate1element a =>
    exact ⟨1, .predicate1element 0, ![a], one a, rfl, by simp [getPredicateOperands],
      by simp [getPredicateOperands], by decide +kernel⟩
  | predicate1and2 a₁ a₂ =>
    by_cases h : a₁ = a₂
    · subst h
      exact ⟨1, .predicate1and2 0 0, ![a₁], one a₁, rfl, by simp [getPredicateOperands],
        by simp [getPredicateOperands], by decide +kernel⟩
    · exact ⟨2, .predicate1and2 0 1, ![a₁, a₂], two a₁ a₂ h, rfl, by simp [getPredicateOperands],
        by simp [getPredicateOperands, Fin.forall_fin_two], by decide +kernel⟩
  | predicate1or2and3 o₁ o₂ a =>
    by_cases h₁ : o₁ = o₂
    · subst h₁
      by_cases h₂ : o₁ = a
      · subst h₂
        exact ⟨1, .predicate1or2and3 0 0 0, ![o₁], one o₁, rfl, by simp [getPredicateOperands],
          by simp [getPredicateOperands], by decide +kernel⟩
      · exact ⟨2, .predicate1or2and3 0 0 1, ![o₁, a], two o₁ a h₂, rfl,
          by simp [getPredicateOperands], by simp [getPredicateOperands, Fin.forall_fin_two],
          by decide +kernel⟩
    · by_cases h₂ : o₁ = a
      · subst h₂
        exact ⟨2, .predicate1or2and3 0 1 0, ![o₁, o₂], two o₁ o₂ h₁, rfl,
          by simp [getPredicateOperands], by simp [getPredicateOperands, Fin.forall_fin_two],
          by decide +kernel⟩
      · by_cases h₃ : o₂ = a
        · subst h₃
          exact ⟨2, .predicate1or2and3 0 1 1, ![o₁, o₂], two o₁ o₂ h₁, rfl,
            by simp [getPredicateOperands], by simp [getPredicateOperands, Fin.forall_fin_two],
            by decide +kernel⟩
        · exact ⟨3, .predicate1or2and3 0 1 2, ![o₁, o₂, a], three o₁ o₂ a h₁ h₂ h₃, rfl,
            by simp [getPredicateOperands], by simp [getPredicateOperands, Fin.forall_fin_succ],
            by decide +kernel⟩

/-- **One poll.** The orders in which the operands that fire can be dispatched
all lead to the same number of invocations unless the flags are order sensitive. -/
theorem dispatch_agree_iff {κ : Type} [DecidableEq κ] (k : PredicateKind κ) (up fire : κ → Bool) :
    (∀ ts ts', Lists ts (fun t => t ∈ k.getPredicateOperands ∧ fire t = true) →
      Lists ts' (fun t => t ∈ k.getPredicateOperands ∧ fire t = true) →
      k.dispatch up ts = k.dispatch up ts') ↔ ¬ k.OrderSensitive up fire := by
  obtain ⟨n, k', pos, hinj, rfl, hrange, hop, hiff⟩ := exists_shape k
  rw [orderSensitive_map hinj, ← hiff, agrees_iff]
  have up_map : ∀ ts : List (Fin n), Lists ts (fun i => (fire ∘ pos) i = true) →
      Lists (ts.map pos)
        (fun t => t ∈ (k'.map pos).getPredicateOperands ∧ fire t = true) := by
    intro ts ⟨hn, hmem⟩
    refine ⟨hn.map hinj, fun t => ?_⟩
    rw [List.mem_map]
    constructor
    · rintro ⟨i, hi, rfl⟩
      exact ⟨hop i, (hmem i).mp hi⟩
    · intro ⟨ht, hf⟩
      obtain ⟨i, rfl⟩ := hrange t ht
      exact ⟨i, (hmem i).mpr hf, rfl⟩
  constructor
  · intro h ts ts' hts hts'
    have := h _ _ (up_map ts hts) (up_map ts' hts')
    rwa [dispatch_map hinj, dispatch_map hinj] at this
  · have down_map : ∀ ts, Lists ts
          (fun t => t ∈ (k'.map pos).getPredicateOperands ∧ fire t = true) →
        ∃ is : List (Fin n), is.map pos = ts ∧ Lists is (fun i => (fire ∘ pos) i = true) := by
      intro ts ⟨hn, hmem⟩
      have hin : ts ∈ Set.range (List.map pos) := by
        rw [Set.range_list_map]
        exact fun t ht => hrange t ((hmem t).mp ht).1
      obtain ⟨is, rfl⟩ := hin
      refine ⟨is, rfl, hn.of_map _, fun i => ?_⟩
      rw [← List.mem_map_of_injective hinj, hmem]
      exact and_iff_right (hop i)
    intro h ts ts' hts hts'
    obtain ⟨is, rfl, his⟩ := down_map ts hts
    obtain ⟨is', rfl, his'⟩ := down_map ts' hts'
    rw [dispatch_map hinj, dispatch_map hinj]
    exact h is is' his his'

end PredicateKind
/-! ## Runs -/

section Runs
variable {F : Type} [Double F] {logTypes : List LogType} {triggerTypes : List TriggerType}
  {m : SamplingManager F} {e : PredicateEngine} {id : Nat} {kind : PredicateKind TriggerType}

/-- The configured triggers that poll `k` activates. -/
def firing (triggerTypes : List TriggerType) (xs : Nat → Sample F) (k : Nat) (t : TriggerType) :
    Bool :=
  decide (t ∈ triggerTypes) && t.activatesAt (outcomes xs t) k

/-- During each poll the callback is invoked equally often whatever the
iteration order of the trigger table. -/
def HashOrderIndependent (logTypes : List LogType) (triggerTypes : List TriggerType)
    (xs : Nat → Sample F) (r : Nat) (e : PredicateEngine) (id : Nat) : Prop :=
  ∀ n, ∀ m m' : SamplingManager F, m.ConstructedFrom logTypes triggerTypes →
    m'.ConstructedFrom logTypes triggerTypes →
    m.invocationsDuring xs r e id n = m'.invocationsDuring xs r e id n

/-- The operands that fire, in iteration order. -/
def firingOperands (kind : PredicateKind TriggerType) (order : List TriggerType)
    (xs : Nat → Sample F) (k : Nat) : List TriggerType :=
  (order.filter fun t => t.activatesAt (outcomes xs t) k).filter fun t =>
    t ∈ kind.getPredicateOperands

theorem invocationsDuring_eq_dispatch (hm : m.ConstructedFrom logTypes triggerTypes)
    (hu : ∀ t ∈ triggerTypes, t.UnitFits) (he : e.RegisteredOnce id kind) (xs : Nat → Sample F)
    (r n : Nat) : m.invocationsDuring xs r e id n = .ok (kind.dispatch (raised triggerTypes xs r n)
      (firingOperands kind m.triggerStates.keys xs (r + n))) := by
  have htold : told (e.hears id) m.triggerStates.keys xs (r + n) =
      (m.triggerStates.keys.filter fun t => t.activatesAt (outcomes xs t) (r + n)).flatMap
        fun t => List.replicate (kind.getPredicateOperands.count t) t :=
    List.flatMap_congr fun t _ => by rw [he.heard]
  rw [invocationsDuring_eq hm hu he.registered, htold, firingOperands,
    PredicateKind.dispatch_filter]
  rfl

theorem lists_firingOperands (hm : m.ConstructedFrom logTypes triggerTypes) (xs : Nat → Sample F)
    (k : Nat) : PredicateKind.Lists (firingOperands kind m.triggerStates.keys xs k)
      (fun t => t ∈ kind.getPredicateOperands ∧ firing triggerTypes xs k t = true) := by
  refine ⟨(m.triggerStates.nodup_keys.filter _).filter _, fun t => ?_⟩
  simp only [firingOperands, firing, List.mem_filter, hm.mem_keys, decide_eq_true_eq,
    Bool.and_eq_true]
  exact and_comm

/-- Every order of the operands that fire comes from an iteration order. -/
theorem exists_order (hm : m.ConstructedFrom logTypes triggerTypes) (xs : Nat → Sample F) (k : Nat)
    {ts : List TriggerType} (hts : PredicateKind.Lists ts
      (fun t => t ∈ kind.getPredicateOperands ∧ firing triggerTypes xs k t = true)) :
    ∃ m' : SamplingManager F, m'.ConstructedFrom logTypes triggerTypes ∧
      firingOperands kind m'.triggerStates.keys xs k = ts := by
  obtain ⟨hn, hmem⟩ := hts
  have hfire : ∀ t ∈ ts, t ∈ m.triggerStates.keys ∧ t.activatesAt (outcomes xs t) k = true ∧
      t ∈ kind.getPredicateOperands := by
    intro t ht
    obtain ⟨hop, hf⟩ := (hmem t).mp ht
    obtain ⟨hin, hact⟩ := Bool.and_eq_true _ _ ▸ hf
    exact ⟨(hm.mem_keys t).mpr (of_decide_eq_true hin), hact, hop⟩
  -- those that fire first, then all the others
  have hperm : (ts ++ m.triggerStates.keys.filter fun t => t ∉ ts).Perm m.triggerStates.keys := by
    have hnodup := m.triggerStates.nodup_keys
    refine (List.perm_ext_iff_of_nodup ?_ hnodup).mpr fun t => ?_
    · refine hn.append (hnodup.filter _) fun t ht ht' => ?_
      simp [ht] at ht'
    · rw [List.mem_append, List.mem_filter]
      by_cases ht : t ∈ ts
      · exact iff_of_true (Or.inl ht) (hfire t ht).1
      · simp [ht]
  obtain ⟨table, hre, hkeys⟩ := UnorderedMap.exists_reordered m.triggerStates hperm
  obtain ⟨m₀, hcon, h₁, h₂, h₃, h₄, h₅, h₆, h₇⟩ := hm.built
  refine ⟨{ m with triggerStates := table },
    ⟨m₀, hcon, h₁, h₂, h₃, h₄, h₅, h₆, hre.trans h₇⟩, ?_⟩
  change firingOperands kind table.keys xs k = ts
  rw [hkeys, firingOperands, List.filter_filter, List.filter_append,
    List.filter_eq_self.mpr fun t ht => ?_, List.filter_filter, List.filter_eq_nil_iff.mpr ?_,
    List.append_nil]
  · intro t ht hboth
    simp only [Bool.and_eq_true, decide_eq_true_eq] at hboth
    have hf : firing triggerTypes xs k t = true := by
      rw [firing, hboth.1.2, Bool.and_true, decide_eq_true_eq]
      exact (hm.mem_keys t).mp ht
    exact hboth.2 ((hmem t).mpr ⟨hboth.1.1, hf⟩)
  · rw [(hfire t ht).2.1, Bool.and_true, decide_eq_true_eq]
    exact (hfire t ht).2.2

/-- **Where alarms do not depend on hash order.** Exactly in the runs no poll
of which is order sensitive. -/
theorem hashOrderIndependent_iff (hm : m.ConstructedFrom logTypes triggerTypes)
    (hu : ∀ t ∈ triggerTypes, t.UnitFits) (he : e.RegisteredOnce id kind) (xs : Nat → Sample F)
    (r : Nat) : HashOrderIndependent logTypes triggerTypes xs r e id ↔
      ∀ n, ¬ kind.OrderSensitive (raised triggerTypes xs r n) (firing triggerTypes xs (r + n)) := by
  refine forall_congr' fun n => ?_
  rw [← PredicateKind.dispatch_agree_iff]
  constructor
  · intro h ts ts' hts hts'
    obtain ⟨m₁, hm₁, rfl⟩ := exists_order hm xs (r + n) hts
    obtain ⟨m₂, hm₂, rfl⟩ := exists_order hm xs (r + n) hts'
    have heq := h m₁ m₂ hm₁ hm₂
    rw [invocationsDuring_eq_dispatch hm₁ hu he, invocationsDuring_eq_dispatch hm₂ hu he] at heq
    exact Except.ok.inj heq
  · intro h m₁ m₂ hm₁ hm₂
    rw [invocationsDuring_eq_dispatch hm₁ hu he, invocationsDuring_eq_dispatch hm₂ hu he]
    exact congrArg Except.ok (h _ _ (lists_firingOperands hm₁ xs (r + n))
      (lists_firingOperands hm₂ xs (r + n)))

/-! The configuration of the test `predicate_1or2and3_one_or_active`. -/

/-- `trigger cpu over 80% last for 8s` -/
def cpuFor8s : TriggerType := ⟨.cpu, .over, ⟨.percent, 80⟩, 8⟩

/-- `trigger memory over 75% last for 10s` -/
def memoryFor10s : TriggerType := ⟨.memory, .over, ⟨.percent, 75⟩, 10⟩

/-- `trigger disk under 10MB/s last for 2s` -/
def diskFor2s : TriggerType := ⟨.disk, .under, ⟨.mb, 10⟩, 2⟩

def oneOrActive : PredicateKind TriggerType :=
  .predicate1or2and3 cpuFor8s memoryFor10s diskFor2s

/-- In the eighth poll the CPU and the disk trigger fire together: two
invocations when the CPU comes first, one when the disk does. -/
theorem one_or_active_order_dependent :
    (PredicateEngine.empty.subscribe oneOrActive).RegisteredOnce 0 oneOrActive ∧
    (SamplingManager.unlogged [cpuFor8s, memoryFor10s, diskFor2s]).invocationsDuring
      (fun _ => mockSample 85) 0 (PredicateEngine.empty.subscribe oneOrActive) 0 7 = .ok 2 ∧
    (SamplingManager.unlogged [diskFor2s, memoryFor10s, cpuFor8s]).invocationsDuring
      (fun _ => mockSample 85) 0 (PredicateEngine.empty.subscribe oneOrActive) 0 7 = .ok 1 ∧
    ¬ HashOrderIndependent [] [cpuFor8s, memoryFor10s, diskFor2s] (fun _ => mockSample 85) 0
      (PredicateEngine.empty.subscribe oneOrActive) 0 := by
  have h₂ : (SamplingManager.unlogged [cpuFor8s, memoryFor10s, diskFor2s]).invocationsDuring
      (fun _ => mockSample 85) 0 (PredicateEngine.empty.subscribe oneOrActive) 0 7 = .ok 2 := by
    decide +kernel
  have h₁ : (SamplingManager.unlogged [diskFor2s, memoryFor10s, cpuFor8s]).invocationsDuring
      (fun _ => mockSample 85) 0 (PredicateEngine.empty.subscribe oneOrActive) 0 7 = .ok 1 := by
    decide +kernel
  refine ⟨PredicateEngine.registeredOnce_subscribe _ _, h₂, h₁, fun h => ?_⟩
  have hm : (SamplingManager.unlogged [cpuFor8s, memoryFor10s, diskFor2s] :
      SamplingManager Rat).ConstructedFrom [] [cpuFor8s, memoryFor10s, diskFor2s] :=
    SamplingManager.unlogged_constructed _
  have hm' : (SamplingManager.unlogged [diskFor2s, memoryFor10s, cpuFor8s] :
      SamplingManager Rat).ConstructedFrom [] [cpuFor8s, memoryFor10s, diskFor2s] :=
    ⟨_, rfl, rfl, rfl, rfl, .refl _, .refl _, .refl _, by
      unfold UnorderedMap.Reordered
      decide +kernel⟩
  have := h 7 _ _ hm hm'
  rw [h₂, h₁] at this
  cases this

/-- With a memory trigger that never fires, the order of dispatch is immaterial. -/
theorem hashOrderIndependent_iff_mock :
    HashOrderIndependent [] [cpuFor8s, memoryFor10s, diskFor2s] (fun _ => mockSample 85) 0
      (PredicateEngine.empty.subscribe (.predicate1and2 cpuFor8s memoryFor10s)) 0 := by
  have hm : (SamplingManager.unlogged [cpuFor8s, memoryFor10s, diskFor2s] :
      SamplingManager Rat).ConstructedFrom [] [cpuFor8s, memoryFor10s, diskFor2s] :=
    SamplingManager.unlogged_constructed _
  refine (hashOrderIndependent_iff hm (by decide) (PredicateEngine.registeredOnce_subscribe _ _)
    (fun _ => mockSample 85) 0).mpr fun n => ?_
  intro ⟨_, hfire, _⟩
  obtain ⟨_, hact⟩ := Bool.and_eq_true _ _ ▸ hfire
  rw [TriggerType.activatesAt, if_pos (by decide)] at hact
  have hsat := RunLength.sat_of_fires hact
  have hnot : (mockSample 85).satisfies memoryFor10s = false := by decide +kernel
  exact Bool.false_ne_true (hnot.symm.trans hsat)

end Runs
end ResMonitor
