import ResMonitor.Predicate
import ResMonitor.SamplingManager

/-! # The predicate engine

The engine keeps, for each trigger, the predicates to tell about it, as weak
pointers. The predicate objects live outside; here they are a list, a weak
pointer is an index into it, and a destroyed object leaves `none` behind. -/

namespace ResMonitor

/-- The weak pointers kept under a trigger. -/
def observers (predicates : UnorderedMap TriggerType (List Nat)) (t : TriggerType) : List Nat :=
  (predicates.find? t).getD []

@[ext] structure PredicateEngine where
  predicates : UnorderedMap TriggerType (List Nat)
  objects : List (Option Predicate)
  /-- A predicate is only listed under its operands. -/
  listed : ∀ t, ∀ id ∈ observers predicates t, id < objects.length ∧
    ∀ p, objects[id]? = some (some p) → t ∈ p.kind.getPredicateOperands

namespace PredicateEngine

def empty : PredicateEngine := ⟨.empty, [], fun t id h => by cases h⟩

/-- `weak_ptr::lock` -/
def lock (e : PredicateEngine) (id : Nat) : Option Predicate := e.objects[id]?.join

theorem lock_eq_some {e : PredicateEngine} {id : Nat} {p : Predicate} :
    e.lock id = some p ↔ e.objects[id]? = some (some p) := by
  unfold lock
  exact Option.join_eq_some_iff

/-! ## Registration -/

/-- A predicate constructed by a client. -/
def construct (e : PredicateEngine) (kind : PredicateKind TriggerType) : PredicateEngine where
  predicates := e.predicates
  objects := e.objects ++ [some (Predicate.make kind)]
  listed := fun t id h => by
    obtain ⟨hlt, hop⟩ := e.listed t id h
    rw [List.getElem?_append_left hlt]
    exact ⟨by rw [List.length_append]; omega, hop⟩

/-- The loop of `addPredicate`; moving a `shared_ptr` into a `weak_ptr` leaves it as it was. -/
def pushOperands (predicates : UnorderedMap TriggerType (List Nat)) (id : Nat)
    (operands : List TriggerType) : UnorderedMap TriggerType (List Nat) :=
  operands.foldl (fun ps triggerType =>
    ps.insert triggerType (observers ps triggerType ++ [id])) predicates

theorem observers_insert (predicates : UnorderedMap TriggerType (List Nat)) (t : TriggerType)
    (ids : List Nat) (t' : TriggerType) :
    observers (predicates.insert t ids) t' = if t = t' then ids else observers predicates t' := by
  unfold observers
  simp only [UnorderedMap.find?_insert, beq_iff_eq]
  split <;> rfl

theorem observers_pushOperands (predicates : UnorderedMap TriggerType (List Nat)) (id : Nat)
    (operands : List TriggerType) (t : TriggerType) :
    observers (pushOperands predicates id operands) t =
      observers predicates t ++ List.replicate (operands.count t) id := by
  induction operands generalizing predicates with
  | nil => simp [pushOperands]
  | cons a operands ih =>
    have h := ih (predicates.insert a (observers predicates a ++ [id]))
    rw [observers_insert] at h
    refine h.trans ?_
    by_cases ha : a = t
    · subst ha
      rw [if_pos rfl, List.count_cons_self, List.append_assoc, List.replicate_succ,
        List.singleton_append]
    · rw [if_neg ha, List.count_cons_of_ne ha]

def Listed (objects : List (Option Predicate))
    (predicates : UnorderedMap TriggerType (List Nat)) : Prop :=
  ∀ t, ∀ id ∈ observers predicates t, id < objects.length ∧
    ∀ p, objects[id]? = some (some p) → t ∈ p.kind.getPredicateOperands

theorem listed_pushOperands {objects : List (Option Predicate)}
    {predicates : UnorderedMap TriggerType (List Nat)} (hlisted : Listed objects predicates)
    {id : Nat} {p : Predicate} (h : objects[id]? = some (some p)) :
    Listed objects (pushOperands predicates id p.kind.getPredicateOperands) := by
  intro t id' hid
  rw [observers_pushOperands, List.mem_append] at hid
  rcases hid with hid | hid
  · exact hlisted t id' hid
  · obtain ⟨hcount, rfl⟩ := List.mem_replicate.mp hid
    refine ⟨(List.getElem?_eq_some_iff.mp h).1, fun q hq => ?_⟩
    rw [h] at hq
    cases hq
    exact List.count_pos_iff.mp (by omega)

/-- `addPredicate`, given a live predicate. -/
def addPredicate (e : PredicateEngine) (id : Nat) : PredicateEngine :=
  match h : e.objects[id]? with
  | some (some p) => {
      predicates := pushOperands e.predicates id p.kind.getPredicateOperands
      objects := e.objects
      listed := listed_pushOperands e.listed h }
  | _ => e

/-- The body of the loop of `addPredicate` of a vector. -/
def pushPredicate (objects : List (Option Predicate))
    (predicates : UnorderedMap TriggerType (List Nat)) (id : Nat) :
    UnorderedMap TriggerType (List Nat) :=
  match objects[id]? with
  | some (some p) => pushOperands predicates id p.kind.getPredicateOperands
  | _ => predicates

theorem listed_pushPredicate {objects : List (Option Predicate)}
    {predicates : UnorderedMap TriggerType (List Nat)} (hlisted : Listed objects predicates)
    (id : Nat) : Listed objects (pushPredicate objects predicates id) := by
  unfold pushPredicate
  split
  · rename_i p h
    exact listed_pushOperands hlisted h
  · exact hlisted

/-- `addPredicate` of a vector. -/
def addPredicates (e : PredicateEngine) (newPredicates : List Nat) : PredicateEngine where
  predicates := newPredicates.foldl (pushPredicate e.objects) e.predicates
  objects := e.objects
  listed := List.foldlRecOn (motive := Listed e.objects) newPredicates (pushPredicate e.objects)
    e.listed fun _ hlisted id _ => listed_pushPredicate hlisted id

theorem addPredicate_eq (e : PredicateEngine) (id : Nat) :
    (e.addPredicate id).predicates = pushPredicate e.objects e.predicates id ∧
      (e.addPredicate id).objects = e.objects := by
  unfold addPredicate pushPredicate
  split
  · rename_i p h
    exact ⟨by simp [h], rfl⟩
  · rename_i hnot
    refine ⟨?_, rfl⟩
    split
    · rename_i p h
      exact absurd h (hnot p)
    · rfl

/-- The two overloads agree: a vector is registered one after the other. -/
theorem addPredicates_eq_foldl (e : PredicateEngine) (newPredicates : List Nat) :
    e.addPredicates newPredicates = newPredicates.foldl addPredicate e := by
  induction newPredicates generalizing e with
  | nil => rfl
  | cons id newPredicates ih =>
    rw [List.foldl_cons, ← ih (e.addPredicate id)]
    obtain ⟨hpredicates, hobjects⟩ := e.addPredicate_eq id
    apply PredicateEngine.ext
    · simp only [addPredicates, List.foldl_cons, hpredicates, hobjects]
    · simp only [addPredicates, hobjects]

/-- The last owner of a predicate drops it. -/
def destroy (e : PredicateEngine) (id : Nat) : PredicateEngine where
  predicates := e.predicates
  objects := e.objects.set id none
  listed := fun t id' h => by
    obtain ⟨hlt, hop⟩ := e.listed t id' h
    refine ⟨by rw [List.length_set]; exact hlt, fun p hp => hop p ?_⟩
    rw [List.getElem?_set] at hp
    split at hp
    · split at hp <;> cases hp
    · exact hp

/-! ## Signals -/

/-- Tell each of `ids` in turn. -/
def tell (f : Predicate → Predicate) (ids : List Nat) (objects : List (Option Predicate)) :
    List (Option Predicate) :=
  ids.foldl (fun os id => os.modify id (Option.map f)) objects

@[simp] theorem length_tell (f : Predicate → Predicate) (ids : List Nat)
    (objects : List (Option Predicate)) : (tell f ids objects).length = objects.length := by
  induction ids generalizing objects with
  | nil => rfl
  | cons id ids ih =>
    rw [tell, List.foldl_cons]
    exact (ih _).trans (List.length_modify ..)

/-- An object is told as often as its weak pointer occurs. -/
theorem getElem?_tell (f : Predicate → Predicate) (ids : List Nat)
    (objects : List (Option Predicate)) (id : Nat) :
    (tell f ids objects)[id]? = objects[id]?.map (Option.map f^[ids.count id]) := by
  induction ids generalizing objects with
  | nil => cases h : objects[id]? <;> simp [tell, h]
  | cons a ids ih =>
    rw [tell, List.foldl_cons]
    refine (ih _).trans ?_
    rw [List.getElem?_modify]
    by_cases ha : a = id
    · subst ha
      rw [List.count_cons_self, Function.iterate_succ]
      cases objects[a]? <;> simp
    · rw [List.count_cons_of_ne ha]
      cases objects[id]? <;> simp [ha]

theorem kind_iterate {f : Predicate → Predicate} (hf : ∀ p, (f p).kind = p.kind) (n : Nat)
    (p : Predicate) : (f^[n] p).kind = p.kind := by
  induction n generalizing p with
  | zero => rfl
  | succ n ih => rw [Function.iterate_succ_apply, ih, hf]

/-- The body of both lambdas. Looking the trigger up with `[]` creates its
vector when there is none. -/
def signal (f : Predicate → Predicate) (hf : ∀ p, (f p).kind = p.kind)
    (triggerType : TriggerType) (e : PredicateEngine) : PredicateEngine where
  predicates := e.predicates.insert triggerType (observers e.predicates triggerType)
  objects := tell f (observers e.predicates triggerType) e.objects
  listed := fun t id hid => by
    have hob : observers (e.predicates.insert triggerType (observers e.predicates triggerType)) t =
        observers e.predicates t := by
      rw [observers_insert]
      split
      · rename_i h; rw [h]
      · rfl
    rw [hob] at hid
    obtain ⟨hlt, hop⟩ := e.listed t id hid
    refine ⟨by rw [length_tell]; exact hlt, fun p hp => ?_⟩
    rw [getElem?_tell] at hp
    obtain ⟨o, ho, hop'⟩ := Option.map_eq_some_iff.mp hp
    obtain ⟨q, rfl, rfl⟩ := Option.map_eq_some_iff.mp hop'
    rw [kind_iterate hf]
    exact hop q ho

def triggerActivation (triggerType : TriggerType) (e : PredicateEngine) : PredicateEngine :=
  signal (·.activate triggerType) (fun _ => rfl) triggerType e

def triggerDeactivation (triggerType : TriggerType) (e : PredicateEngine) : PredicateEngine :=
  signal (·.deactivate triggerType) (fun _ => rfl) triggerType e

/-- `connectPredicateEngine`: the sampler's callbacks become the engine's. -/
def callbacks : Callbacks PredicateEngine := ⟨triggerActivation, triggerDeactivation⟩

/-! ## What one predicate hears -/

/-- How often predicate `id` is told about `t`. -/
def hears (e : PredicateEngine) (id : Nat) (t : TriggerType) : Nat :=
  (observers e.predicates t).count id

theorem hears_signal (f : Predicate → Predicate) (hf : ∀ p, (f p).kind = p.kind)
    (t : TriggerType) (e : PredicateEngine) : (signal f hf t e).hears = e.hears := by
  funext id t'
  unfold hears signal
  dsimp only
  rw [observers_insert]
  split
  · rename_i h; rw [h]
  · rfl

theorem lock_signal (f : Predicate → Predicate) (hf : ∀ p, (f p).kind = p.kind)
    (t : TriggerType) (e : PredicateEngine) (id : Nat) :
    (signal f hf t e).lock id = (e.lock id).map f^[e.hears id t] := by
  unfold lock signal hears
  dsimp only
  rw [getElem?_tell]
  cases e.objects[id]? <;> simp

/-- The predicate is alive, has just been constructed, and is listed under each
of its operands. -/
structure Registered (e : PredicateEngine) (id : Nat) (kind : PredicateKind TriggerType) :
    Prop where
  fresh : e.lock id = some (Predicate.make kind)
  heard : ∀ t ∈ kind.getPredicateOperands, 0 < e.hears id t

/-- Registered by a single `addPredicate`. -/
structure RegisteredOnce (e : PredicateEngine) (id : Nat) (kind : PredicateKind TriggerType) :
    Prop where
  fresh : e.lock id = some (Predicate.make kind)
  heard : ∀ t, e.hears id t = kind.getPredicateOperands.count t

theorem RegisteredOnce.registered {e : PredicateEngine} {id : Nat}
    {kind : PredicateKind TriggerType} (h : e.RegisteredOnce id kind) : e.Registered id kind :=
  ⟨h.fresh, fun t ht => by rw [h.heard]; exact List.count_pos_iff.mpr ht⟩

theorem mem_operands_of_hears {e : PredicateEngine} {id : Nat} {p : Predicate}
    (h : e.lock id = some p) {t : TriggerType} (ht : 0 < e.hears id t) :
    t ∈ p.kind.getPredicateOperands :=
  (e.listed t id (List.count_pos_iff.mp ht)).2 p (lock_eq_some.mp h)

/-- Construct a predicate and add it. -/
def subscribe (e : PredicateEngine) (kind : PredicateKind TriggerType) : PredicateEngine :=
  (e.construct kind).addPredicate e.objects.length

/-- In any engine, a predicate that is constructed and added is registered once. -/
theorem registeredOnce_subscribe (e : PredicateEngine) (kind : PredicateKind TriggerType) :
    (e.subscribe kind).RegisteredOnce e.objects.length kind := by
  have hget : (e.construct kind).objects[e.objects.length]? =
      some (some (Predicate.make kind)) := by
    simp [construct]
  have hnew : ∀ t, e.objects.length ∉ observers e.predicates t := fun t ht =>
    Nat.lt_irrefl _ (e.listed t _ ht).1
  unfold subscribe addPredicate
  split
  · rename_i p h
    rw [hget] at h
    cases h
    refine ⟨lock_eq_some.mpr hget, fun t => ?_⟩
    unfold hears
    dsimp only
    rw [observers_pushOperands, List.count_append, List.count_replicate_self]
    change (observers e.predicates t).count _ + _ = _
    rw [List.count_eq_zero_of_not_mem (hnew t), Nat.zero_add]
    rfl
  · rename_i h
    exact absurd hget (h _)

end PredicateEngine
end ResMonitor
