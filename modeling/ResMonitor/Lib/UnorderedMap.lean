import Mathlib.Data.List.Perm.Basic
import Mathlib.Data.List.Pairwise

/-! # Unordered maps

A hash map as the list of its entries in iteration order. The key type brings
its own equality test, which need not be structural: two keys the test
identifies share one entry. No key occurs twice, and that is a field of the
type. The order is arbitrary: `Reordered` relates two maps that differ in it
only, so a statement about every iteration order quantifies over `Reordered`. -/

structure UnorderedMap (κ ν : Type) [BEq κ] where
  entries : List (κ × ν)
  distinct : (entries.map Prod.fst).Pairwise fun a b => (a == b) = false

namespace UnorderedMap
variable {κ ν ν' σ ε : Type} [BEq κ]

def empty : UnorderedMap κ ν := ⟨[], by simp⟩

def keys (m : UnorderedMap κ ν) : List κ := m.entries.map Prod.fst

def find? (m : UnorderedMap κ ν) (k : κ) : Option ν :=
  (m.entries.find? fun e => e.1 == k).map Prod.snd

def contains (m : UnorderedMap κ ν) (k : κ) : Bool := m.entries.any fun e => e.1 == k

/-- The entries after `m[k] = v`: a present entry keeps its key and its place,
a missing one is added. -/
def assign (es : List (κ × ν)) (k : κ) (v : ν) : List (κ × ν) :=
  if es.any fun e => e.1 == k then es.map fun e => if e.1 == k then (e.1, v) else e
  else es ++ [(k, v)]

theorem assign_keys (es : List (κ × ν)) (k : κ) (v : ν) :
    (assign es k v).map Prod.fst =
      if es.any fun e => e.1 == k then es.map Prod.fst else es.map Prod.fst ++ [k] := by
  unfold assign
  split
  · rw [List.map_map]
    apply List.map_congr_left
    intro e _
    simp only [Function.comp_apply]
    split <;> rfl
  · simp

theorem assign_distinct {es : List (κ × ν)} (k : κ) (v : ν)
    (h : (es.map Prod.fst).Pairwise fun a b => (a == b) = false) :
    ((assign es k v).map Prod.fst).Pairwise fun a b => (a == b) = false := by
  rw [assign_keys]
  split
  · exact h
  · rename_i hk
    rw [List.pairwise_append]
    refine ⟨h, by simp, ?_⟩
    intro a ha b hb
    obtain ⟨e, he, rfl⟩ := List.mem_map.mp ha
    obtain rfl := List.mem_singleton.mp hb
    have := List.any_eq_false.mp (Bool.eq_false_iff.mpr hk) e he
    simpa using this

/-- `m[k] = v`. -/
def insert (m : UnorderedMap κ ν) (k : κ) (v : ν) : UnorderedMap κ ν :=
  ⟨assign m.entries k v, assign_distinct k v m.distinct⟩

@[ext] theorem ext {m m' : UnorderedMap κ ν} (h : m.entries = m'.entries) : m = m' := by
  cases m; cases m'; cases h; rfl

/-- `m.at(k)`, for a key that is there. -/
def get (m : UnorderedMap κ ν) (k : κ) (h : m.contains k = true) : ν :=
  (m.find? k).get (by
    rw [contains, ← List.isSome_find?] at h
    rw [find?, Option.isSome_map]
    exact h)

@[simp] theorem find?_empty (k : κ) : (empty : UnorderedMap κ ν).find? k = none := rfl
@[simp] theorem contains_empty (k : κ) : (empty : UnorderedMap κ ν).contains k = false := rfl

theorem contains_eq_isSome (m : UnorderedMap κ ν) (k : κ) :
    m.contains k = (m.find? k).isSome := by
  rw [find?, Option.isSome_map, contains, List.isSome_find?]

/-! ## Lookup after an assignment -/

section Equivalence
variable [EquivBEq κ]

theorem find?_assign (es : List (κ × ν)) (k k' : κ) (v : ν) :
    ((assign es k v).find? fun e => e.1 == k').map Prod.snd =
      if k == k' then some v else (es.find? fun e => e.1 == k').map Prod.snd := by
  unfold assign
  by_cases hk : es.any (fun e => e.1 == k) = true
  · rw [if_pos hk]
    induction es with
    | nil => simp at hk
    | cons e es ih =>
      simp only [List.map_cons, List.find?_cons]
      by_cases he : (e.1 == k) = true
      · -- the entry that is overwritten answers for `k'` exactly when `k` does
        have hkk : (e.1 == k') = (k == k') := BEq.congr_left he
        simp only [if_pos he, hkk]
        cases hc : k == k' with
        | true => simp
        | false =>
          simp only [Bool.false_eq_true, if_false]
          by_cases hes : es.any (fun e => e.1 == k) = true
          · have := ih hes
            rwa [hc] at this
          · -- no other entry carries `k`, so the rest is unchanged
            have : es.map (fun e => if (e.1 == k) = true then (e.1, v) else e) = es := by
              refine (List.map_congr_left fun a ha => ?_).trans (List.map_id _)
              have := List.any_eq_false.mp (Bool.eq_false_iff.mpr hes) a ha
              simp [this]
            rw [this]
      · have hes : es.any (fun e => e.1 == k) = true := by simpa [he] using hk
        simp only [if_neg he]
        cases hc : e.1 == k' with
        | true =>
          have hne : (k == k') = false := by
            cases hkk : k == k' with
            | false => rfl
            | true => exact absurd (BEq.trans hc (BEq.symm hkk)) he
          simp [hne]
        | false => exact ih hes
  · rw [if_neg hk, List.find?_append]
    cases hf : es.find? (fun e => e.1 == k') with
    | none => cases hc : k == k' <;> simp [hc]
    | some e =>
      have hne : (k == k') = false := by
        cases hkk : k == k' with
        | false => rfl
        | true =>
          refine absurd (List.any_eq_true.mpr ⟨e, List.mem_of_find?_eq_some hf, ?_⟩) hk
          have hc : (e.1 == k') = true := by simpa using List.find?_some hf
          exact BEq.trans hc (BEq.symm hkk)
      simp [hne]

theorem find?_insert (m : UnorderedMap κ ν) (k k' : κ) (v : ν) :
    (m.insert k v).find? k' = if k == k' then some v else m.find? k' :=
  find?_assign m.entries k k' v

theorem contains_insert (m : UnorderedMap κ ν) (k k' : κ) (v : ν) :
    (m.insert k v).contains k' = (k == k' || m.contains k') := by
  rw [contains_eq_isSome, contains_eq_isSome, find?_insert]
  cases k == k' <;> simp

/-- Two assignments under one key: the second wins. -/
theorem insert_insert (m : UnorderedMap κ ν) (k : κ) (v v' : ν) :
    (m.insert k v).insert k v' = m.insert k v' := by
  apply ext
  have hany : (assign m.entries k v).any (fun e => e.1 == k) = true := by
    have := contains_insert m k k v
    simpa [contains, insert] using this
  change assign (assign m.entries k v) k v' = assign m.entries k v'
  rw [assign, if_pos hany]
  unfold assign
  split
  · rw [List.map_map]
    apply List.map_congr_left
    intro e _
    simp only [Function.comp_apply]
    split <;> simp_all
  · rename_i hk
    simp only [List.map_append, List.map_cons, BEq.rfl, if_true, List.map_nil]
    congr 1
    refine (List.map_congr_left fun a ha => ?_).trans (List.map_id _)
    have := List.any_eq_false.mp (Bool.eq_false_iff.mpr hk) a ha
    simp [this]

/-- A key is found exactly under the one key the test identifies it with. -/
theorem find?_eq_some_iff_exists (m : UnorderedMap κ ν) (k : κ) (v : ν) :
    m.find? k = some v ↔ ∃ k', (k' == k) = true ∧ (k', v) ∈ m.entries := by
  obtain ⟨es, hd⟩ := m
  simp only [find?]
  induction es with
  | nil => simp
  | cons e es ih =>
    obtain ⟨hne, hes⟩ := List.pairwise_cons.mp hd
    simp only [List.find?_cons, List.mem_cons]
    cases he : e.1 == k with
    | true =>
      simp only [Option.map_some, Option.some.injEq]
      constructor
      · rintro rfl
        exact ⟨e.1, he, Or.inl rfl⟩
      · rintro ⟨k', hk', rfl | hm⟩
        · rfl
        · have := hne k' (List.mem_map.mpr ⟨_, hm, rfl⟩)
          rw [BEq.trans he (BEq.symm hk')] at this
          cases this
    | false =>
      refine (ih hes).trans (exists_congr fun k' => and_congr_right fun hk' => ?_)
      refine (or_iff_right ?_).symm
      rintro rfl
      rw [hk'] at he
      cases he

end Equivalence

/-! ## Structural keys -/

section Lawful
variable [LawfulBEq κ]

theorem nodup_keys (m : UnorderedMap κ ν) : m.keys.Nodup :=
  m.distinct.imp fun h => by simpa using h

theorem find?_eq_some_iff (m : UnorderedMap κ ν) (k : κ) (v : ν) :
    m.find? k = some v ↔ (k, v) ∈ m.entries := by
  rw [find?_eq_some_iff_exists]
  simp

theorem mem_keys_iff (m : UnorderedMap κ ν) (k : κ) : k ∈ m.keys ↔ m.contains k = true := by
  simp [keys, contains]

theorem mem_keys_insert (m : UnorderedMap κ ν) (k k' : κ) (v : ν) :
    k' ∈ (m.insert k v).keys ↔ k' = k ∨ k' ∈ m.keys := by
  rw [mem_keys_iff, mem_keys_iff, contains_insert, Bool.or_eq_true, beq_iff_eq]
  exact or_congr_left eq_comm

/-- Assigning the value that is there already changes nothing. -/
theorem insert_eq_self (m : UnorderedMap κ ν) (k : κ) (v : ν) (h : m.find? k = some v) :
    m.insert k v = m := by
  apply ext
  change assign m.entries k v = m.entries
  have hm := (find?_eq_some_iff m k v).mp h
  have hany : m.entries.any (fun e => e.1 == k) = true := List.any_eq_true.mpr ⟨_, hm, by simp⟩
  rw [assign, if_pos hany]
  refine (List.map_congr_left fun e he => ?_).trans (List.map_id _)
  split
  · rename_i hek
    have hek : e.1 = k := by simpa using hek
    have := (find?_eq_some_iff m e.1 e.2).mpr he
    rw [hek, h] at this
    exact Prod.ext rfl (Option.some.inj this)
  · rfl

end Lawful

/-! ## Iteration order -/

/-- The same entries in another iteration order. -/
def Reordered (m m' : UnorderedMap κ ν) : Prop := m.entries.Perm m'.entries

theorem Reordered.refl (m : UnorderedMap κ ν) : m.Reordered m := List.Perm.refl _

theorem Reordered.keys {m m' : UnorderedMap κ ν} (h : m.Reordered m') : m.keys.Perm m'.keys :=
  h.map _

theorem Reordered.find? [EquivBEq κ] {m m' : UnorderedMap κ ν} (h : m.Reordered m') (k : κ) :
    m.find? k = m'.find? k := by
  apply Option.ext
  intro v
  rw [find?_eq_some_iff_exists, find?_eq_some_iff_exists]
  exact exists_congr fun k' => and_congr_right fun _ => h.mem_iff

theorem Reordered.trans {m₁ m₂ m₃ : UnorderedMap κ ν} (h : m₁.Reordered m₂)
    (h' : m₂.Reordered m₃) : m₁.Reordered m₃ := List.Perm.trans h h'

/-- A permutation of the images comes from a permutation of the elements. -/
theorem exists_perm_of_map {α β : Type} (f : α → β) {order l' : List β} (h : order.Perm l') :
    ∀ l : List α, l.map f = l' → ∃ es : List α, es.Perm l ∧ es.map f = order := by
  induction h with
  | nil => exact fun l hl => ⟨[], by simp [List.map_eq_nil_iff.mp hl], rfl⟩
  | cons x _ ih =>
    intro l hl
    obtain ⟨a, as, rfl, rfl, has⟩ := List.map_eq_cons_iff.mp hl
    obtain ⟨es, hperm, rfl⟩ := ih as has
    exact ⟨a :: es, hperm.cons a, rfl⟩
  | swap x y _ =>
    intro l hl
    obtain ⟨a, as, rfl, rfl, has⟩ := List.map_eq_cons_iff.mp hl
    obtain ⟨b, bs, rfl, rfl, rfl⟩ := List.map_eq_cons_iff.mp has
    exact ⟨b :: a :: bs, List.Perm.swap a b bs, rfl⟩
  | trans _ _ ih ih' =>
    intro l hl
    obtain ⟨es, hperm, hes⟩ := ih' l hl
    obtain ⟨es', hperm', hes'⟩ := ih es hes
    exact ⟨es', hperm'.trans hperm, hes'⟩

/-- Any order of the keys is an iteration order. -/
theorem exists_reordered [LawfulBEq κ] (m : UnorderedMap κ ν) {order : List κ}
    (h : order.Perm m.keys) : ∃ m' : UnorderedMap κ ν, m'.Reordered m ∧ m'.keys = order := by
  obtain ⟨es, hperm, hes⟩ := exists_perm_of_map Prod.fst h m.entries rfl
  have hdistinct : (es.map Prod.fst).Pairwise fun a b => (a == b) = false := by
    refine List.Pairwise.imp (fun {a b} hab => by simpa using hab) ?_
    rw [hes]
    exact (h.nodup_iff.mpr m.nodup_keys)
  exact ⟨⟨es, hdistinct⟩, hperm, hes⟩

/-! ## Loops over the entries that assign to the values -/

/-- Replace every value; the keys and their order stay. -/
def mapValues (f : κ → ν → ν') (m : UnorderedMap κ ν) : UnorderedMap κ ν' :=
  ⟨m.entries.map fun e => (e.1, f e.1 e.2), by
    rw [List.map_map]; exact m.distinct⟩

@[simp] theorem keys_mapValues (f : κ → ν → ν') (m : UnorderedMap κ ν) :
    (m.mapValues f).keys = m.keys := by simp [keys, mapValues]

theorem find?_mapValues (f : κ → ν → ν') (m : UnorderedMap κ ν) (k : κ) :
    (m.mapValues f).find? k = (m.entries.find? fun e => e.1 == k).map fun e => f e.1 e.2 := by
  simp [find?, mapValues, List.find?_map, Function.comp_def]

/-- One pass over the entries: the body may replace the value, change the
surrounding state and fail. -/
def visitEntries (body : κ → ν → σ → Except ε (ν' × σ)) :
    List (κ × ν) → σ → Except ε (List (κ × ν') × σ)
  | [], s => .ok ([], s)
  | (k, v) :: es, s => do
    let (v', s') ← body k v s
    let (es', s'') ← visitEntries body es s'
    .ok ((k, v') :: es', s'')

omit [BEq κ] in
theorem visitEntries_keys {body : κ → ν → σ → Except ε (ν' × σ)} {es : List (κ × ν)} {s : σ}
    {es' : List (κ × ν')} {s' : σ} (h : visitEntries body es s = .ok (es', s')) :
    es'.map Prod.fst = es.map Prod.fst := by
  induction es generalizing s es' s' with
  | nil => cases h; rfl
  | cons e es ih =>
    obtain ⟨k, v⟩ := e
    simp only [visitEntries] at h
    cases hb : body k v s with
    | error a => rw [hb] at h; cases h
    | ok r =>
      rw [hb] at h
      cases hr : visitEntries body es r.2 with
      | error a => simp [hr, bind, Except.bind] at h
      | ok r' =>
        simp only [hr, bind, Except.bind, Except.ok.injEq, Prod.mk.injEq] at h
        obtain ⟨rfl, rfl⟩ := h
        simp [ih hr]

def visit (body : κ → ν → σ → Except ε (ν' × σ)) (m : UnorderedMap κ ν) (s : σ) :
    Except ε (UnorderedMap κ ν' × σ) :=
  match h : visitEntries body m.entries s with
  | .ok (es, s') => .ok (⟨es, by rw [visitEntries_keys h]; exact m.distinct⟩, s')
  | .error e => .error e

theorem visit_ok_iff {body : κ → ν → σ → Except ε (ν' × σ)} {m : UnorderedMap κ ν} {s : σ}
    {m' : UnorderedMap κ ν'} {s' : σ} :
    visit body m s = .ok (m', s') ↔ visitEntries body m.entries s = .ok (m'.entries, s') := by
  unfold visit
  split
  · rename_i es t h
    simp only [Except.ok.injEq, Prod.mk.injEq, h]
    exact ⟨fun ⟨hm, hs⟩ => ⟨hm ▸ rfl, hs⟩, fun ⟨hm, hs⟩ => ⟨ext hm, hs⟩⟩
  · rename_i e h
    simp [h]

/-- A pass whose body never fails: the values are mapped, and the state is
folded over the entries in iteration order. -/
theorem visit_of_total {body : κ → ν → σ → Except ε (ν' × σ)} {m : UnorderedMap κ ν}
    (f : κ → ν → ν') (g : κ → ν → σ → σ)
    (h : ∀ e ∈ m.entries, ∀ s, body e.1 e.2 s = .ok (f e.1 e.2, g e.1 e.2 s)) (s : σ) :
    visit body m s = .ok (m.mapValues f, m.entries.foldl (fun s e => g e.1 e.2 s) s) := by
  rw [visit_ok_iff]
  change visitEntries body m.entries s = .ok (m.entries.map fun e => (e.1, f e.1 e.2), _)
  revert h
  induction m.entries generalizing s with
  | nil => intro _; rfl
  | cons e es ih =>
    intro h
    obtain ⟨k, v⟩ := e
    have hb : body k v s = .ok (f k v, g k v s) := h (k, v) (by simp) s
    have hr := ih (g k v s) fun e he => h e (List.mem_cons_of_mem _ he)
    simp only [visitEntries, hb, hr, bind, Except.bind, List.map_cons, List.foldl_cons]

omit [BEq κ] in
/-- A pass that does not fail ran its body on every entry. -/
theorem body_ok_of_visitEntries {body : κ → ν → σ → Except ε (ν' × σ)} {es : List (κ × ν)} {s : σ}
    {r : List (κ × ν') × σ} (h : visitEntries body es s = .ok r) :
    ∀ e ∈ es, ∃ s₁ r₁, body e.1 e.2 s₁ = .ok r₁ := by
  induction es generalizing s r with
  | nil => exact fun e he => absurd he List.not_mem_nil
  | cons e es ih =>
    obtain ⟨k, v⟩ := e
    simp only [visitEntries] at h
    cases hb : body k v s with
    | error a => rw [hb] at h; cases h
    | ok r₁ =>
      rw [hb] at h
      cases hr : visitEntries body es r₁.2 with
      | error a => simp [hr, bind, Except.bind] at h
      | ok r₂ =>
        intro e he
        rcases List.mem_cons.mp he with rfl | he
        · exact ⟨s, r₁, hb⟩
        · exact ih hr e he

end UnorderedMap
