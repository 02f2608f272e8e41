import ResMonitor.Lib.StdString
import ResMonitor.Rearming

/-! # Subscriptions from the web form

The handler of `/trigger_choose` writes the fields of the request into one
string, splits it again and takes the values by their position. The fields come
out of an unordered multimap, so any of them can be first, and the first one
becomes the and-operand. -/

namespace ResMonitor
open StdString

/-- A field of a query string: its name and its value. -/
abbrev Field := List Char × List Char

/-- What the handlers share: the engine, and the pointers that keep the
predicates of earlier requests alive. -/
structure Server where
  predEngine : PredicateEngine
  predicates : List Nat

/-- `stream << field.first << ": " << field.second << ":"`, for each field. -/
def streamOf (queryFields : List Field) : List Char :=
  queryFields.flatMap fun field => field.1 ++ ':' :: ' ' :: field.2 ++ [':']

def seglist (queryFields : List Field) : List (List Char) :=
  getlines ':' [] (streamOf queryFields)

/-- `triggerTypes.at(std::stoi(seglist.at(i)))` -/
def triggerAt (triggerTypes : List TriggerType) (segments : List (List Char)) (i : Nat) :
    Except StdString.Exception TriggerType := do
  vectorAt triggerTypes (← stoi (← vectorAt segments i))

/-- The handler of `/trigger_choose`, given the fields in iteration order: the
server afterwards and the response. -/
def triggerChoose (triggerTypes : List TriggerType) (queryFields : List Field) (server : Server) :
    Except StdString.Exception (Server × String) := do
  let trigger := triggerAt triggerTypes (seglist queryFields)
  let pred ← match queryFields.length with
    | 3 => do .ok (some (.predicate1or2and3 (← trigger 5) (← trigger 3) (← trigger 1)))
    | 2 => do .ok (some (.predicate1and2 (← trigger 3) (← trigger 1)))
    | 1 => do .ok (some (.predicate1element (← trigger 1)))
    | _ => .ok none
  match pred with
  | some kind => .ok ({
      predEngine := server.predEngine.subscribe kind
      predicates := server.predicates ++ [server.predEngine.objects.length] },
    "Your subscription has been saved!")
  | none => .ok (server, "Wrong data!")

/-! ## From fields to triggers -/

/-- The field indexes `t`: its value is a decimal number within range. -/
structure Indexes (triggerTypes : List TriggerType) (field : Field) (t : TriggerType) : Prop where
  name : ':' ∉ field.1
  value : ∃ n, Decimal field.2 n ∧ triggerTypes[n]? = some t

/-- The number in the field fits in an `int`. -/
def FitsInt (field : Field) : Prop := (Nat.ofDigitChars 10 field.2 0 : Int) ≤ intMax

/-- What one argument of a constructor is read from. -/
def readField (triggerTypes : List TriggerType) (field : Field) :
    Except StdString.Exception TriggerType := do
  vectorAt triggerTypes (← stoi (' ' :: field.2))

variable {triggerTypes : List TriggerType}

theorem readField_of_fits {field : Field} {t : TriggerType} (h : Indexes triggerTypes field t)
    (hfits : FitsInt field) : readField triggerTypes field = .ok t := by
  obtain ⟨n, hdec, hget⟩ := h.value
  unfold FitsInt at hfits
  unfold readField
  rw [hdec.value] at hfits
  rw [stoi_decimal hdec, if_pos hfits]
  exact vectorAt_natCast hget

theorem readField_of_not_fits {field : Field} {t : TriggerType} (h : Indexes triggerTypes field t)
    (hfits : ¬ FitsInt field) : ∃ e, readField triggerTypes field = .error e := by
  obtain ⟨n, hdec, _⟩ := h.value
  unfold FitsInt at hfits
  unfold readField
  rw [hdec.value] at hfits
  rw [stoi_decimal hdec, if_neg hfits]
  exact ⟨.outOfRange, rfl⟩

/-- Names and values alternate in the segments, each value after a blank, as
long as no colon stands in any of them. -/
theorem seglist_of_no_colon {queryFields : List Field}
    (h : ∀ field ∈ queryFields, ':' ∉ field.1 ∧ ':' ∉ field.2) :
    seglist queryFields = queryFields.flatMap fun field => [field.1, ' ' :: field.2] := by
  unfold seglist streamOf
  induction queryFields with
  | nil => rfl
  | cons field fields ih =>
    obtain ⟨⟨hname, hvalue⟩, hrest⟩ := List.forall_mem_cons.mp h
    have hvalue : ':' ∉ ' ' :: field.2 := by
      rw [List.mem_cons, not_or]
      exact ⟨by decide, hvalue⟩
    have hsplit :
        (field :: fields).flatMap (fun field => field.1 ++ ':' :: ' ' :: field.2 ++ [':']) =
        field.1 ++ ':' :: ((' ' :: field.2) ++ ':' ::
          fields.flatMap fun field => field.1 ++ ':' :: ' ' :: field.2 ++ [':']) := by
      simp
    rw [hsplit, getlines_append _ hname, getlines_append _ hvalue, ih hrest]
    rfl

/-- What stands at the two positions of a field. -/
theorem seglist_getElem? {queryFields : List Field}
    (h : ∀ field ∈ queryFields, ':' ∉ field.1 ∧ ':' ∉ field.2) {field : Field} {i : Nat}
    (hi : queryFields[i]? = some field) :
    (seglist queryFields)[2 * i]? = some field.1 ∧
    (seglist queryFields)[2 * i + 1]? = some (' ' :: field.2) := by
  rw [seglist_of_no_colon h]
  clear h
  induction queryFields generalizing i with
  | nil => simp at hi
  | cons first rest ih =>
    cases i with
    | zero =>
      obtain rfl := Option.some.inj hi
      exact ⟨rfl, rfl⟩
    | succ i => exact ih hi

/-! ## What is registered -/

/-- The two predicates are the same formula. -/
def PredicateKind.Means {κ : Type} (k k' : PredicateKind κ) : Prop :=
  ∀ P : κ → Prop, k.Formula P ↔ k'.Formula P

/-- The request registers one new predicate, and it means `kind`. -/
def Subscribes (triggerTypes : List TriggerType) (queryFields : List Field) (server : Server)
    (kind : PredicateKind TriggerType) : Prop :=
  ∃ server' response, triggerChoose triggerTypes queryFields server = .ok (server', response) ∧
    ∃ registered, server'.predEngine.RegisteredOnce server.predEngine.objects.length registered ∧
      registered.Means kind

/-- The predicate the handler builds, by the position of the fields. -/
def builtFrom (triggerTypes : List TriggerType) :
    List Field → Except StdString.Exception (PredicateKind TriggerType)
  | [first, second, third] => do
    .ok (.predicate1or2and3 (← readField triggerTypes third) (← readField triggerTypes second)
      (← readField triggerTypes first))
  | [first, second] => do
    .ok (.predicate1and2 (← readField triggerTypes second) (← readField triggerTypes first))
  | [first] => do .ok (.predicate1element (← readField triggerTypes first))
  | _ => .error .outOfRange

/-- What stands at an odd position of the segments is a value. -/
theorem triggerAt_seglist {queryFields : List Field} {field : Field} {k : Nat}
    (h : ∀ field ∈ queryFields, ∃ t, Indexes triggerTypes field t)
    (hk : queryFields[k]? = some field) :
    triggerAt triggerTypes (seglist queryFields) (2 * k + 1) = readField triggerTypes field := by
  have hcolon : ∀ field ∈ queryFields, ':' ∉ field.1 ∧ ':' ∉ field.2 := by
    intro field hfield
    obtain ⟨t, hindex⟩ := h field hfield
    obtain ⟨n, hdec, _⟩ := hindex.value
    exact ⟨hindex.name, not_isDigit hdec (by decide)⟩
  unfold triggerAt readField
  rw [vectorAt_natCast (seglist_getElem? hcolon hk).2]
  rfl

/-- One to three fields that index triggers are read by position. -/
theorem triggerChoose_eq {queryFields : List Field} (server : Server)
    (h : ∀ field ∈ queryFields, ∃ t, Indexes triggerTypes field t)
    (hlen : queryFields.length ∈ [1, 2, 3]) :
    triggerChoose triggerTypes queryFields server =
      (builtFrom triggerTypes queryFields).map fun kind => ({
          predEngine := server.predEngine.subscribe kind
          predicates := server.predicates ++ [server.predEngine.objects.length] },
        "Your subscription has been saved!") := by
  unfold triggerChoose
  match queryFields, hlen with
  | [first], _ =>
    have h₁ : triggerAt triggerTypes (seglist [first]) 1 = readField triggerTypes first :=
      triggerAt_seglist h (k := 0) rfl
    simp only [List.length_cons, List.length_nil, h₁, builtFrom]
    cases readField triggerTypes first <;> rfl
  | [first, second], _ =>
    have h₁ : triggerAt triggerTypes (seglist [first, second]) 1 = readField triggerTypes first :=
      triggerAt_seglist h (k := 0) rfl
    have h₃ : triggerAt triggerTypes (seglist [first, second]) 3 = readField triggerTypes second :=
      triggerAt_seglist h (k := 1) rfl
    simp only [List.length_cons, List.length_nil, h₁, h₃, builtFrom]
    cases readField triggerTypes second <;> cases readField triggerTypes first <;> rfl
  | [first, second, third], _ =>
    have h₁ : triggerAt triggerTypes (seglist [first, second, third]) 1 =
        readField triggerTypes first := triggerAt_seglist h (k := 0) rfl
    have h₃ : triggerAt triggerTypes (seglist [first, second, third]) 3 =
        readField triggerTypes second := triggerAt_seglist h (k := 1) rfl
    have h₅ : triggerAt triggerTypes (seglist [first, second, third]) 5 =
        readField triggerTypes third := triggerAt_seglist h (k := 2) rfl
    simp only [List.length_cons, List.length_nil, h₁, h₃, h₅, builtFrom]
    cases readField triggerTypes third <;> cases readField triggerTypes second <;>
      cases readField triggerTypes first <;> rfl

theorem subscribes_iff_of_ok {queryFields : List Field} {server : Server}
    {kind built : PredicateKind TriggerType}
    (h : ∀ field ∈ queryFields, ∃ t, Indexes triggerTypes field t)
    (hlen : queryFields.length ∈ [1, 2, 3])
    (hbuilt : builtFrom triggerTypes queryFields = .ok built) :
    Subscribes triggerTypes queryFields server kind ↔ built.Means kind := by
  have hrun := triggerChoose_eq server h hlen
  rw [hbuilt] at hrun
  have honce := PredicateEngine.registeredOnce_subscribe server.predEngine built
  constructor
  · intro ⟨server', response, hok, registered, hreg, hmeans⟩
    rw [hrun] at hok
    cases hok
    have hfresh := hreg.fresh.symm.trans honce.fresh
    have hkind : registered = built := congrArg Predicate.kind (Option.some.inj hfresh)
    rwa [hkind] at hmeans
  · intro hmeans
    exact ⟨_, _, hrun, built, honce, hmeans⟩

theorem not_subscribes_of_error {queryFields : List Field} {server : Server}
    {kind : PredicateKind TriggerType} {e : StdString.Exception}
    (h : ∀ field ∈ queryFields, ∃ t, Indexes triggerTypes field t)
    (hlen : queryFields.length ∈ [1, 2, 3])
    (hbuilt : builtFrom triggerTypes queryFields = .error e) :
    ¬ Subscribes triggerTypes queryFields server kind := by
  intro ⟨server', response, hok, _⟩
  have hrun := triggerChoose_eq server h hlen
  rw [hbuilt] at hrun
  rw [hrun] at hok
  cases hok

/-! ## Fields in any order -/

/-- With the triggers `x`, `y`, `z` in some order, the one that comes first is
the and-operand. -/
theorem means_1or2and3_iff {κ : Type} {first second third x y z : κ}
    (h : [first, second, third].Perm [x, y, z]) :
    (PredicateKind.predicate1or2and3 third second first).Means (.predicate1or2and3 x y z) ↔
      first = z := by
  constructor
  · intro hmeans
    by_contra hne
    have hmem : first = x ∨ first = y := by
      have := h.subset List.mem_cons_self
      simpa [hne] using this
    by_cases hxy : x = y
    · -- the or-operands are the same: where it alone holds, the and-operand does not
      subst hxy
      obtain rfl : first = x := by tauto
      have hrest : first = second ∨ first = third := by
        have hperm := (List.perm_cons first).mp h
        have := hperm.symm.subset List.mem_cons_self
        simpa using this
      have hbuilt := (hmeans fun t => t = first).mp
        ⟨hrest.elim (fun h => Or.inr h.symm) (fun h => Or.inl h.symm), rfl⟩
      exact hne hbuilt.2.symm
    · -- where it alone does not hold, the other or-operand and the and-operand do
      have hbuilt := (hmeans fun t => t ≠ first).mpr ⟨?_, Ne.symm hne⟩
      · exact hbuilt.2 rfl
      · rcases hmem with rfl | rfl
        · exact Or.inr (Ne.symm hxy)
        · exact Or.inl hxy
  · intro hz P
    subst hz
    have hperm : [first, x, y].Perm [x, y, first] := 
      @List.perm_append_comm _ [first] [x, y]
    have hrest : [second, third].Perm [x, y] :=
      (List.perm_cons first).mp (h.trans hperm.symm)
    have hor : (P third ∨ P second) ↔ (P x ∨ P y) := by
      have hall : (∃ t ∈ [second, third], P t) ↔ ∃ t ∈ [x, y], P t :=
        exists_congr fun t => and_congr_left fun _ => hrest.mem_iff
      simpa [or_comm] using hall
    exact and_congr_left fun _ => hor

theorem means_1and2 {κ : Type} {first second x y : κ} (h : [first, second].Perm [x, y]) :
    (PredicateKind.predicate1and2 second first).Means (.predicate1and2 x y) := by
  intro P
  have hall : (∀ t ∈ [first, second], P t) ↔ ∀ t ∈ [x, y], P t :=
    forall_congr' fun t => imp_congr_left h.mem_iff
  simpa [PredicateKind.Formula, and_comm] using hall

/-- The trigger a field indexes. -/
def triggerOf (triggerTypes : List TriggerType) (field : Field) : Option TriggerType :=
  triggerTypes[Nat.ofDigitChars 10 field.2 0]?

theorem triggerOf_eq {field : Field} {t : TriggerType} (h : Indexes triggerTypes field t) :
    triggerOf triggerTypes field = some t := by
  obtain ⟨n, hdec, hget⟩ := h.value
  rw [triggerOf, hdec.value, hget]

theorem perm_triggers (triggerTypes : List TriggerType) {fields fields' : List Field}
    {ts ts' : List TriggerType}
    (h : fields.Perm fields') (hts : fields.map (triggerOf triggerTypes) = ts.map some)
    (hts' : fields'.map (triggerOf triggerTypes) = ts'.map some) : ts.Perm ts' := by
  have hmap := h.map (triggerOf triggerTypes)
  rw [hts, hts'] at hmap
  exact (List.map_perm_map_iff (Option.some_injective _)).mp hmap

theorem fits_of_readField {field : Field} {t : TriggerType}
    (h : ∃ t, Indexes triggerTypes field t) (hok : readField triggerTypes field = .ok t) :
    FitsInt field := by
  by_contra hnot
  obtain ⟨t, hindex⟩ := h
  obtain ⟨e, herr⟩ := readField_of_not_fits hindex hnot
  cases hok.symm.trans herr

/-- A predicate is built only from fields that are all read. -/
theorem readField_of_builtFrom {fields : List Field} {kind : PredicateKind TriggerType}
    (hbuilt : builtFrom triggerTypes fields = .ok kind) :
    ∀ field ∈ fields, ∃ t, readField triggerTypes field = .ok t := by
  match fields with
  | [] => cases hbuilt
  | [first] =>
    obtain ⟨a, ha, _⟩ := bind_ok hbuilt
    simpa using ⟨a, ha⟩
  | [first, second] =>
    obtain ⟨b, hb, hbuilt⟩ := bind_ok hbuilt
    obtain ⟨a, ha, _⟩ := bind_ok hbuilt
    simpa using ⟨⟨a, ha⟩, b, hb⟩
  | [first, second, third] =>
    obtain ⟨c, hc, hbuilt⟩ := bind_ok hbuilt
    obtain ⟨b, hb, hbuilt⟩ := bind_ok hbuilt
    obtain ⟨a, ha, _⟩ := bind_ok hbuilt
    simpa using ⟨⟨a, ha⟩, ⟨b, hb⟩, c, hc⟩
  | _ :: _ :: _ :: _ :: _ => cases hbuilt

/-- A request is honoured if its numbers fit and the predicate built from their
triggers, by position, means what is asked for. -/
theorem subscribes_iff {fields : List Field} {server : Server}
    {kind : PredicateKind TriggerType} (built : PredicateKind TriggerType)
    (h : ∀ field ∈ fields, ∃ t, Indexes triggerTypes field t) (hlen : fields.length ∈ [1, 2, 3])
    (hbuilt : (∀ field ∈ fields, FitsInt field) → builtFrom triggerTypes fields = .ok built) :
    Subscribes triggerTypes fields server kind ↔
      (∀ field ∈ fields, FitsInt field) ∧ built.Means kind := by
  by_cases hfits : ∀ field ∈ fields, FitsInt field
  · rw [subscribes_iff_of_ok h hlen (hbuilt hfits)]
    exact (and_iff_right hfits).symm
  · refine iff_of_false ?_ fun h => hfits h.1
    cases hb : builtFrom triggerTypes fields with
    | error e => exact not_subscribes_of_error h hlen hb
    | ok kind' =>
      refine absurd (fun field hfield => ?_) hfits
      obtain ⟨t, ht⟩ := readField_of_builtFrom hb field hfield
      exact fits_of_readField (h field hfield) ht

/-! ## The forms -/

/-- The field `trigger0`, `trigger1` or `trigger2` of a form. -/
def formField (index : Char) (value : List Char) : Field := ("trigger".toList ++ [index], value)

/-- The value is the decimal number of a configured trigger. -/
def Selects (triggerTypes : List TriggerType) (value : List Char) (t : TriggerType) : Prop :=
  ∃ n, Decimal value n ∧ triggerTypes[n]? = some t

theorem indexes_formField {index : Char} {value : List Char} {t : TriggerType}
    (hindex : index ∈ ['0', '1', '2']) (h : Selects triggerTypes value t) :
    Indexes triggerTypes (formField index value) t := by
  refine ⟨?_, h⟩
  change ':' ∉ "trigger".toList ++ [index]
  rw [List.mem_append, not_or]
  refine ⟨by decide, fun hmem => ?_⟩
  rw [← List.mem_singleton.mp hmem] at hindex
  exact absurd hindex (by decide)

theorem triggerOf_formField (index : Char) {value : List Char} {t : TriggerType}
    (h : Selects triggerTypes value t) :
    triggerOf triggerTypes (formField index value) = some t := by
  obtain ⟨n, hdec, hget⟩ := h
  change triggerTypes[Nat.ofDigitChars 10 value 0]? = some t
  rw [hdec.value, hget]

theorem selects_unique {value : List Char} {t t' : TriggerType} (h : Selects triggerTypes value t)
    (h' : Selects triggerTypes value t') : t = t' := by
  obtain ⟨n, hdec, hget⟩ := h
  obtain ⟨n', hdec', hget'⟩ := h'
  rw [← hdec.value, hdec'.value, hget'] at hget
  exact (Option.some.inj hget).symm

theorem indexes_of_perm {fields fields' : List Field} (hperm : fields.Perm fields')
    (h : ∀ field ∈ fields', ∃ t, Indexes triggerTypes field t) :
    ∀ field ∈ fields, ∃ t, Indexes triggerTypes field t :=
  fun field hfield => h field (hperm.subset hfield)

theorem subscribes_1or2and3_iff {v₀ v₁ v₂ : List Char} {x y z : TriggerType}
    (h₀ : Selects triggerTypes v₀ x) (h₁ : Selects triggerTypes v₁ y)
    (h₂ : Selects triggerTypes v₂ z) {fields : List Field}
    (hperm : fields.Perm [formField '0' v₀, formField '1' v₁, formField '2' v₂])
    (server : Server) :
    Subscribes triggerTypes fields server (.predicate1or2and3 x y z) ↔
      (∀ field ∈ fields, FitsInt field) ∧
        ∃ field, fields.head? = some field ∧ Selects triggerTypes field.2 z := by
  have hall : ∀ field ∈ [formField '0' v₀, formField '1' v₁, formField '2' v₂],
      ∃ t, Indexes triggerTypes field t := by
    simp only [List.forall_mem_cons]
    exact ⟨⟨x, indexes_formField (by decide) h₀⟩, ⟨y, indexes_formField (by decide) h₁⟩,
      ⟨z, indexes_formField (by decide) h₂⟩, fun _ h => absurd h List.not_mem_nil⟩
  have hind := indexes_of_perm hperm hall
  match fields, hperm.length_eq with
  | [first, second, third], _ =>
    obtain ⟨⟨a, ha⟩, ⟨b, hb⟩, ⟨c, hc⟩, _⟩ : (∃ t, Indexes triggerTypes first t) ∧
        (∃ t, Indexes triggerTypes second t) ∧ (∃ t, Indexes triggerTypes third t) ∧ True := by
      simpa using hind
    have hts : [a, b, c].Perm [x, y, z] := by
      refine perm_triggers triggerTypes hperm ?_ ?_
      · simp [triggerOf_eq ha, triggerOf_eq hb, triggerOf_eq hc]
      · simp [triggerOf_formField _ h₀, triggerOf_formField _ h₁, triggerOf_formField _ h₂]
    rw [subscribes_iff (.predicate1or2and3 c b a) hind (by simp) fun hfits => ?_,
      means_1or2and3_iff hts]
    · refine and_congr_right fun _ => ⟨?_, ?_⟩
      · rintro rfl
        exact ⟨first, rfl, ha.value⟩
      · intro ⟨field, hhead, hsel⟩
        obtain rfl := Option.some.inj hhead
        exact selects_unique ha.value hsel
    · simp only [builtFrom, readField_of_fits ha (hfits _ (by simp)),
        readField_of_fits hb (hfits _ (by simp)), readField_of_fits hc (hfits _ (by simp)), bind,
        Except.bind]

theorem subscribes_1and2_iff {v₀ v₁ : List Char} {x y : TriggerType}
    (h₀ : Selects triggerTypes v₀ x) (h₁ : Selects triggerTypes v₁ y) {fields : List Field}
    (hperm : fields.Perm [formField '0' v₀, formField '1' v₁]) (server : Server) :
    Subscribes triggerTypes fields server (.predicate1and2 x y) ↔
      ∀ field ∈ fields, FitsInt field := by
  have hall : ∀ field ∈ [formField '0' v₀, formField '1' v₁],
      ∃ t, Indexes triggerTypes field t := by
    simp only [List.forall_mem_cons]
    exact ⟨⟨x, indexes_formField (by decide) h₀⟩, ⟨y, indexes_formField (by decide) h₁⟩,
      fun _ h => absurd h List.not_mem_nil⟩
  have hind := indexes_of_perm hperm hall
  match fields, hperm.length_eq with
  | [first, second], _ =>
    obtain ⟨⟨a, ha⟩, ⟨b, hb⟩, _⟩ : (∃ t, Indexes triggerTypes first t) ∧
        (∃ t, Indexes triggerTypes second t) ∧ True := by
      simpa using hind
    have hts : [a, b].Perm [x, y] := by
      refine perm_triggers triggerTypes hperm ?_ ?_
      · simp [triggerOf_eq ha, triggerOf_eq hb]
      · simp [triggerOf_formField _ h₀, triggerOf_formField _ h₁]
    rw [subscribes_iff (.predicate1and2 b a) hind (by simp) fun hfits => ?_]
    · exact and_iff_left (means_1and2 hts)
    · simp only [builtFrom, readField_of_fits ha (hfits _ (by simp)),
        readField_of_fits hb (hfits _ (by simp)), bind, Except.bind]

theorem subscribes_1element_iff {v₀ : List Char} {x : TriggerType}
    (h₀ : Selects triggerTypes v₀ x) (server : Server) :
    Subscribes triggerTypes [formField '0' v₀] server (.predicate1element x) ↔
      FitsInt (formField '0' v₀) := by
  have hx : Indexes triggerTypes (formField '0' v₀) x := indexes_formField (by decide) h₀
  have hind : ∀ field ∈ [formField '0' v₀], ∃ t, Indexes triggerTypes field t := by
    intro field hfield
    rw [List.mem_singleton.mp hfield]
    exact ⟨x, hx⟩
  rw [subscribes_iff (.predicate1element x) hind (by simp) fun hfits => ?_]
  · rw [List.forall_mem_singleton]
    exact and_iff_left fun P => Iff.rfl
  · simp only [builtFrom, readField_of_fits hx (hfits _ List.mem_cons_self), bind, Except.bind]

/-- **Where a subscription means what the form says.** The three-trigger form:
exactly if the field that is iterated first has the trigger of the AND. The
other two forms: in any order. All three ask for numbers that fit in an `int`. -/
theorem subscription_means_iff (triggerTypes : List TriggerType) (server : Server) :
    (∀ v₀ v₁ v₂ x y z, Selects triggerTypes v₀ x → Selects triggerTypes v₁ y →
      Selects triggerTypes v₂ z → ∀ fields : List Field,
      fields.Perm [formField '0' v₀, formField '1' v₁, formField '2' v₂] →
      (Subscribes triggerTypes fields server (.predicate1or2and3 x y z) ↔
        (∀ field ∈ fields, FitsInt field) ∧
          ∃ field, fields.head? = some field ∧ Selects triggerTypes field.2 z)) ∧
    (∀ v₀ v₁ x y, Selects triggerTypes v₀ x → Selects triggerTypes v₁ y →
      ∀ fields : List Field, fields.Perm [formField '0' v₀, formField '1' v₁] →
      (Subscribes triggerTypes fields server (.predicate1and2 x y) ↔
        ∀ field ∈ fields, FitsInt field)) ∧
    (∀ v₀ x, Selects triggerTypes v₀ x →
      (Subscribes triggerTypes [formField '0' v₀] server (.predicate1element x) ↔
        FitsInt (formField '0' v₀))) :=
  ⟨fun _ _ _ _ _ _ h₀ h₁ h₂ _ hperm => subscribes_1or2and3_iff h₀ h₁ h₂ hperm server,
    fun _ _ _ _ h₀ h₁ _ hperm => subscribes_1and2_iff h₀ h₁ hperm server,
    fun _ _ h₀ => subscribes_1element_iff h₀ server⟩

/-- `trigger0=0`, `trigger1=1`, `trigger2=2` -/
def threeFields : List Field := [formField '0' ['0'], formField '1' ['1'], formField '2' ['2']]

/-- Iterated from the last field on, as in a table that puts new entries in front. -/
theorem subscription_means_iff_reversed :
    Subscribes [cpuOver80, cpuOver70, cpuOver60] threeFields.reverse ⟨.empty, []⟩ threeLevels := by
  have hsel : Selects [cpuOver80, cpuOver70, cpuOver60] ['2'] cpuOver60 := ⟨2, by decide, rfl⟩
  exact ((subscription_means_iff _ _).1 ['0'] ['1'] ['2'] cpuOver80 cpuOver70 cpuOver60
    ⟨0, by decide, rfl⟩ ⟨1, by decide, rfl⟩ hsel _ (List.reverse_perm threeFields)).mpr
    ⟨by unfold FitsInt; decide, _, rfl, hsel⟩

/-- Iterated from the first field on: instead of `(t0 OR t1) AND t2` the
predicate `(t2 OR t1) AND t0` is registered. -/
theorem roles_mixed_up :
    (triggerChoose [cpuOver80, cpuOver70, cpuOver60] threeFields ⟨.empty, []⟩).toOption.bind
      (fun r => (r.1.predEngine.lock 0).map Predicate.kind) =
        some (.predicate1or2and3 cpuOver60 cpuOver70 cpuOver80) ∧
    ¬ Subscribes [cpuOver80, cpuOver70, cpuOver60] threeFields ⟨.empty, []⟩ threeLevels := by
  have hkind :
      (triggerChoose [cpuOver80, cpuOver70, cpuOver60] threeFields ⟨.empty, []⟩).toOption.bind
      (fun r => (r.1.predEngine.lock 0).map Predicate.kind) =
        some (.predicate1or2and3 cpuOver60 cpuOver70 cpuOver80) := by decide +kernel
  refine ⟨hkind, ?_⟩
  intro ⟨server', response, hok, registered, hreg, hmeans⟩
  rw [hok] at hkind
  have hfresh : server'.predEngine.lock 0 = some (Predicate.make registered) := hreg.fresh
  simp only [Except.toOption, Option.bind_some, hfresh, Option.map_some, Option.some.injEq] at hkind
  have hreg : registered = .predicate1or2and3 cpuOver60 cpuOver70 cpuOver80 := hkind
  rw [hreg] at hmeans
  -- where only the first two triggers hold, the registered predicate holds
  have := (hmeans fun t => t ≠ cpuOver60).mp ⟨Or.inr (by decide), by decide⟩
  exact this.2 rfl

end ResMonitor
