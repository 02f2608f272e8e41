import ResMonitor.TriggerChoose

/-! # The name and the address of the user

The handler of `/set_email` flattens its two fields as the other handlers do
and takes what stands at two positions. The names of the fields are written
into the string and never looked at, and a colon in a value moves everything
behind it. -/

namespace ResMonitor
open StdString

/-- What the handlers share about the user. -/
structure User where
  userName : List Char
  userEmail : List Char
  deriving DecidableEq

/-- The handler of `/set_email`, given the fields in iteration order: the user
afterwards and the response. `html` is the main page. -/
def setEmail (html : String) (queryFields : List Field) (user : User) :
    Except StdString.Exception (User × String) :=
  if queryFields.length ≠ 2 then .ok (user, "Wrong name or email!")
  else do
    let userName ← vectorAt (seglist queryFields) 1
    let userEmail ← vectorAt (seglist queryFields) 3
    .ok (⟨userName, userEmail⟩, html)

/-- Two fields leave at least four segments. -/
theorem setEmail_of_two (html : String) (first second : Field) (user : User) :
    ∃ userName userEmail, (seglist [first, second])[1]? = some userName ∧
      (seglist [first, second])[3]? = some userEmail ∧
      setEmail html [first, second] user = .ok (⟨userName, userEmail⟩, html) := by
  have hlen : 4 ≤ (seglist [first, second]).length := by
    refine le_trans ?_ (count_le_length_getlines ':' (streamOf [first, second]) [])
    simp [streamOf, List.count_append]
    omega
  have h₁ := List.getElem?_eq_getElem (by omega : 1 < (seglist [first, second]).length)
  have h₃ := List.getElem?_eq_getElem (by omega : 3 < (seglist [first, second]).length)
  have hname : vectorAt (seglist [first, second]) 1 = .ok _ := vectorAt_natCast h₁
  have hemail : vectorAt (seglist [first, second]) 3 = .ok _ := vectorAt_natCast h₃
  refine ⟨_, _, h₁, h₃, ?_⟩
  unfold setEmail
  rw [if_neg (by simp), hname, hemail]
  rfl

/-- The request sets the name and the address to these two strings. -/
def SetsUser (queryFields : List Field) (userName userEmail : List Char) : Prop :=
  ∀ html user, setEmail html queryFields user = .ok (⟨userName, userEmail⟩, html)

theorem setsUser_iff (first second : Field) (userName userEmail : List Char) :
    SetsUser [first, second] userName userEmail ↔
      (seglist [first, second])[1]? = some userName ∧
      (seglist [first, second])[3]? = some userEmail := by
  constructor
  · intro h
    obtain ⟨v, w, hv, hw, hset⟩ := setEmail_of_two "" first second ⟨[], []⟩
    rw [h "" ⟨[], []⟩] at hset
    cases hset
    exact ⟨hv, hw⟩
  · intro ⟨hv, hw⟩ html user
    obtain ⟨v', w', hv', hw', hset⟩ := setEmail_of_two html first second user
    rw [hv] at hv'
    rw [hw] at hw'
    cases hv'
    cases hw'
    exact hset

theorem not_colon_of_segment {queryFields : List Field} {i : Nat} {segment : List Char}
    (h : (seglist queryFields)[i]? = some segment) : ':' ∉ segment :=
  not_mem_of_mem_getlines (List.mem_of_getElem? h) List.not_mem_nil

/-- Segments and fields correspond exactly when no value holds a colon. -/
theorem seglist_getElem?_iff {queryFields : List Field}
    (h : ∀ field ∈ queryFields, ':' ∉ field.1) :
    (∀ (i : Nat) (field : Field), queryFields[i]? = some field →
      (seglist queryFields)[2 * i]? = some field.1 ∧
      (seglist queryFields)[2 * i + 1]? = some (' ' :: field.2)) ↔
      ∀ field ∈ queryFields, ':' ∉ field.2 := by
  constructor
  · intro hall field hfield hcolon
    obtain ⟨i, hi⟩ := List.getElem?_of_mem hfield
    exact not_colon_of_segment (hall i field hi).2 (List.mem_cons_of_mem _ hcolon)
  · exact fun hall i field hi => seglist_getElem? (fun f hf => ⟨h f hf, hall f hf⟩) hi

def nameField (v : List Char) : Field := ("name".toList, v)

def emailField (w : List Char) : Field := ("email".toList, w)

theorem seglist_two {first second : Field} (hfirst : ':' ∉ first.1 ∧ ':' ∉ first.2)
    (hsecond : ':' ∉ second.1 ∧ ':' ∉ second.2) :
    seglist [first, second] = [first.1, ' ' :: first.2, second.1, ' ' :: second.2] :=
  seglist_of_no_colon fun field hfield => by
    rcases List.mem_pair.mp hfield with rfl | rfl
    · exact hfirst
    · exact hsecond

theorem setsUser_of_no_colon {first second : Field} (hfirst : ':' ∉ first.1 ∧ ':' ∉ first.2)
    (hsecond : ':' ∉ second.1 ∧ ':' ∉ second.2) (userName userEmail : List Char) :
    SetsUser [first, second] userName userEmail ↔
      ' ' :: first.2 = userName ∧ ' ' :: second.2 = userEmail := by
  rw [setsUser_iff, seglist_two hfirst hsecond]
  simp

theorem not_colon_of_setsUser {first second : Field} {userName userEmail : List Char}
    (h : SetsUser [first, second] userName userEmail) : ':' ∉ userName ∧ ':' ∉ userEmail := by
  obtain ⟨hname, hemail⟩ := (setsUser_iff first second userName userEmail).mp h
  exact ⟨not_colon_of_segment hname, not_colon_of_segment hemail⟩

theorem not_colon_name : ':' ∉ "name".toList := by decide

theorem not_colon_email : ':' ∉ "email".toList := by decide

/-- Two fields in one of two orders. -/
theorem perm_two {fields : List Field} {a b : Field} (h : fields.Perm [a, b]) :
    fields = [a, b] ∨ fields = [b, a] := by
  match fields, h.length_eq with
  | [c, d], _ =>
    rcases List.mem_pair.mp (h.subset List.mem_cons_self) with rfl | rfl
    · have := List.perm_singleton.mp ((List.perm_cons c).mp h)
      exact Or.inl (by rw [this])
    · have := List.perm_singleton.mp ((List.perm_cons c).mp (h.trans (.swap c a [])))
      exact Or.inr (by rw [this])

/-- With their blanks, the values of a form are set exactly if they hold no
colon and the name comes first, or is the address. -/
theorem setsUser_form_iff {fields : List Field} {v w : List Char}
    (h : fields.Perm [nameField v, emailField w]) :
    SetsUser fields (' ' :: v) (' ' :: w) ↔
      ':' ∉ v ∧ ':' ∉ w ∧ (fields.head? = some (nameField v) ∨ v = w) := by
  have hcolon : SetsUser fields (' ' :: v) (' ' :: w) → ':' ∉ v ∧ ':' ∉ w := by
    intro hset
    have hnot : ':' ∉ ' ' :: v ∧ ':' ∉ ' ' :: w := by
      rcases perm_two h with rfl | rfl <;> exact not_colon_of_setsUser hset
    exact ⟨fun hv => hnot.1 (List.mem_cons_of_mem _ hv),
      fun hw => hnot.2 (List.mem_cons_of_mem _ hw)⟩
  by_cases hvw : ':' ∉ v ∧ ':' ∉ w
  · obtain ⟨hv, hw⟩ := hvw
    rcases perm_two h with rfl | rfl
    · rw [setsUser_of_no_colon ⟨not_colon_name, hv⟩ ⟨not_colon_email, hw⟩]
      exact iff_of_true ⟨rfl, rfl⟩ ⟨hv, hw, Or.inl rfl⟩
    · rw [setsUser_of_no_colon ⟨not_colon_email, hw⟩ ⟨not_colon_name, hv⟩]
      simp [nameField, emailField, hv, hw, eq_comm]
  · exact iff_of_false (fun hset => hvw (hcolon hset)) fun hall => hvw ⟨hall.1, hall.2.1⟩

/-- Without their blanks they never are. -/
theorem not_setsUser_form {fields : List Field} {v w : List Char}
    (h : fields.Perm [nameField v, emailField w]) : ¬ SetsUser fields v w := by
  intro hset
  rcases perm_two h with rfl | rfl
  · obtain ⟨hv, hw⟩ := not_colon_of_setsUser hset
    obtain ⟨heq, -⟩ := (setsUser_of_no_colon ⟨not_colon_name, hv⟩ ⟨not_colon_email, hw⟩ v w).mp hset
    exact absurd (congrArg List.length heq) (by simp [nameField])
  · obtain ⟨hv, hw⟩ := not_colon_of_setsUser hset
    obtain ⟨heq, heq'⟩ :=
      (setsUser_of_no_colon ⟨not_colon_email, hw⟩ ⟨not_colon_name, hv⟩ v w).mp hset
    have hlen := congrArg List.length heq
    have hlen' := congrArg List.length heq'
    simp only [emailField, nameField, List.length_cons] at hlen hlen'
    omega

/-- **Where the fields of a query survive.** The segments are the names and the
values, in their order, exactly if no value holds a colon. The form's name and
address are set, each after its blank, exactly if in addition the name comes
first or the two are the same. -/
theorem fields_survive_iff (queryFields : List Field)
    (h : ∀ field ∈ queryFields, ':' ∉ field.1) :
    ((∀ (i : Nat) (field : Field), queryFields[i]? = some field →
      (seglist queryFields)[2 * i]? = some field.1 ∧
      (seglist queryFields)[2 * i + 1]? = some (' ' :: field.2)) ↔
      ∀ field ∈ queryFields, ':' ∉ field.2) ∧
    ∀ v w : List Char, queryFields.Perm [nameField v, emailField w] →
      (SetsUser queryFields (' ' :: v) (' ' :: w) ↔
        ':' ∉ v ∧ ':' ∉ w ∧ (queryFields.head? = some (nameField v) ∨ v = w)) ∧
      ¬ SetsUser queryFields v w :=
  ⟨seglist_getElem?_iff h, fun _ _ hperm => ⟨setsUser_form_iff hperm, not_setsUser_form hperm⟩⟩

/-- `name=anna&email=a@b.pl`, iterated in this order. -/
theorem fields_survive_iff_anna :
    SetsUser [nameField "anna".toList, emailField "a@b.pl".toList] " anna".toList
      " a@b.pl".toList := by
  have hnames : ∀ field ∈ [nameField "anna".toList, emailField "a@b.pl".toList],
      ':' ∉ field.1 := by
    intro field hfield
    rcases List.mem_pair.mp hfield with rfl | rfl
    · exact not_colon_name
    · exact not_colon_email
  exact (((fields_survive_iff _ hnames).2 "anna".toList "a@b.pl".toList (.refl _)).1).mpr
    ⟨by decide, by decide, Or.inl rfl⟩

/-- With `name=a:b&email=c@d.pl` the address is set to `email`; iterated from the
other end, `name=anna&email=a@b.pl` exchanges name and address. -/
theorem colon_shifts_fields :
    (SetsUser [nameField "a:b".toList, emailField "c@d.pl".toList] " a".toList "email".toList ∧
      ¬ SetsUser [nameField "a:b".toList, emailField "c@d.pl".toList] " a:b".toList
        " c@d.pl".toList ∧
      (seglist [nameField "a:b".toList, emailField "c@d.pl".toList])[2]? = some "b".toList) ∧
    (SetsUser [emailField "a@b.pl".toList, nameField "anna".toList] " a@b.pl".toList
        " anna".toList ∧
      ¬ SetsUser [emailField "a@b.pl".toList, nameField "anna".toList] " anna".toList
        " a@b.pl".toList) := by
  refine ⟨⟨(setsUser_iff _ _ _ _).mpr ⟨by decide, by decide⟩, fun h => ?_, by decide⟩,
    (setsUser_iff _ _ _ _).mpr ⟨by decide, by decide⟩, fun h => ?_⟩
  · exact absurd ((setsUser_iff _ _ _ _).mp h).2 (by decide)
  · exact absurd ((setsUser_iff _ _ _ _).mp h).1 (by decide)

end ResMonitor
