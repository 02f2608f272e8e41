import ResMonitor.Lib.Flex

/-! # Lexers

A lexer scans lexeme after lexeme and runs the action of each rule it finds on
its state; the state decides which rules are active. `Reaches` is one run of
it, cut off anywhere. `Reads` says to which state every word of a language
leads, with a rule for each way of building languages. -/

namespace Flex

/-- The rules that are active in a state, the rule that takes one character
where none of them matches, and the actions. -/
structure Lexer (ρ α σ ε : Type) where
  active : σ → Rules ρ α
  default : ρ
  action : ρ → List α → σ → Except ε σ

namespace Lexer
variable {ρ α σ ε : Type} [DecidableEq α] (L : Lexer ρ α σ ε)

/-- The next lexeme: its rule, its text, and the input after it. -/
def next (s : σ) : List α → Option (ρ × List α × List α)
  | [] => none
  | a :: w =>
    match longest (L.active s) (a :: w) with
    | some (r, n) => some (r, (a :: w).take n, (a :: w).drop n)
    | none => some (L.default, [a], w)

/-- At most `fuel` lexemes. -/
def runFor : Nat → σ → List α → Except ε σ
  | 0, s, _ => .ok s
  | fuel + 1, s, input =>
    match L.next s input with
    | none => .ok s
    | some (r, text, rest) => do
      let s ← L.action r text s
      runFor fuel s rest

/-- Lex to the end of the input; every lexeme takes a character at least. -/
def run (s : σ) (input : List α) : Except ε σ := L.runFor input.length s input

variable {L} {s s' s'' : σ} {input rest rest' : List α}

theorem next_cons (s : σ) (a : α) (w : List α) : L.next s (a :: w) =
    match longest (L.active s) (a :: w) with
    | some (r, n) => some (r, (a :: w).take n, (a :: w).drop n)
    | none => some (L.default, [a], w) := rfl

theorem next_spec {r : ρ} {text : List α} (h : L.next s input = some (r, text, rest)) :
    input = text ++ rest ∧ rest.length < input.length ∧
      (r = L.default ∨ ∃ p, (r, p) ∈ L.active s ∧ text ∈ p.matches') := by
  cases input with
  | nil => cases h
  | cons a w =>
    rw [next_cons] at h
    cases hl : longest (L.active s) (a :: w) with
    | some e =>
      obtain ⟨r', n⟩ := e
      rw [hl] at h
      cases h
      obtain ⟨hpos, hle, hrule⟩ := longest_bounds hl
      refine ⟨(List.take_append_drop n _).symm, ?_, Or.inr hrule⟩
      rw [List.length_drop, List.length_cons]
      omega
    | none =>
      rw [hl] at h
      cases h
      exact ⟨rfl, Nat.lt_succ_self _, Or.inl rfl⟩

theorem next_eq_none : L.next s input = none ↔ input = [] := by
  cases input with
  | nil => exact iff_of_true rfl rfl
  | cons a w =>
    refine iff_of_false ?_ (List.cons_ne_nil a w)
    rw [next_cons]
    cases longest (L.active s) (a :: w) <;> exact Option.some_ne_none _

/-- Fuel beyond the length of the input changes nothing. -/
theorem runFor_eq_run {fuel : Nat} (h : input.length ≤ fuel) :
    L.runFor fuel s input = L.run s input := by
  suffices hs : ∀ (n m : Nat) (s : σ) (input : List α), input.length ≤ n → input.length ≤ m →
      L.runFor n s input = L.runFor m s input from hs _ _ s input h (Nat.le_refl _)
  intro n
  induction n with
  | zero =>
    intro m s input hn hm
    obtain rfl := List.eq_nil_of_length_eq_zero (Nat.le_zero.mp hn)
    cases m <;> rfl
  | succ n ih =>
    intro m s input hn hm
    cases hnext : L.next s input with
    | none =>
      obtain rfl := next_eq_none.mp hnext
      cases m <;> rfl
    | some e =>
      obtain ⟨r, text, rest⟩ := e
      obtain ⟨_, hlt, _⟩ := next_spec hnext
      obtain ⟨m, rfl⟩ : ∃ k, m = k + 1 := ⟨m - 1, by omega⟩
      simp only [runFor, hnext]
      cases L.action r text s with
      | error a => rfl
      | ok s' => exact ih m s' rest (by omega) (by omega)

theorem run_nil (s : σ) : L.run s [] = .ok s := rfl

theorem run_of_next {r : ρ} {text : List α} (h : L.next s input = some (r, text, rest)) :
    L.run s input = (L.action r text s).bind fun s' => L.run s' rest := by
  obtain ⟨_, hlt, _⟩ := next_spec h
  obtain ⟨n, hn⟩ : ∃ n, input.length = n + 1 := ⟨input.length - 1, by omega⟩
  rw [run, hn, runFor, h]
  dsimp only
  cases L.action r text s with
  | error a => rfl
  | ok s' => exact runFor_eq_run (by omega)

/-! ## Runs -/

/-- One lexeme. -/
inductive Steps (L : Lexer ρ α σ ε) : σ → List α → σ → List α → Prop where
  | mk {s s' : σ} {r : ρ} {text input rest : List α} (hnext : L.next s input = some (r, text, rest))
      (haction : L.action r text s = .ok s') : Steps L s input s' rest

/-- Any number of lexemes. -/
inductive Reaches (L : Lexer ρ α σ ε) : σ → List α → σ → List α → Prop where
  | refl (s : σ) (input : List α) : Reaches L s input s input
  | tail {s s' s'' : σ} {input rest rest' : List α} (h : Reaches L s input s' rest)
      (hstep : Steps L s' rest s'' rest') : Reaches L s input s'' rest'

theorem Reaches.trans (h : L.Reaches s input s' rest) (h' : L.Reaches s' rest s'' rest') :
    L.Reaches s input s'' rest' := by
  induction h' with
  | refl => exact h
  | tail _ hstep ih => exact (ih h).tail hstep

theorem Steps.reaches (h : L.Steps s input s' rest) : L.Reaches s input s' rest :=
  (Reaches.refl s input).tail h

/-- What holds at the start and is kept by every lexeme holds in every state reached. -/
theorem Reaches.invariant {I : σ → Prop} (h : L.Reaches s input s' rest) (hs : I s)
    (hstep : ∀ {s₁ s₂ : σ} {i j : List α}, L.Reaches s input s₁ i → I s₁ →
      L.Steps s₁ i s₂ j → I s₂) : I s' := by
  induction h with
  | refl => exact hs
  | tail hr hs' ih => exact hstep hr (ih hstep) hs'

theorem run_of_reaches (h : L.Reaches s input s' rest) : L.run s input = L.run s' rest := by
  induction h with
  | refl => rfl
  | tail _ hstep ih =>
    obtain ⟨hnext, haction⟩ := hstep
    rw [ih, run_of_next hnext, haction]
    rfl

theorem reaches_of_run (n : Nat) : ∀ (s : σ) (input : List α), input.length ≤ n →
    L.run s input = .ok s' → L.Reaches s input s' [] := by
  induction n with
  | zero =>
    intro s input hlen h
    obtain rfl := List.eq_nil_of_length_eq_zero (Nat.le_zero.mp hlen)
    obtain rfl : s = s' := Except.ok.inj ((run_nil s).symm.trans h)
    exact Reaches.refl s []
  | succ n ih =>
    intro s input hlen h
    cases hnext : L.next s input with
    | none =>
      obtain rfl := next_eq_none.mp hnext
      obtain rfl : s = s' := Except.ok.inj ((run_nil s).symm.trans h)
      exact Reaches.refl s []
    | some e =>
      obtain ⟨r, text, rest⟩ := e
      obtain ⟨_, hlt, _⟩ := next_spec hnext
      rw [run_of_next hnext] at h
      cases haction : L.action r text s with
      | error a => rw [haction] at h; cases h
      | ok s₁ =>
        rw [haction] at h
        exact (Steps.mk hnext haction).reaches.trans (ih s₁ rest (by omega) h)

/-- A run ends in the state it reaches at the end of the input. -/
theorem run_eq_ok_iff : L.run s input = .ok s' ↔ L.Reaches s input s' [] :=
  ⟨reaches_of_run _ s input (Nat.le_refl _), fun h => run_of_reaches h⟩

/-- A run ends without an error if and only if no action it comes to fails. -/
theorem exists_run_eq_ok_iff : (∃ s', L.run s input = .ok s') ↔
    ∀ {s₁ : σ} {i rest : List α} {r : ρ} {text : List α}, L.Reaches s input s₁ i →
      L.next s₁ i = some (r, text, rest) → ∃ s₂, L.action r text s₁ = .ok s₂ := by
  refine ⟨?_, fun h => ?_⟩
  · intro ⟨s', hrun⟩ s₁ i rest r text hreach hnext
    rw [run_of_reaches hreach, run_of_next hnext] at hrun
    cases haction : L.action r text s₁ with
    | error a => rw [haction] at hrun; cases hrun
    | ok s₂ => exact ⟨s₂, rfl⟩
  · suffices hs : ∀ (n : Nat) (s₁ : σ) (i : List α), i.length ≤ n → L.Reaches s input s₁ i →
        ∃ s', L.run s₁ i = .ok s' from hs _ s input (Nat.le_refl _) (.refl s input)
    intro n
    induction n with
    | zero =>
      intro s₁ i hlen _
      obtain rfl := List.eq_nil_of_length_eq_zero (Nat.le_zero.mp hlen)
      exact ⟨s₁, run_nil s₁⟩
    | succ n ih =>
      intro s₁ i hlen hreach
      cases hnext : L.next s₁ i with
      | none =>
        obtain rfl := next_eq_none.mp hnext
        exact ⟨s₁, run_nil s₁⟩
      | some e =>
        obtain ⟨r, text, rest⟩ := e
        obtain ⟨_, hlt, _⟩ := next_spec hnext
        obtain ⟨s₂, haction⟩ := h hreach hnext
        obtain ⟨s', hs'⟩ := ih s₂ rest (by omega) (hreach.tail (.mk hnext haction))
        refine ⟨s', ?_⟩
        rw [run_of_next hnext, haction]
        exact hs'

/-! ## Two lexers -/

section Map
variable {τ : Type} {M : Lexer ρ α τ ε} {f : σ → τ}

/-- The next lexeme depends on the active rules alone. -/
theorem next_congr {t : τ} (hactive : M.active t = L.active s) (hdefault : M.default = L.default)
    (input : List α) : M.next t input = L.next s input := by
  unfold next
  rw [hactive, hdefault]

/-- A map of the states that keeps the active rules and commutes with the
actions commutes with the runs. -/
theorem run_map (hactive : ∀ s, M.active (f s) = L.active s) (hdefault : M.default = L.default)
    (haction : ∀ r text s, M.action r text (f s) = (L.action r text s).map f) (s : σ)
    (input : List α) : M.run (f s) input = (L.run s input).map f := by
  suffices h : ∀ (fuel : Nat) (s : σ) (input : List α),
      M.runFor fuel (f s) input = (L.runFor fuel s input).map f from h input.length s input
  intro fuel
  induction fuel with
  | zero => exact fun s input => rfl
  | succ fuel ih =>
    intro s input
    unfold runFor
    rw [next_congr (hactive s) hdefault]
    cases L.next s input with
    | none => rfl
    | some e =>
      obtain ⟨r, text, rest⟩ := e
      simp only [haction]
      cases L.action r text s with
      | error a => rfl
      | ok s' => exact ih s' rest

end Map

end Lexer

/-! ## First characters -/

/-- Every word begins with one of the characters. -/
def HeadIn {α : Type} (heads : List α) (words : Language α) : Prop :=
  ∀ w ∈ words, ∃ a v, w = a :: v ∧ a ∈ heads

section Heads
variable {α : Type}

/-- The characters that words of a regular language may begin with. -/
def heads : RegularExpression α → List α
  | .zero => []
  | .epsilon => []
  | .char a => [a]
  | .plus p q => heads p ++ heads q
  | .comp p q => heads p ++ if p.matchEpsilon then heads q else []
  | .star p => heads p

theorem mem_heads [DecidableEq α] {p : RegularExpression α} {a : α} {w : List α}
    (h : a :: w ∈ p.matches') : a ∈ heads p := by
  induction p generalizing a w with
  | zero => exact absurd h (Language.notMem_zero _)
  | epsilon => cases (Language.mem_one _).mp h
  | char b =>
    cases (show a :: w = [b] from h)
    exact List.mem_singleton.mpr rfl
  | plus p q ihp ihq =>
    rcases (Language.mem_add _ _ _).mp h with h | h
    · exact List.mem_append_left _ (ihp h)
    · exact List.mem_append_right _ (ihq h)
  | comp p q ihp ihq =>
    obtain ⟨u, hu, v, hv, huv⟩ := Language.mem_mul.mp h
    cases u with
    | nil =>
      obtain rfl : v = a :: w := huv
      rw [heads, if_pos (nil_mem_matches'.mp hu)]
      exact List.mem_append_right _ (ihq hv)
    | cons b u =>
      cases huv
      exact List.mem_append_left _ (ihp hu)
  | star p ihp =>
    obtain ⟨ws, hflat, hws⟩ := Language.mem_kstar_iff_exists_nonempty.mp h
    cases ws with
    | nil => cases hflat
    | cons v ws =>
      obtain ⟨hv, hne⟩ := hws v List.mem_cons_self
      cases v with
      | nil => exact absurd rfl hne
      | cons b v =>
        cases hflat
        exact ihp hv

theorem headIn_matches' [DecidableEq α] {p : RegularExpression α} {cs : List α}
    (h : (!p.matchEpsilon && decide (heads p ⊆ cs)) = true := by decide) :
    HeadIn cs p.matches' := by
  obtain ⟨hne, hsub⟩ := Bool.and_eq_true _ _ ▸ h
  intro w hw
  cases w with
  | nil =>
    rw [nil_mem_matches'.mp hw] at hne
    cases hne
  | cons a v => exact ⟨a, v, rfl, of_decide_eq_true hsub (mem_heads hw)⟩

variable {cs : List α} {P Q : Language α}

theorem HeadIn.mul (h : HeadIn cs P) (Q : Language α) : HeadIn cs (P * Q) := by
  intro w hw
  obtain ⟨u, hu, v, _, rfl⟩ := Language.mem_mul.mp hw
  obtain ⟨a, t, rfl, ha⟩ := h u hu
  exact ⟨a, t ++ v, rfl, ha⟩

theorem HeadIn.add (h : HeadIn cs P) (h' : HeadIn cs Q) : HeadIn cs (P + Q) := by
  intro w hw
  rcases (Language.mem_add _ _ w).mp hw with hw | hw
  · exact h w hw
  · exact h' w hw

theorem HeadIn.mono {cs' : List α} (h : HeadIn cs P) (hcs : cs ⊆ cs') : HeadIn cs' P := by
  intro w hw
  obtain ⟨a, v, rfl, ha⟩ := h w hw
  exact ⟨a, v, rfl, hcs ha⟩

theorem HeadIn.follows (h : HeadIn cs P) {w : List α} (hw : w ∈ P) (rest : List α) :
    Follows cs (w ++ rest) := by
  intro a v hav
  obtain ⟨b, u, rfl, hb⟩ := h w hw
  cases hav
  exact hb

end Heads

/-! ## Last characters -/

section Ends
variable {α β : Type} {cs : List α} {P Q : Language α}

/-- Every word ends with one of `ends`. -/
def EndIn (ends : List α) (words : Language α) : Prop :=
  ∀ w ∈ words, ∃ v a, w = v ++ [a] ∧ a ∈ ends

theorem EndIn.getLast?_mem {w : List α} (h : EndIn cs P) (hw : w ∈ P) :
    ∃ a ∈ cs, w.getLast? = some a := by
  obtain ⟨v, a, rfl, ha⟩ := h w hw
  exact ⟨a, ha, List.getLast?_concat⟩

theorem EndIn.char {a : α} (ha : a ∈ cs) : EndIn cs (RegularExpression.char a).matches' := by
  intro w hw
  obtain rfl : w = [a] := hw
  exact ⟨[], a, rfl, ha⟩

theorem EndIn.mul (P : Language α) (h : EndIn cs Q) : EndIn cs (P * Q) := by
  intro w hw
  obtain ⟨u, _, v, hv, rfl⟩ := Language.mem_mul.mp hw
  obtain ⟨t, a, rfl, ha⟩ := h v hv
  exact ⟨u ++ t, a, (List.append_assoc u t [a]).symm, ha⟩

theorem EndIn.prod {words : β → Language α} (h : ∀ b, EndIn cs (words b)) (b : β) (bs : List β) :
    EndIn cs ((b :: bs).map words).prod := by
  induction bs generalizing b with
  | nil =>
    rw [List.map_singleton, List.prod_singleton]
    exact h b
  | cons b' bs ih =>
    rw [List.map_cons, List.prod_cons]
    exact (ih b').mul _

end Ends

/-! ## Reading a language -/

section Reads
variable {ρ α σ ε : Type} [DecidableEq α] {L : Lexer ρ α σ ε}

/-- From state `s`, any word of `words` that is followed by one of `follow` or
by the end of the input is read to its end, and leads to `s'`. -/
def Reads (L : Lexer ρ α σ ε) (s : σ) (words : Language α) (follow : List α) (s' : σ) : Prop :=
  ∀ w ∈ words, ∀ rest, Follows follow rest → L.Reaches s (w ++ rest) s' rest

variable {s s' s'' : σ} {P Q : Language α} {cs cs' : List α}

theorem Reads.mul (h : Reads L s P cs s') (h' : Reads L s' Q cs' s'') (hQ : HeadIn cs Q) :
    Reads L s (P * Q) cs' s'' := by
  intro w hw rest hrest
  obtain ⟨u, hu, v, hv, rfl⟩ := Language.mem_mul.mp hw
  rw [List.append_assoc]
  exact (h u hu (v ++ rest) (hQ.follows hv rest)).trans (h' v hv rest hrest)

theorem Reads.add (h : Reads L s P cs s') (h' : Reads L s Q cs s') : Reads L s (P + Q) cs s' := by
  intro w hw rest hrest
  rcases (Language.mem_add _ _ w).mp hw with hw | hw
  · exact h w hw rest hrest
  · exact h' w hw rest hrest

theorem Reads.one : Reads L s 1 cs s := by
  intro w hw rest _
  obtain rfl := (Language.mem_one w).mp hw
  exact .refl s rest

/-- A single lexeme, recognised as such by computation. -/
theorem Reads.lexeme [DecidableEq ρ] {p : RegularExpression α} {r : ρ}
    (hlexeme : Flex.lexeme (L.active s) p r cs = true) (hP : ∀ w ∈ P, w ∈ p.matches')
    (haction : ∀ w ∈ P, L.action r w s = .ok s') : Reads L s P cs s' := by
  intro w hw rest hrest
  have hlong := longest_of_lexeme hlexeme (hP w hw) hrest
  have hne : w ++ rest ≠ [] := by
    intro hnil
    rw [hnil] at hlong
    cases hlong
  refine Lexer.Steps.reaches (Lexer.Steps.mk ?_ (haction w hw))
  obtain ⟨a, v, hav⟩ := List.exists_cons_of_ne_nil hne
  rw [hav] at hlong ⊢
  rw [Lexer.next_cons, hlong, ← hav]
  simp

theorem Reads.zero : Reads L s 0 cs s' := fun w hw => absurd hw (Language.notMem_zero w)

/-! ## Sequences

The states before and after each part of a sequence are `state x` for some `x`,
and reading a part is a function of `x`. -/

section Sequences
variable {β γ : Type} {words : β → Language α} {state : γ → σ} {read : γ → β → γ}

/-- Words one after another. -/
theorem Reads.prod (h : ∀ b x, Reads L (state x) (words b) cs (state (read x b)))
    (hhead : ∀ b, HeadIn cs (words b)) (bs : List β) (x : γ) :
    Reads L (state x) (bs.map words).prod cs (state (bs.foldl read x)) := by
  induction bs generalizing x with
  | nil => exact Reads.one
  | cons b bs ih =>
    intro w hw rest hrest
    rw [List.map_cons, List.prod_cons] at hw
    obtain ⟨u, hu, v, hv, rfl⟩ := Language.mem_mul.mp hw
    have hfollow : Follows cs (v ++ rest) := by
      cases bs with
      | nil =>
        obtain rfl := (Language.mem_one v).mp hv
        exact hrest
      | cons b' bs => exact ((hhead b').mul _).follows hv rest
    rw [List.append_assoc]
    exact (h b x u hu _ hfollow).trans (ih (read x b) v hv rest hrest)

/-- A word and more words, with a separator between two of them and a closing
word after the last. -/
def sepBy (words : β → Language α) (sep close : Language α) : β → List β → Language α
  | b, [] => words b * close
  | b, b' :: bs => words b * (sep * sepBy words sep close b' bs)

omit [DecidableEq α] in
theorem HeadIn.sepBy (hhead : ∀ b, HeadIn cs (words b)) (sep close : Language α) (b : β)
    (bs : List β) : HeadIn cs (sepBy words sep close b bs) := by
  cases bs <;> exact (hhead b).mul _

omit [DecidableEq α] in
theorem EndIn.sepBy {close : Language α} (hclose : EndIn cs close) (words : β → Language α)
    (sep : Language α) (b : β) (bs : List β) : EndIn cs (sepBy words sep close b bs) := by
  induction bs generalizing b with
  | nil => exact hclose.mul _
  | cons b' bs ih => exact ((ih b').mul _).mul _

omit [DecidableEq α] in
/-- More at the end is more after the closing word. -/
theorem sepBy_mul (sep close Q : Language α) (b : β) (bs : List β) :
    Flex.sepBy words sep close b bs * Q = Flex.sepBy words sep (close * Q) b bs := by
  induction bs generalizing b with
  | nil => exact mul_assoc _ _ _
  | cons b' bs ih =>
    rw [Flex.sepBy, Flex.sepBy, mul_assoc, mul_assoc, ih]

/-- A separator pushes what has been read, and so does the closing word. -/
theorem Reads.sepBy {sep close : Language α} {push : γ → γ} (state' : γ → σ) {ws cs : List α}
    (hwords : ∀ b x, Reads L (state x) (words b) ws (state (read x b)))
    (hsep : ∀ x, Reads L (state x) sep cs (state (push x)))
    (hclose : ∀ x, Reads L (state x) close cs' (state' (push x)))
    (hwordsHead : ∀ b, HeadIn cs (words b)) (hsepHead : HeadIn ws sep)
    (hcloseHead : HeadIn ws close) (b : β) (bs : List β) (x : γ) :
    Reads L (state x) (sepBy words sep close b bs) cs'
      (state' ((b :: bs).foldl (fun x b => push (read x b)) x)) := by
  induction bs generalizing b x with
  | nil => exact (hwords b x).mul (hclose (read x b)) hcloseHead
  | cons b' bs ih =>
    refine (hwords b x).mul ((hsep (read x b)).mul (ih b' _) ?_) (hsepHead.mul _)
    exact HeadIn.sepBy hwordsHead sep close b' bs

end Sequences

end Reads
end Flex
