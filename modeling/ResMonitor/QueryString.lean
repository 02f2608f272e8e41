import Mathlib.Data.List.Basic
import ResMonitor.TriggerChoose

/-! # Query strings

`SimpleWeb::Percent` and `SimpleWeb::QueryString`. A character stands for one
byte. The encoder leaves the percent sign as it is, so decoding does not undo
it; the parser reads at the last equals sign of every piece, so names may hold
others. Both are exact about what survives. -/

namespace ResMonitor
open StdString

namespace Percent

/-! ## Percent encoding -/

def hexChars : List Char := "0123456789ABCDEF".toList

/-- The characters that `encode` writes in hexadecimal. Bytes from 128 on are
negative as `char`s and in none of the ranges. -/
def reserved (chr : Char) : Bool :=
  decide (chr = '!' ∨ chr = '#' ∨ chr = '$' ∨ ('&' ≤ chr ∧ chr ≤ ',') ∨ ('/' ≤ chr ∧ chr ≤ ';') ∨
    chr = '=' ∨ chr = '?' ∨ chr = '@' ∨ chr = '[' ∨ chr = ']')

def hexChar (n : Nat) : Char := hexChars.getD n '0'

/-- What `encode` appends for one character. -/
def encodeChar (chr : Char) : List Char :=
  if chr = ' ' then ['+']
  else if reserved chr then ['%', hexChar (chr.toNat / 16), hexChar (chr.toNat % 16)]
  else [chr]

def encode (value : List Char) : List Char := value.flatMap encodeChar

/-- The value of a hexadecimal digit. -/
def hexValue (c : Char) : Option Nat :=
  if '0' ≤ c ∧ c ≤ '9' then some (c.toNat - '0'.toNat)
  else if 'A' ≤ c ∧ c ≤ 'F' then some (c.toNat - 'A'.toNat + 10)
  else if 'a' ≤ c ∧ c ≤ 'f' then some (c.toNat - 'a'.toNat + 10)
  else none

/-- The digits up to the first character that is none. -/
def hexNumber : Nat → List Char → Nat
  | n, [] => n
  | n, c :: s => match hexValue c with
    | some d => hexNumber (16 * n + d) s
    | none => n

/-- `0x` may stand before hexadecimal digits. -/
def skipPrefix : List Char → List Char
  | '0' :: 'x' :: s => s
  | '0' :: 'X' :: s => s
  | s => s

/-- `std::strtol(s, nullptr, 16)`, for texts too short to overflow: blanks, a
sign, `0x`, digits. Without digits it is 0. -/
def strtol16 (s : List Char) : Int :=
  let (negative, s) := readSign (s.dropWhile isSpace)
  let magnitude : Int := hexNumber 0 (skipPrefix s)
  if negative then -magnitude else magnitude

/-- `static_cast<char>` of that, as a byte. -/
def decodedChar (hex : List Char) : Char := Char.ofNat (strtol16 hex % 256).toNat

/-- The last two characters are never the start of a code. -/
def decode : List Char → List Char
  | [] => []
  | '%' :: a :: b :: value => decodedChar [a, b] :: decode value
  | chr :: value => (if chr = '+' then ' ' else chr) :: decode value

theorem decode_percent (a b : Char) (value : List Char) :
    decode ('%' :: a :: b :: value) = decodedChar [a, b] :: decode value := by
  rw [decode]

theorem decode_cons {chr : Char} (h : chr ≠ '%') (value : List Char) :
    decode (chr :: value) = (if chr = '+' then ' ' else chr) :: decode value := by
  rw [decode]
  intro a b value' hchr _
  exact h hchr

theorem decode_percent_short {value : List Char} (h : value.length ≤ 1) :
    decode ('%' :: value) = '%' :: decode value := by
  rw [decode]
  · rfl
  · intro a b value' _ hvalue
    rw [hvalue] at h
    simp at h

theorem decode_of_plain {value : List Char} (h : '%' ∉ value ∧ '+' ∉ value) :
    decode value = value := by
  induction value with
  | nil => rfl
  | cons chr value ih =>
    obtain ⟨hpercent, hplus⟩ := h
    obtain ⟨hchr, hpercent⟩ := not_or.mp (mt List.mem_cons.mpr hpercent)
    obtain ⟨hchr', hplus⟩ := not_or.mp (mt List.mem_cons.mpr hplus)
    rw [decode_cons (Ne.symm hchr), if_neg (Ne.symm hchr'), ih ⟨hpercent, hplus⟩]

/-! ## What decoding undoes -/

theorem encode_cons (chr : Char) (value : List Char) :
    encode (chr :: value) = encodeChar chr ++ encode value := List.flatMap_cons

theorem reserved_ascii {chr : Char} (h : reserved chr = true) : chr.toNat < 128 := by
  unfold reserved at h
  rcases of_decide_eq_true h with rfl | rfl | rfl | ⟨_, h⟩ | ⟨_, h⟩ | rfl | rfl | rfl | rfl | rfl
  · decide
  · decide
  · decide
  · exact Nat.lt_of_le_of_lt (show chr.toNat ≤ ','.toNat from h) (by decide)
  · exact Nat.lt_of_le_of_lt (show chr.toNat ≤ ';'.toNat from h) (by decide)
  all_goals decide

/-- The two hexadecimal digits of a byte below 128 read as that byte. -/
theorem decodedChar_hexChar {chr : Char} (h : chr.toNat < 128) :
    decodedChar [hexChar (chr.toNat / 16), hexChar (chr.toNat % 16)] = chr := by
  have hall : ∀ n, n < 128 →
      strtol16 [hexChar (n / 16), hexChar (n % 16)] % 256 = (n : Int) := by decide +kernel
  unfold decodedChar
  rw [hall chr.toNat h, Int.toNat_natCast, Char.ofNat_toNat]

/-- Every character but the percent sign is decoded from its code. -/
theorem decode_encodeChar {chr : Char} (h : chr ≠ '%') (value : List Char) :
    decode (encodeChar chr ++ value) = chr :: decode value := by
  unfold encodeChar
  split
  · rename_i hblank
    rw [hblank, List.singleton_append, decode_cons (by decide), if_pos rfl]
  · split
    · rename_i hreserved
      change decode ('%' :: _ :: _ :: value) = _
      rw [decode_percent, decodedChar_hexChar (reserved_ascii hreserved)]
    · rename_i hreserved
      have hplus : chr ≠ '+' := by
        rintro rfl
        exact hreserved (by decide)
      rw [List.singleton_append, decode_cons h, if_neg hplus]

theorem hexValue_of_not_digit {c : Char} (h : c.isDigit = false) {d : Nat}
    (hd : hexValue c = some d) : 10 ≤ d ∧ d ≤ 15 := by
  have hnot : ¬ ('0' ≤ c ∧ c ≤ '9') := by
    intro hdigit
    simp only [Char.isDigit, ge_iff_le, Bool.and_eq_false_iff, decide_eq_false_iff_not] at h
    exact h.elim (· hdigit.1) (· hdigit.2)
  unfold hexValue at hd
  rw [if_neg hnot] at hd
  split at hd
  · rename_i hrange
    have hlow : 'A'.toNat ≤ c.toNat := hrange.1
    have hhigh : c.toNat ≤ 'F'.toNat := hrange.2
    simp only [Char.reduceToNat, Option.some.injEq] at hlow hhigh hd
    omega
  · split at hd
    · rename_i hrange
      have hlow : 'a'.toNat ≤ c.toNat := hrange.1
      have hhigh : c.toNat ≤ 'f'.toNat := hrange.2
      simp only [Char.reduceToNat, Option.some.injEq] at hlow hhigh hd
      omega
    · cases hd

/-- Without the ten digits, few numbers can be written. -/
theorem hexNumber_of_not_digit {s : List Char} (h : ∀ c ∈ s, c.isDigit = false) :
    (s.length ≤ 1 → hexNumber 0 s = 0 ∨ 10 ≤ hexNumber 0 s ∧ hexNumber 0 s ≤ 15) ∧
    (s.length ≤ 2 → hexNumber 0 s = 0 ∨ 10 ≤ hexNumber 0 s ∧ hexNumber 0 s ≤ 15 ∨
      170 ≤ hexNumber 0 s ∧ hexNumber 0 s ≤ 255) := by
  match s with
  | [] => simp [hexNumber]
  | [a] =>
    cases ha : hexValue a with
    | none => simp [hexNumber, ha]
    | some d =>
      have := hexValue_of_not_digit (h a List.mem_cons_self) ha
      simp [hexNumber, ha, this]
  | [a, b] =>
    refine ⟨fun hlen => by simp at hlen, fun _ => ?_⟩
    cases ha : hexValue a with
    | none => simp [hexNumber, ha]
    | some d =>
      have hd := hexValue_of_not_digit (h a List.mem_cons_self) ha
      cases hb : hexValue b with
      | none => simp [hexNumber, ha, hb, hd]
      | some d' =>
        have hd' := hexValue_of_not_digit (h b (List.mem_cons_of_mem _ List.mem_cons_self)) hb
        simp only [hexNumber, ha, hb]
        omega
  | a :: b :: c :: s =>
    exact ⟨fun hlen => by simp at hlen, fun hlen => by simp at hlen⟩

/-- There is no prefix among characters that are no digits. -/
theorem skipPrefix_of_not_digit {s : List Char} (h : ∀ c ∈ s, c.isDigit = false) :
    skipPrefix s = s := by
  unfold skipPrefix
  split
  · exact absurd (h '0' List.mem_cons_self) (by decide)
  · exact absurd (h '0' List.mem_cons_self) (by decide)
  · rfl

theorem readSign_cases (s : List Char) : (∃ u, s = '-' :: u ∧ readSign s = (true, u)) ∨
    (∃ u, s = '+' :: u ∧ readSign s = (false, u)) ∨ readSign s = (false, s) := by
  unfold readSign
  split
  · exact Or.inl ⟨_, rfl, rfl⟩
  · exact Or.inr (Or.inl ⟨_, rfl, rfl⟩)
  · exact Or.inr (Or.inr rfl)

/-- No code without a digit is that of the percent sign. -/
theorem strtol16_of_not_digit {s : List Char} (h : ∀ c ∈ s, c.isDigit = false)
    (hlen : s.length ≤ 2) : strtol16 s % 256 ≠ 37 := by
  unfold strtol16
  have hsub : (s.dropWhile isSpace).length ≤ 2 :=
    Nat.le_trans (List.dropWhile_suffix isSpace).length_le hlen
  have hdigit : ∀ c ∈ s.dropWhile isSpace, c.isDigit = false := fun c hc =>
    h c ((List.dropWhile_suffix isSpace).subset hc)
  generalize s.dropWhile isSpace = t at hsub hdigit
  rcases readSign_cases t with ⟨u, rfl, hsign⟩ | ⟨u, rfl, hsign⟩ | hsign
  · have hu : ∀ c ∈ u, c.isDigit = false := fun c hc => hdigit c (List.mem_cons_of_mem _ hc)
    have hsmall := (hexNumber_of_not_digit hu).1 (by simpa using hsub)
    rw [hsign]
    simp only [skipPrefix_of_not_digit hu, if_true]
    omega
  · have hu : ∀ c ∈ u, c.isDigit = false := fun c hc => hdigit c (List.mem_cons_of_mem _ hc)
    have hsmall := (hexNumber_of_not_digit hu).1 (by simpa using hsub)
    rw [hsign]
    simp only [skipPrefix_of_not_digit hu, Bool.false_eq_true, if_false]
    omega
  · have hsmall := (hexNumber_of_not_digit hdigit).2 hsub
    rw [hsign]
    simp only [skipPrefix_of_not_digit hdigit, Bool.false_eq_true, if_false]
    omega

theorem not_isDigit_of_not_reserved {c : Char} (h : ¬ reserved c = true) : c.isDigit = false := by
  rw [Bool.eq_false_iff]
  intro hdigit
  refine h (decide_eq_true ?_)
  simp only [Char.isDigit, ge_iff_le, Bool.and_eq_true, decide_eq_true_eq] at hdigit
  have hlow : '/' ≤ c := Char.le_trans (show '/' ≤ '0' by decide) hdigit.1
  have hhigh : c ≤ ';' := Char.le_trans hdigit.2 (show '9' ≤ ';' by decide)
  simp only [hlow, hhigh, and_self, true_or, or_true]

/-- What `encode` starts with is no digit, and a digit after it belongs to a code. -/
theorem not_isDigit_head {value s : List Char} {a : Char} (h : encode value = a :: s) :
    a.isDigit = false := by
  cases value with
  | nil => cases h
  | cons chr value =>
    rw [encode_cons] at h
    unfold encodeChar at h
    split at h
    · cases h
      decide
    · split at h
      · cases h
        decide
      · rename_i hreserved
        cases h
        exact not_isDigit_of_not_reserved hreserved

theorem toNat_ofNat_of_lt {n : Nat} (h : n < 256) : (Char.ofNat n).toNat = n := by
  unfold Char.ofNat
  rw [dif_pos (Or.inl (by omega))]
  rfl

/-- The encoder writes plus signs, hexadecimal digits and what it does not encode. -/
theorem mem_encode {c : Char} {value : List Char} (h : c ∈ encode value) :
    c = '+' ∨ c ∈ hexChars ∨ reserved c = false := by
  have hhex : ∀ n, hexChar n ∈ hexChars := by
    intro n
    unfold hexChar
    rw [List.getD_eq_getElem?_getD]
    cases hn : hexChars[n]? with
    | none => exact List.mem_cons_self
    | some c => exact List.mem_of_getElem? hn
  obtain ⟨chr, _, hc⟩ := List.mem_flatMap.mp h
  unfold encodeChar at hc
  split at hc
  · exact Or.inl (List.mem_singleton.mp hc)
  · split at hc
    · rcases List.mem_cons.mp hc with rfl | hc
      · exact Or.inr (Or.inr (by decide))
      · rcases List.mem_pair.mp hc with rfl | rfl
        · exact Or.inr (Or.inl (hhex _))
        · exact Or.inr (Or.inl (hhex _))
    · rename_i hreserved
      rw [List.mem_singleton.mp hc]
      exact Or.inr (Or.inr (Bool.eq_false_iff.mpr hreserved))

theorem not_mem_encode {c : Char} (value : List Char) (hc : reserved c = true)
    (hother : c ≠ '+' ∧ c ∉ hexChars) : c ∉ encode value := by
  intro h
  rcases mem_encode h with h | h | h
  · exact hother.1 h
  · exact hother.2 h
  · rw [hc] at h
    cases h

/-- After an unencoded percent sign no two characters read as a percent sign. -/
theorem decodedChar_encode_ne {value s : List Char} {a b : Char}
    (h : encode value = a :: b :: s) : decodedChar [a, b] ≠ '%' := by
  have hcode : strtol16 [a, b] % 256 ≠ 37 := by
    have ha := not_isDigit_head h
    by_cases hb : b.isDigit = false
    · refine strtol16_of_not_digit (fun c hc => ?_) (Nat.le_refl 2)
      rcases List.mem_pair.mp hc with rfl | rfl
      · exact ha
      · exact hb
    · -- a digit in the second place is in a code, which starts with a percent sign
      have hpercent : a = '%' := by
        cases value with
        | nil => cases h
        | cons chr value =>
          rw [encode_cons] at h
          unfold encodeChar at h
          split at h
          · exact absurd (not_isDigit_head (List.cons.inj h).2) hb
          · split at h
            · exact (List.cons.inj h).1.symm
            · exact absurd (not_isDigit_head (List.cons.inj h).2) hb
      rw [hpercent]
      intro hzero
      cases hzero
  intro hchar
  have hnat : (Char.ofNat (strtol16 [a, b] % 256).toNat).toNat = 37 := congrArg Char.toNat hchar
  rw [toNat_ofNat_of_lt (by omega)] at hnat
  omega

/-- **What survives encoding and decoding.** A value does exactly if at most one
character of code follows each of its percent signs. -/
theorem decode_encode_iff (value : List Char) : decode (encode value) = value ↔
    ∀ before after, value = before ++ '%' :: after → (encode after).length ≤ 1 := by
  induction value with
  | nil => exact iff_of_true rfl fun before after h => by simp at h
  | cons chr value ih =>
    by_cases hchr : chr = '%'
    · subst hchr
      have hencode : encode ('%' :: value) = '%' :: encode value := rfl
      by_cases hlen : (encode value).length ≤ 1
      · rw [hencode, decode_percent_short hlen, List.cons_inj_right, ih]
        constructor
        · intro h before after heq
          cases before with
          | nil => rwa [← (List.cons.inj heq).2]
          | cons c before => exact h before after (List.cons.inj heq).2
        · intro h before after heq
          exact h ('%' :: before) after (by rw [heq]; rfl)
      · refine iff_of_false (fun h => ?_) fun h => hlen (h [] value rfl)
        match he : encode value, hlen with
        | a :: b :: s, _ =>
          rw [hencode, he, decode_percent] at h
          exact decodedChar_encode_ne he (List.cons.inj h).1
        | [], hlen => exact hlen (Nat.zero_le 1)
        | [a], hlen => exact hlen (Nat.le_refl 1)
    · rw [encode_cons, decode_encodeChar hchr, List.cons_inj_right, ih]
      constructor
      · intro h before after heq
        cases before with
        | nil => exact absurd (List.cons.inj heq).1 hchr
        | cons c before => exact h before after (List.cons.inj heq).2
      · intro h before after heq
        exact h (chr :: before) after (by rw [heq]; rfl)

/-- `/etc?a=1`, `50% off` and a percent sign at the end. -/
example : decode (encode "/etc?a=1".toList) = "/etc?a=1".toList ∧
    decode (encode "50% off".toList) ≠ "50% off".toList ∧
    decode (encode "100%".toList) = "100%".toList := by decide +kernel

end Percent

namespace QueryString

/-! ## Creating and parsing -/

/-- The loop of `create`; `first` tells whether a field has been written. -/
def create (fields : List Field) : List Char :=
  (fields.foldl (fun (result, first) field =>
    (result ++ (if !first then ['&'] else []) ++ field.1 ++ '=' :: Percent.encode field.2, false))
    ([], true)).1

/-- The variables of the loop of `parse`; `none` is `npos`. -/
structure Cursor where
  namePos : Nat
  nameEndPos : Option Nat
  valuePos : Option Nat

/-- `result.emplace`, unless the name is empty. -/
def emplace (name value : List Char) (result : List Field) : List Field :=
  if name = [] then result else result ++ [(name, Percent.decode value)]

/-- The loop of `parse` from position `c` on. -/
def parseLoop (queryString : List Char) : List Char → Nat → Cursor → List Field →
    Cursor × List Field
  | [], _, cursor, result => (cursor, result)
  | chr :: rest, c, cursor, result =>
    if chr = '&' then
      let name := substr queryString cursor.namePos
        (cursor.nameEndPos.getD c - cursor.namePos)
      let value := match cursor.valuePos with
        | none => []
        | some valuePos => substr queryString valuePos (c - valuePos)
      parseLoop queryString rest (c + 1) ⟨c + 1, none, none⟩ (emplace name value result)
    else if chr = '=' then
      parseLoop queryString rest (c + 1) ⟨cursor.namePos, some c, some (c + 1)⟩ result
    else parseLoop queryString rest (c + 1) cursor result

/-- `parse`: the fields in the order of their `emplace`. -/
def parse (queryString : List Char) : List Field :=
  if queryString = [] then []
  else
    let (cursor, result) := parseLoop queryString queryString 0 ⟨0, none, none⟩ []
    if cursor.namePos < queryString.length then
      let name := match cursor.nameEndPos with
        | none => queryString.drop cursor.namePos
        | some nameEndPos =>
          substr queryString cursor.namePos (nameEndPos - cursor.namePos)
      let value := match cursor.valuePos with
        | none => []
        | some valuePos =>
          if valuePos ≥ queryString.length then [] else queryString.drop valuePos
      emplace name value result
    else result

/-! ## What is parsed -/

/-- A piece between two ampersands: the last equals sign ends the name. -/
def fieldOf (piece : List Char) : Option Field :=
  let (name, value) := (splitLast '=' piece).getD (piece, [])
  if name = [] then none else some (name, Percent.decode value)

theorem fieldOf_append {name value : List Char} (hname : name ≠ []) (hvalue : '=' ∉ value) :
    fieldOf (name ++ '=' :: value) = some (name, Percent.decode value) := by
  rw [fieldOf, splitLast_append name hvalue, Option.getD_some]
  exact if_neg hname

/-- The marks of the cursor are those of the piece that starts at `start`. -/
inductive Cursor.At (start : Nat) : List Char → Cursor → Prop where
  | unmarked {piece : List Char} (h : '=' ∉ piece) : At start piece ⟨start, none, none⟩
  | marked (name : List Char) {value : List Char} (h : '=' ∉ value) :
      At start (name ++ '=' :: value)
        ⟨start, some (start + name.length), some (start + name.length + 1)⟩

theorem Cursor.At.namePos {start : Nat} {piece : List Char} {cursor : Cursor}
    (h : cursor.At start piece) : cursor.namePos = start := by
  cases h <;> rfl

theorem Cursor.At.mark {start : Nat} {piece : List Char} {cursor : Cursor}
    (h : cursor.At start piece) :
    Cursor.At start (piece ++ ['=']) ⟨cursor.namePos, some (start + piece.length),
      some (start + piece.length + 1)⟩ := by
  rw [h.namePos]
  exact .marked piece List.not_mem_nil

theorem Cursor.At.push {start : Nat} {piece : List Char} {cursor : Cursor}
    (h : cursor.At start piece) {chr : Char} (hchr : chr ≠ '=') :
    cursor.At start (piece ++ [chr]) := by
  have hsnoc : ∀ s : List Char, '=' ∉ s → '=' ∉ s ++ [chr] := by
    intro s hs hmem
    rcases List.mem_append.mp hmem with hmem | hmem
    · exact hs hmem
    · exact hchr (List.mem_singleton.mp hmem).symm
  cases h with
  | unmarked h => exact .unmarked (hsnoc _ h)
  | marked name h =>
    rw [List.append_assoc, List.cons_append]
    exact .marked name (hsnoc _ h)

theorem emplace_eq (name value : List Char) (result : List Field) :
    emplace name value result =
      result ++ (if name = [] then none else some (name, Percent.decode value)).toList := by
  unfold emplace
  split
  · exact (List.append_nil result).symm
  · rfl

/-- At an ampersand the piece before it is emplaced. -/
theorem Cursor.At.emplace {before piece rest : List Char} {cursor : Cursor}
    (h : cursor.At before.length piece) (result : List Field) :
    QueryString.emplace
      (substr (before ++ (piece ++ rest)) cursor.namePos
        (cursor.nameEndPos.getD (before.length + piece.length) - cursor.namePos))
      (match cursor.valuePos with
        | none => []
        | some valuePos => substr (before ++ (piece ++ rest)) valuePos
          (before.length + piece.length - valuePos)) result =
      result ++ (fieldOf piece).toList := by
  rw [emplace_eq]
  cases h with
  | unmarked h =>
    rw [fieldOf, splitLast_of_not_mem h]
    simp only [Option.getD_none, Nat.add_sub_cancel_left, substr_append]
  | @marked name value h =>
    have hname : before ++ ((name ++ '=' :: value) ++ rest) =
        before ++ (name ++ ('=' :: value ++ rest)) := by simp
    have hvalue : before ++ ((name ++ '=' :: value) ++ rest) =
        (before ++ name ++ ['=']) ++ (value ++ rest) := by simp
    have hstart : before.length + name.length + 1 = (before ++ name ++ ['=']).length := by
      simp [Nat.add_assoc]
    have hlength : before.length + (name ++ '=' :: value).length -
        (before ++ name ++ ['=']).length = value.length := by
      simp only [List.length_append, List.length_cons, List.length_nil]
      omega
    rw [fieldOf, splitLast_append name h]
    simp only [Option.getD_some, Nat.add_sub_cancel_left]
    rw [hstart, hlength, hvalue, substr_append, ← hvalue, hname, substr_append]

/-- At the end of the text the last piece is emplaced. -/
theorem Cursor.At.emplace_last {before piece : List Char} {cursor : Cursor}
    (h : cursor.At before.length piece) (result : List Field) :
    QueryString.emplace
      (match cursor.nameEndPos with
        | none => (before ++ piece).drop cursor.namePos
        | some nameEndPos =>
          substr (before ++ piece) cursor.namePos (nameEndPos - cursor.namePos))
      (match cursor.valuePos with
        | none => []
        | some valuePos => if valuePos ≥ (before ++ piece).length then []
          else (before ++ piece).drop valuePos) result =
      result ++ (fieldOf piece).toList := by
  rw [emplace_eq]
  cases h with
  | unmarked h =>
    rw [fieldOf, splitLast_of_not_mem h]
    simp only [Option.getD_none, List.drop_left]
  | @marked name value h =>
    have hstart : before.length + name.length + 1 = (before ++ name ++ ['=']).length := by
      simp [Nat.add_assoc]
    have hvalue : before ++ (name ++ '=' :: value) = (before ++ name ++ ['=']) ++ value := by simp
    have hread : (if (before ++ name ++ ['=']).length ≥ (before ++ (name ++ '=' :: value)).length
        then [] else (before ++ (name ++ '=' :: value)).drop (before ++ name ++ ['=']).length) =
        value := by
      rw [hvalue, List.drop_left]
      split
      · rename_i hlen
        rw [@List.length_append _ (before ++ name ++ ['='])] at hlen
        exact (List.length_eq_zero_iff.mp (by omega)).symm
      · rfl
    rw [fieldOf, splitLast_append name h]
    simp only [Option.getD_some, Nat.add_sub_cancel_left]
    rw [hstart, hread, substr_append]

/-- The loop emplaces the piece before every ampersand. -/
theorem parseLoop_eq (rest : List Char) {before piece : List Char} {cursor : Cursor}
    (h : cursor.At before.length piece) (hpiece : '&' ∉ piece) (result : List Field) :
    ∃ before' last cursor', before ++ (piece ++ rest) = before' ++ last ∧
      cursor'.At before'.length last ∧
      parseLoop (before ++ (piece ++ rest)) rest (before.length + piece.length) cursor result =
        (cursor', result ++ (((piece ++ rest).splitOn '&').dropLast.filterMap fieldOf)) ∧
      ((piece ++ rest).splitOn '&').getLast? = some last := by
  induction rest generalizing before piece cursor result with
  | nil =>
    refine ⟨before, piece, cursor, by rw [List.append_nil], h, ?_, ?_⟩
    · rw [List.append_nil, List.splitOn_eq_singleton hpiece]
      simp [parseLoop]
    · rw [List.append_nil, List.splitOn_eq_singleton hpiece]
      rfl
  | cons chr rest ih =>
    have hnext : before.length + piece.length + 1 = (before ++ piece ++ ['&']).length := by
      simp [Nat.add_assoc]
    rw [parseLoop]
    by_cases hamp : chr = '&'
    · subst hamp
      rw [if_pos rfl]
      have hnew : Cursor.At (before ++ piece ++ ['&']).length []
          ⟨(before ++ piece ++ ['&']).length, none, none⟩ := .unmarked List.not_mem_nil
      obtain ⟨before', last, cursor', heq, hat, hloop, hlast⟩ :=
        ih hnew List.not_mem_nil (result ++ (fieldOf piece).toList)
      have htext : before ++ (piece ++ '&' :: rest) = before ++ piece ++ ['&'] ++ ([] ++ rest) := by
        simp
      have hsplit := List.splitOn_append_cons_self_of_not_mem hpiece rest
      have hne := List.splitOn_ne_nil '&' rest
      refine ⟨before', last, cursor', htext ▸ heq, hat, ?_, ?_⟩
      · dsimp only
        rw [h.emplace, hnext, htext]
        refine hloop.trans ?_
        rw [hsplit, List.dropLast_cons_of_ne_nil hne, List.filterMap_cons]
        cases fieldOf piece <;> simp
      · rw [hsplit, List.getLast?_cons_of_ne_nil hne]
        exact hlast
    · rw [if_neg hamp]
      have hsnoc : '&' ∉ piece ++ [chr] := by
        intro hmem
        rcases List.mem_append.mp hmem with hmem | hmem
        · exact hpiece hmem
        · exact hamp (List.mem_singleton.mp hmem).symm
      have htext : piece ++ chr :: rest = piece ++ [chr] ++ rest := by simp
      have hlength :
          before.length + piece.length + 1 = before.length + (piece ++ [chr]).length := by
        simp [Nat.add_assoc]
      rw [htext, hlength]
      by_cases heq : chr = '='
      · subst heq
        have hmark := h.mark
        rw [hlength] at hmark
        rw [if_pos rfl]
        exact ih hmark hsnoc result
      · rw [if_neg heq]
        exact ih (h.push heq) hsnoc result

/-- **What is parsed.** The fields are those of the pieces between ampersands,
in their order; pieces without a name are none. -/
theorem parse_eq (queryString : List Char) :
    parse queryString = (queryString.splitOn '&').filterMap fieldOf := by
  unfold parse
  by_cases hempty : queryString = []
  · rw [if_pos hempty, hempty]
    rfl
  rw [if_neg hempty]
  obtain ⟨before, last, cursor, heq, hat, hloop, hlast⟩ :=
    @parseLoop_eq queryString [] [] _ (.unmarked List.not_mem_nil) List.not_mem_nil []
  simp only [List.nil_append, List.length_nil, Nat.add_zero] at heq hloop hlast
  have hsplit := List.dropLast_append_getLast? last hlast
  rw [hloop]
  dsimp only
  rw [← hsplit, List.filterMap_append, hsplit]
  by_cases hlen : cursor.namePos < queryString.length
  · rw [if_pos hlen, heq, hat.emplace_last, List.filterMap_cons]
    cases fieldOf last <;> rfl
  · rw [if_neg hlen]
    rw [hat.namePos, heq, List.length_append] at hlen
    obtain rfl : last = [] := List.length_eq_zero_iff.mp (by omega)
    exact (List.append_nil _).symm

/-- Every field has a name, and no ampersand in it. -/
theorem name_of_mem_parse {queryString : List Char} {field : Field}
    (h : field ∈ parse queryString) : field.1 ≠ [] ∧ '&' ∉ field.1 := by
  rw [parse_eq] at h
  obtain ⟨piece, hpiece, hfield⟩ := List.mem_filterMap.mp h
  have hamp : '&' ∉ piece := not_mem_of_mem_splitOn hpiece
  unfold fieldOf at hfield
  by_cases heq : '=' ∈ piece
  · obtain ⟨name, value, rfl, hvalue⟩ := exists_splitLast heq
    rw [splitLast_append name hvalue, Option.getD_some] at hfield
    dsimp only at hfield
    split at hfield
    · cases hfield
    · rename_i hname
      cases hfield
      exact ⟨hname, fun hmem => hamp (List.mem_append_left _ hmem)⟩
  · rw [splitLast_of_not_mem heq, Option.getD_none] at hfield
    dsimp only at hfield
    split at hfield
    · cases hfield
    · rename_i hname
      cases hfield
      exact ⟨hname, hamp⟩

/-! ## Round trip -/

/-- What `create` writes for a field. -/
def pieceOf (field : Field) : List Char := field.1 ++ '=' :: Percent.encode field.2

theorem intercalate_cons (sep : Char) (s : List Char) (rest : List (List Char)) :
    [sep].intercalate (s :: rest) = s ++ rest.flatMap (sep :: ·) := by
  induction rest generalizing s with
  | nil => simp
  | cons t rest ih => rw [List.intercalate_cons_cons, ih]; simp

theorem create_eq (fields : List Field) :
    create fields = ['&'].intercalate (fields.map pieceOf) := by
  -- once a field is written, each of the others comes after an ampersand
  have hloop : ∀ (fields : List Field) (result : List Char),
      (fields.foldl (fun (result, first) field =>
        (result ++ (if !first then ['&'] else []) ++ field.1 ++ '=' :: Percent.encode field.2,
          false)) (result, false)).1 =
      result ++ (fields.map pieceOf).flatMap ('&' :: ·) := by
    intro fields
    induction fields with
    | nil => exact fun result => (List.append_nil result).symm
    | cons field fields ih =>
      intro result
      rw [List.foldl_cons, ih]
      simp [pieceOf]
  cases fields with
  | nil => rfl
  | cons field fields =>
    unfold create
    rw [List.foldl_cons]
    refine (hloop fields _).trans ?_
    rw [List.map_cons, intercalate_cons]
    simp [pieceOf]

theorem splitLast_pieceOf (field : Field) :
    splitLast '=' (pieceOf field) = some (field.1, Percent.encode field.2) :=
  splitLast_append field.1 (Percent.not_mem_encode field.2 (by decide) (by decide))

/-- Named fields come back with what is left of their values. -/
theorem parse_create {fields : List Field} (h : ∀ field ∈ fields, field.1 ≠ [] ∧ '&' ∉ field.1) :
    parse (create fields) =
      fields.map fun field => (field.1, Percent.decode (Percent.encode field.2)) := by
  have hamp : ∀ piece ∈ fields.map pieceOf, '&' ∉ piece := by
    intro piece hpiece hmem
    obtain ⟨field, hfield, rfl⟩ := List.mem_map.mp hpiece
    rcases List.mem_append.mp hmem with hmem | hmem
    · exact (h field hfield).2 hmem
    · rcases List.mem_cons.mp hmem with hmem | hmem
      · exact absurd hmem (by decide)
      · exact Percent.not_mem_encode field.2 (by decide) (by decide) hmem
  have hfield : ∀ field ∈ fields, fieldOf (pieceOf field) =
      some (field.1, Percent.decode (Percent.encode field.2)) := by
    intro field hfield
    rw [fieldOf, splitLast_pieceOf, Option.getD_some]
    exact if_neg (h field hfield).1
  rw [parse_eq, create_eq]
  cases fields with
  | nil => rfl
  | cons field fields =>
    rw [List.splitOn_intercalate '&' hamp (by simp), List.filterMap_map]
    exact List.filterMap_eq_map_iff_forall_eq_some.mpr hfield

/-- **What survives creating and parsing.** Fields do, in their order, exactly
if every name is there and without an ampersand, and every value survives its
encoding. -/
theorem parse_create_iff (fields : List Field) : parse (create fields) = fields ↔
    ∀ field ∈ fields, field.1 ≠ [] ∧ '&' ∉ field.1 ∧
      Percent.decode (Percent.encode field.2) = field.2 := by
  have hvalues : fields.map (fun field => (field.1, Percent.decode (Percent.encode field.2))) =
      fields ↔ ∀ field ∈ fields, Percent.decode (Percent.encode field.2) = field.2 := by
    conv_lhs => rhs; rw [← List.map_id fields]
    rw [List.map_inj_left]
    refine forall₂_congr fun field _ => ?_
    rw [id_eq, Prod.ext_iff]
    exact and_iff_right rfl
  constructor
  · intro h field hfield
    have hname : ∀ field ∈ fields, field.1 ≠ [] ∧ '&' ∉ field.1 := fun field hfield =>
      name_of_mem_parse (h.symm ▸ hfield)
    rw [parse_create hname, hvalues] at h
    exact ⟨(hname field hfield).1, (hname field hfield).2, h field hfield⟩
  · intro h
    rw [parse_create fun field hfield => ⟨(h field hfield).1, (h field hfield).2.1⟩, hvalues]
    exact fun field hfield => (h field hfield).2.2

/-- The form of two triggers, as a browser sends it. -/
example : parse "trigger0=3&trigger1=12".toList =
    [("trigger0".toList, "3".toList), ("trigger1".toList, "12".toList)] := by decide +kernel

end QueryString
end ResMonitor
