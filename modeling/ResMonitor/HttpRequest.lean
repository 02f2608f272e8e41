import ResMonitor.Lib.Streams
import ResMonitor.QueryString

/-! # Requests

`SimpleWeb::HttpHeader` and `SimpleWeb::RequestMessage`: what the server makes
of the head of a request. The header is read up to the first line without a
colon; the parser does not stop where there is none. -/

namespace ResMonitor
open StdString Streams

/-! ## The header -/

namespace HttpHeader

/-- What is emplaced for a line with its first colon at `param_end`: one blank
after the colon and the last character are left out. -/
def emplaced (line : List Char) (paramEnd : Nat) : Option Field :=
  let valueStart := paramEnd + 1
  if valueStart < line.length then
    let valueStart := if (line)[valueStart]? = some ' ' then valueStart + 1 else valueStart
    if valueStart < line.length then
      some (substr line 0 paramEnd, substr line valueStart (line.length - valueStart - 1))
    else none
  else none

/-- The loop of `parse`, which need not end: `none` if it takes more rounds. -/
def parseLoop : Nat → IStream → List Char → List Field → Option (List Field × IStream)
  | 0, _, _, _ => none
  | fuel + 1, stream, line, result =>
    match find ':' line 0 with
    | none => some (result, stream)
    | some paramEnd =>
      let (next, stream) := getline stream line
      parseLoop fuel stream next (result ++ (emplaced line paramEnd).toList)

/-- The fields in the order of their `emplace`, and what is left of the stream. -/
def parse (fuel : Nat) (stream : IStream) : Option (List Field × IStream) :=
  let (line, stream) := getline stream []
  parseLoop fuel stream line []

/-- The value that stands behind the colon of a line, if any. -/
def valueOf : List Char → Option (List Char)
  | [] => none
  | ' ' :: [] => none
  | ' ' :: value => some value.dropLast
  | value => some value.dropLast

/-- The field that a line is: its parts before and after its first colon. -/
def fieldOf (line : List Char) : Option Field := do
  let (name, rest) ← cutAt [':'] line
  (valueOf rest).map (name, ·)

theorem fieldOf_append {name : List Char} (h : ':' ∉ name) (rest : List Char) :
    fieldOf (name ++ ':' :: rest) = (valueOf rest).map (name, ·) := by
  rw [fieldOf, cutAt_singleton h]
  rfl

theorem valueOf_of_ne {c : Char} (h : c ≠ ' ') (value : List Char) :
    valueOf (c :: value) = some (c :: value).dropLast := by
  unfold valueOf
  split
  · rename_i heq
    cases heq
  · rename_i heq
    exact absurd (List.cons.inj heq).1 h
  · rename_i heq
    exact absurd (List.cons.inj heq).1 h
  · rfl

/-- The two positions cut the line as the pattern does. -/
theorem emplaced_eq {name : List Char} (h : ':' ∉ name) (rest : List Char) :
    emplaced (name ++ ':' :: rest) name.length = fieldOf (name ++ ':' :: rest) := by
  have hname := substr_zero name (':' :: rest)
  rw [fieldOf_append h]
  cases rest with
  | nil => simp [emplaced, valueOf]
  | cons c value =>
    by_cases hc : c = ' '
    · subst hc
      cases value with
      | nil => simp [emplaced, valueOf]
      | cons c value =>
        have hsplit : name ++ ':' :: ' ' :: c :: value = (name ++ [':', ' ']) ++ c :: value := by
          simp
        have hvalue := substr_dropLast (name ++ [':', ' ']) (c :: value)
        rw [← hsplit, List.length_append, List.length_cons, List.length_singleton] at hvalue
        have hblank : (name ++ ':' :: ' ' :: c :: value)[name.length + 1]? = some ' ' := by simp
        have hlen : (name ++ ':' :: ' ' :: c :: value).length = name.length + value.length + 3 := by
          simp
          omega
        simp only [emplaced, hblank, if_true, hname, hvalue, valueOf, Option.map_some]
        rw [if_pos (by omega), if_pos (by omega)]
    · have hsplit : name ++ ':' :: c :: value = (name ++ [':']) ++ c :: value := by simp
      have hvalue := substr_dropLast (name ++ [':']) (c :: value)
      rw [← hsplit, List.length_append, List.length_singleton] at hvalue
      have hnot : (name ++ ':' :: c :: value)[name.length + 1]? ≠ some ' ' := by simp [hc]
      have hlen : (name ++ ':' :: c :: value).length = name.length + value.length + 2 := by
        simp
        omega
      simp only [emplaced, if_neg hnot, hname, hvalue, valueOf_of_ne hc, Option.map_some]
      rw [if_pos (by omega), if_pos (by omega)]

/-- One round of the loop on a line with a colon. -/
theorem parseLoop_colon {line : List Char} (h : ':' ∈ line) (fuel : Nat) (stream : IStream)
    (result : List Field) : parseLoop (fuel + 1) stream line result =
      parseLoop fuel (getline stream line).2 (getline stream line).1
        (result ++ (fieldOf line).toList) := by
  obtain ⟨name, rest, rfl, hname⟩ := List.eq_append_cons_of_mem h
  have hfind := find_append [] hname rest
  rw [List.nil_append, List.length_nil, Nat.zero_add] at hfind
  rw [parseLoop, hfind, ← emplaced_eq hname]

theorem parseLoop_of_not_mem {line : List Char} (h : ':' ∉ line) (fuel : Nat) (stream : IStream)
    (result : List Field) : parseLoop (fuel + 1) stream line result = some (result, stream) := by
  have hfind := find_of_not_mem [] h
  rw [List.nil_append, List.length_nil] at hfind
  rw [parseLoop, hfind]

/-- A stream that is not good keeps the loop at its last line. -/
theorem parseLoop_ended {line : List Char} (h : ':' ∈ line) (fuel : Nat) (result : List Field) :
    parseLoop fuel (ofLines []) line result = none := by
  induction fuel generalizing result with
  | zero => rfl
  | succ fuel ih =>
    rw [parseLoop_colon h]
    exact ih _

/-- The loop on a line and the lines behind it: it stops at the first without a
colon, if it gets there. -/
theorem parseLoop_ofLines {lines : List (List Char)} (hlines : ∀ l ∈ lines, '\n' ∉ l)
    (line : List Char) (fuel : Nat) (result : List Field) :
    parseLoop fuel (ofLines lines) line result =
      if (line :: lines).findIdx (':' ∉ ·) < min fuel (lines.length + 1) then
        some (result ++ ((line :: lines).takeWhile (':' ∈ ·)).filterMap fieldOf,
          ofLines (((line :: lines).dropWhile (':' ∈ ·)).drop 1))
      else none := by
  induction lines generalizing line fuel result with
  | nil =>
    by_cases h : ':' ∈ line
    · rw [parseLoop_ended h, List.findIdx_cons]
      simp [h]
    · cases fuel with
      | zero => simp [parseLoop]
      | succ fuel =>
        rw [parseLoop_of_not_mem h, List.findIdx_cons]
        simp [h]
  | cons next lines ih =>
    obtain ⟨hnext, hlines⟩ := List.forall_mem_cons.mp hlines
    by_cases h : ':' ∈ line
    · cases fuel with
      | zero => simp [parseLoop]
      | succ fuel =>
        have hline : (line :: next :: lines).findIdx (':' ∉ ·) =
            (next :: lines).findIdx (':' ∉ ·) + 1 := by
          rw [List.findIdx_cons]
          simp [h]
        have hbound : (next :: lines).findIdx (':' ∉ ·) + 1 <
              min (fuel + 1) ((next :: lines).length + 1) ↔
            (next :: lines).findIdx (':' ∉ ·) < min fuel (lines.length + 1) := by
          rw [List.length_cons]
          omega
        rw [parseLoop_colon h, getline_ofLines hnext, ih hlines, hline]
        simp only [hbound]
        cases hfield : fieldOf line <;> simp [h, hfield]
    · cases fuel with
      | zero => simp [parseLoop]
      | succ fuel =>
        rw [parseLoop_of_not_mem h, List.findIdx_cons]
        simp [h]

theorem parse_ofLines {lines : List (List Char)} (hne : lines ≠ [])
    (hlines : ∀ l ∈ lines, '\n' ∉ l) (fuel : Nat) :
    parse fuel (ofLines lines) =
      if lines.findIdx (':' ∉ ·) < min fuel lines.length then
        some ((lines.takeWhile (':' ∈ ·)).filterMap fieldOf,
          ofLines ((lines.dropWhile (':' ∈ ·)).drop 1))
      else none := by
  obtain ⟨line, lines, rfl⟩ := List.exists_cons_of_ne_nil hne
  obtain ⟨hline, hlines⟩ := List.forall_mem_cons.mp hlines
  rw [parse, getline_ofLines hline]
  exact parseLoop_ofLines hlines line fuel []

/-- **When the header is read, and as what.** The parser returns exactly if some
line has no colon. Then the fields are those of the lines before the first such
line, and what comes behind it is left. -/
theorem header_read (text : List Char) :
    ((∃ fuel r, parse fuel ⟨text, true⟩ = some r) ↔ ∃ line ∈ text.splitOn '\n', ':' ∉ line) ∧
    ∀ fuel r, parse fuel ⟨text, true⟩ = some r →
      r = (((text.splitOn '\n').takeWhile (':' ∈ ·)).filterMap fieldOf,
        ofLines (((text.splitOn '\n').dropWhile (':' ∈ ·)).drop 1)) := by
  have hparse := parse_ofLines (List.splitOn_ne_nil '\n' text)
    fun l hl => not_mem_of_mem_splitOn hl
  rw [ofLines_splitOn] at hparse
  have hindex : (text.splitOn '\n').findIdx (':' ∉ ·) < (text.splitOn '\n').length ↔
      ∃ line ∈ text.splitOn '\n', ':' ∉ line := by
    rw [List.findIdx_lt_length]
    simp only [decide_eq_true_eq]
  refine ⟨⟨?_, ?_⟩, ?_⟩
  · intro ⟨fuel, r, h⟩
    rw [hparse] at h
    split at h
    · exact hindex.mp (by omega)
    · cases h
  · intro hline
    have hall := hparse (text.splitOn '\n').length
    rw [Nat.min_self, if_pos (hindex.mpr hline)] at hall
    exact ⟨_, _, hall⟩
  · intro fuel r h
    rw [hparse] at h
    split at h
    · exact (Option.some.inj h).symm
    · cases h

end HttpHeader

/-! ## The request line -/

/-- What `parse` sets; `path_match`, the address and the time of the request
have nothing to do with it. -/
structure RequestMessage where
  method : List Char
  path : List Char
  queryString : List Char
  version : List Char
  header : List Field
  deriving DecidableEq, Repr

namespace RequestMessage

/-- The loop over the target of the request: where the query starts and where
the target ends. -/
def targetLoop (size : Nat) : List Char → Nat → Option Nat → Option Nat × Option Nat
  | [], _, queryStart => (queryStart, none)
  | c :: rest, i, queryStart =>
    if c = '?' ∧ i + 1 < size then targetLoop size rest (i + 1) (some (i + 1))
    else if c = ' ' then (queryStart, some i)
    else targetLoop size rest (i + 1) queryStart

/-- `path` and `query_string`. -/
def pathAndQuery (line : List Char) (methodEnd pathAndQueryStringEnd : Nat) :
    Option Nat → List Char × List Char
  | some queryStart =>
    (substr line (methodEnd + 1) (queryStart - methodEnd - 2),
      substr line queryStart (pathAndQueryStringEnd - queryStart))
  | none => (substr line (methodEnd + 1) (pathAndQueryStringEnd - methodEnd - 1), [])

/-- The request line: the message without its header. -/
def parseLine (line : List Char) : Option RequestMessage := do
  let methodEnd ← find ' ' line 0
  let (queryStart, pathAndQueryStringEnd) :=
    targetLoop line.length (line.drop (methodEnd + 1)) (methodEnd + 1) none
  let pathAndQueryStringEnd ← pathAndQueryStringEnd
  let (path, queryString) := pathAndQuery line methodEnd pathAndQueryStringEnd queryStart
  let protocolEnd ← find '/' line (pathAndQueryStringEnd + 1)
  if substr line (pathAndQueryStringEnd + 1)
      (protocolEnd - pathAndQueryStringEnd - 1) ≠ "HTTP".toList then none
  else some {
    method := substr line 0 methodEnd
    path, queryString
    version := substr line (protocolEnd + 1) (line.length - protocolEnd - 2)
    header := [] }

/-! ### What a request line is -/

/-- The target at its last question mark. -/
def splitTarget (target : List Char) : List Char × List Char :=
  (splitLast '?' target).getD (target, [])

theorem targetLoop_append {size : Nat} {target : List Char} (h : ' ' ∉ target)
    (rest : List Char) {i : Nat} (hi : i + target.length < size) (queryStart : Option Nat) :
    targetLoop size (target ++ ' ' :: rest) i queryStart =
      ((splitLast '?' target).elim queryStart (fun (before, _) => some (i + before.length + 1)),
        some (i + target.length)) := by
  induction target generalizing i queryStart with
  | nil => simp [targetLoop, splitLast]
  | cons c target ih =>
    obtain ⟨hc, htarget⟩ := not_or.mp (mt List.mem_cons.mpr h)
    rw [List.length_cons] at hi
    have hmove := fun q => @ih htarget (i + 1) (by omega) q
    have hlen : i + (c :: target).length = i + 1 + target.length := by
      rw [List.length_cons]
      omega
    rw [List.cons_append, targetLoop, splitLast, hlen]
    by_cases hquery : c = '?'
    · rw [if_pos ⟨hquery, by omega⟩, hmove, hquery]
      cases hsplit : splitLast '?' target with
      | none => simp
      | some parts =>
        simp only [Option.elim_some, List.length_cons]
        congr 2
        omega
    · rw [if_neg fun h => hquery h.1, if_neg (Ne.symm hc), hmove]
      cases hsplit : splitLast '?' target with
      | none => simp [hquery]
      | some parts =>
        simp only [Option.elim_some, List.length_cons]
        congr 2
        omega

theorem targetLoop_of_not_mem {s : List Char} (h : ' ' ∉ s) (size i : Nat)
    (queryStart : Option Nat) : (targetLoop size s i queryStart).2 = none := by
  induction s generalizing i queryStart with
  | nil => rfl
  | cons c s ih =>
    obtain ⟨hc, hs⟩ := not_or.mp (mt List.mem_cons.mpr h)
    rw [targetLoop]
    split
    · exact ih hs _ _
    · rw [if_neg (Ne.symm hc)]
      exact ih hs _ _

/-- The positions cut the target as the pattern does. -/
theorem pathAndQuery_eq (method target after : List Char) :
    pathAndQuery (method ++ ' ' :: (target ++ after)) method.length
        (method.length + 1 + target.length)
        ((splitLast '?' target).elim none
          fun (before, _) => some (method.length + 1 + before.length + 1)) =
      splitTarget target := by
  have hline : method ++ ' ' :: (target ++ after) = (method ++ [' ']) ++ (target ++ after) := by
    simp
  have hlen : (method ++ [' ']).length = method.length + 1 := by simp
  by_cases hquery : '?' ∈ target
  · obtain ⟨path, query, rfl, hafter⟩ := exists_splitLast hquery
    have hpath := substr_append (method ++ [' ']) path ('?' :: query ++ after)
    have hvalue := substr_append (method ++ [' '] ++ path ++ ['?']) query after
    have hlen' : (method ++ [' '] ++ path ++ ['?']).length =
        method.length + 1 + path.length + 1 := by
      simp
      omega
    rw [hlen] at hpath
    rw [hlen'] at hvalue
    have hpathlen : method.length + 1 + path.length + 1 - method.length - 2 = path.length := by
      omega
    have hquerylen : method.length + 1 + (path ++ '?' :: query).length -
        (method.length + 1 + path.length + 1) = query.length := by
      rw [List.length_append, List.length_cons]
      omega
    rw [splitTarget, splitLast_append path hafter, Option.elim_some, Option.getD_some]
    simp only [List.append_assoc, List.cons_append, List.nil_append] at hpath hvalue
    simp only [pathAndQuery, hpathlen, hquerylen, List.append_assoc, List.cons_append, hpath,
      hvalue]
  · have hpath := substr_append (method ++ [' ']) target after
    have hpathlen : method.length + 1 + target.length - method.length - 1 = target.length := by
      omega
    rw [hlen, ← hline] at hpath
    rw [splitTarget, splitLast_of_not_mem hquery, Option.elim_none, Option.getD_none]
    simp only [pathAndQuery, hpathlen, hpath]

theorem find_method {method : List Char} (h : ' ' ∉ method) (rest : List Char) :
    find ' ' (method ++ ' ' :: rest) 0 = some method.length := by
  have hfind := find_append [] h rest
  rwa [List.nil_append, List.length_nil, Nat.zero_add] at hfind

theorem drop_method (method rest : List Char) :
    (method ++ ' ' :: rest).drop (method.length + 1) = rest := by
  rw [List.drop_append, List.drop_of_length_le (by omega), Nat.add_sub_cancel_left]
  rfl

/-- The loop over the target of a line that has one. -/
theorem targetLoop_line {target : List Char} (h : ' ' ∉ target) (method rest : List Char) :
    targetLoop (method ++ ' ' :: (target ++ ' ' :: rest)).length (target ++ ' ' :: rest)
        (method.length + 1) none =
      ((splitLast '?' target).elim none
        (fun (before, _) => some (method.length + 1 + before.length + 1)),
        some (method.length + 1 + target.length)) := by
  refine targetLoop_append h rest ?_ none
  simp
  omega

/-- What stands before the protocol. -/
theorem length_beforeProtocol (method target : List Char) :
    (method ++ ' ' :: (target ++ [' '])).length = method.length + 1 + target.length + 1 := by
  simp
  omega

/-- A line with three parts, read. -/
theorem parseLine_eq {method target protocol : List Char} (hmethod : ' ' ∉ method)
    (htarget : ' ' ∉ target) (hprotocol : '/' ∉ protocol) (tail : List Char) :
    parseLine (method ++ ' ' :: (target ++ ' ' :: (protocol ++ '/' :: tail))) =
      if protocol = "HTTP".toList then
        some ⟨method, (splitTarget target).1, (splitTarget target).2, tail.dropLast, []⟩
      else none := by
  -- the line with everything before the protocol in front
  have hline : method ++ ' ' :: (target ++ ' ' :: (protocol ++ '/' :: tail)) =
      (method ++ ' ' :: (target ++ [' '])) ++ (protocol ++ '/' :: tail) := by simp
  have hlen := length_beforeProtocol method target
  have hparts := pathAndQuery_eq method target (' ' :: (protocol ++ '/' :: tail))
  have hslash := find_append (method ++ ' ' :: (target ++ [' '])) hprotocol tail
  have hname := substr_append (method ++ ' ' :: (target ++ [' '])) protocol ('/' :: tail)
  have hversion :=
    substr_dropLast ((method ++ ' ' :: (target ++ [' '])) ++ (protocol ++ ['/'])) tail
  have hfirst := substr_zero method (' ' :: (target ++ ' ' :: (protocol ++ '/' :: tail)))
  have hline' : ((method ++ ' ' :: (target ++ [' '])) ++ (protocol ++ ['/'])) ++ tail =
      method ++ ' ' :: (target ++ ' ' :: (protocol ++ '/' :: tail)) := by simp
  have hlen' : ((method ++ ' ' :: (target ++ [' '])) ++ (protocol ++ ['/'])).length =
      method.length + 1 + target.length + 1 + protocol.length + 1 := by
    rw [List.length_append, hlen, List.length_append, List.length_singleton]
    omega
  rw [hlen, ← hline] at hslash hname
  rw [hline', hlen'] at hversion
  have hprotocolLen : method.length + 1 + target.length + 1 + protocol.length -
      (method.length + 1 + target.length) - 1 = protocol.length := by omega
  have hversionLen : ∀ n, n - (method.length + 1 + target.length + 1 + protocol.length) - 2 =
      n - (method.length + 1 + target.length + 1 + protocol.length + 1) - 1 := by omega
  simp only [parseLine, find_method hmethod, drop_method, targetLoop_line htarget, hparts, hslash,
    hprotocolLen, hname, hfirst, hversionLen, hversion, bind, Option.bind]
  by_cases hhttp : protocol = "HTTP".toList
  · rw [if_neg (not_not.mpr hhttp), if_pos hhttp]
  · rw [if_pos hhttp, if_neg hhttp]

theorem parseLine_noMethod {line : List Char} (h : ' ' ∉ line) : parseLine line = none := by
  have hfind := find_of_not_mem [] h
  rw [List.nil_append, List.length_nil] at hfind
  rw [parseLine, hfind]
  rfl

theorem parseLine_noTarget {method rest : List Char} (hmethod : ' ' ∉ method) (hrest : ' ' ∉ rest) :
    parseLine (method ++ ' ' :: rest) = none := by
  have hloop := targetLoop_of_not_mem hrest (method ++ ' ' :: rest).length (method.length + 1) none
  simp only [parseLine, find_method hmethod, drop_method, hloop, bind, Option.bind]

theorem parseLine_noProtocol {method target rest : List Char} (hmethod : ' ' ∉ method)
    (htarget : ' ' ∉ target) (hrest : '/' ∉ rest) :
    parseLine (method ++ ' ' :: (target ++ ' ' :: rest)) = none := by
  have hslash := find_of_not_mem (method ++ ' ' :: (target ++ [' '])) hrest
  have hline : (method ++ ' ' :: (target ++ [' '])) ++ rest =
      method ++ ' ' :: (target ++ ' ' :: rest) := by simp
  rw [length_beforeProtocol, hline] at hslash
  simp only [parseLine, find_method hmethod, drop_method, targetLoop_line htarget, hslash, bind,
    Option.bind]

/-- **What a request line is.** Three parts with blanks between them, the first
two without blanks and the last one beginning with `HTTP/`. The target is cut at
its last question mark, and the last character of the line belongs to nothing. -/
theorem parseLine_iff (line : List Char) (message : RequestMessage) :
    parseLine line = some message ↔ ∃ method target tail,
      line = method ++ ' ' :: (target ++ ' ' :: ("HTTP".toList ++ '/' :: tail)) ∧
      ' ' ∉ method ∧ ' ' ∉ target ∧ message =
        ⟨method, (splitTarget target).1, (splitTarget target).2, tail.dropLast, []⟩ := by
  constructor
  · intro h
    by_cases hblank : ' ' ∈ line
    · obtain ⟨method, rest, rfl, hmethod⟩ := List.eq_append_cons_of_mem hblank
      by_cases hblank' : ' ' ∈ rest
      · obtain ⟨target, rest, rfl, htarget⟩ := List.eq_append_cons_of_mem hblank'
        by_cases hslash : '/' ∈ rest
        · obtain ⟨protocol, tail, rfl, hprotocol⟩ := List.eq_append_cons_of_mem hslash
          rw [parseLine_eq hmethod htarget hprotocol] at h
          split at h
          · rename_i hhttp
            rw [hhttp]
            exact ⟨method, target, tail, rfl, hmethod, htarget, (Option.some.inj h).symm⟩
          · cases h
        · rw [parseLine_noProtocol hmethod htarget hslash] at h
          cases h
      · rw [parseLine_noTarget hmethod hblank'] at h
        cases h
    · rw [parseLine_noMethod hblank] at h
      cases h
  · intro ⟨method, target, tail, hline, hmethod, htarget, hmessage⟩
    rw [hline, parseLine_eq hmethod htarget (by decide), if_pos rfl, hmessage]

/-- The message, if the line is one of a request, and what is left of the stream. -/
def parse (fuel : Nat) (stream : IStream) : Option (Option RequestMessage × IStream) :=
  let (line, stream) := getline stream []
  match parseLine line with
  | none => some (none, stream)
  | some message =>
    match HttpHeader.parse fuel stream with
    | none => none
    | some (header, stream) => some (some { message with header }, stream)

end RequestMessage

/-! ## Requests that are written down -/

/-- The head of a request, with what its parts must not contain. -/
structure RequestHead where
  method : List Char
  path : List Char
  /-- What stands behind the question mark, if there is one. -/
  query : Option (List Char)
  version : List Char
  header : List Field
  method_plain : ' ' ∉ method ∧ '\n' ∉ method
  path_plain : ' ' ∉ path ∧ '\n' ∉ path ∧ (query = none → '?' ∉ path)
  query_plain : ∀ q ∈ query, ' ' ∉ q ∧ '\n' ∉ q ∧ '?' ∉ q
  version_plain : '\n' ∉ version
  header_plain : ∀ field ∈ header, ':' ∉ field.1 ∧ '\n' ∉ field.1 ∧ '\n' ∉ field.2

namespace RequestHead

def target (r : RequestHead) : List Char :=
  r.path ++ match r.query with
    | some q => '?' :: q
    | none => []

def requestLine (r : RequestHead) : List Char :=
  r.method ++ ' ' :: (r.target ++ ' ' :: ("HTTP".toList ++ '/' :: r.version))

def headerLine (field : Field) : List Char := field.1 ++ ':' :: ' ' :: field.2

/-- All but the blank line at the end. -/
def text (r : RequestHead) : List Char :=
  crlf.intercalate (r.requestLine :: r.header.map headerLine)

/-- What the server is to make of it. -/
def message (r : RequestHead) : RequestMessage where
  method := r.method
  path := r.path
  queryString := r.query.getD []
  version := r.version
  header := r.header

theorem target_plain (r : RequestHead) : ' ' ∉ r.target ∧ '\n' ∉ r.target ∧
    RequestMessage.splitTarget r.target = (r.path, r.query.getD []) := by
  obtain ⟨hblank, hnewline, hquery⟩ := r.path_plain
  unfold target RequestMessage.splitTarget
  cases hq : r.query with
  | none =>
    rw [List.append_nil, splitLast_of_not_mem (hquery hq)]
    exact ⟨hblank, hnewline, rfl⟩
  | some q =>
    obtain ⟨hblank', hnewline', hquery'⟩ := r.query_plain q hq
    rw [splitLast_append r.path hquery']
    exact ⟨by simp [hblank, hblank'], by simp [hnewline, hnewline'], rfl⟩

theorem not_newline_requestLine (r : RequestHead) : '\n' ∉ r.requestLine := by
  simp [requestLine, r.method_plain.2, r.target_plain.2.1, r.version_plain]

theorem headerLine_plain (r : RequestHead) {field : Field} (h : field ∈ r.header) :
    ':' ∈ headerLine field ∧ '\n' ∉ headerLine field ∧
    HttpHeader.fieldOf (headerLine field ++ ['\r']) = some field := by
  obtain ⟨hcolon, hname, hvalue⟩ := r.header_plain field h
  refine ⟨by simp [headerLine], by simp [headerLine, hname, hvalue], ?_⟩
  have hline : headerLine field ++ ['\r'] = field.1 ++ ':' :: ' ' :: (field.2 ++ ['\r']) := by
    simp [headerLine]
  have hread : HttpHeader.valueOf (' ' :: (field.2 ++ ['\r'])) = some field.2 := by
    cases field.2 with
    | nil => rfl
    | cons c value =>
      change some ((c :: value) ++ ['\r']).dropLast = _
      rw [List.dropLast_concat]
  rw [hline, HttpHeader.fieldOf_append hcolon, hread, Option.map_some]

/-- The header is read up to the blank line. -/
theorem header_text (r : RequestHead) (more : List Char) {fuel : Nat}
    (hfuel : r.header.length < fuel) :
    HttpHeader.parse fuel (ofLines (((r.header.map headerLine).map (· ++ ['\r']) ++ [['\r']]) ++
      more.splitOn '\n')) = some (r.header, ⟨more, true⟩) := by
  have hcolon : ∀ l ∈ (r.header.map headerLine).map (· ++ ['\r']), decide (':' ∈ l) = true := by
    intro l hl
    obtain ⟨_, hline, rfl⟩ := List.mem_map.mp hl
    obtain ⟨field, hfield, rfl⟩ := List.mem_map.mp hline
    exact decide_eq_true (List.mem_append_left _ (r.headerLine_plain hfield).1)
  have hlines : ∀ l ∈ ((r.header.map headerLine).map (· ++ ['\r']) ++ [['\r']]) ++
      more.splitOn '\n', '\n' ∉ l := by
    intro l hl
    rcases List.mem_append.mp hl with hl | hl
    · rcases List.mem_append.mp hl with hl | hl
      · obtain ⟨_, hline, rfl⟩ := List.mem_map.mp hl
        obtain ⟨field, hfield, rfl⟩ := List.mem_map.mp hline
        simp [(r.headerLine_plain hfield).2.1]
      · rw [List.mem_singleton.mp hl]
        decide
    · exact not_mem_of_mem_splitOn hl
  -- the line of the blank line is the first without a colon
  have hindex : (((r.header.map headerLine).map (· ++ ['\r']) ++ [['\r']]) ++
      more.splitOn '\n').findIdx (':' ∉ ·) = r.header.length := by
    rw [List.append_assoc, List.findIdx_append, if_neg]
    · simp [List.findIdx_cons]
    · intro hlt
      obtain ⟨l, hl, hnot⟩ := List.findIdx_lt_length.mp hlt
      exact absurd (of_decide_eq_true (hcolon l hl)) (of_decide_eq_true hnot)
  have hfields : (r.header.filterMap fun field =>
      HttpHeader.fieldOf (headerLine field ++ ['\r'])) = r.header := by
    conv_rhs => rw [← List.filterMap_some (l := r.header)]
    exact List.filterMap_congr fun field hfield => (r.headerLine_plain hfield).2.2
  rw [HttpHeader.parse_ofLines (by simp) hlines, hindex, if_pos, List.append_assoc,
    List.takeWhile_append_of_pos hcolon, List.dropWhile_append_of_pos hcolon]
  · simp [hfields, ofLines_splitOn]
  · simp
    omega

/-- **A request that is written down is read back**, and what follows it is left
on the stream. -/
theorem parse_text (r : RequestHead) (more : List Char) {fuel : Nat}
    (hfuel : r.header.length < fuel) :
    RequestMessage.parse fuel ⟨r.text ++ (blankLine ++ more), true⟩ =
      some (some r.message, ⟨more, true⟩) := by
  have hline : '\n' ∉ r.requestLine ++ ['\r'] := by simp [r.not_newline_requestLine]
  have hparse : RequestMessage.parseLine (r.requestLine ++ ['\r']) =
      some { r.message with header := [] } := by
    obtain ⟨hblank, -, hsplit⟩ := r.target_plain
    refine (RequestMessage.parseLine_iff _ _).mpr
      ⟨r.method, r.target, r.version ++ ['\r'], ?_, r.method_plain.1, hblank, ?_⟩
    · simp [requestLine]
    · rw [hsplit, List.dropLast_concat]
      rfl
  rw [text, intercalate_crlf, ← ofLines_append, List.map_cons, List.cons_append, List.cons_append,
    RequestMessage.parse, getline_ofLines hline]
  dsimp only
  rw [hparse]
  dsimp only
  rw [r.header_text more hfuel]
  rfl

/-- The head ends with the first blank line. -/
theorem cutAt_text (r : RequestHead) (more : List Char) :
    cutAt blankLine (r.text ++ (blankLine ++ more)) = some (r.text, more) := by
  refine cutAt_blankLine_lines r.not_newline_requestLine (fun l hl => ?_) more
  obtain ⟨field, hfield, rfl⟩ := List.mem_map.mp hl
  obtain ⟨hcolon, hnewline, -⟩ := r.headerLine_plain hfield
  exact ⟨List.ne_nil_of_mem hcolon, hnewline⟩

end RequestHead
end ResMonitor
