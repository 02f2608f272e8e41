import ResMonitor.HttpRequest

/-! # Sessions

`SimpleWeb::ServerBase::read`: one request, read from the pieces in which its
bytes arrive. A body is announced by its length or sent in chunks; without
either, what came in with the head is the content. The limit on the size of the
buffer is the largest that there is and is never reached; a connection that
breaks or times out is one whose bytes are missing. -/

namespace ResMonitor
open StdString Streams

/-! ## Header fields -/

def caseInsensitiveEqual (str1 str2 : List Char) : Bool :=
  str1.map Char.toLower == str2.map Char.toLower

/-- The order in which a multimap with these fields is iterated. -/
structure IterationOrder where
  arrange : List Field → List Field
  perm : ∀ fields, (arrange fields).Perm fields

namespace IterationOrder

/-- `find` and `equal_range` meet the fields of one name in this order. -/
def range (order : IterationOrder) (header : List Field) (name : List Char) : List Field :=
  (order.arrange header).filter fun field => caseInsensitiveEqual field.1 name

def find (order : IterationOrder) (header : List Field) (name : List Char) : Option Field :=
  (order.range header name).head?

end IterationOrder

def contentLength : List Char := "Content-Length".toList

def transferEncoding : List Char := "Transfer-Encoding".toList

/-- `std::stoul(s, 0, 16)`, where `unsigned long` has 64 bits. -/
def stoul16 (s : List Char) : Except StdString.Exception Nat :=
  let (negative, s) := readSign (s.dropWhile isSpace)
  match s.head?.bind Percent.hexValue with
  | none => .error .invalidArgument
  | some _ => unsignedOf negative (Percent.hexNumber 0 (Percent.skipPrefix s))

/-! ## Reading a request -/

/-- What becomes of a session. -/
inductive Reading where
  /-- Bytes are missing. -/
  | pending
  | onError
  /-- `pop_back` of an empty line, or an allocation of more than there can be. -/
  | undefined
  /-- The message and its content; other pieces are still to come. -/
  | findResource (message : RequestMessage) (content : List Char) (arriving : List (List Char))
  deriving DecidableEq, Repr

/-- `read_chunked_transfer_encoded` and the reading of the chunk itself: `none`
if there are more chunks than `fuel`. -/
def readChunked (message : RequestMessage) :
    Nat → IStream → List (List Char) → List Char → Option Reading
  | 0, _, _, _ => none
  | fuel + 1, content, arriving, chunks =>
    match readUntil crlf arriving content.rest with
    | none => some .pending
    | some (bytesTransferred, streambuf, arriving) =>
      let (line, content) := getline ⟨streambuf, content.good⟩ []
      let bytesTransferred := bytesTransferred - (line.length + 1)
      if line = [] then some .undefined
      else match stoul16 line.dropLast with
        | .error _ => some .onError
        | .ok length =>
          let numAdditionalBytes := content.rest.length - bytesTransferred
          match readExactly ((2 + length) % 2 ^ 64 - numAdditionalBytes) arriving
            content.rest with
          | none => some .pending
          | some (streambuf, arriving) =>
            if 2 ^ 63 ≤ length then some .undefined
            else
              let chunks := chunks ++ streambuf.take length
              let rest := streambuf.drop (length + 2)
              if 0 < length then readChunked message fuel ⟨rest, content.good⟩ arriving chunks
              else some (.findResource message (rest ++ chunks) arriving)

/-- The part of `read` after the head. -/
def readContent (order : IterationOrder) (fuel : Nat) (message : RequestMessage)
    (numAdditionalBytes : Nat) (content : IStream) (arriving : List (List Char)) :
    Option Reading :=
  match order.find message.header contentLength with
  | some field =>
    match stoull field.2 with
    | .error _ => some .onError
    | .ok contentLength =>
      match readExactly (contentLength - numAdditionalBytes) arriving content.rest with
      | none => some .pending
      | some (streambuf, arriving) => some (.findResource message streambuf arriving)
  | none =>
    if (order.find message.header transferEncoding).map Prod.snd = some "chunked".toList then
      readChunked message fuel content arriving []
    else some (.findResource message content.rest arriving)

/-- `read`, on a connection where these pieces arrive. -/
def read (order : IterationOrder) (fuel : Nat) (arriving : List (List Char)) : Option Reading :=
  match readUntil blankLine arriving [] with
  | none => some .pending
  | some (bytesTransferred, streambuf, arriving) =>
    let numAdditionalBytes := streambuf.length - bytesTransferred
    match RequestMessage.parse fuel ⟨streambuf, true⟩ with
    | none => none
    | some (none, _) => some .onError
    | some (some message, content) =>
      readContent order fuel message numAdditionalBytes content arriving

/-! ## Chunks -/

/-- Hexadecimal digits, and the number that they are. -/
structure HexNumber (s : List Char) (n : Nat) : Prop where
  nonempty : s ≠ []
  digits : ∀ c ∈ s, (Percent.hexValue c).isSome = true
  value : Percent.hexNumber 0 s = n

theorem HexNumber.not_mem {s : List Char} {n : Nat} (h : HexNumber s n) {c : Char}
    (hc : Percent.hexValue c = none) : c ∉ s := by
  intro hmem
  have hdigit := h.digits c hmem
  rw [hc] at hdigit
  cases hdigit

theorem HexNumber.skipPrefix {s : List Char} {n : Nat} (h : HexNumber s n) :
    Percent.skipPrefix s = s := by
  unfold Percent.skipPrefix
  split
  · exact absurd (by simp) (h.not_mem (c := 'x') rfl)
  · exact absurd (by simp) (h.not_mem (c := 'X') rfl)
  · rfl

theorem stoul16_hexNumber {s : List Char} {n : Nat} (h : HexNumber s n) (hn : n < 2 ^ 64) :
    stoul16 s = .ok n := by
  obtain ⟨c, cs, rfl⟩ := List.exists_cons_of_ne_nil h.nonempty
  obtain ⟨d, hd⟩ := Option.isSome_iff_exists.mp (h.digits c List.mem_cons_self)
  have hspace : (c :: cs).dropWhile isSpace = c :: cs := by
    refine List.dropWhile_cons_of_neg fun hspace => ?_
    simp only [isSpace, decide_eq_true_eq, List.mem_cons, List.not_mem_nil, or_false] at hspace
    rcases hspace with rfl | rfl | rfl | rfl | rfl | rfl <;> cases hd
  have hsign : readSign (c :: cs) = (false, c :: cs) := by
    unfold readSign
    split
    · rename_i heq
      exact absurd (heq ▸ List.mem_cons_self) (h.not_mem (c := '-') rfl)
    · rename_i heq
      exact absurd (heq ▸ List.mem_cons_self) (h.not_mem (c := '+') rfl)
    · rfl
  unfold stoul16
  rw [hspace, hsign]
  dsimp only
  rw [List.head?_cons, Option.bind_some, hd]
  dsimp only
  rw [h.skipPrefix, h.value, unsignedOf, if_neg (by omega)]
  rfl

/-- A chunk as it is sent. -/
structure Chunk where
  size : List Char
  data : List Char
  size_hex : HexNumber size data.length
  fits : data.length < 2 ^ 63

namespace Chunk

def text (chunk : Chunk) : List Char := chunk.size ++ (crlf ++ (chunk.data ++ crlf))

theorem size_plain (chunk : Chunk) : '\r' ∉ chunk.size ∧ '\n' ∉ chunk.size :=
  ⟨chunk.size_hex.not_mem rfl, chunk.size_hex.not_mem rfl⟩

/-- **One chunk.** Its data is appended, and the next one is read unless it has
no data. -/
theorem readChunked_text (chunk : Chunk) (message : RequestMessage) (fuel : Nat)
    {buffer more : List Char} {arriving : List (List Char)} (chunks : List Char)
    (h : buffer ++ arriving.flatten = chunk.text ++ more) :
    ∃ extra arriving', extra ++ arriving'.flatten = more ∧
      readChunked message (fuel + 1) ⟨buffer, true⟩ arriving chunks =
        if chunk.data = [] then some (.findResource message (extra ++ chunks) arriving')
        else readChunked message fuel ⟨extra, true⟩ arriving' (chunks ++ chunk.data) := by
  obtain ⟨hreturn, hnewline⟩ := chunk.size_plain
  have hfits := chunk.fits
  have hcut : cutAt crlf (buffer ++ arriving.flatten) =
      some (chunk.size, chunk.data ++ (crlf ++ more)) := by
    rw [h, text, List.append_assoc, List.append_assoc, List.append_assoc]
    exact cutAt_crlf hreturn _
  obtain ⟨behind, arriving₁, huntil, hbehind⟩ := readUntil_eq hcut
  have htext : behind ++ arriving₁.flatten = (chunk.data ++ crlf) ++ more := by
    rw [hbehind, List.append_assoc]
  obtain ⟨extra, arriving₂, hexactly, hextra⟩ := readExactly_text htext
  have hline : '\n' ∉ chunk.size ++ ['\r'] := by simp [hnewline]
  have hget : getline ⟨chunk.size ++ (crlf ++ behind), true⟩ [] =
      (chunk.size ++ ['\r'], ⟨behind, true⟩) := by
    have hsplit : chunk.size ++ (crlf ++ behind) = (chunk.size ++ ['\r']) ++ '\n' :: behind := by
      simp [crlf]
    rw [hsplit]
    exact getline_append hline behind []
  have hlength : (2 + chunk.data.length) % 2 ^ 64 = (chunk.data ++ crlf).length := by
    rw [List.length_append, Nat.mod_eq_of_lt (by omega), Nat.add_comm]
    rfl
  have htransferred :
      chunk.size.length + crlf.length - ((chunk.size ++ ['\r']).length + 1) = 0 := by
    simp [crlf]
  have htake : (chunk.data ++ crlf ++ extra).take chunk.data.length = chunk.data := by
    rw [List.append_assoc, List.take_left]
  have hdrop : (chunk.data ++ crlf ++ extra).drop (chunk.data.length + 2) = extra :=
    List.drop_left' (by simp [crlf])
  refine ⟨extra, arriving₂, hextra, ?_⟩
  rw [readChunked, huntil]
  dsimp only
  rw [hget]
  dsimp only
  rw [if_neg (by simp), List.dropLast_concat, stoul16_hexNumber chunk.size_hex (by omega)]
  dsimp only
  rw [htransferred, Nat.sub_zero, hlength, hexactly]
  dsimp only
  rw [if_neg (by omega), htake, hdrop]
  cases hdata : chunk.data with
  | nil => simp
  | cons c data => simp

end Chunk

/-- All chunks, up to the one without data. -/
theorem readChunked_texts (message : RequestMessage) {chunks : List Chunk} {last : Chunk}
    (hchunks : ∀ chunk ∈ chunks, chunk.data ≠ []) (hlast : last.data = []) {fuel : Nat}
    (hfuel : chunks.length < fuel) {buffer more : List Char} {arriving : List (List Char)}
    (before : List Char)
    (h : buffer ++ arriving.flatten = chunks.flatMap Chunk.text ++ (last.text ++ more)) :
    ∃ extra arriving', extra ++ arriving'.flatten = more ∧
      readChunked message fuel ⟨buffer, true⟩ arriving before = some
        (.findResource message (extra ++ (before ++ chunks.flatMap Chunk.data)) arriving') := by
  induction chunks generalizing fuel buffer arriving before with
  | nil =>
    obtain ⟨fuel, rfl⟩ := Nat.exists_eq_add_of_lt hfuel
    obtain ⟨extra, arriving', hextra, hread⟩ := last.readChunked_text message _ before h
    refine ⟨extra, arriving', hextra, ?_⟩
    rw [hread, if_pos hlast, List.flatMap_nil, List.append_nil]
  | cons chunk chunks ih =>
    obtain ⟨hdata, hchunks⟩ := List.forall_mem_cons.mp hchunks
    obtain ⟨fuel, rfl⟩ : ∃ n, fuel = n + 1 := ⟨fuel - 1, by omega⟩
    rw [List.length_cons, Nat.add_lt_add_iff_right] at hfuel
    rw [List.flatMap_cons, List.append_assoc] at h
    obtain ⟨behind, arriving₁, hbehind, hread⟩ := chunk.readChunked_text message fuel before h
    obtain ⟨extra, arriving', hextra, hrest⟩ := ih hchunks hfuel (before ++ chunk.data) hbehind
    refine ⟨extra, arriving', hextra, ?_⟩
    rw [hread, if_neg hdata, hrest, List.flatMap_cons, List.append_assoc]

/-! ## What a request does not need -/

/-- A reader leaves other pieces behind it: it needs none that come later, and
leaves none without bytes. -/
def Leaves (reader : List (List Char) → Option Reading) (arriving : List (List Char))
    (message : RequestMessage) (content : List Char) (arriving' : List (List Char)) : Prop :=
  (∀ following, reader (arriving ++ following) =
    some (.findResource message content (arriving' ++ following))) ∧
  ((∀ piece ∈ arriving, piece ≠ []) → ∀ piece ∈ arriving', piece ≠ [])

theorem leaves_readChunked {message m : RequestMessage} {fuel : Nat} {content : IStream}
    {arriving arriving' : List (List Char)} {chunks c : List Char}
    (h : readChunked message fuel content arriving chunks = some (.findResource m c arriving')) :
    Leaves (readChunked message fuel content · chunks) arriving m c arriving' := by
  induction fuel generalizing content arriving chunks with
  | zero => cases h
  | succ fuel ih =>
    unfold Leaves
    simp only [readChunked]
    rw [readChunked] at h
    cases huntil : readUntil crlf arriving content.rest with
    | none =>
      rw [huntil] at h
      cases h
    | some r =>
      obtain ⟨n, streambuf, arriving₁⟩ := r
      rw [huntil] at h
      simp only [readUntil_append huntil]
      dsimp only at h
      split at h
      · cases h
      · rename_i hline
        simp only [if_neg hline]
        split at h
        · cases h
        · split at h
          · cases h
          · rename_i rest arriving₂ hexactly
            simp only [readExactly_append hexactly]
            have hne := fun hall => ne_nil_of_readExactly hexactly (ne_nil_of_readUntil huntil hall)
            split at h
            · cases h
            · rename_i hfits
              simp only [if_neg hfits]
              split at h
              · rename_i hpos
                simp only [if_pos hpos]
                obtain ⟨happend, hrest⟩ := ih h
                exact ⟨happend, fun hall => hrest (hne hall)⟩
              · rename_i hzero
                simp only [if_neg hzero]
                cases h
                exact ⟨fun _ => rfl, hne⟩

theorem leaves_readContent {order : IterationOrder} {fuel : Nat} {message m : RequestMessage}
    {numAdditionalBytes : Nat} {content : IStream} {c : List Char}
    {arriving arriving' : List (List Char)}
    (h : readContent order fuel message numAdditionalBytes content arriving =
      some (.findResource m c arriving')) :
    Leaves (readContent order fuel message numAdditionalBytes content) arriving m c
      arriving' := by
  unfold Leaves
  simp only [readContent]
  rw [readContent] at h
  split at h
  · split at h
    · cases h
    · split at h
      · cases h
      · rename_i rest arriving₂ hexactly
        simp only [readExactly_append hexactly]
        cases h
        exact ⟨fun _ => rfl, ne_nil_of_readExactly hexactly⟩
  · split at h
    · rename_i hchunked
      simp only [if_pos hchunked]
      exact leaves_readChunked h
    · rename_i hchunked
      simp only [if_neg hchunked]
      cases h
      exact ⟨fun _ => rfl, id⟩

theorem leaves_read {order : IterationOrder} {fuel : Nat} {m : RequestMessage} {c : List Char}
    {arriving arriving' : List (List Char)}
    (h : read order fuel arriving = some (.findResource m c arriving')) :
    Leaves (read order fuel) arriving m c arriving' := by
  unfold Leaves
  simp only [read]
  rw [read] at h
  cases huntil : readUntil blankLine arriving [] with
  | none =>
    rw [huntil] at h
    cases h
  | some r =>
    obtain ⟨n, streambuf, arriving₁⟩ := r
    rw [huntil] at h
    simp only [readUntil_append huntil]
    dsimp only at h
    split at h
    · cases h
    · cases h
    · obtain ⟨happend, hne⟩ := leaves_readContent h
      exact ⟨happend, fun hall => hne (ne_nil_of_readUntil huntil hall)⟩

/-! ## Requests with a body -/

/-- How the content of a request is sent. -/
inductive Body where
  | none
  | content (bytes : List Char)
  | chunked (chunks : List Chunk) (last : Chunk)

namespace Body

def text : Body → List Char
  | .none => []
  | .content bytes => bytes
  | .chunked chunks last => chunks.flatMap Chunk.text ++ last.text

/-- What a handler finds as the content, if `extra` came in behind the body. -/
def received (extra : List Char) : Body → List Char
  | .none => extra
  | .content bytes => bytes ++ extra
  | .chunked chunks _ => extra ++ chunks.flatMap Chunk.data

/-- The rounds of the loop that reads it. -/
def rounds : Body → Nat
  | .chunked chunks _ => chunks.length
  | _ => 0

/-- The header says how the body is sent. -/
def AnnouncedBy (order : IterationOrder) (header : List Field) : Body → Prop
  | .none => order.find header contentLength = .none ∧
      (order.find header transferEncoding).map Prod.snd ≠ some "chunked".toList
  | .content bytes => ∃ field, order.find header contentLength = some field ∧
      stoull field.2 = .ok bytes.length
  | .chunked chunks last => order.find header contentLength = .none ∧
      (order.find header transferEncoding).map Prod.snd = some "chunked".toList ∧
      (∀ chunk ∈ chunks, chunk.data ≠ []) ∧ last.data = []

end Body

/-- A request as it is sent. -/
structure HttpRequest (order : IterationOrder) extends RequestHead where
  body : Body
  announced : body.AnnouncedBy order header

namespace HttpRequest
variable {order : IterationOrder}

def bytes (r : HttpRequest order) : List Char := r.text ++ (blankLine ++ r.body.text)

/-- More fuel than this is enough. -/
def rounds (r : HttpRequest order) : Nat := r.header.length + r.body.rounds

/-- Up to the end of the head. -/
theorem read_of_readUntil (r : HttpRequest order) {fuel : Nat} (hfuel : r.rounds < fuel)
    {behind : List Char} {arriving arriving' : List (List Char)}
    (h : readUntil blankLine arriving [] = some (r.text.length + blankLine.length,
      r.text ++ (blankLine ++ behind), arriving')) :
    read order fuel arriving =
      readContent order fuel r.message behind.length ⟨behind, true⟩ arriving' := by
  have hheader : r.header.length < fuel := by
    rw [rounds] at hfuel
    omega
  have hadditional : (r.text ++ (blankLine ++ behind)).length -
      (r.text.length + blankLine.length) = behind.length := by
    rw [List.length_append, List.length_append]
    omega
  rw [read, h]
  dsimp only
  rw [r.toRequestHead.parse_text behind hheader, hadditional]

/-- Without a body, everything behind the head is the content. -/
theorem readContent_none (r : HttpRequest order) (hbody : r.body = .none) (fuel : Nat)
    (behind : List Char) (arriving : List (List Char)) :
    readContent order fuel r.message behind.length ⟨behind, true⟩ arriving =
      some (.findResource r.message behind arriving) := by
  have hmessage : r.message.header = r.header := rfl
  have hannounced := r.announced
  rw [hbody] at hannounced
  rw [readContent, hmessage, hannounced.1]
  exact if_neg hannounced.2

/-- The body, of which a part may have come in with the head. -/
theorem readContent_body (r : HttpRequest order) {fuel : Nat} (hfuel : r.rounds < fuel)
    {behind more : List Char} {arriving : List (List Char)}
    (h : behind ++ arriving.flatten = r.body.text ++ more) :
    ∃ extra arriving', extra ++ arriving'.flatten = more ∧
      readContent order fuel r.message behind.length ⟨behind, true⟩ arriving =
        some (.findResource r.message (r.body.received extra) arriving') := by
  have hmessage : r.message.header = r.header := rfl
  have hannounced := r.announced
  have hrounds : r.body.rounds < fuel := by
    rw [rounds] at hfuel
    omega
  cases hbody : r.body with
  | none =>
    rw [hbody] at h
    exact ⟨behind, arriving, h, r.readContent_none hbody fuel behind arriving⟩
  | content bytes =>
    rw [hbody] at hannounced h
    obtain ⟨field, hlength, hvalue⟩ := hannounced
    obtain ⟨extra, arriving', hread, hextra⟩ := readExactly_text h
    refine ⟨extra, arriving', hextra, ?_⟩
    rw [readContent, hmessage, hlength]
    dsimp only
    rw [hvalue]
    dsimp only [Body.text] at hread ⊢
    rw [hread]
    rfl
  | chunked chunks last =>
    rw [hbody] at hannounced h hrounds
    obtain ⟨hlength, hencoding, hchunks, hlast⟩ := hannounced
    rw [Body.text, List.append_assoc] at h
    obtain ⟨extra, arriving', hextra, hread⟩ :=
      readChunked_texts r.message hchunks hlast hrounds [] h
    refine ⟨extra, arriving', hextra, ?_⟩
    rw [readContent, hmessage, hlength]
    exact (if_pos hencoding).trans hread

/-- **A request in pieces.** However its bytes are cut, a request is read back with
its content. What came in together with its end is part of the content, and only
the rest of what follows is still to come. -/
theorem read_bytes (r : HttpRequest order) {fuel : Nat} (hfuel : r.rounds < fuel)
    {arriving : List (List Char)} {more : List Char} (h : arriving.flatten = r.bytes ++ more) :
    ∃ extra arriving', extra ++ arriving'.flatten = more ∧
      read order fuel arriving =
        some (.findResource r.message (r.body.received extra) arriving') := by
  have hcut : cutAt blankLine ([] ++ arriving.flatten) = some (r.text, r.body.text ++ more) := by
    rw [List.nil_append, h, bytes, List.append_assoc, List.append_assoc]
    exact r.toRequestHead.cutAt_text _
  obtain ⟨behind, arriving₁, huntil, hbehind⟩ := readUntil_eq hcut
  obtain ⟨extra, arriving', hextra, hread⟩ := r.readContent_body hfuel hbehind
  exact ⟨extra, arriving', hextra, (r.read_of_readUntil hfuel huntil).trans hread⟩

end HttpRequest

/-- The fields are iterated as they were entered. -/
def IterationOrder.asEntered : IterationOrder := ⟨id, fun _ => .refl _⟩

def hello : Chunk where
  size := "5".toList
  data := "hello".toList
  size_hex := ⟨by simp, List.forall_mem_singleton.mpr rfl, rfl⟩
  fits := by simp

def lastChunk : Chunk where
  size := "0".toList
  data := []
  size_hex := ⟨by simp, List.forall_mem_singleton.mpr rfl, rfl⟩
  fits := Nat.two_pow_pos 63

/-- A request for the page that sends a body. -/
def helloRequest : HttpRequest .asEntered where
  method := "GET".toList
  path := "/".toList
  query := none
  version := "1.1".toList
  header := [("transfer-encoding".toList, "chunked".toList)]
  method_plain := by decide
  path_plain := by decide
  query_plain := nofun
  version_plain := by decide
  header_plain := by decide
  body := .chunked [hello] lastChunk
  announced := ⟨rfl, rfl, List.forall_mem_singleton.mpr nofun, rfl⟩

/-- Every byte comes on its own. -/
theorem flatten_bytes (text : List Char) : (text.map fun c => [c]).flatten = text := by
  rw [← List.flatMap_def]
  exact List.flatMap_singleton' text

theorem HttpRequest.read_bytes_hello : ∃ extra arriving', extra ++ arriving'.flatten = ['G'] ∧
    read .asEntered 3 ((helloRequest.bytes ++ ['G']).map fun c => [c]) =
      some (.findResource helloRequest.message (extra ++ "hello".toList) arriving') :=
  helloRequest.read_bytes (by decide) (flatten_bytes _)

end ResMonitor
