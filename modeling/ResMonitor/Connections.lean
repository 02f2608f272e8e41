import ResMonitor.HttpServer
import ResMonitor.Monitor
import Mathlib.Data.Char
import Mathlib.Data.List.Lex

/-! # Connections

One session follows the other on a connection, each with a new buffer, as long
as a handler is found and the connection is kept alive. Then the way of a form:
from the fields that a browser puts into a query to the request that the monitor
serves. -/

namespace ResMonitor
open StdString Streams

/-! ## Sessions of a connection -/

/-- Whether the connection is read again after the response: the first of the
fields that says so, or else the version. -/
def keepAlive (order : IterationOrder) (request : RequestMessage) : Bool :=
  let range := order.range request.header "Connection".toList
  let said := range.findSome? fun field =>
    if caseInsensitiveEqual field.2 "close".toList then some false
    else if caseInsensitiveEqual field.2 "keep-alive".toList then some true
    else none
  said.getD (decide ("1.1".toList ≤ request.version))

/-- The requests that a handler is called for, at most `n`. Where none is found,
nothing is written and the connection is given up. -/
def sessions (order : IterationOrder) (fuel : Nat) : Nat → List (List Char) → List RequestMessage
  | 0, _ => []
  | n + 1, arriving =>
    match read order fuel arriving with
    | some (.findResource message _ arriving) =>
      match findResource message.method message.path with
      | none => []
      | some _ => message :: if keepAlive order message then sessions order fuel n arriving else []
    | _ => []

theorem sessions_findResource {order : IterationOrder} {fuel : Nat} {message : RequestMessage}
    {content : List Char} {arriving arriving' : List (List Char)}
    (h : read order fuel arriving = some (.findResource message content arriving'))
    (hfind : (findResource message.method message.path).isSome)
    (hkeep : keepAlive order message = true) (n : Nat) :
    sessions order fuel (n + 1) arriving = message :: sessions order fuel n arriving' := by
  obtain ⟨handler, hhandler⟩ := Option.isSome_iff_exists.mp hfind
  rw [sessions, h]
  dsimp only
  rw [hhandler]
  dsimp only
  rw [if_pos hkeep]

namespace HttpRequest
variable {order : IterationOrder}

/-- A handler is called, and then the connection is read again. -/
structure Kept (r : HttpRequest order) : Prop where
  findResource : (findResource r.method r.path).isSome
  keepAlive : keepAlive order r.message = true

/-- A request without a body whose last piece brings more than its end: all of
it goes to that request. -/
theorem read_overlap (r : HttpRequest order) (hbody : r.body = .none) {fuel : Nat}
    (hfuel : r.rounds < fuel) {pieces : List (List Char)} {last extra : List Char}
    (hshort : pieces.flatten.length < r.bytes.length)
    (h : pieces.flatten ++ last = r.bytes ++ extra) (following : List (List Char)) :
    read order fuel (pieces ++ last :: following) =
      some (.findResource r.message extra following) := by
  have hbytes : r.bytes = r.text ++ blankLine := by
    rw [bytes, hbody]
    exact congrArg _ (List.append_nil _)
  have hlast : cutAt blankLine ([] ++ pieces.flatten ++ last) = some (r.text, extra) := by
    rw [List.nil_append, h, hbytes, List.append_assoc]
    exact r.toRequestHead.cutAt_text extra
  have hpieces : cutAt blankLine ([] ++ pieces.flatten) = none := by
    cases hcut : cutAt blankLine ([] ++ pieces.flatten) with
    | none => rfl
    | some found =>
      -- the blank line would end before the request does
      obtain ⟨before, after⟩ := found
      have happend := cutAt_append hcut last
      rw [hlast] at happend
      obtain ⟨rfl, -⟩ := Prod.mk.inj (Option.some.inj happend)
      have hlength := congrArg List.length (append_of_cutAt hcut)
      rw [hbytes] at hshort
      simp only [List.nil_append, List.length_append] at hlength hshort
      omega
  rw [r.read_of_readUntil hfuel (readUntil_last hpieces hlast following)]
  exact r.readContent_none hbody fuel extra following

/-- The pieces in which a request comes. If it has no body, the last one may bring
more than its end. -/
inductive SentIn (r : HttpRequest order) : List (List Char) → Prop where
  | alone {pieces : List (List Char)} (flatten : pieces.flatten = r.bytes)
      (ne_nil : ∀ piece ∈ pieces, piece ≠ []) : SentIn r pieces
  | overlap {pieces : List (List Char)} {last extra : List Char} (body : r.body = .none)
      (short : pieces.flatten.length < r.bytes.length)
      (flatten : pieces.flatten ++ last = r.bytes ++ extra) : SentIn r (pieces ++ [last])

/-- A request takes the pieces in which it comes, and no other. -/
theorem SentIn.read {r : HttpRequest order} {pieces : List (List Char)} (h : r.SentIn pieces)
    {fuel : Nat} (hfuel : r.rounds < fuel) (following : List (List Char)) :
    ∃ content, read order fuel (pieces ++ following) =
      some (.findResource r.message content following) := by
  cases h with
  | alone hflatten hne =>
    rw [← List.append_nil r.bytes] at hflatten
    obtain ⟨extra, arriving', hnil, hread⟩ := r.read_bytes hfuel hflatten
    obtain ⟨happend, hleft⟩ := leaves_read hread
    obtain ⟨rfl, hempty⟩ := List.append_eq_nil_iff.mp hnil
    -- nothing is left, as what is left has bytes
    have hrest : arriving' = [] := List.eq_nil_iff_forall_not_mem.mpr fun piece hpiece =>
      hleft hne piece hpiece (List.flatten_eq_nil_iff.mp hempty piece hpiece)
    refine ⟨r.body.received [], ?_⟩
    rw [happend, hrest, List.nil_append]
  | @overlap pieces last extra hbody hshort hflatten =>
    refine ⟨extra, ?_⟩
    rw [List.append_assoc]
    exact r.read_overlap hbody hfuel hshort hflatten following

end HttpRequest

/-- **One after the other.** On a connection that is kept alive, the requests are
handled once each and in the order in which they come, and what comes together
with the end of one is handled by nobody. -/
theorem sessions_bytes {order : IterationOrder} {fuel : Nat}
    {exchanges : List (HttpRequest order × List (List Char))}
    (hkept : ∀ e ∈ exchanges, e.1.Kept) (hsent : ∀ e ∈ exchanges, e.1.SentIn e.2)
    (hfuel : ∀ e ∈ exchanges, e.1.rounds < fuel) (n : Nat) (following : List (List Char)) :
    sessions order fuel (exchanges.length + n) (exchanges.flatMap Prod.snd ++ following) =
      exchanges.map (·.1.message) ++ sessions order fuel n following := by
  induction exchanges with
  | nil => simp
  | cons e exchanges ih =>
    obtain ⟨hkept, hkepts⟩ := List.forall_mem_cons.mp hkept
    obtain ⟨hsent, hsents⟩ := List.forall_mem_cons.mp hsent
    obtain ⟨hfuel, hfuels⟩ := List.forall_mem_cons.mp hfuel
    obtain ⟨content, hread⟩ := hsent.read hfuel (exchanges.flatMap Prod.snd ++ following)
    have hlength : (e :: exchanges).length + n = exchanges.length + n + 1 := by
      rw [List.length_cons]
      omega
    rw [List.flatMap_cons, List.append_assoc, hlength,
      sessions_findResource hread hkept.findResource hkept.keepAlive, ih hkepts hsents hfuels]
    rfl

/-- `GET /trigger_choose?trigger0=0 HTTP/1.1`, and the host. -/
def chooseRequest : HttpRequest .asEntered where
  method := "GET".toList
  path := "/trigger_choose".toList
  query := some "trigger0=0".toList
  version := "1.1".toList
  header := [("Host".toList, "localhost:8080".toList)]
  method_plain := helloRequest.method_plain
  path_plain := by decide
  query_plain := by decide
  version_plain := helloRequest.version_plain
  header_plain := by decide
  body := .none
  announced := ⟨rfl, nofun⟩

theorem chooseRequest_kept : chooseRequest.Kept := ⟨rfl, rfl⟩

/-- The request comes at once, with something behind it. -/
theorem chooseRequest_sentIn (extra : List Char) :
    chooseRequest.SentIn [chooseRequest.bytes ++ extra] :=
  .overlap rfl (show ([] : List (List Char)).flatten.length < _ by decide) rfl

/-- Two requests, where the first comes together with a third. -/
def exchanges : List (HttpRequest .asEntered × List (List Char)) :=
  [(chooseRequest, [chooseRequest.bytes ++ chooseRequest.bytes]),
    (chooseRequest, [chooseRequest.bytes ++ []])]

theorem sessions_bytes_choose :
    sessions .asEntered 2 (exchanges.length + 0) (exchanges.flatMap Prod.snd ++ []) =
      exchanges.map (·.1.message) ++ sessions .asEntered 2 0 [] := by
  refine sessions_bytes ?_ ?_ ?_ 0 []
  · exact List.forall_mem_cons.mpr
      ⟨chooseRequest_kept, List.forall_mem_singleton.mpr chooseRequest_kept⟩
  · exact List.forall_mem_cons.mpr
      ⟨chooseRequest_sentIn _, List.forall_mem_singleton.mpr (chooseRequest_sentIn _)⟩
  · exact List.forall_mem_cons.mpr ⟨by decide, List.forall_mem_singleton.mpr (by decide)⟩

/-! ## The way of a form -/

/-- What a browser makes of the options chosen in a form. -/
def chosenFields (options : List Nat) : List Field :=
  options.zipIdx.map fun (n, i) => formField (Nat.digitChar i) (Nat.toDigits 10 n)

/-- The query that is sent for them. -/
def formQuery (options : List Nat) : List Char :=
  ['&'].intercalate ((chosenFields options).map fun field => field.1 ++ '=' :: field.2)

theorem exists_of_mem_chosenFields {options : List Nat} (hlen : options.length ≤ 3)
    {field : Field} (h : field ∈ chosenFields options) :
    ∃ index ∈ ['0', '1', '2'], ∃ n ∈ options, field = formField index (Nat.toDigits 10 n) := by
  obtain ⟨⟨n, i⟩, hmem, rfl⟩ := List.mem_map.mp h
  have hi := (List.mem_zipIdx' hmem).1
  refine ⟨Nat.digitChar i, ?_, n, (List.mem_zipIdx' hmem).2 ▸ List.getElem_mem _, rfl⟩
  obtain rfl | rfl | rfl : i = 0 ∨ i = 1 ∨ i = 2 := by omega
  · exact List.mem_cons_self
  · exact List.mem_cons_of_mem _ List.mem_cons_self
  · exact List.mem_cons_of_mem _ (List.mem_cons_of_mem _ List.mem_cons_self)

/-- What is sent for a form is parsed to its fields. -/
theorem parse_formQuery {options : List Nat} (hne : options ≠ []) (hlen : options.length ≤ 3) :
    QueryString.parse (formQuery options) = chosenFields options := by
  have hplain : ∀ field ∈ chosenFields options, '&' ∉ field.1 ++ '=' :: field.2 ∧
      QueryString.fieldOf (field.1 ++ '=' :: field.2) = some field := by
    intro field hfield
    obtain ⟨index, hindex, n, -, rfl⟩ := exists_of_mem_chosenFields hlen hfield
    have hname : '&' ∉ "trigger".toList ++ [index] := by
      simp only [List.mem_cons, List.not_mem_nil, or_false] at hindex
      rcases hindex with rfl | rfl | rfl <;> decide
    have hdigits := fun c hc => not_isDigit (c := c) (decimal_toDigits n) hc
    refine ⟨?_, ?_⟩
    · rw [List.mem_append, List.mem_cons, not_or, not_or]
      exact ⟨hname, by decide, hdigits '&' rfl⟩
    · dsimp only [formField]
      rw [QueryString.fieldOf_append (by simp) (hdigits '=' rfl),
        Percent.decode_of_plain ⟨hdigits '%' rfl, hdigits '+' rfl⟩]
  have hfields : chosenFields options ≠ [] := by
    simpa [chosenFields] using hne
  rw [QueryString.parse_eq, formQuery, List.splitOn_intercalate '&' ?_ (by simpa using hfields),
    List.filterMap_map]
  · conv_rhs => rw [← List.filterMap_some (l := chosenFields options)]
    exact List.filterMap_congr fun field hfield => (hplain field hfield).2
  · intro piece hpiece
    obtain ⟨field, hfield, rfl⟩ := List.mem_map.mp hpiece
    exact (hplain field hfield).1

/-- An option of the page: its number and its label. -/
def optionText (n : Nat) (label : List Char) : List Char :=
  "<option value=\"".toList ++ Nat.toDigits 10 n ++ "\">".toList ++ label ++ "</option>\n".toList

theorem optionText_isInfix {triggerTypes : List TriggerType} {n : Nat} {t : TriggerType}
    (h : triggerTypes[n]? = some t) (logTypes : List LogType) :
    optionText n t.print <:+: writeHtmlToString triggerTypes logTypes := by
  have hselections : optionText n t.print <:+: selections TriggerType.print triggerTypes := by
    rw [selections, List.flatMap_def]
    exact List.infix_of_mem_flatten
      (List.mem_map.mpr ⟨(t, n), List.mem_zipIdx_iff_getElem?.mpr h, rfl⟩)
  -- the first of the lists on the page
  refine hselections.trans ?_
  unfold writeHtmlToString
  dsimp only
  iterate 13 refine List.IsInfix.trans ?_ (List.prefix_append _ _).isInfix
  exact (List.suffix_append _ _).isInfix

variable {triggerTypes : List TriggerType}

/-- A field per trigger, whatever their order. -/
theorem chosenPredicate_of_indexes {fields : List Field}
    (h : ∀ field ∈ fields, (∃ t, Indexes triggerTypes field t) ∧ FitsInt field)
    (hlen : fields.length ∈ [1, 2, 3]) :
    ∃ kind, chosenPredicate triggerTypes fields = .ok (some kind) ∧
      kind.getPredicateOperands.Perm (fields.filterMap (triggerOf triggerTypes)) := by
  have hindex : ∀ field ∈ fields, ∃ t, Indexes triggerTypes field t := fun field hfield =>
    (h field hfield).1
  have hread : ∀ {k field}, fields[k]? = some field → ∃ t,
      triggerAt triggerTypes (seglist fields) (2 * k + 1) = .ok t ∧
      triggerOf triggerTypes field = some t := by
    intro k field hk
    obtain ⟨⟨t, ht⟩, hfits⟩ := h field (List.mem_of_getElem? hk)
    exact ⟨t, (triggerAt_seglist hindex hk).trans (readField_of_fits ht hfits), triggerOf_eq ht⟩
  unfold chosenPredicate
  match fields, hlen with
  | [first], _ =>
    obtain ⟨a, ha, ha'⟩ := hread (k := 0) rfl
    refine ⟨.predicate1element a, ?_, ?_⟩
    · simp only [List.length_cons, List.length_nil, ha, bind, Except.bind]
    · simp [ha', PredicateKind.getPredicateOperands]
  | [first, second], _ =>
    obtain ⟨a, ha, ha'⟩ := hread (k := 0) rfl
    obtain ⟨b, hb, hb'⟩ := hread (k := 1) rfl
    refine ⟨.predicate1and2 b a, ?_, ?_⟩
    · simp only [List.length_cons, List.length_nil, ha, hb, bind, Except.bind]
    · simpa [ha', hb', PredicateKind.getPredicateOperands] using List.Perm.swap a b []
  | [first, second, third], _ =>
    obtain ⟨a, ha, ha'⟩ := hread (k := 0) rfl
    obtain ⟨b, hb, hb'⟩ := hread (k := 1) rfl
    obtain ⟨c, hc, hc'⟩ := hread (k := 2) rfl
    refine ⟨.predicate1or2and3 c b a, ?_, ?_⟩
    · simp only [List.length_cons, List.length_nil, ha, hb, hc, bind, Except.bind]
    · simpa [ha', hb', hc', PredicateKind.getPredicateOperands] using List.reverse_perm [a, b, c]

/-- A trigger that can be chosen by number. -/
structure Offers (triggerTypes : List TriggerType) (n : Nat) (t : TriggerType) : Prop where
  get : triggerTypes[n]? = some t
  fits : (n : Int) ≤ intMax

theorem chosenFields_offered {options : List Nat} {ts : List TriggerType}
    (h : List.Forall₂ (Offers triggerTypes) options ts) (hlen : options.length ≤ 3) :
    (∀ field ∈ chosenFields options, (∃ t, Indexes triggerTypes field t) ∧ FitsInt field) ∧
    (chosenFields options).filterMap (triggerOf triggerTypes) = ts := by
  have hselects : ∀ {n t}, Offers triggerTypes n t →
      Selects triggerTypes (Nat.toDigits 10 n) t := fun hnt => ⟨_, decimal_toDigits _, hnt.get⟩
  have hoption : ∀ n ∈ options, ∃ t, Offers triggerTypes n t := by
    clear hlen
    induction h with
    | nil => exact nofun
    | cons hnt _ ih => exact List.forall_mem_cons.mpr ⟨⟨_, hnt⟩, ih⟩
  constructor
  · intro field hfield
    obtain ⟨index, hindex, n, hn, rfl⟩ := exists_of_mem_chosenFields hlen hfield
    obtain ⟨t, ht⟩ := hoption n hn
    refine ⟨⟨t, indexes_formField hindex (hselects ht)⟩, ?_⟩
    unfold FitsInt formField
    simpa only [Nat.ofDigitChars_ten_toDigits] using ht.fits
  · have hnumber : ∀ p : Nat × Nat, triggerOf triggerTypes
        (formField (Nat.digitChar p.2) (Nat.toDigits 10 p.1)) = triggerTypes[p.1]? := fun p => by
      unfold triggerOf formField
      simp only [Nat.ofDigitChars_ten_toDigits]
    have hmap : (chosenFields options).filterMap (triggerOf triggerTypes) =
        (options.zipIdx.map Prod.fst).filterMap (triggerTypes[·]?) := by
      rw [chosenFields, List.filterMap_map, List.filterMap_map]
      exact List.filterMap_congr fun p _ => hnumber p
    rw [hmap, List.zipIdx_map_fst]
    clear hlen hoption hmap
    induction h with
    | nil => rfl
    | cons hnt _ ih => rw [List.filterMap_cons_some hnt.get, ih]

/-- The request that the browser sends for a form. -/
structure HttpRequest.Submits {order : IterationOrder} (r : HttpRequest order)
    (options : List Nat) : Prop where
  method : r.method = "GET".toList
  path : r.path = "/trigger_choose".toList
  query : r.query = some (formQuery options)

/-- The request as an action of the monitor. -/
def RequestMessage.action (F : Type) (order : IterationOrder) (message : RequestMessage) :
    MonitorAction F :=
  .request message.method message.path message.queryString
    (order.arrange (QueryString.parse message.queryString))

namespace Monitor
variable {F : Type} [Double F] (showDouble : F → List Char)

/-- **From the page to the engine.** A form with one, two or three options, sent
over the network in whatever pieces, is one request to the monitor, and its step
subscribes to a predicate of exactly the triggers that the page shows there. -/
theorem form_subscribes {m : Monitor F} (hm : m.connected = true) {options : List Nat}
    {ts : List TriggerType} (hoffers : List.Forall₂ (Offers m.triggerTypes) options ts)
    (hlen : options.length ∈ [1, 2, 3]) {order : IterationOrder} {r : HttpRequest order}
    (hr : r.Submits options) {fuel : Nat} (hfuel : r.rounds < fuel) {pieces : List (List Char)}
    (hsent : r.SentIn pieces) (following : List (List Char)) :
    (∀ n t, (n, t) ∈ options.zip ts →
      optionText n t.print <:+: writeHtmlToString m.triggerTypes m.logTypes) ∧
    ∃ content kind, read order fuel (pieces ++ following) =
        some (.findResource r.message content following) ∧
      m.step showDouble (r.message.action F order) = some (m.subscribed kind) ∧
      kind.getPredicateOperands.Perm ts := by
  have hthree : options.length ≤ 3 := by
    simp only [List.mem_cons, List.not_mem_nil, or_false] at hlen
    omega
  have hne : options ≠ [] := by
    rintro rfl
    simp at hlen
  obtain ⟨hfields, hchosen⟩ := chosenFields_offered hoffers hthree
  obtain ⟨content, hread⟩ := hsent.read hfuel following
  have hquery : QueryString.parse r.message.queryString = chosenFields options := by
    rw [RequestHead.message, hr.query]
    exact parse_formQuery hne hthree
  have hperm := order.perm (chosenFields options)
  have hlength : (order.arrange (chosenFields options)).length ∈ [1, 2, 3] := by
    rwa [hperm.length_eq, chosenFields, List.length_map, List.length_zipIdx]
  obtain ⟨kind, hkind, hoperands⟩ := chosenPredicate_of_indexes
    (fun field hfield => hfields field (hperm.subset hfield)) hlength
  refine ⟨fun n t hnt => ?_, content, kind, hread, ?_, ?_⟩
  · exact optionText_isInfix (List.forall₂_zip hoffers hnt).get _
  · have hfind : findResource r.message.method r.message.path = some .triggerChoose := by
      rw [RequestHead.message, hr.method, hr.path]
      rfl
    rw [RequestMessage.action, hquery, step, if_pos ⟨hm, hquery.symm ▸ hperm⟩, serve, hfind]
    simp only [respond, hkind, bind, Except.bind]
    rfl
  · have hmap := hperm.filterMap (triggerOf m.triggerTypes)
    rw [hchosen] at hmap
    exact hoperands.trans hmap

theorem form_subscribes_watch :
    let m := { watch with connected := true }
    (∀ n t, (n, t) ∈ [0].zip [cpuOver80] →
      optionText n t.print <:+: writeHtmlToString m.triggerTypes m.logTypes) ∧
    ∃ content kind, read .asEntered 2 ([chooseRequest.bytes ++ []] ++ []) =
        some (.findResource chooseRequest.message content []) ∧
      m.step showWhole (chooseRequest.message.action Rat .asEntered) =
        some (m.subscribed kind) ∧
      kind.getPredicateOperands.Perm [cpuOver80] :=
  form_subscribes (m := { watch with connected := true }) showWhole rfl
    (.cons ⟨rfl, by decide⟩ .nil) List.mem_cons_self ⟨rfl, rfl, by decide⟩ (by decide)
    (chooseRequest_sentIn []) []

end Monitor
end ResMonitor
