import ResMonitor.LogWindows
import ResMonitor.Print
import ResMonitor.QueryString
import ResMonitor.SetEmail

/-! # The handlers of the web server

What the server does with a request: it finds the handler by method and path,
and the handler takes the fields of the query in the iteration order of their
multimap. `/getlogs` prints a log, `/trigger_choose` turns its fields into a
predicate whose callback keeps copies of what it is going to send, and the
rest is in the modules about triggers and about the user. How a `double` is
printed is a parameter. -/

namespace ResMonitor
open StdString

/-! ## Finding the handler -/

inductive Handler where
  | getlogs
  | setEmail
  | triggerChoose
  | defaultResource
  deriving DecidableEq, Repr

/-- The resources in the order of their regular expressions; each matches one
path as a whole. No other method has a default. -/
def findResource (method path : List Char) : Option Handler :=
  if method = "GET".toList then
    if path = "/getlogs".toList then some .getlogs
    else if path = "/set_email".toList then some .setEmail
    else if path = "/trigger_choose".toList then some .triggerChoose
    else some .defaultResource
  else none

/-! ## The main page -/

/-- `<option>` elements, numbered from 0. -/
def selections {α : Type} (print : α → List Char) (types : List α) : List Char :=
  types.zipIdx.flatMap fun (type, i) =>
    "<option value=\"".toList ++ Nat.toDigits 10 i ++ "\">".toList ++ print type ++
      "</option>\n".toList

def writeHtmlToString (triggerTypes : List TriggerType) (logTypes : List LogType) : List Char :=
  let triggerSelections := selections TriggerType.print triggerTypes
  let logSelections := selections LogType.print logTypes
  ("<html>\n<head>\n<title>Simple-Web-Server html-file</title>\n</head>\n<body>" ++
    "Choose your trigger type and subscribe for e-mail!\n" ++
    "</br></br></br>\n<form action = \"/set_email\" method = \"get\">\n" ++
    "Email: <input type = \"text\" name = \"email\">\n" ++
    "User name: <input type = \"text\" name = \"name\" />\n" ++
    "<input type = \"submit\" value = \"Apply\" />\n</br></br>" ++
    "</form>\n<form method=\"GET\" action=\"/trigger_choose\">\n" ++
    "<select name=\"trigger0\" required>").toList ++ triggerSelections ++
  " </select>OR<select name=\"trigger1\" required>\n".toList ++ triggerSelections ++
  " </select>AND<select name=\"trigger2\" required>\n".toList ++ triggerSelections ++
  ("</select>\n<input type=\"submit\" value=\"Submit\">\n" ++
    "</form>\n<form method=\"GET\" action=\"/trigger_choose\">\n" ++
    "<select name=\"trigger0\" required>").toList ++ triggerSelections ++
  " </select>AND<select name=\"trigger1\" required>\n".toList ++ triggerSelections ++
  ("</select>\n<input type=\"submit\" value=\"Submit\">\n" ++
    "</form>\n<form method=\"GET\" action=\"/trigger_choose\">\n" ++
    "<select name=\"trigger0\" required>").toList ++ triggerSelections ++
  ("</select>\n<input type=\"submit\" value=\"Submit\">\n" ++
    "</form>\n</br></br></br><form method=\"GET\" action=\"/getlogs\">\n" ++
    "Show logs of type\n" ++
    "<select name=\"trigger\" required>\n").toList ++ logSelections ++
  ("</select>\n" ++ "<input type=\"submit\" value=\"Submit\">\n" ++
    "</form>\n</body>\n</html>").toList

/-! ## Printing a log -/

section GetLogs
variable {F : Type} [Double F] (showDouble : F → List Char)

def CpuState.print (s : CpuState F) : List Char :=
  "CPU (system) [%]: ".toList ++ showDouble s.cpuInUsePercentage ++
    ", CPU (monitor) [%]: ".toList ++ showDouble s.monitorCpuInUsePercentage

def RamState.currMonitorPercentageUsed (s : RamState F) : F :=
  if s.totalRamMB != ((0 : Int) : F) then s.monitorRamInUseMB / s.totalRamMB * ((100 : Int) : F)
  else ((-1 : Int) : F)

def RamState.print (s : RamState F) : List Char :=
  "RAM (system) [MB / %]: ".toList ++ showDouble s.ramInUseMB ++ '/' ::
    showDouble s.currPercentageUsed ++ ", RAM (monitor) [MB / %]: ".toList ++
    showDouble s.monitorRamInUseMB ++ '/' :: showDouble s.currMonitorPercentageUsed

def HddState.print (s : HddState F) : List Char :=
  "Hdd (system) read/write [KB/s]: ".toList ++ showDouble s.hddInUseKBsRead ++ '/' ::
    showDouble s.hddInUseKBsWrite ++ ", Hdd (monitor) read/write KB/s]: ".toList ++
    showDouble s.monitorHddInUseKBsRead ++ '/' :: showDouble s.monitorHddInUseKBsWrite

def State.print : (resource : Resource) → State F resource → List Char
  | .cpu => CpuState.print showDouble
  | .memory => RamState.print showDouble
  | .disk => HddState.print showDouble

/-- The entries of a ring, oldest first, each on a line. -/
def printLog {α : Type} (print : α → List Char) (ring : CircularBuffer α) : List Char :=
  ring.items.flatMap fun state => print state ++ ['\n']

/-- `at` on a log table. -/
def logAt {α : Type} : Option α → Except StdString.Exception α
  | some ring => .ok ring
  | none => .error .outOfRange

/-- The handler of `/getlogs`: its response. The number read is converted to
`unsigned`. -/
def getLogs (logTypes : List LogType) (samplingManager : SamplingManager F)
    (queryFields : List Field) : Except StdString.Exception (List Char) := do
  let logNumber ← stoi (← vectorAt (seglist queryFields) 1)
  let selectedLogType ← vectorAt logTypes (logNumber % 4294967296)
  match selectedLogType.resource with
  | .cpu => do
    .ok (printLog (CpuState.print showDouble) (← logAt (samplingManager.getCpuLog selectedLogType)))
  | .memory => do
    .ok (printLog (RamState.print showDouble) (← logAt (samplingManager.getRamLog selectedLogType)))
  | .disk => do
    .ok (printLog (HddState.print showDouble) (← logAt (samplingManager.getHddLog selectedLogType)))

/-- What the handler answers for one log. -/
theorem getLogs_of_index {logTypes : List LogType} {samplingManager : SamplingManager F}
    {name value : List Char} {i : Nat} (hname : ':' ∉ name) (hvalue : Decimal value i)
    (hi : (i : Int) ≤ intMax) {l : LogType} (hl : logTypes[i]? = some l)
    {ring : CircularBuffer (State F l.resource)} {c : Int}
    (hring : (samplingManager.log l.resource).find? l = some (ring, c)) :
    getLogs showDouble logTypes samplingManager [(name, value)] =
      .ok (printLog (State.print showDouble l.resource) ring) := by
  have hcolon : ∀ field ∈ [(name, value)], ':' ∉ field.1 ∧ ':' ∉ field.2 := fun field hfield => by
    rw [List.mem_singleton.mp hfield]
    exact ⟨hname, not_isDigit hvalue (by decide)⟩
  have hsegment : vectorAt (seglist [(name, value)]) 1 = .ok (' ' :: value) :=
    vectorAt_natCast (seglist_getElem? hcolon (i := 0) rfl).2
  have hnumber : stoi (' ' :: value) = .ok (i : Int) := by rw [stoi_decimal hvalue, if_pos hi]
  have hmod : (i : Int) % 4294967296 = (i : Int) :=
    Int.emod_eq_of_lt (by omega) (by unfold intMax at hi; omega)
  have htype : vectorAt logTypes ((i : Int) % 4294967296) = .ok l := by
    rw [hmod]
    exact vectorAt_natCast hl
  simp only [getLogs, hsegment, hnumber, htype, bind, Except.bind]
  obtain ⟨resource, duration, resolution⟩ := l
  cases resource with
  | cpu =>
    have hfind : samplingManager.cpuLog.find? ⟨.cpu, duration, resolution⟩ = some (ring, c) := hring
    simp only [SamplingManager.getCpuLog, hfind, Option.map_some, logAt, State.print]
  | memory =>
    have hfind : samplingManager.ramLog.find? ⟨.memory, duration, resolution⟩ = some (ring, c) :=
      hring
    simp only [SamplingManager.getRamLog, hfind, Option.map_some, logAt, State.print]
  | disk =>
    have hfind : samplingManager.hddLog.find? ⟨.disk, duration, resolution⟩ = some (ring, c) :=
      hring
    simp only [SamplingManager.getHddLog, hfind, Option.map_some, logAt, State.print]

end GetLogs

/-! ## Choosing triggers -/

/-- The predicate that the handler of `/trigger_choose` constructs, if any. -/
def chosenPredicate (triggerTypes : List TriggerType) (queryFields : List Field) :
    Except StdString.Exception (Option (PredicateKind TriggerType)) :=
  let trigger := triggerAt triggerTypes (seglist queryFields)
  match queryFields.length with
  | 3 => do .ok (some (.predicate1or2and3 (← trigger 5) (← trigger 3) (← trigger 1)))
  | 2 => do .ok (some (.predicate1and2 (← trigger 3) (← trigger 1)))
  | 1 => do .ok (some (.predicate1element (← trigger 1)))
  | _ => .ok none

/-- The handler constructs this predicate, keeps it and registers it. -/
theorem triggerChoose_eq_chosenPredicate (triggerTypes : List TriggerType)
    (queryFields : List Field) (server : Server) :
    triggerChoose triggerTypes queryFields server =
      (chosenPredicate triggerTypes queryFields).map fun
        | some kind => ({
            predEngine := server.predEngine.subscribe kind
            predicates := server.predicates ++ [server.predEngine.objects.length] },
          "Your subscription has been saved!")
        | none => (server, "Wrong data!") := by
  unfold triggerChoose chosenPredicate
  generalize triggerAt triggerTypes (seglist queryFields) = trigger
  generalize queryFields.length = size
  dsimp only
  match size with
  | 3 => cases trigger 5 <;> cases trigger 3 <;> cases trigger 1 <;> rfl
  | 2 => cases trigger 3 <;> cases trigger 1 <;> rfl
  | 1 => cases trigger 1 <;> rfl
  | 0 | _ + 4 => rfl

/-- The arguments of `SMTPClient::sendEmail`. -/
structure Mail where
  sender : List Char
  recipients : List (List Char)
  subject : List Char
  body : List Char
  deriving DecidableEq, Repr

/-- What `sendMailFunction` captures: copies of the name and the address at the
time of the request, and the printed predicate. -/
structure Notification where
  userName : List Char
  userEmail : List Char
  auxString : List Char
  deriving DecidableEq, Repr

/-- The mail that a call of `sendMailFunction` sends. -/
def Notification.mail (n : Notification) : Mail where
  sender := "zpr_resmonitor@wp.pl".toList
  recipients := [n.userEmail]
  subject := "ZPR Monitor trigger notification".toList
  body := "Hello".toList ++ n.userName ++ ",\nfollowing trigger has been exceeded:\n".toList ++
    n.auxString ++ "\n\nYour ZPRMonitor".toList

end ResMonitor
