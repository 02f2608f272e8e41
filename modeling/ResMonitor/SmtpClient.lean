import ResMonitor.Lib.Smtp
import ResMonitor.MonitorRuns

/-! # The mail client

`SMTPClient::sendEmail` writes its lines one after the other and waits for no
reply. The blanks of the addresses are left out; the subject and the message go
out as they are. How a text is encoded for `AUTH LOGIN` is a parameter. -/

namespace ResMonitor
open StdString Streams Smtp

structure SMTPClient where
  mServer : List Char
  mUserName : List Char
  mPassword : List Char

namespace SMTPClient

/-- `erase` of what `remove_if` moves behind the rest. -/
def eraseSpaces (s : List Char) : List Char := s.filter fun c => !isSpace c

theorem not_mem_eraseSpaces {c : Char} (h : isSpace c = true) (s : List Char) :
    c ∉ eraseSpaces s := by simp [eraseSpaces, h]

section Send
variable (encodeBase64 : List Char → List Char) (client : SMTPClient)

/-- The bytes written, and `mHasError` where it is set. -/
def handleConnect (mail : Mail) (err : Bool) : List Char × Option Bool :=
  if err then ([], some true) else
    let written := ["EHLO ".toList ++ client.mServer, "AUTH LOGIN".toList,
        encodeBase64 client.mUserName, encodeBase64 client.mPassword,
        "MAIL FROM: <".toList ++ mail.sender ++ ">".toList] ++
      mail.recipients.map (fun address => "RCPT TO: <".toList ++ address ++ ">".toList) ++
      ["DATA".toList, "SUBJECT: ".toList ++ mail.subject,
        "From: <".toList ++ mail.sender ++ ">".toList, [], mail.body, ".".toList, []]
    (written.flatMap (· ++ crlf), none)

def handleResolve (mail : Mail) (err connectErr : Bool) : List Char × Option Bool :=
  if err then ([], some true) else client.handleConnect encodeBase64 mail connectErr

/-- Both errors end the call without a line written. -/
def sendEmail (mail : Mail) (resolveErr connectErr : Bool) : List Char × Option Bool :=
  client.handleResolve encodeBase64 { mail with
    sender := eraseSpaces mail.sender
    recipients := mail.recipients.map eraseSpaces } resolveErr connectErr

/-- The lines above the text of a message. -/
def header (mail : Mail) : List (List Char) :=
  ["SUBJECT: ".toList ++ mail.subject,
    "From: <".toList ++ eraseSpaces mail.sender ++ ">".toList, []]

/-- The lines before the text of a message. -/
def opening (mail : Mail) : List (List Char) :=
  ["EHLO ".toList ++ client.mServer, "AUTH LOGIN".toList,
    encodeBase64 client.mUserName, encodeBase64 client.mPassword,
    "MAIL FROM: <".toList ++ eraseSpaces mail.sender ++ ">".toList] ++
  mail.recipients.map (fun address => "RCPT TO: <".toList ++ eraseSpaces address ++ ">".toList) ++
  "DATA".toList :: header mail

/-- What is to be heard before the message. -/
def dialogue (mail : Mail) : List Heard :=
  [.command ("EHLO ".toList ++ client.mServer), .command "AUTH LOGIN".toList,
    .answer (encodeBase64 client.mUserName), .answer (encodeBase64 client.mPassword),
    .command ("MAIL FROM: <".toList ++ eraseSpaces mail.sender ++ ">".toList)] ++
  mail.recipients.map (fun address =>
    .command ("RCPT TO: <".toList ++ eraseSpaces address ++ ">".toList)) ++
  [.command "DATA".toList]

end Send

variable {encodeBase64 : List Char → List Char} {client : SMTPClient}

theorem opening_plain (hserver : '\r' ∉ client.mServer) (hencoded : ∀ s, '\r' ∉ encodeBase64 s)
    {mail : Mail} (hsubject : '\r' ∉ mail.subject) :
    ∀ line ∈ client.opening encodeBase64 mail, '\r' ∉ line := by
  have hblank : ∀ s, '\r' ∉ eraseSpaces s := not_mem_eraseSpaces rfl
  intro line hline
  simp only [opening, header, List.mem_append, List.mem_cons, List.mem_map, List.not_mem_nil,
    or_false] at hline
  rcases hline with ((rfl | rfl | rfl | rfl | rfl) | ⟨address, -, rfl⟩) | rfl | rfl | rfl | rfl <;>
    simp [hserver, hencoded, hsubject, hblank]

/-- The lines written: the opening, the message, the dot and an empty one. -/
theorem sendEmail_eq (mail : Mail) : (client.sendEmail encodeBase64 mail false false).1 =
    (client.opening encodeBase64 mail).flatMap (· ++ crlf) ++
      (mail.body ++ (crlf ++ ([['.'], []].flatMap (· ++ crlf) ++ []))) := by
  simp [sendEmail, handleResolve, handleConnect, opening, header, Function.comp_def]

/-- One line for each address. -/
theorem receive_recipients (addresses lines : List (List Char)) :
    receive .command (addresses.map (fun address =>
        "RCPT TO: <".toList ++ eraseSpaces address ++ ">".toList) ++ lines) =
      addresses.map (fun address =>
        .command ("RCPT TO: <".toList ++ eraseSpaces address ++ ">".toList)) ++
      receive .command lines := by
  induction addresses with
  | nil => rfl
  | cons address addresses ih =>
    rw [List.map_cons, List.cons_append, receive_command (by simp) (by simp), ih]
    rfl

theorem receive_opening (mail : Mail) (lines : List (List Char)) :
    receive .command (client.opening encodeBase64 mail ++ lines) =
      client.dialogue encodeBase64 mail ++ receive (.data (header mail)) lines := by
  have hauth : ∀ answer answer' more, receive .command ("AUTH LOGIN".toList :: answer ::
      answer' :: more) = .command "AUTH LOGIN".toList :: .answer answer :: .answer answer' ::
        receive .command more := fun _ _ _ => rfl
  have hdata : receive .command ("DATA".toList :: (header mail ++ lines)) =
      .command "DATA".toList :: receive (.data (header mail)) lines := by
    change .command "DATA".toList :: receive (.data []) (_ :: _ :: [] :: lines) = _
    rw [receive_line (by simp), receive_line (by simp), receive_line (by simp),
      unstuff_of_head (by simp), unstuff_of_head (by simp), unstuff_of_head (by simp)]
    rfl
  rw [opening, dialogue]
  simp only [List.append_assoc, List.cons_append, List.nil_append]
  rw [receive_command (by simp) (by simp), hauth, receive_command (by simp) (by simp)]
  have hrecipients := receive_recipients mail.recipients ("DATA".toList :: (header mail ++ lines))
  simp only [List.append_assoc] at hrecipients
  rw [hrecipients, hdata]

/-- **What a server hears.** The dialogue goes as it should whatever the
addresses and the message are; the message is what the server makes of the lines
of the text. -/
theorem received_sendEmail (hserver : '\r' ∉ client.mServer)
    (hencoded : ∀ s, '\r' ∉ encodeBase64 s) {mail : Mail} (hsubject : '\r' ∉ mail.subject) :
    received (client.sendEmail encodeBase64 mail false false).1 =
      client.dialogue encodeBase64 mail ++
        receive (.data (header mail)) (segments mail.body ++ [['.'], []]) := by
  have hdrop : (client.opening encodeBase64 mail ++
      (segments mail.body ++ ([['.'], []] ++ segments []))).dropLast =
      client.opening encodeBase64 mail ++ (segments mail.body ++ [['.'], []]) := by
    rw [← List.append_assoc, ← List.append_assoc, segments, ← List.append_assoc,
      List.dropLast_concat, List.append_assoc]
  rw [received, sendEmail_eq, segments_lines (opening_plain hserver hencoded hsubject),
    segments_append, segments_lines (by simp), hdrop, receive_opening]

end SMTPClient

/-! ## The mails of the monitor -/

/-- The client that the callbacks construct. -/
def mailc : SMTPClient :=
  ⟨"smtp.wp.pl".toList, "zpr_resmonitor@wp.pl".toList, "zprresmonitor!1".toList⟩

theorem PredicateKind.cr_not_mem_print (kind : PredicateKind TriggerType) : '\r' ∉ kind.print := by
  have ht : ∀ t : TriggerType, '\r' ∉ t.print := TriggerType.not_mem_print (Or.inr (Or.inr rfl))
  cases kind <;> simp [print, ht]

/-- The text of a mail around the name, with no line end in it that a server sees. -/
theorem Notification.exists_body {n : Notification} (h : '\r' ∉ n.auxString) :
    ∃ rest, n.mail.body = "Hello".toList ++ (n.userName ++ ',' :: rest) ∧ '\r' ∉ rest := by
  have hcomma : ",\nfollowing trigger has been exceeded:\n".toList =
      ',' :: "\nfollowing trigger has been exceeded:\n".toList := rfl
  have hfollowing : '\r' ∉ "\nfollowing trigger has been exceeded:\n".toList := by simp
  have hclosing : '\r' ∉ "\n\nYour ZPRMonitor".toList := by simp
  have hbody : n.mail.body = "Hello".toList ++ n.userName ++
      ",\nfollowing trigger has been exceeded:\n".toList ++ n.auxString ++
        "\n\nYour ZPRMonitor".toList := rfl
  rw [hcomma] at hbody
  generalize "\nfollowing trigger has been exceeded:\n".toList = following at *
  generalize "\n\nYour ZPRMonitor".toList = closing at *
  refine ⟨following ++ (n.auxString ++ closing), ?_, by simp [h, hfollowing, hclosing]⟩
  rw [hbody]
  simp only [List.append_assoc, List.cons_append]

/-- A line of the text begins with a dot exactly if one of the name does. -/
theorem Notification.dot_iff {n : Notification} (h : '\r' ∉ n.auxString) :
    (∀ line ∈ segments n.mail.body, line.head? ≠ some '.') ↔ ¬ crlf ++ ['.'] <:+: n.userName := by
  obtain ⟨rest, hbody, hrest⟩ := exists_body h
  have hinside : crlf ++ ['.'] <:+: n.mail.body ↔ crlf ++ ['.'] <:+: n.userName := by
    rw [hbody]
    refine (isInfix_skip (by simp) _ _).trans ?_
    exact crlfDot_isInfix_append_iff (by simp) (by simp) (by simp [hrest]) _
  have hhead : ¬ n.mail.body.head? = some '.' := by
    rw [hbody]
    simp
  rw [← hinside, ← or_iff_right (b := crlf ++ ['.'] <:+: n.mail.body) hhead, ← exists_dot_iff]
  simp only [not_exists, not_and, ne_eq]

/-- No line of the text is a command that names a mailbox, unless the name of the
user has a colon. -/
theorem Notification.not_addresses {n : Notification} (h : '\r' ∉ n.auxString)
    (hname : ':' ∉ n.userName) : ∀ line ∈ segments n.mail.body, ¬ Addresses line := by
  obtain ⟨rest, hbody, hrest⟩ := exists_body h
  have hgreeting : ':' ∉ "Hello".toList ++ n.userName := by simp [hname]
  intro line hline
  rw [hbody, ← List.append_assoc] at hline
  rcases segments_append_plain (by simp) (by simp [hrest]) _ line hline with
    hsub | ⟨before, hsub, rfl⟩
  · exact not_addresses_of_not_mem fun hmem => hgreeting (hsub hmem)
  · exact not_addresses_of_comma (fun hmem => hgreeting (hsub hmem)) rest

namespace Monitor
open Transitions
variable {F : Type} [Double F] {showDouble : F → List Char}

/-- The name that is entered is a segment between colons. -/
theorem userName_setEmail {html resp : String} {queryFields : List Field} {user user' : User}
    (h : setEmail html queryFields user = .ok (user', resp)) (hname : ':' ∉ user.userName) :
    ':' ∉ user'.userName := by
  unfold setEmail at h
  split at h
  · cases h
    exact hname
  · obtain ⟨userName, hget, h⟩ := bind_ok h
    obtain ⟨userEmail, -, h⟩ := bind_ok h
    cases h
    exact not_mem_of_mem_getlines (mem_of_vectorAt hget) List.not_mem_nil

theorem userName_respond {m m' : Monitor F} {queryFields : List Field} {handler : Handler}
    {resp : List Char} (h : m.respond showDouble queryFields handler = .ok (m', resp))
    (hname : ':' ∉ m.user.userName) : ':' ∉ m'.user.userName := by
  cases handler with
  | getlogs =>
    obtain ⟨_, -, h⟩ := bind_ok h
    cases h
    exact hname
  | setEmail =>
    obtain ⟨⟨user, resp⟩, hset, h⟩ := bind_ok h
    cases h
    exact userName_setEmail hset hname
  | triggerChoose =>
    obtain ⟨kind, -, h⟩ := bind_ok h
    cases kind with
    | none =>
      cases h
      exact hname
    | some kind =>
      cases h
      exact hname
  | defaultResource =>
    cases h
    exact hname

/-- The name of the user has no colon, whatever has been entered. -/
theorem userName_run {text : List Char} {m m' : Monitor F} (hm : m.Started text)
    {actions : List (MonitorAction F)} (hrun : run (step showDouble) m actions = some m') :
    ':' ∉ m'.user.userName := by
  refine invariant_of_run (I := fun s => ':' ∉ s.user.userName) ?_ (by simp [hm.noUser]) hrun
  intro s a s' hs hstep
  cases a with
  | poll x => cases effect_of_step showDouble hstep <;> exact hs
  | connectPredicateEngine => cases effect_of_step showDouble hstep <;> exact hs
  | request method path queryString queryFields =>
    simp only [step] at hstep
    split at hstep
    · obtain rfl := Option.some.inj hstep
      unfold serve
      split
      · exact hs
      · split
        · exact userName_respond ‹_› hs
        · exact hs
    · cases hstep

/-- What is captured about a mail that is sent. -/
theorem exists_captured {text : List Char} {m m' : Monitor F} (hm : m.Started text)
    {actions : List (MonitorAction F)} (hrun : run (step showDouble) m actions = some m')
    {id : Nat} {mail : Mail} (hsent : (id, mail) ∈ m'.mailer.sent) :
    ∃ n, m'.mailer.notifications[id]? = some n ∧ mail = n.mail ∧ '\r' ∉ n.auxString ∧
      ':' ∉ n.userName := by
  have hempty := hm.noMails
  have hsound : m'.mailer.Sound := sound_run (by rw [hempty]; exact Mailer.sound_empty) hrun
  obtain ⟨n, hn, rfl⟩ := hsound.quoted id mail hsent
  obtain ⟨before, _, _, s, kind, -, hbefore, -, -, rfl⟩ :=
    exists_subscription hrun hn (by rw [hempty]; exact Nat.zero_le _)
  exact ⟨s.captured kind, hn, rfl, kind.cr_not_mem_print, userName_run hm hbefore⟩

variable {encodeBase64 : List Char → List Char}

theorem received_mail (hencoded : ∀ s, '\r' ∉ encodeBase64 s) (n : Notification) :
    received (mailc.sendEmail encodeBase64 n.mail false false).1 =
      mailc.dialogue encodeBase64 n.mail ++
        receive (.data (SMTPClient.header n.mail)) (segments n.mail.body ++ [['.'], []]) := by
  have hserver : '\r' ∉ mailc.mServer := show '\r' ∉ "smtp.wp.pl".toList by simp
  have hsubject : '\r' ∉ n.mail.subject :=
    show '\r' ∉ "ZPR Monitor trigger notification".toList by simp
  exact SMTPClient.received_sendEmail hserver hencoded hsubject

/-- **What comes of a mail.** Whatever the user has entered, the server hears the
dialogue with the address of the callback, without its blanks. It hears the text
as it was written exactly if no line of the name begins with a dot. -/
theorem mail_heard (hencoded : ∀ s, '\r' ∉ encodeBase64 s) {text : List Char} {m m' : Monitor F}
    (hm : m.Started text) {actions : List (MonitorAction F)}
    (hrun : run (step showDouble) m actions = some m')
    {id : Nat} {mail : Mail} (hsent : (id, mail) ∈ m'.mailer.sent) :
    ∃ n, m'.mailer.notifications[id]? = some n ∧ mail = n.mail ∧
      mailc.dialogue encodeBase64 mail <+:
        received (mailc.sendEmail encodeBase64 mail false false).1 ∧
      (received (mailc.sendEmail encodeBase64 mail false false).1 =
          mailc.dialogue encodeBase64 mail ++
            [.message (SMTPClient.header mail ++ segments mail.body), .command []] ↔
        ¬ crlf ++ ['.'] <:+: n.userName) := by
  obtain ⟨n, hn, rfl, haux, -⟩ := exists_captured hm hrun hsent
  have hheard := received_mail hencoded n
  refine ⟨n, hn, rfl, ?_, ?_⟩
  · rw [hheard]
    exact List.prefix_append _ _
  · rw [hheard, List.append_cancel_left_eq]
    exact (receive_data_iff _ _ [[]]).trans (Notification.dot_iff haux)

/-- The two texts that are encoded. -/
def encodeAccount (s : List Char) : List Char :=
  if s = "zpr_resmonitor@wp.pl".toList then "enByX3Jlc21vbml0b3JAd3AucGw".toList
  else if s = "zprresmonitor!1".toList then "enBycmVzbW9uaXRvciEx".toList
  else []

theorem not_mem_encodeAccount (s : List Char) : '\r' ∉ encodeAccount s := by
  unfold encodeAccount
  split
  · simp
  · split <;> simp

/-- The mail to Ann is heard. -/
theorem mail_heard_watch :
    ∃ n, [Notification.mk " Ann".toList " ann@host".toList
        "Trigger CPU over 80% last for 2s".toList][0]? = some n ∧ annMail = n.mail ∧
      mailc.dialogue encodeAccount annMail <+:
        received (mailc.sendEmail encodeAccount annMail false false).1 ∧
      (received (mailc.sendEmail encodeAccount annMail false false).1 =
          mailc.dialogue encodeAccount annMail ++
            [.message (SMTPClient.header annMail ++ segments annMail.body), .command []] ↔
        ¬ crlf ++ ['.'] <:+: n.userName) := by
  have hrun : run (step showWhole) watch watchRun = some _ := rfl
  have hsent : (0, annMail) ∈ [(0, annMail)] := List.mem_singleton.mpr rfl
  exact mail_heard not_mem_encodeAccount watch_started hrun hsent

/-- **One sender and one recipient.** Nothing that is heard after the dialogue of a
mail names a mailbox: a name can have line ends and a dot in it, but no colon. -/
theorem mail_addressed_once (hencoded : ∀ s, '\r' ∉ encodeBase64 s) {text : List Char}
    {m m' : Monitor F} (hm : m.Started text) {actions : List (MonitorAction F)}
    (hrun : run (step showDouble) m actions = some m')
    {id : Nat} {mail : Mail} (hsent : (id, mail) ∈ m'.mailer.sent) :
    ∃ rest, received (mailc.sendEmail encodeBase64 mail false false).1 =
        mailc.dialogue encodeBase64 mail ++ rest ∧
      ∀ line, .command line ∈ rest → ¬ Addresses line := by
  obtain ⟨n, -, rfl, haux, hname⟩ := exists_captured hm hrun hsent
  refine ⟨_, received_mail hencoded n, fun line hline => ?_⟩
  rcases List.mem_append.mp (mem_of_command_mem_receive hline) with hbody | hend
  · exact Notification.not_addresses haux hname line hbody
  · refine not_addresses_of_not_mem fun hcolon => ?_
    simp only [List.mem_cons, List.not_mem_nil, or_false] at hend
    rcases hend with rfl | rfl <;> simp at hcolon

theorem mail_addressed_once_watch :
    ∃ rest, received (mailc.sendEmail encodeAccount annMail false false).1 =
        mailc.dialogue encodeAccount annMail ++ rest ∧
      ∀ line, .command line ∈ rest → ¬ Addresses line := by
  have hrun : run (step showWhole) watch watchRun = some _ := rfl
  have hsent : (0, annMail) ∈ [(0, annMail)] := List.mem_singleton.mpr rfl
  exact mail_addressed_once not_mem_encodeAccount watch_started hrun hsent

end Monitor
end ResMonitor
