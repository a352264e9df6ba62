import MsgRiver.Connector.Endpoint

/-!
# The outbound requests

What the drivers put on the wire: the lines of the head are those of the source, in its order, and
behind the first blank line stands the body and nothing else.  A reader that cuts there finds the
same lines whatever the topic, the title, the token and the body contain (`outbound_framing`).
-/

namespace MsgRiver.Connector

open Ascii Text Lines

namespace Ntfy

/-- The request line. -/
def requestLine (endpoint : NtfyEndpoint) (message : NtfyMessage) : String :=
  "POST " ++ (endpoint.pathPrefix ++ ("/" ++ (message.topic ++ " HTTP/1.1")))

/-- The value of the `Host` header, with the port unless it is the usual one. -/
def hostText (endpoint : NtfyEndpoint) : String :=
  if endpoint.port = 80 then endpoint.host
  else endpoint.host ++ ":" ++ toString endpoint.port.toNat

/-- The header lines that every ntfy request has. -/
def fixedHeaders (endpoint : NtfyEndpoint) (message : NtfyMessage) : List String :=
  ["Host: " ++ hostText endpoint, "User-Agent: MsgRiver/0.1.0-alpha",
    "Content-Type: text/plain; charset=utf-8",
    "Content-Length: " ++ toString message.body.utf8ByteSize, "Connection: close"]

/-- The title when there is one. -/
def titleHeader (message : NtfyMessage) : List String :=
  (message.title.map fun title => "Title: " ++ title).toList

/-- The head as the source writes it, up to the title. -/
theorem head_eq (endpoint : NtfyEndpoint) (message : NtfyMessage) :
    "POST " ++ (endpoint.pathPrefix ++ "/" ++ message.topic) ++ " HTTP/1.1\r\nHost: " ++
      hostText endpoint ++
      "\r\nUser-Agent: MsgRiver/0.1.0-alpha\r\nContent-Type: text/plain; charset=utf-8" ++
      "\r\nContent-Length: " ++ toString message.body.utf8ByteSize ++ "\r\nConnection: close\r\n" =
    join (requestLine endpoint message) (fixedHeaders endpoint message) ++ "\r\n" := by
  have hline : " HTTP/1.1\r\nHost: " = " HTTP/1.1" ++ ("\r\n" ++ "Host: ") := by decide +kernel
  have hagent : "\r\nUser-Agent: MsgRiver/0.1.0-alpha\r\nContent-Type: text/plain; charset=utf-8" =
      "\r\n" ++ ("User-Agent: MsgRiver/0.1.0-alpha" ++
        ("\r\n" ++ "Content-Type: text/plain; charset=utf-8")) := by decide +kernel
  have hlength : "\r\nContent-Length: " = "\r\n" ++ "Content-Length: " := by decide +kernel
  have hclose : "\r\nConnection: close\r\n" = "\r\n" ++ ("Connection: close" ++ "\r\n") := by
    decide +kernel
  rw [hline, hagent, hlength, hclose]
  simp only [join, later, requestLine, fixedHeaders, List.foldr_cons, List.foldr_nil,
    String.append_assoc, String.append_empty, -String.reduceAppend]

/-- The header lines of an ntfy request, the title last where there is one. -/
def headers (endpoint : NtfyEndpoint) (message : NtfyMessage) : List String :=
  fixedHeaders endpoint message ++ titleHeader message

theorem requestBytes_eq (endpoint : NtfyEndpoint) (message : NtfyMessage) :
    requestBytes endpoint message =
      utf8Bytes (join (requestLine endpoint message) (headers endpoint message)) ++
        (blank ++ utf8Bytes message.body) := by
  have hblank : utf8Bytes "\r\n" ++ utf8Bytes "\r\n" = blank := by decide +kernel
  unfold requestBytes
  dsimp only
  rw [← hostText, head_eq, headers, join_append, utf8Bytes_append, utf8Bytes_append, ← hblank]
  cases htitle : message.title with
  | none => simp [titleHeader, htitle, later, utf8Bytes]
  | some title =>
    simp only [titleHeader, htitle, Option.map_some, Option.toList_some, later, List.foldr_cons,
      List.foldr_nil, String.append_empty, utf8Bytes_append, List.append_assoc]

/-! ### The lines are lines -/

/-- What `validate_message` checks. -/
theorem validateMessage_eq_ok {message : NtfyMessage} (h : validateMessage message = .ok ()) :
    ((utf8Bytes message.topic).all fun byte => isAlphanumeric byte || byte == 0x2d || byte == 0x5f) =
      true ∧ ∀ title ∈ message.title, Unbroken title := by
  unfold validateMessage at h
  split_ifs at h with hcheck
  simp only [Bool.or_eq_true, Bool.not_eq_true', not_or, Bool.not_eq_false] at hcheck
  obtain ⟨⟨⟨⟨⟨⟨-, -⟩, htopic⟩, -⟩, -⟩, -⟩, htitle⟩ := hcheck
  refine ⟨htopic, ?_⟩
  intro title hmem
  rw [Option.mem_def.1 hmem] at htitle
  simp only [Option.any_some, Bool.or_eq_true, not_or, List.any_eq_true, not_exists, not_and,
    beq_iff_eq] at htitle
  exact ⟨fun hcr => (htitle.2 '\r' hcr).1.1 rfl, fun hlf => (htitle.2 '\n' hlf).1.2 rfl⟩

theorem line_requestLine {endpoint : NtfyEndpoint} {message : NtfyMessage}
    (hendpoint : Unbroken endpoint.pathPrefix) (hmessage : validateMessage message = .ok ()) :
    Line (requestLine endpoint message) := by
  have hpost : Line "POST " := ⟨by decide, by decide⟩
  have htopic := unbroken_of_all (validateMessage_eq_ok hmessage).1 (by decide) (by decide)
  exact hpost.append (unbroken_append hendpoint
    (unbroken_append (by decide) (unbroken_append htopic (by decide))))

theorem line_headers {endpoint : NtfyEndpoint} {message : NtfyMessage}
    (hendpoint : Unbroken endpoint.host) (hmessage : validateMessage message = .ok ()) :
    ∀ line ∈ headers endpoint message, Line line := by
  have hhost : Unbroken (hostText endpoint) := by
    unfold hostText
    split_ifs
    · exact hendpoint
    · exact unbroken_append (unbroken_append hendpoint (by decide)) (unbroken_toString _)
  intro line hline
  rcases List.mem_append.1 hline with hfixed | htitle
  · simp only [fixedHeaders, List.mem_cons, List.not_mem_nil, or_false] at hfixed
    rcases hfixed with rfl | rfl | rfl | rfl | rfl
    · exact Line.append ⟨by decide, by decide⟩ hhost
    · exact ⟨by decide, by decide⟩
    · exact ⟨by decide, by decide⟩
    · exact Line.append ⟨by decide, by decide⟩ (unbroken_toString _)
    · exact ⟨by decide, by decide⟩
  · rw [titleHeader, Option.mem_toList, Option.map_eq_some_iff] at htitle
    obtain ⟨title, hsome, rfl⟩ := htitle
    exact Line.append ⟨by decide, by decide⟩ ((validateMessage_eq_ok hmessage).2 title hsome)

/-- The request of an accepted message, as a reader finds it. -/
theorem frames_requestBytes {url : String} {endpoint : NtfyEndpoint} {message : NtfyMessage}
    (hparse : NtfyEndpoint.parse url = .ok endpoint) (hmessage : validateMessage message = .ok ()) :
    Frames (requestBytes endpoint message) (requestLine endpoint message :: headers endpoint message)
      (utf8Bytes message.body) := by
  obtain ⟨hhost, hpath⟩ := unbroken_parse hparse
  rw [requestBytes_eq]
  exact frames_write (line_requestLine hpath hmessage) (line_headers hhost hmessage) _

/-! ### The request determines the message -/

theorem append_right_injective {s t u : String} (h : s ++ t = s ++ u) : t = u := by
  have hlist := congrArg String.toList h
  rw [String.toList_append, String.toList_append] at hlist
  exact String.toList_inj.1 (List.append_cancel_left hlist)

/-- The part behind the last slash of a path. -/
theorem eq_of_append_slash {a a' t t' : List Char} (ht : '/' ∉ t) (ht' : '/' ∉ t')
    (h : a ++ '/' :: t = a' ++ '/' :: t') : t = t' := by
  have hreverse := congrArg List.reverse h
  simp only [List.reverse_append, List.reverse_cons, List.append_assoc, List.singleton_append]
    at hreverse
  have hfirst := @splitOnce_append '/' t.reverse (by simpa using ht) a.reverse
  rw [hreverse, splitOnce_append (by simpa using ht')] at hfirst
  exact List.reverse_inj.1 (Prod.mk.inj (Option.some.inj hfirst)).1.symm

/-- A topic has no slash. -/
theorem slash_notMem_topic {message : NtfyMessage} (h : validateMessage message = .ok ()) :
    '/' ∉ message.topic.toList := by
  intro hmem
  have hcheck := List.all_eq_true.1 (validateMessage_eq_ok h).1 _
    (mem_utf8Bytes_of_ascii hmem (by decide))
  revert hcheck
  decide

theorem topic_of_requestLine {endpoint endpoint' : NtfyEndpoint} {message message' : NtfyMessage}
    (h : validateMessage message = .ok ()) (h' : validateMessage message' = .ok ())
    (hline : requestLine endpoint message = requestLine endpoint' message') :
    message.topic = message'.topic := by
  have hslash : "/".toList = ['/'] := by simp
  have hpath := congrArg String.toList (append_right_injective hline)
  simp only [String.toList_append, hslash, List.singleton_append] at hpath
  rw [← List.cons_append, ← List.cons_append, ← List.append_assoc, ← List.append_assoc] at hpath
  exact String.toList_inj.1 (eq_of_append_slash (slash_notMem_topic h) (slash_notMem_topic h')
    (List.append_cancel_right hpath))

/-- Requests of different messages differ, at whatever endpoints. -/
theorem requestBytes_injective {endpoint endpoint' : NtfyEndpoint} {message message' : NtfyMessage}
    {url url' : String} (hparse : NtfyEndpoint.parse url = .ok endpoint)
    (hparse' : NtfyEndpoint.parse url' = .ok endpoint') (h : validateMessage message = .ok ())
    (h' : validateMessage message' = .ok ())
    (hbytes : requestBytes endpoint message = requestBytes endpoint' message') :
    message = message' := by
  have hframes := frames_requestBytes hparse h
  have hframes' := frames_requestBytes hparse' h'
  rw [hbytes] at hframes
  obtain ⟨hlines, hbody⟩ := hframes.unique hframes'
  obtain ⟨hline, hheaders⟩ := List.cons.inj hlines
  have htopic := topic_of_requestLine h h' hline
  have hsame := utf8Bytes_injective hbody
  have htitle : message.title = message'.title := by
    have htitles := (List.append_inj hheaders rfl).2
    unfold titleHeader at htitles
    cases htitle : message.title <;> cases htitle' : message'.title <;>
      simp only [htitle, htitle', Option.map_none, Option.map_some, Option.toList_none,
        Option.toList_some, List.cons.injEq, reduceCtorEq, and_true] at htitles
    · rfl
    · rw [append_right_injective htitles]
  obtain ⟨topic, title, body⟩ := message
  obtain ⟨topic', title', body'⟩ := message'
  obtain rfl := htopic
  obtain rfl := htitle
  obtain rfl := hsame
  rfl

end Ntfy

namespace Whatsapp

/-- The first line of a WhatsApp request. -/
def requestLine (driver : WhatsappDriver) : String :=
  "POST /" ++ (driver.endpoint.version ++ ("/" ++ (driver.endpoint.phoneId ++
    "/messages HTTP/1.1")))

/-- The value of the `Host` header, with the port unless it is the usual one. -/
def hostText (driver : WhatsappDriver) : String :=
  if driver.endpoint.port = 443 then driver.endpoint.host
  else driver.endpoint.host ++ ":" ++ toString driver.endpoint.port.toNat

/-- The headers of a request whose body has the given length. -/
def headers (driver : WhatsappDriver) (length : ℕ) : List String :=
  ["Host: " ++ hostText driver, "Authorization: Bearer " ++ driver.token,
    "Content-Type: application/json", "Content-Length: " ++ toString length, "Connection: close"]

theorem request_eq (driver : WhatsappDriver) (body : List UInt8) :
    request driver body =
      utf8Bytes (join (requestLine driver) (headers driver body.length)) ++ (blank ++ body) := by
  have hline : "/messages HTTP/1.1\r\nHost: " = "/messages HTTP/1.1" ++ ("\r\n" ++ "Host: ") := by
    decide +kernel
  have hbearer : "\r\nAuthorization: Bearer " = "\r\n" ++ "Authorization: Bearer " := by
    decide +kernel
  have htype : "\r\nContent-Type: application/json\r\nContent-Length: " =
      "\r\n" ++ ("Content-Type: application/json" ++ ("\r\n" ++ "Content-Length: ")) := by
    decide +kernel
  have hclose : "\r\nConnection: close\r\n\r\n" =
      "\r\n" ++ ("Connection: close" ++ "\r\n\r\n") := by decide +kernel
  have hblank : utf8Bytes "\r\n\r\n" = blank := by decide +kernel
  unfold request
  dsimp only
  rw [← hostText, hline, hbearer, htype, hclose, ← hblank, ← List.append_assoc, ← utf8Bytes_append]
  congr 2
  simp only [join, later, requestLine, headers, List.foldr_cons, List.foldr_nil,
    String.append_assoc, String.append_empty, -String.reduceAppend]

/-- The request of a driver that was set up, as a reader finds it. -/
theorem frames_request {url phoneId : String} {endpoint : WhatsappEndpoint}
    {trusts : List UInt8 → Bool} {token : String} {registration : TemplateRegistration}
    {root : Option (List UInt8)} {driver : WhatsappDriver}
    (hparse : WhatsappEndpoint.parse url phoneId = .ok endpoint)
    (hnew : WhatsappDriver.newWithAdditionalRoot trusts endpoint token registration root = .ok driver)
    (body : List UInt8) :
    Frames (request driver body) (requestLine driver :: headers driver body.length) body := by
  obtain ⟨rfl, htoken, -⟩ := newWithAdditionalRoot_eq_ok hnew
  obtain ⟨hhost, hversion, hphone⟩ := unbroken_parse hparse
  have hhostText : Unbroken (hostText ⟨endpoint, token, registration⟩) := by
    unfold hostText
    split_ifs
    · exact hhost
    · exact unbroken_append (unbroken_append hhost (by decide)) (unbroken_toString _)
  rw [request_eq]
  refine frames_write ?_ ?_ body
  · exact Line.append ⟨by decide, by decide⟩ (unbroken_append hversion
      (unbroken_append (by decide) (unbroken_append hphone (by decide))))
  · intro line hline
    simp only [headers, List.mem_cons, List.not_mem_nil, or_false] at hline
    rcases hline with rfl | rfl | rfl | rfl | rfl
    · exact Line.append ⟨by decide, by decide⟩ hhostText
    · exact Line.append ⟨by decide, by decide⟩ (unbroken_token htoken)
    · exact ⟨by decide, by decide⟩
    · exact Line.append ⟨by decide, by decide⟩ (unbroken_toString _)
    · exact ⟨by decide, by decide⟩

/-- The command determines the message. -/
theorem commandJson_injective {message message' : WhatsappMessage}
    (h : commandJson message = commandJson message') : message = message' := by
  obtain ⟨recipient, template, locale, parameters⟩ := message
  obtain ⟨recipient', template', locale', parameters'⟩ := message'
  simp only [commandJson, Json.Value.object.injEq, List.cons.injEq, Prod.mk.injEq, true_and,
    Json.Value.array.injEq, Json.Value.string.injEq, and_true] at h
  obtain ⟨⟨hparameters, rfl, rfl⟩, rfl⟩ := h
  have hsame : parameters = parameters' := by
    refine List.map_inj_right (fun s t hst => ?_) |>.1 hparameters
    simpa using hst
  rw [hsame]

/-- Requests of different commands differ, as far as their JSON reads back. -/
theorem request_injective {json : Json.Codec} {driver : WhatsappDriver}
    {message message' : WhatsappMessage} {body body' : List UInt8}
    (hframes : Frames (request driver body) (requestLine driver :: headers driver body.length) body)
    (hframes' : Frames (request driver body') (requestLine driver :: headers driver body'.length)
      body')
    (hread : json.fromSlice body = some (commandJson message))
    (hread' : json.fromSlice body' = some (commandJson message'))
    (hbytes : request driver body = request driver body') : message = message' := by
  rw [hbytes] at hframes
  obtain ⟨-, rfl⟩ := hframes.unique hframes'
  rw [hread] at hread'
  exact commandJson_injective (Option.some.inj hread')

end Whatsapp

/-! ### Both drivers -/

/-- **No message alters the framing of a request.**  The head of an ntfy request has the request
line, the five fixed headers and the title, and its body is that of the message; the head of a
WhatsApp request has the five fixed headers.  Different messages give different requests. -/
theorem outbound_framing {url : String} {endpoint : Ntfy.NtfyEndpoint}
    (hparse : Ntfy.NtfyEndpoint.parse url = .ok endpoint) {cloudUrl phoneId : String}
    {cloud : Whatsapp.WhatsappEndpoint}
    (hcloud : Whatsapp.WhatsappEndpoint.parse cloudUrl phoneId = .ok cloud)
    {trusts : List UInt8 → Bool} {token : String} {registration : Whatsapp.TemplateRegistration}
    {root : Option (List UInt8)} {driver : Whatsapp.WhatsappDriver}
    (hnew : Whatsapp.WhatsappDriver.newWithAdditionalRoot trusts cloud token registration root =
      .ok driver) :
    (∀ message, Ntfy.validateMessage message = .ok () →
      Frames (Ntfy.requestBytes endpoint message)
        (Ntfy.requestLine endpoint message :: Ntfy.headers endpoint message)
        (utf8Bytes message.body) ∧
      ∀ message', Ntfy.validateMessage message' = .ok () →
        Ntfy.requestBytes endpoint message = Ntfy.requestBytes endpoint message' →
          message = message') ∧
    (∀ body, Frames (Whatsapp.request driver body)
      (Whatsapp.requestLine driver :: Whatsapp.headers driver body.length) body) ∧
    ∀ (json : Json.Codec) (message message' : Whatsapp.WhatsappMessage) (body body' : List UInt8),
      Whatsapp.requestBody json driver.registration message = .ok body →
      Whatsapp.requestBody json driver.registration message' = .ok body' →
      json.fromSlice body = some (Whatsapp.commandJson message) →
      json.fromSlice body' = some (Whatsapp.commandJson message') →
      Whatsapp.request driver body = Whatsapp.request driver body' → message = message' := by
  refine ⟨fun message hmessage => ⟨Ntfy.frames_requestBytes hparse hmessage, ?_⟩,
    Whatsapp.frames_request hcloud hnew, ?_⟩
  · intro message' hmessage' hbytes
    exact Ntfy.requestBytes_injective hparse hparse hmessage hmessage' hbytes
  · intro json message message' body body' _ _ hread hread' hbytes
    exact Whatsapp.request_injective (Whatsapp.frames_request hcloud hnew body)
      (Whatsapp.frames_request hcloud hnew body') hread hread' hbytes

/-- A message whose title looks like two headers. -/
def headerTitle : Ntfy.NtfyMessage := ⟨"alerts", some "Host: a\tX-Title: b", "disk full\r\n\r\nPOST"⟩

/-- A message with one parameter. -/
def invitation (parameter : String) : Whatsapp.WhatsappMessage :=
  ⟨"+15550001111", "alert", "en_US", [parameter]⟩

/-- The JSON body of that message. -/
def invitationText (parameter : String) : String :=
  "\x7b\"messaging_product\":\"whatsapp\",\"template\":\x7b\"components\":[\x7b\"parameters\":" ++
  "[\x7b\"text\":\"" ++ parameter ++ "\",\"type\":\"text\"\x7d],\"type\":\"body\"\x7d]," ++ "\"language\":" ++
  "\x7b\"code\":\"en_US\"\x7d,\"name\":\"alert\"\x7d,\"to\":\"+15550001111\"," ++
  "\"type\":\"template\"\x7d"

/-- A codec that knows the texts of two invitations. -/
def invitationCodec : Json.Codec where
  fromSlice bytes :=
    if bytes = utf8Bytes (invitationText "now") then some (Whatsapp.commandJson (invitation "now"))
    else if bytes = utf8Bytes (invitationText "later") then
      some (Whatsapp.commandJson (invitation "later"))
    else none
  fromStr _ := none
  toVec
    | .object [_, (_, .object ((_, .array [.object ((_, .array [.object ((_, .string text) :: _)]) ::
        _)]) :: _)), _, _] => some (utf8Bytes (invitationText text))
    | _ => none
  toString _ := none

/-- A driver whose registration fits that message. -/
def invitationDriver : Whatsapp.WhatsappDriver :=
  ⟨⟨"graph.example", 8443, "v20.0", "123"⟩, "token", ⟨"alert", "en_US", 1⟩⟩

theorem outbound_framing_invitations :
    Frames (Ntfy.requestBytes ⟨"localhost", 8080, "/ntfy"⟩ headerTitle)
      (Ntfy.requestLine ⟨"localhost", 8080, "/ntfy"⟩ headerTitle ::
        Ntfy.headers ⟨"localhost", 8080, "/ntfy"⟩ headerTitle) (utf8Bytes headerTitle.body) ∧
    Whatsapp.request invitationDriver (utf8Bytes (invitationText "now")) ≠
      Whatsapp.request invitationDriver (utf8Bytes (invitationText "later")) := by
  obtain ⟨hntfy, -, hwhatsapp⟩ := @outbound_framing "http://localhost:8080/ntfy/"
    ⟨"localhost", 8080, "/ntfy"⟩ (by decide +kernel) "https://graph.example:8443/v20.0" "123"
    ⟨"graph.example", 8443, "v20.0", "123"⟩ (by decide +kernel) (fun _ => true) "token"
    ⟨"alert", "en_US", 1⟩ none invitationDriver (by decide +kernel)
  refine ⟨(hntfy headerTitle (by decide +kernel)).1, fun hsame => ?_⟩
  have htexts : utf8Bytes (invitationText "later") ≠ utf8Bytes (invitationText "now") := by
    decide +kernel
  have hnow : invitationCodec.fromSlice (utf8Bytes (invitationText "now")) =
      some (Whatsapp.commandJson (invitation "now")) := by
    simp only [invitationCodec, if_true]
  have hlater : invitationCodec.fromSlice (utf8Bytes (invitationText "later")) =
      some (Whatsapp.commandJson (invitation "later")) := by
    simp only [invitationCodec, if_neg htexts, if_true]
  have hmessage := hwhatsapp invitationCodec (invitation "now") (invitation "later") _ _
    (by decide +kernel) (by decide +kernel) hnow hlater hsame
  revert hmessage
  decide

end MsgRiver.Connector
