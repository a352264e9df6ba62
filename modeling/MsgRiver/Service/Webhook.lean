import MsgRiver.Service.Callback
import MsgRiver.Service.Dispatch

/-!
# The webhook

`handle_inbound_request` serves one TCP connection: it reads one HTTP request, answers a
subscription check, or authenticates a callback and submits its effect to the store.

The peer decides the bytes and how they arrive.  A read gives at most 1024 of them, none at the end
of the stream; a read past the last one listed times out.  `received` is the stream that the peer
sends, whatever the reads that carry it.

* `handleInboundRequest_effect`: the only effect on the store is that of an authentic callback;
* `webhook_effect_authentic`: what an authentic callback is, in terms of the stream.
-/

namespace MsgRiver.Service

open MsgRiver.Store MsgRiver.Connector RelTable Checked Result StepRun Ascii Text

/-- The most bytes of a webhook request. -/
def maxRequest : ℕ := 16 * 1024

/-- The longest challenge that is answered. -/
def maxWebhookChallenge : ℕ := 1024

/-- A connection that is dropped: an arithmetic overflow, which ends the process, or an `Err`. -/
inductive Fault
  | panic
  | error (message : String)
  deriving DecidableEq

/-- A TCP peer: its answers to the reads, and whether it takes the response. -/
structure TcpPeer where
  reads : List ReadResult
  writes : Bool

/-- The inbound configuration, and the template and locale of the WhatsApp driver. -/
structure WebhookConfig where
  inbound : Option InboundConfig
  whatsapp : Option (String × String)

/-! ### Headers -/

/-- The loop of `header_once`: `value` is what was found so far. -/
def headerOnceFrom (wanted : List Char) (value : Option (List Char)) :
    List (List Char) → Option (List Char)
  | [] => value
  | line :: lines =>
    match splitOnce ':' line with
    | none => none
    | some (name, candidate) =>
      if eqIgnoreAsciiCase name wanted then
        if value.isSome then none else headerOnceFrom wanted (some (trim candidate)) lines
      else headerOnceFrom wanted value lines

/-- The value of a header that occurs once. -/
def headerOnce (head : List Char) (wanted : String) : Option (List Char) :=
  headerOnceFrom wanted.toList none ((splitCrLf head).drop 1)

/-- The announced length of the body. -/
def announcedLength (head : List Char) : Option ℕ :=
  (headerOnce head "content-length").bind (parseUnsigned (2 ^ 64 - 1))

/-! ### Signatures -/

/-- The bytes of pairs of hexadecimal digits. -/
def decodeHex : List Char → Option (List UInt8)
  | [] => some []
  | [_] => none
  | a :: b :: rest => do
    let high ← hexValue a
    let low ← hexValue b
    return UInt8.ofNat (16 * high + low) :: (← decodeHex rest)

/-- The digits are ASCII, so 64 of them are 64 bytes. -/
def verifySignature (secret body : List UInt8) (value : List Char) : Bool :=
  if "sha256=".toList.isPrefixOf value then
    let encoded := value.drop 7
    encoded.length == 64 &&
      decodeHex encoded == some (Sha256.hmacSha256 secret body).toList
  else false

/-! ### Reading a request -/

/-- The end of the body loop: the bytes are exactly the request. -/
def exactBody (separator length : ℕ) (bytes : List UInt8) : Option (List UInt8) :=
  if bytes.length ≠ separator + 4 + length then none else some (bytes.drop (separator + 4))

/-- Read until the body is complete. -/
def readHttpBody (separator length : ℕ) (bytes : List UInt8) :
    List ReadResult → Except Fault (Option (List UInt8))
  | [] =>
    if bytes.length < separator + 4 + length then .error (.error "webhook read failed")
    else .ok (exactBody separator length bytes)
  | read :: reads =>
    if bytes.length < separator + 4 + length then
      match read with
      | .failed => .error (.error "webhook read failed")
      | .chunk chunk _ =>
        if chunk.isEmpty then .ok none else readHttpBody separator length (bytes ++ chunk) reads
    else .ok (exactBody separator length bytes)

/-- How the request line of a subscription starts. -/
def subscriptionStart : List Char := "GET /v1/whatsapp/webhook?".toList

/-- The request behind a blank line at `separator`. -/
def readHttpFramed (separator : ℕ) (bytes : List UInt8) (reads : List ReadResult) :
    Except Fault (Option (List Char × List UInt8)) :=
  match decodeUtf8 (bytes.take separator) with
  | none => .error (.error "webhook request failed")
  | some head =>
    if subscriptionStart.isPrefixOf head then .ok (some (head, []))
    else
      match announcedLength head with
      | none => .ok none
      | some length =>
        -- `MAX_REQUEST - separator - 4` is checked
        if maxRequest < separator + 4 then .error .panic
        else if maxRequest - separator - 4 < length then .ok none
        else (readHttpBody separator length bytes reads).map fun body =>
          body.map fun body => (head, body)

/-- Read until the blank line, then the body. -/
def readHttpRequestFrom (bytes : List UInt8) :
    List ReadResult → Except Fault (Option (List Char × List UInt8))
  | [] => if bytes.length ≤ maxRequest then .error (.error "webhook read failed") else .ok none
  | read :: reads =>
    if bytes.length ≤ maxRequest then
      match read with
      | .failed => .error (.error "webhook read failed")
      | .chunk chunk _ =>
        if chunk.isEmpty then .ok none
        else
          match position blankLine (bytes ++ chunk) with
          | none => readHttpRequestFrom (bytes ++ chunk) reads
          | some separator => readHttpFramed separator (bytes ++ chunk) reads
    else .ok none

/-- The head of the request as a text, and its body. -/
def readHttpRequest (reads : List ReadResult) : Except Fault (Option (List Char × List UInt8)) :=
  readHttpRequestFrom [] reads

/-! ### Answers -/

/-- The response on the webhook socket. -/
def tcpResponse (status : ℕ) (body : List Char) : List UInt8 :=
  let reason := match status with
    | 200 => "OK"
    | 400 => "Bad Request"
    | 401 => "Unauthorized"
    | 404 => "Not Found"
    | _ => "Error"
  let body := String.ofList body
  utf8Bytes ("HTTP/1.1 " ++ toString status ++ " " ++ reason ++ "\r\nContent-Length: " ++
    toString body.utf8ByteSize ++ "\r\nConnection: close\r\n\r\n" ++ body)

/-- The response, where the peer still reads. -/
def writeTcpResponse (peer : TcpPeer) (status : ℕ) (body : List Char) :
    Except Fault (List UInt8) :=
  if peer.writes then .ok (tcpResponse status body) else .error (.error "webhook write failed")

/-- The parameters of a subscription check that were read so far. -/
structure Subscription where
  mode : Option (List Char) := none
  token : Option (List Char) := none
  challenge : Option (List Char) := none

/-- One pair of the query; a second value for a parameter is refused, as is any other parameter. -/
def Subscription.read (subscription : Subscription) (pair : List Char) : Option Subscription :=
  match splitOnce '=' pair with
  | none => none
  | some (key, value) =>
    if key = "hub.mode".toList then
      if subscription.mode.isSome then none else some { subscription with mode := some value }
    else if key = "hub.verify_token".toList then
      if subscription.token.isSome then none else some { subscription with token := some value }
    else if key = "hub.challenge".toList then
      if subscription.challenge.isSome then none
      else some { subscription with challenge := some value }
    else none

/-- `is_ascii_graphic` on every byte. -/
def validChallenge (value : List Char) : Bool :=
  !value.isEmpty && (String.ofList value).utf8ByteSize ≤ maxWebhookChallenge &&
    value.all fun c => '!' ≤ c && c ≤ '~'

/-- The answer to a subscription. -/
def handleSubscription (query : List Char) (config : InboundConfig) : ℕ × List Char :=
  match (splitOn (· == '&') query).foldlM Subscription.read {} with
  | none => (400, [])
  | some subscription =>
    match subscription.challenge.filter validChallenge with
    | none => (400, [])
    | some challenge =>
      if subscription.mode ≠ some "subscribe".toList then (400, [])
      else if subscription.token ≠ decodeUtf8 config.verifyToken then (401, [])
      else (200, challenge)

/-- The query of a subscription check. -/
def subscriptionQuery (requestLine : List Char) : Option (List Char) :=
  let rest := requestLine.drop subscriptionStart.length
  if " HTTP/1.1".toList.isSuffixOf rest then some (rest.take (rest.length - 9)) else none

/-! ### The handler -/

/-- The payload text of an answer to a command. -/
def canonicalWhatsappPayload (json : Json.Codec) (template locale : String)
    (parameters : List String) : Except Fault String :=
  orError (.error "payload encoding failed")
    (json.toString (CanonicalWhatsappPayload.toJson ⟨template, locale, parameters⟩))

/-- The effect of an accepted callback: a fixed notice to the configured topic, or a status template
to its sender.  Without a WhatsApp driver a status has none. -/
def callbackEffect (json : Json.Codec) (config : WebhookConfig) (inbound : InboundConfig)
    (callback : ParsedCallback) : Except Fault (Option M4InboundSubmission) :=
  if callback.verb = "notify" then
    .ok (some
      { providerMessageId := callback.messageId
        sender := callback.sender
        verb := callback.verb
        driver := "ntfy"
        destination := inbound.ntfyTopic
        payload := "WhatsApp notify request accepted" })
  else
    match config.whatsapp with
    | none => .ok none
    | some (template, locale) =>
      (canonicalWhatsappPayload json template locale ["ready"]).map fun payload => some
        { providerMessageId := callback.messageId
          sender := callback.sender
          verb := callback.verb
          driver := "whatsapp"
          destination := "+" ++ callback.sender
          payload := payload }

/-- What a posted request leads to: a status, or an effect to submit. -/
inductive Verdict
  | answer (status : ℕ)
  | submit (submission : M4InboundSubmission)
  deriving DecidableEq

/-- The checks of a posted request. -/
def judgeCallback (json : Json.Codec) (config : WebhookConfig) (inbound : InboundConfig)
    (nowMs : Option Int64) (head : List Char) (body : List UInt8) : Except Fault Verdict :=
  match headerOnce head "x-hub-signature-256" with
  | none => .ok (.answer 401)
  | some signature =>
    if headerOnce head "content-type" ≠ some "application/json".toList
        ∨ verifySignature inbound.appSecret body signature = false then .ok (.answer 401)
    else
      match parseCallback json nowMs body inbound with
      | none => .ok (.answer 200)
      | some callback =>
        if (callback.sender, callback.verb) ∉ inbound.policy then .ok (.answer 200)
        else (callbackEffect json config inbound callback).map fun effect =>
          match effect with
          | none => .answer 200
          | some submission => .submit submission

/-- The first line of a head. -/
def requestLineOf (head : List Char) : List Char := (splitCrLf head).headD []

/-- The request line of a callback. -/
def webhookLine : List Char := "POST /v1/whatsapp/webhook HTTP/1.1".toList

/-- One connection.  The clock is read by `parse_callback` and again for the store. -/
def handleInboundRequest (sha256 : List UInt8 → List.Vector UInt8 32) (json : Json.Codec)
    (config : WebhookConfig) (parseNow submitNow : Option Int64) (peer : TcpPeer) (db : Db) :
    Except Fault (List UInt8) × Db :=
  match config.inbound with
  | none => (.ok [], db)
  | some inbound =>
    match readHttpRequest peer.reads with
    | .error fault => (.error fault, db)
    | .ok none => (writeTcpResponse peer 400 [], db)
    | .ok (some (head, body)) =>
      if subscriptionStart.isPrefixOf (requestLineOf head) then
        match subscriptionQuery (requestLineOf head) with
        | none => (.error (.error "webhook request failed"), db)
        | some query =>
          let (status, text) := handleSubscription query inbound
          (writeTcpResponse peer status text, db)
      else if requestLineOf head ≠ webhookLine then (writeTcpResponse peer 404 [], db)
      else
        match judgeCallback json config inbound parseNow head body with
        | .error fault => (.error fault, db)
        | .ok (.answer status) => (writeTcpResponse peer status [], db)
        | .ok (.submit submission) =>
          match submitNow with
          | none => (.error (.error "clock failed"), db)
          | some now =>
            match m4SubmitInbound sha256 submission now db with
            | (.error _, db) => (.error (.error "inbound store failed"), db)
            | (.ok _, db) => (writeTcpResponse peer 200 [], db)

/-! ### Headers, read as a whole -/

/-- The lines after the request line are fields, and `value` is the trimmed value of the only one
with the given name. -/
def HeaderOnce (head : List Char) (wanted : String) (value : List Char) : Prop :=
  ∃ fields, ((splitCrLf head).drop 1).mapM (splitOnce ':') = some fields ∧
    (fields.filter fun field => eqIgnoreAsciiCase field.1 wanted.toList).map
      (fun field => trim field.2) = [value]

/-- The loop answers with the fields found, when they are one in all. -/
theorem headerOnceFrom_eq_some {wanted : List Char} {found : Option (List Char)}
    {lines : List (List Char)} {value : List Char} :
    headerOnceFrom wanted found lines = some value ↔
      ∃ fields, lines.mapM (splitOnce ':') = some fields ∧
        found.toList ++ (fields.filter fun field => eqIgnoreAsciiCase field.1 wanted).map
          (fun field => trim field.2) = [value] := by
  induction lines generalizing found with
  | nil =>
    cases found <;> simp [headerOnceFrom]
  | cons line lines ih =>
    rw [headerOnceFrom, List.mapM_cons]
    cases splitOnce ':' line with
    | none => simp
    | some field =>
      obtain ⟨name, candidate⟩ := field
      simp only [Option.bind_eq_bind, Option.bind_some, Option.bind_eq_some_iff, Option.pure_def,
        Option.some.injEq]
      by_cases hname : eqIgnoreAsciiCase name wanted = true
      · rw [if_pos hname]
        cases found with
        | some v =>
          simp only [Option.isSome_some, if_true, reduceCtorEq, false_iff]
          rintro ⟨_, ⟨fields, -, rfl⟩, hone⟩
          simp [hname] at hone
        | none =>
          simp only [Option.isSome_none, Bool.false_eq_true, if_false]
          rw [ih]
          constructor
          · rintro ⟨fields, hfields, hone⟩
            exact ⟨_, ⟨fields, hfields, rfl⟩, by simpa [List.filter_cons, hname] using hone⟩
          · rintro ⟨_, ⟨fields, hfields, rfl⟩, hone⟩
            exact ⟨fields, hfields, by simpa [List.filter_cons, hname] using hone⟩
      · rw [if_neg hname, ih]
        constructor
        · rintro ⟨fields, hfields, hone⟩
          exact ⟨_, ⟨fields, hfields, rfl⟩, by simpa [List.filter_cons, hname] using hone⟩
        · rintro ⟨_, ⟨fields, hfields, rfl⟩, hone⟩
          exact ⟨fields, hfields, by simpa [List.filter_cons, hname] using hone⟩

theorem headerOnce_eq_some {head : List Char} {wanted : String} {value : List Char} :
    headerOnce head wanted = some value ↔ HeaderOnce head wanted value := by
  rw [headerOnce, headerOnceFrom_eq_some]
  rfl

theorem HeaderOnce.unique {head : List Char} {wanted : String} {v w : List Char}
    (hv : HeaderOnce head wanted v) (hw : HeaderOnce head wanted w) : v = w := by
  rw [← headerOnce_eq_some] at hv hw
  exact Option.some.inj (hv.symm.trans hw)

/-! ### The stream behind the reads -/

/-- The bytes that a peer sends: those of the reads up to the end of the stream or a failure. -/
def received : List ReadResult → List UInt8
  | .chunk bytes _ :: reads => if bytes.isEmpty then [] else bytes ++ received reads
  | _ => []

theorem received_cons {chunk : List UInt8} {hsize : chunk.length ≤ 1024}
    (h : ¬ chunk.isEmpty = true) (reads : List ReadResult) :
    received (.chunk chunk hsize :: reads) = chunk ++ received reads := by
  rw [received, if_neg h]

/-- One chunk more in the buffer is one read more of the stream. -/
theorem append_received_take {chunk : List UInt8} {hsize : chunk.length ≤ 1024}
    (h : ¬ chunk.isEmpty = true) (bytes : List UInt8) (reads : List ReadResult) (n : ℕ) :
    bytes ++ received ((ReadResult.chunk chunk hsize :: reads).take (n + 1)) =
      (bytes ++ chunk) ++ received (reads.take n) := by
  rw [List.take_succ_cons, received_cons h, List.append_assoc]

theorem received_take_prefix (reads : List ReadResult) (n : ℕ) :
    received (reads.take n) <+: received reads := by
  induction n generalizing reads with
  | zero => exact List.nil_prefix
  | succ n ih =>
    cases reads with
    | nil => exact List.nil_prefix
    | cons read reads =>
      cases read with
      | failed => exact List.nil_prefix
      | chunk bytes hsize =>
        rw [List.take_succ_cons]
        by_cases hempty : bytes.isEmpty = true
        · rw [received, if_pos hempty]
          exact List.nil_prefix
        · rw [received_cons hempty, received_cons hempty]
          exact (List.prefix_append_right_inj _).2 (ih reads)

/-- The stream is a request: its first blank line ends the head, and the one `Content-Length` of the
head is the length of the body behind it. -/
def FramedRequest (stream : List UInt8) (head : List Char) (body : List UInt8) : Prop :=
  ∃ separator value, position blankLine stream = some separator ∧
    decodeUtf8 (stream.take separator) = some head ∧
    HeaderOnce head "content-length" value ∧
    parseUnsigned (2 ^ 64 - 1) value = some body.length ∧
    body <+: stream.drop (separator + 4)

/-- A stream is at most one request. -/
theorem FramedRequest.unique {stream : List UInt8} {head head' : List Char}
    {body body' : List UInt8} (h : FramedRequest stream head body)
    (h' : FramedRequest stream head' body') : head' = head ∧ body' = body := by
  obtain ⟨separator, value, hposition, hhead, hvalue, hlength, hbody⟩ := h
  obtain ⟨separator', value', hposition', hhead', hvalue', hlength', hbody'⟩ := h'
  obtain rfl : separator' = separator := Option.some.inj (hposition'.symm.trans hposition)
  obtain rfl : head' = head := Option.some.inj (hhead'.symm.trans hhead)
  obtain rfl := hvalue'.unique hvalue
  have heq : body'.length = body.length := Option.some.inj (hlength'.symm.trans hlength)
  refine ⟨rfl, ?_⟩
  exact List.IsPrefix.eq_of_length (List.prefix_of_prefix_length_le hbody' hbody heq.le) heq

/-! ### What the reader returns -/

theorem readHttpBody_eq_ok {separator length : ℕ} {bytes : List UInt8} {reads : List ReadResult}
    {body : List UInt8} (h : readHttpBody separator length bytes reads = .ok (some body)) :
    ∃ n, (bytes ++ received (reads.take n)).length = separator + 4 + length ∧
      body = (bytes ++ received (reads.take n)).drop (separator + 4) := by
  have hexact : ∀ bytes : List UInt8, exactBody separator length bytes = some body →
      bytes.length = separator + 4 + length ∧ body = bytes.drop (separator + 4) := by
    intro bytes hbody
    unfold exactBody at hbody
    split_ifs at hbody with hlength
    exact ⟨not_not.1 hlength, (Option.some.inj hbody).symm⟩
  induction reads generalizing bytes with
  | nil =>
    unfold readHttpBody at h
    split_ifs at h with hshort
    exact ⟨0, by simpa [received] using hexact bytes (Except.ok.inj h)⟩
  | cons read reads ih =>
    unfold readHttpBody at h
    split_ifs at h with hshort
    · cases read with
      | failed => cases h
      | chunk chunk hsize =>
        simp only at h
        split_ifs at h with hempty
        · cases h
        · obtain ⟨n, hlength, hbody⟩ := ih h
          refine ⟨n + 1, ?_⟩
          rw [append_received_take hempty]
          exact ⟨hlength, hbody⟩
    · exact ⟨0, by simpa [received] using hexact bytes (Except.ok.inj h)⟩

/-- A posted request behind a blank line: its head announces the length of its body. -/
theorem readHttpFramed_eq_ok {separator : ℕ} {bytes : List UInt8} {reads : List ReadResult}
    {head : List Char} {body : List UInt8}
    (h : readHttpFramed separator bytes reads = .ok (some (head, body)))
    (hpost : ¬ subscriptionStart.isPrefixOf head = true) :
    decodeUtf8 (bytes.take separator) = some head ∧ ∃ length, announcedLength head = some length ∧
      readHttpBody separator length bytes reads = .ok (some body) := by
  unfold readHttpFramed at h
  cases hdecode : decodeUtf8 (bytes.take separator) with
  | none =>
    rw [hdecode] at h
    cases h
  | some text =>
    rw [hdecode] at h
    by_cases hget : subscriptionStart.isPrefixOf text = true
    · simp only [if_pos hget] at h
      cases h
      exact absurd hget hpost
    simp only [if_neg hget] at h
    cases hlength : announcedLength text with
    | none =>
      rw [hlength] at h
      cases h
    | some length =>
      rw [hlength] at h
      simp only at h
      split_ifs at h with hpanic hlong
      · cases h
      cases hread : readHttpBody separator length bytes reads with
      | error fault =>
        rw [hread] at h
        cases h
      | ok found =>
        rw [hread] at h
        cases found with
        | none => cases h
        | some found =>
          cases h
          exact ⟨rfl, length, hlength, hread⟩

/-- A posted request is what the reads hold together: its head up to the first blank line, and the
announced number of bytes behind it, with nothing following. -/
theorem readHttpRequestFrom_eq_ok {bytes : List UInt8} {reads : List ReadResult}
    {head : List Char} {body : List UInt8}
    (h : readHttpRequestFrom bytes reads = .ok (some (head, body)))
    (hpost : ¬ subscriptionStart.isPrefixOf head = true) :
    ∃ n separator, position blankLine (bytes ++ received (reads.take n)) = some separator ∧
      decodeUtf8 ((bytes ++ received (reads.take n)).take separator) = some head ∧
      announcedLength head = some body.length ∧
      body = (bytes ++ received (reads.take n)).drop (separator + 4) := by
  induction reads generalizing bytes with
  | nil =>
    unfold readHttpRequestFrom at h
    split_ifs at h
    cases h
  | cons read reads ih =>
    unfold readHttpRequestFrom at h
    split_ifs at h with hmore
    swap
    · cases h
    cases read with
    | failed => cases h
    | chunk chunk hsize =>
      simp only at h
      split_ifs at h with hempty
      · cases h
      cases hposition : position blankLine (bytes ++ chunk) with
      | none =>
        rw [hposition] at h
        obtain ⟨n, separator, hrest⟩ := ih h
        refine ⟨n + 1, separator, ?_⟩
        rw [append_received_take hempty]
        exact hrest
      | some separator =>
        rw [hposition] at h
        obtain ⟨hdecode, length, hlength, hread⟩ := readHttpFramed_eq_ok h hpost
        obtain ⟨n, hn, hbody⟩ := readHttpBody_eq_ok hread
        have hbefore := position_add_le hposition
        refine ⟨n + 1, separator, ?_⟩
        rw [append_received_take hempty]
        refine ⟨position_append hposition _, ?_, ?_, hbody⟩
        · rw [List.take_append_of_le_length (by omega)]
          exact hdecode
        · rw [hlength, hbody, List.length_drop, hn]
          congr 1
          omega

/-- The stream ends with the body behind its first blank line. -/
def NothingFollows (stream body : List UInt8) : Prop :=
  ∃ separator, position blankLine stream = some separator ∧ body = stream.drop (separator + 4)

/-- **The framing of a posted request**, in terms of the stream: it is that request, whatever the
reads, and nothing follows in the reads that were made. -/
theorem readHttpRequest_framed {reads : List ReadResult} {head : List Char} {body : List UInt8}
    (h : readHttpRequest reads = .ok (some (head, body)))
    (hpost : ¬ subscriptionStart.isPrefixOf head = true) :
    FramedRequest (received reads) head body ∧
      ∃ n, NothingFollows (received (reads.take n)) body := by
  obtain ⟨n, separator, hposition, hdecode, hlength, hbody⟩ := readHttpRequestFrom_eq_ok h hpost
  rw [List.nil_append] at hposition hdecode hbody
  obtain ⟨value, hvalue, hparse⟩ := Option.bind_eq_some_iff.1 hlength
  rw [headerOnce_eq_some] at hvalue
  obtain ⟨rest, hrest⟩ := received_take_prefix reads n
  have hend := position_add_le hposition
  have hblank : blankLine.length = 4 := rfl
  refine ⟨?_, n, separator, hposition, hbody⟩
  rw [← hrest]
  refine ⟨separator, value, position_append hposition rest, ?_, hvalue, hparse, ?_⟩
  · rw [List.take_append_of_le_length (by omega)]
    exact hdecode
  · rw [List.drop_append_of_le_length (by omega), ← hbody]
    exact List.prefix_append _ _

/-- A posted request that arrives whole in the first read is returned, whatever comes later. -/
theorem readHttpRequest_whole {head : String} {body : List UInt8}
    (hsize : (utf8Bytes head ++ (blankLine ++ body)).length ≤ 1024)
    (hposition : position blankLine (utf8Bytes head ++ (blankLine ++ body)) =
      some (utf8Bytes head).length)
    (hpost : subscriptionStart.isPrefixOf head.toList = false)
    (hlength : announcedLength head.toList = some body.length) (later : List ReadResult) :
    readHttpRequest (.chunk _ hsize :: later) = .ok (some (head.toList, body)) := by
  have htotal : (utf8Bytes head ++ (blankLine ++ body)).length =
      (utf8Bytes head).length + 4 + body.length := by
    simp only [List.length_append, show blankLine.length = 4 from rfl, Nat.add_assoc]
  have hnonempty : ¬ (utf8Bytes head ++ (blankLine ++ body)).isEmpty = true := by
    rw [List.isEmpty_iff_length_eq_zero]
    omega
  have hbody : readHttpBody (utf8Bytes head).length body.length
      (utf8Bytes head ++ (blankLine ++ body)) later = .ok (some body) := by
    have hexact : exactBody (utf8Bytes head).length body.length
        (utf8Bytes head ++ (blankLine ++ body)) = some body := by
      rw [exactBody, if_neg (not_not.2 htotal), ← List.drop_drop, List.drop_left]
      rfl
    cases later <;> (unfold readHttpBody; rw [if_neg (by omega), hexact])
  have hframed : readHttpFramed (utf8Bytes head).length (utf8Bytes head ++ (blankLine ++ body))
      later = .ok (some (head.toList, body)) := by
    unfold readHttpFramed
    rw [List.take_left, decodeUtf8_utf8Bytes]
    simp only [hpost, Bool.false_eq_true, if_false, hlength]
    rw [if_neg (by unfold maxRequest; omega), if_neg (by unfold maxRequest; omega), hbody]
    rfl
  unfold readHttpRequest readHttpRequestFrom
  simp only [List.length_nil, Nat.zero_le, if_true, List.nil_append, if_neg hnonempty, hposition,
    hframed]

/-! ### What the handler does to the store -/

/-- The request line of a head keeps its first character. -/
theorem requestLineOf_cons {c : Char} (hc : c ≠ '\r') (cs : List Char) :
    ∃ rest, requestLineOf (c :: cs) = c :: rest := by
  unfold requestLineOf
  rw [splitCrLf.eq_3 c cs (fun _ h => absurd h hc)]
  cases splitCrLf cs with
  | nil => exact ⟨[], rfl⟩
  | cons part parts => exact ⟨part, rfl⟩

/-- The posted request line is not that of a subscription check. -/
theorem not_subscription_of_webhookLine {head : List Char} (h : requestLineOf head = webhookLine) :
    ¬ subscriptionStart.isPrefixOf head = true := by
  intro hstart
  obtain ⟨rest, rfl⟩ := List.isPrefixOf_iff_prefix.1 hstart
  obtain ⟨line, hline⟩ := requestLineOf_cons (c := 'G') (by decide)
    ("ET /v1/whatsapp/webhook?".toList ++ rest)
  rw [show subscriptionStart ++ rest = 'G' :: ("ET /v1/whatsapp/webhook?".toList ++ rest) from rfl,
    hline] at h
  cases h

theorem verifySignature_eq_true {secret body : List UInt8} {value : List Char}
    (h : verifySignature secret body value = true) :
    ∃ encoded, value = "sha256=".toList ++ encoded ∧ encoded.length = 64 ∧
      decodeHex encoded = some (Sha256.hmacSha256 secret body).toList := by
  unfold verifySignature at h
  split_ifs at h with hstart
  obtain ⟨encoded, rfl⟩ := List.isPrefixOf_iff_prefix.1 hstart
  rw [show (7 : ℕ) = "sha256=".toList.length from rfl, List.drop_left] at h
  simp only [Bool.and_eq_true, beq_iff_eq] at h
  exact ⟨encoded, rfl, h.1, h.2⟩

/-- A callback that the handler submits: how its stream is framed, signed, typed and read, and that
the policy grants it. -/
structure AuthenticCallback (json : Json.Codec) (inbound : InboundConfig) (nowMs : Option Int64)
    (reads : List ReadResult) (head : List Char) (body : List UInt8) (callback : ParsedCallback) :
    Prop where
  requestLine : requestLineOf head = webhookLine
  framed : FramedRequest (received reads) head body
  nothingRead : ∃ n, NothingFollows (received (reads.take n)) body
  signature : ∃ encoded, HeaderOnce head "x-hub-signature-256" ("sha256=".toList ++ encoded) ∧
    encoded.length = 64 ∧
    decodeHex encoded = some (Sha256.hmacSha256 inbound.appSecret body).toList
  contentType : HeaderOnce head "content-type" "application/json".toList
  accepted : parseCallback json nowMs body inbound = some callback
  shape : ∃ now value, nowMs = some now ∧ json.fromSlice body = some value ∧
    CallbackShape inbound now value callback
  granted : (callback.sender, callback.verb) ∈ inbound.policy

/-- A posted request is submitted only after all of its checks. -/
theorem judgeCallback_eq_submit {json : Json.Codec} {config : WebhookConfig}
    {inbound : InboundConfig} {nowMs : Option Int64} {head : List Char} {body : List UInt8}
    {submission : M4InboundSubmission}
    (h : judgeCallback json config inbound nowMs head body = .ok (.submit submission)) :
    ∃ signature callback, headerOnce head "x-hub-signature-256" = some signature ∧
      headerOnce head "content-type" = some "application/json".toList ∧
      verifySignature inbound.appSecret body signature = true ∧
      parseCallback json nowMs body inbound = some callback ∧
      (callback.sender, callback.verb) ∈ inbound.policy ∧
      callbackEffect json config inbound callback = .ok (some submission) := by
  unfold judgeCallback at h
  -- a check that fails ends the request without a submission, so each has passed
  cases hsignature : headerOnce head "x-hub-signature-256" with
  | none =>
    rw [hsignature] at h
    cases h
  | some signature =>
    rw [hsignature] at h
    simp only at h
    split_ifs at h with hrefused
    · cases h
    simp only [ne_eq, not_or, not_not, Bool.not_eq_false] at hrefused
    cases hcallback : parseCallback json nowMs body inbound with
    | none =>
      rw [hcallback] at h
      cases h
    | some callback =>
      rw [hcallback] at h
      simp only at h
      split_ifs at h with hpolicy
      swap
      · cases h
      cases heffect : callbackEffect json config inbound callback with
      | error fault =>
        rw [heffect] at h
        cases h
      | ok effect =>
        rw [heffect] at h
        cases effect with
        | none => cases h
        | some submission' =>
          cases h
          exact ⟨signature, callback, rfl, hrefused.1, hrefused.2, rfl, hpolicy, heffect⟩

/-- An inbound submission changes the store only while the switch is enabled. -/
theorem enabled_of_m4SubmitInbound {sha256 : List UInt8 → List.Vector UInt8 32}
    {s : M4InboundSubmission} {now : Int64} {db : Db}
    (h : (m4SubmitInbound sha256 s now db).2 ≠ db) : db.inboundControl = some true := by
  by_contra hdisabled
  apply h
  unfold m4SubmitInbound transaction
  by_cases hvalid : s.valid = true
  · cases hcontrol : db.inboundControl with
    | none => simp [hvalid, reject, orError, hcontrol, bind, Except.bind]
    | some enabled =>
      cases enabled with
      | true => exact absurd hcontrol hdisabled
      | false => simp [hvalid, reject, orError, hcontrol, bind, Except.bind, pure, Except.pure]
  · simp [hvalid, reject, bind, Except.bind]

/-- An accepted submission changes the store. -/
theorem m4SubmitInbound_ne {sha256 : List UInt8 → List.Vector UInt8 32}
    {s : M4InboundSubmission} {now : Int64} {db : Db}
    (h : (step sha256 db (.m4SubmitInbound s now)).1 = .ok (.inbound .accepted)) :
    (m4SubmitInbound sha256 s now db).2 ≠ db := by
  have hreceipts := ((callback_step db s now).1 h).receipts
  intro hsame
  rw [show (step sha256 db (.m4SubmitInbound s now)).2 = db from hsame] at hreceipts
  exact List.cons_ne_nil _ _ (List.self_eq_append_right.1 hreceipts)

/-- A posted request that passes its checks is submitted. -/
theorem handleInboundRequest_submits {sha256 : List UInt8 → List.Vector UInt8 32}
    {json : Json.Codec} {config : WebhookConfig} {inbound : InboundConfig}
    {parseNow : Option Int64} {now : Int64} {peer : TcpPeer} {db : Db} {head : List Char}
    {body : List UInt8} {submission : M4InboundSubmission}
    (hinbound : config.inbound = some inbound)
    (hread : readHttpRequest peer.reads = .ok (some (head, body)))
    (hline : requestLineOf head = webhookLine)
    (hjudge : judgeCallback json config inbound parseNow head body = .ok (.submit submission)) :
    (handleInboundRequest sha256 json config parseNow (some now) peer db).2 =
      (m4SubmitInbound sha256 submission now db).2 := by
  have hget : ¬ subscriptionStart.isPrefixOf webhookLine = true := by decide
  unfold handleInboundRequest
  simp only [hinbound, hread, hline, if_neg hget, ne_eq, not_true_eq_false, if_false, hjudge]
  rcases m4SubmitInbound sha256 submission now db with ⟨_ | _, db'⟩ <;> rfl

/-- **The effect of one connection.**  The store is left as it is, or an authentic callback is
submitted to it. -/
theorem handleInboundRequest_effect {sha256 : List UInt8 → List.Vector UInt8 32}
    {json : Json.Codec} {config : WebhookConfig} {parseNow submitNow : Option Int64}
    {peer : TcpPeer} {db : Db}
    (h : (handleInboundRequest sha256 json config parseNow submitNow peer db).2 ≠ db) :
    ∃ inbound head body callback submission now, config.inbound = some inbound ∧
      AuthenticCallback json inbound parseNow peer.reads head body callback ∧
      callbackEffect json config inbound callback = .ok (some submission) ∧
      submitNow = some now ∧
      (handleInboundRequest sha256 json config parseNow submitNow peer db).2 =
        (m4SubmitInbound sha256 submission now db).2 := by
  unfold handleInboundRequest at h ⊢
  -- every exit before the submission answers with the store as it was
  cases hinbound : config.inbound with
  | none => exact absurd (by rw [hinbound]) h
  | some inbound =>
  simp only [hinbound] at h ⊢
  cases hread : readHttpRequest peer.reads with
  | error fault => exact absurd (by rw [hread]) h
  | ok request =>
  cases request with
  | none => exact absurd (by rw [hread]) h
  | some request =>
  obtain ⟨head, body⟩ := request
  simp only [hread] at h ⊢
  by_cases hget : subscriptionStart.isPrefixOf (requestLineOf head) = true
  · simp only [if_pos hget] at h
    cases hquery : subscriptionQuery (requestLineOf head) with
    | none => exact absurd (by rw [hquery]) h
    | some query => exact absurd (by rw [hquery]) h
  simp only [if_neg hget] at h ⊢
  by_cases hline : requestLineOf head = webhookLine
  swap
  · exact absurd (by rw [if_pos hline]) h
  simp only [if_neg (not_not.2 hline)] at h ⊢
  cases hjudge : judgeCallback json config inbound parseNow head body with
  | error fault => exact absurd (by rw [hjudge]) h
  | ok verdict =>
  cases verdict with
  | answer status => exact absurd (by rw [hjudge]) h
  | submit submission =>
  simp only [hjudge] at h ⊢
  cases submitNow with
  | none => exact absurd rfl h
  | some now =>
  obtain ⟨signature, callback, hsignature, htype, hverify, hcallback, hpolicy, heffect⟩ :=
    judgeCallback_eq_submit hjudge
  obtain ⟨encoded, rfl, hlength, hdecode⟩ := verifySignature_eq_true hverify
  obtain ⟨hframed, hnothing⟩ := readHttpRequest_framed hread (not_subscription_of_webhookLine hline)
  refine ⟨inbound, head, body, callback, submission, now, rfl, ?_, heffect, rfl, ?_⟩
  · exact
      { requestLine := hline
        framed := hframed
        nothingRead := hnothing
        signature := ⟨encoded, headerOnce_eq_some.1 hsignature, hlength, hdecode⟩
        contentType := headerOnce_eq_some.1 htype
        accepted := hcallback
        shape := parseCallback_shape hcallback
        granted := hpolicy }
  · simp only
    rcases m4SubmitInbound sha256 submission now db with ⟨_ | _, db'⟩ <;> rfl

/-- **Authentication of the webhook.**  For every stream, in every chunking, and every store: when a
connection changes the store, its stream is an authentic callback, the switch is enabled, and the
stream is no other request. -/
theorem webhook_effect_authentic (sha256 : List UInt8 → List.Vector UInt8 32) (json : Json.Codec)
    (config : WebhookConfig) (parseNow submitNow : Option Int64) (peer : TcpPeer) (db : Db)
    (h : (handleInboundRequest sha256 json config parseNow submitNow peer db).2 ≠ db) :
    ∃ inbound head body callback, config.inbound = some inbound ∧
      AuthenticCallback json inbound parseNow peer.reads head body callback ∧
      db.inboundControl = some true ∧
      ∀ head' body', FramedRequest (received peer.reads) head' body' →
        head' = head ∧ body' = body := by
  obtain ⟨inbound, head, body, callback, submission, now, hinbound, hauthentic, -, -, heffect⟩ :=
    handleInboundRequest_effect h
  rw [heffect] at h
  exact ⟨inbound, head, body, callback, hinbound, hauthentic, enabled_of_m4SubmitInbound h,
    fun _ _ h' => hauthentic.framed.unique h'⟩

/-! ### A page, and bytes behind it -/

/-- A sender that may page. -/
def pagerConfig : InboundConfig :=
  ⟨utf8Bytes "secret", utf8Bytes "token", [("15550001111", "notify")], "alerts", "w", "p"⟩

/-- The text of a callback. -/
def pagerBody : List UInt8 := utf8Bytes
  ("\x7b\"entry\":[\x7b\"changes\":[\x7b\"field\":\"messages\",\"value\":\x7b\"messages\":[\x7b" ++
   "\"from\":\"15550001111\",\"id\":\"w1\",\"text\":\x7b\"body\":\"notify\"\x7d,\"timestamp\":\"1000\"\x7d]," ++
   "\"metadata\":\x7b\"phone_number_id\":\"p\"\x7d\x7d\x7d],\"id\":\"w\"\x7d]\x7d")

/-- The value that the text stands for. -/
def pagerValue : Json.Value :=
  .object [("entry", .array [.object
    [("changes", .array [.object
      [("field", .string "messages"),
       ("value", .object
         [("messages", .array [.object
           [("from", .string "15550001111"), ("id", .string "w1"),
            ("text", .object [("body", .string "notify")]), ("timestamp", .string "1000")]]),
          ("metadata", .object [("phone_number_id", .string "p")])])]]),
     ("id", .string "w")]])]

/-- A reader of this one text. -/
def pagerCodec : Json.Codec :=
  ⟨fun bytes => if bytes = pagerBody then some pagerValue else none, fun _ => none, fun _ => none,
   fun _ => none⟩

/-- The head of the request, with the signature of the text. -/
def pagerText : List Char :=
  "POST /v1/whatsapp/webhook HTTP/1.1".toList ++ "\r\nContent-Type: application/json".toList ++
  "\r\nX-Hub-Signature-256: sha256=".toList ++
  "37533e8eef7c37365cf93a93b3efdba7".toList ++ "d8c5eed74a8ac6113f85ebee1e007a44".toList ++
  "\r\nContent-Length: 190".toList

/-- The same head as a string. -/
def pagerHead : String := String.ofList pagerText

/-- The whole request. -/
def pagerRequest : List UInt8 := utf8Bytes pagerHead ++ (blankLine ++ pagerBody)

theorem pagerRequest_framing : pagerRequest.length ≤ 1024 ∧
    position blankLine pagerRequest = some (utf8Bytes pagerHead).length ∧
    subscriptionStart.isPrefixOf pagerText = false ∧
    announcedLength pagerText = some pagerBody.length ∧
    requestLineOf pagerText = webhookLine := by
  decide +kernel

/-- The page in one read, and whatever comes after it. -/
def pagerReads (later : List ReadResult) : List ReadResult :=
  .chunk pagerRequest pagerRequest_framing.1 :: later

/-- The page is complete after its read. -/
theorem readHttpRequest_pager (later : List ReadResult) :
    readHttpRequest (pagerReads later) = .ok (some (pagerText, pagerBody)) := by
  obtain ⟨hsize, hposition, hpost, hlength, -⟩ := pagerRequest_framing
  have htext : pagerHead.toList = pagerText := String.toList_ofList
  rw [← htext] at hpost hlength ⊢
  exact readHttpRequest_whole hsize hposition hpost hlength later

/-- The effect of the page. -/
def pagerSubmission : M4InboundSubmission :=
  ⟨"w1", "15550001111", "notify", "ntfy", "alerts", "WhatsApp notify request accepted"⟩

theorem judgeCallback_pager :
    judgeCallback pagerCodec ⟨some pagerConfig, none⟩ pagerConfig (some 1000000) pagerText
      pagerBody = .ok (.submit pagerSubmission) := by
  decide +kernel

/-- A store with the switch enabled. -/
def openStore : Db := run (step Sha256.sha256) Db.migrated [.m4SetInboundEnabled true]

/-- The page changes the store, whatever comes after it. -/
theorem pager_changes (later : List ReadResult) :
    (handleInboundRequest Sha256.sha256 pagerCodec ⟨some pagerConfig, none⟩ (some 1000000)
      (some 1000000) ⟨pagerReads later, true⟩ openStore).2 ≠ openStore := by
  have haccepted : (step Sha256.sha256 openStore (.m4SubmitInbound pagerSubmission 1000000)).1 =
      .ok (.inbound .accepted) := by
    decide +kernel
  have heffect : (handleInboundRequest Sha256.sha256 pagerCodec ⟨some pagerConfig, none⟩
      (some 1000000) (some 1000000) ⟨pagerReads later, true⟩ openStore).2 =
      (m4SubmitInbound Sha256.sha256 pagerSubmission 1000000 openStore).2 := by
    refine handleInboundRequest_submits rfl ?_ pagerRequest_framing.2.2.2.2 judgeCallback_pager
    exact readHttpRequest_pager later
  rw [heffect]
  exact m4SubmitInbound_ne haccepted

/-- The page of a peer that sends nothing else is authentic. -/
theorem pager_authentic :
    ∃ head body callback, AuthenticCallback pagerCodec pagerConfig (some 1000000) (pagerReads [])
      head body callback := by
  obtain ⟨inbound, head, body, callback, hinbound, hauthentic, -⟩ :=
    webhook_effect_authentic Sha256.sha256 pagerCodec ⟨some pagerConfig, none⟩ (some 1000000)
      (some 1000000) ⟨pagerReads [], true⟩ openStore (pager_changes [])
  cases hinbound
  exact ⟨head, body, callback, hauthentic⟩

/-- One byte behind the page, in a read of its own, is never looked at: the store changes although
something follows the body in the stream. -/
theorem pager_with_trailing_byte :
    ¬ ∀ (json : Json.Codec) (config : WebhookConfig) (parseNow submitNow : Option Int64)
      (peer : TcpPeer) (db : Db),
      (handleInboundRequest Sha256.sha256 json config parseNow submitNow peer db).2 ≠ db →
      ∃ head body, FramedRequest (received peer.reads) head body ∧
        NothingFollows (received peer.reads) body := by
  intro h
  have hone : ([0x58] : List UInt8).length ≤ 1024 := by decide
  obtain ⟨head, body, hframed, separator, hposition, hbody⟩ := h pagerCodec ⟨some pagerConfig, none⟩
    (some 1000000) (some 1000000) ⟨pagerReads [.chunk [0x58] hone], true⟩ openStore
    (pager_changes _)
  obtain ⟨-, hpager, hpost, -⟩ := pagerRequest_framing
  have hpage := (readHttpRequest_framed (readHttpRequest_pager [.chunk [0x58] hone])
    (by rw [hpost]; decide)).1
  obtain ⟨-, rfl⟩ := hpage.unique hframed
  have hstream : received (pagerReads [.chunk [0x58] hone]) = pagerRequest ++ [0x58] :=
    received_cons (by
      rw [List.isEmpty_iff]
      exact List.append_ne_nil_of_right_ne_nil _ (by simp [blankLine])) _
  simp only [hstream] at hposition hbody
  have hsame := Option.some.inj (hposition.symm.trans (position_append hpager [0x58]))
  have hcount := congrArg List.length hbody
  rw [hsame, List.length_drop] at hcount
  simp only [pagerRequest, List.length_append, List.length_singleton,
    show blankLine.length = 4 from rfl] at hcount
  omega

end MsgRiver.Service
