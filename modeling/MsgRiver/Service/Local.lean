import MsgRiver.Lib.Json
import MsgRiver.Lib.Text
import MsgRiver.Service.Webhook

/-!
# The local interface

`read_request` reads one HTTP request from the Unix socket: a head of lines, a `Content-Length`, and
exactly that many bytes of JSON.  As for the webhook, the client decides how the bytes arrive.

* `readRequest_framed`: what is returned is the routed body of a stream that is one request;
* `readRequest_of_stream`: a stream that is one request of at most 16 KiB is routed, in every
  chunking.
-/

namespace MsgRiver.Service

open MsgRiver.Store MsgRiver.Connector RelTable Checked Result Ascii Text

/-- An ntfy notice of a client. -/
structure IncomingMessage where
  idempotencyKey : String
  body : String
  title : Option String
  deriving DecidableEq

/-- A WhatsApp message of a client. -/
structure IncomingWhatsappMessage where
  idempotencyKey : String
  recipient : String
  template : String
  locale : String
  parameters : List String
  deriving DecidableEq

/-- A local request. -/
inductive IncomingRequest
  | ntfy (message : IncomingMessage)
  | whatsapp (message : IncomingWhatsappMessage)
  | inboundControl (enabled : Bool)
  | status
  | messageStatus (messageId : String)
  | messageRetry (messageId : String)
  deriving DecidableEq

/-- What a request line asks for. -/
inductive LocalRoute
  | ntfy
  | whatsapp
  | inboundEnable
  | inboundDisable
  | status
  | messageStatus (messageId : String)
  | messageRetry (messageId : String)
  deriving DecidableEq

/-! ### The head -/

/-- `strip_prefix`. -/
def stripStart (start cs : List Char) : Option (List Char) :=
  if start.isPrefixOf cs then some (cs.drop start.length) else none

/-- `strip_suffix`. -/
def stripEnd (ending cs : List Char) : Option (List Char) :=
  if ending.isSuffixOf cs then some (cs.take (cs.length - ending.length)) else none

/-- The routes of a single message. -/
def messageRoute (requestLine : List Char) : Option LocalRoute := do
  let path ← (stripStart "POST /v1/messages/".toList requestLine).bind (stripEnd " HTTP/1.1".toList)
  let (messageId, action) ← splitOnce '/' path
  if !validMessageId (String.ofList messageId) || action.contains '/' then none
  else if action = "status".toList then some (.messageStatus (String.ofList messageId))
  else if action = "retry".toList then some (.messageRetry (String.ofList messageId))
  else none

/-- The route of a request line. -/
def routeOf (requestLine : List Char) : Option LocalRoute :=
  if requestLine = "POST /v1/messages HTTP/1.1".toList then some .ntfy
  else if requestLine = "POST /v1/whatsapp/messages HTTP/1.1".toList then some .whatsapp
  else if requestLine = "POST /v1/inbound/enable HTTP/1.1".toList then some .inboundEnable
  else if requestLine = "POST /v1/inbound/disable HTTP/1.1".toList then some .inboundDisable
  else if requestLine = "POST /v1/status HTTP/1.1".toList then some .status
  else messageRoute requestLine

/-- The loop over the header lines.  A second `Content-Length` is refused when the first one was a
number; one that is not a number counts as absent. -/
def lengthFrom (length : Option ℕ) : List (List Char) → Option ℕ
  | [] => length
  | line :: lines =>
    match splitOnce ':' line with
    | none => none
    | some (name, value) =>
      if eqIgnoreAsciiCase name "content-length".toList then
        if length.isSome then none
        else lengthFrom (parseUnsigned (2 ^ 64 - 1) (trim value)) lines
      else lengthFrom length lines

/-- A field with another name is skipped. -/
theorem lengthFrom_other {line : List Char} {found : Option ℕ}
    (h : (splitOnce ':' line).any (fun field =>
      !eqIgnoreAsciiCase field.1 "content-length".toList) = true) (lines : List (List Char)) :
    lengthFrom found (line :: lines) = lengthFrom found lines := by
  rw [lengthFrom]
  cases hfield : splitOnce ':' line with
  | none =>
    rw [hfield] at h
    cases h
  | some field =>
    obtain ⟨name, value⟩ := field
    rw [hfield, Option.any_some, Bool.not_eq_true'] at h
    simp only [h, Bool.false_eq_true, if_false]

/-- The first length is read. -/
theorem lengthFrom_first {line name value : List Char}
    (hfield : splitOnce ':' line = some (name, value))
    (hname : eqIgnoreAsciiCase name "content-length".toList = true) (lines : List (List Char)) :
    lengthFrom none (line :: lines) = lengthFrom (parseUnsigned (2 ^ 64 - 1) (trim value)) lines := by
  rw [lengthFrom, hfield]
  simp only [hname, if_true, Option.isSome_none, Bool.false_eq_true, if_false]

/-- The route of a head and the length that it announces. -/
def contentLength (head : List Char) : Option (LocalRoute × ℕ) := do
  let route ← routeOf (requestLineOf head)
  let length ← lengthFrom none ((splitCrLf head).drop 1)
  return (route, length)

/-! ### The body -/

/-- An object with exactly the three members of a notice. -/
def parseNtfyRequest (object : List (String × Json.Value)) : Option IncomingMessage :=
  if object.length ≠ 3 ∨ ((Json.Value.object object).get "title").isNone then none
  else do
    let key ← (← (Json.Value.object object).get "idempotency_key").asString
    let body ← (← (Json.Value.object object).get "body").asString
    let title ← match ← (Json.Value.object object).get "title" with
      | .null => some none
      | value => value.asString.map some
    return ⟨key, body, title⟩

/-- An object with exactly the five members of a WhatsApp message. -/
def parseWhatsappRequest (object : List (String × Json.Value)) : Option IncomingWhatsappMessage :=
  if object.length ≠ 5 ∨ ["idempotency_key", "to", "template", "locale", "params"].any (fun key =>
      ((Json.Value.object object).get key).isNone) then none
  else do
    let parameters ← (← (← (Json.Value.object object).get "params").asArray).mapM
      Json.Value.asString
    let key ← (← (Json.Value.object object).get "idempotency_key").asString
    let recipient ← (← (Json.Value.object object).get "to").asString
    let template ← (← (Json.Value.object object).get "template").asString
    let locale ← (← (Json.Value.object object).get "locale").asString
    return ⟨key, recipient, template, locale, parameters⟩

/-- The request of a route, from a complete body. -/
def routeRequest (json : Json.Codec) (route : LocalRoute) (body : List UInt8) :
    Option IncomingRequest :=
  match route with
  | .inboundEnable => if body.length = 0 then some (.inboundControl true) else none
  | .inboundDisable => if body.length = 0 then some (.inboundControl false) else none
  | .status => if body.length = 0 then some .status else none
  | .messageStatus messageId => if body.length = 0 then some (.messageStatus messageId) else none
  | .messageRetry messageId => if body.length = 0 then some (.messageRetry messageId) else none
  | .ntfy => do
    let object ← (← json.fromSlice body).asObject
    (parseNtfyRequest object).map .ntfy
  | .whatsapp => do
    let object ← (← json.fromSlice body).asObject
    (parseWhatsappRequest object).map .whatsapp

/-! ### Reading -/

/-- Read until the body is complete. -/
def readLocalBody (separator length : ℕ) (bytes : List UInt8) :
    List ReadResult → Except Fault (Option (List UInt8))
  | [] =>
    if bytes.length < separator + 4 + length then .error (.error "socket read failed")
    else .ok (exactBody separator length bytes)
  | read :: reads =>
    if bytes.length < separator + 4 + length then
      match read with
      | .failed => .error (.error "socket read failed")
      | .chunk chunk _ =>
        if chunk.isEmpty then .ok none
        else if maxRequest < bytes.length + chunk.length then .ok none
        else readLocalBody separator length (bytes ++ chunk) reads
    else .ok (exactBody separator length bytes)

/-- The request behind a blank line at `separator`. -/
def readLocalFramed (json : Json.Codec) (separator : ℕ) (bytes : List UInt8)
    (reads : List ReadResult) : Except Fault (Option IncomingRequest) :=
  match (decodeUtf8 (bytes.take separator)).bind contentLength with
  | none => .ok none
  | some (route, length) =>
    if maxRequest < separator + 4 then .error (.error "request size failed")
    else if maxRequest - (separator + 4) < length then .ok none
    else (readLocalBody separator length bytes reads).map fun body =>
      body.bind (routeRequest json route)

/-- Read until the blank line, then the body. -/
def readRequestFrom (json : Json.Codec) (bytes : List UInt8) :
    List ReadResult → Except Fault (Option IncomingRequest)
  | [] => if bytes.length < maxRequest then .error (.error "socket read failed") else .ok none
  | read :: reads =>
    if bytes.length < maxRequest then
      match read with
      | .failed => .error (.error "socket read failed")
      | .chunk chunk _ =>
        if chunk.isEmpty then .ok none
        else if maxRequest < bytes.length + chunk.length then .ok none
        else
          match position blankLine (bytes ++ chunk) with
          | none => readRequestFrom json (bytes ++ chunk) reads
          | some separator => readLocalFramed json separator (bytes ++ chunk) reads
    else .ok none

/-- The request that the reads bring. -/
def readRequest (json : Json.Codec) (reads : List ReadResult) :
    Except Fault (Option IncomingRequest) :=
  readRequestFrom json [] reads

/-! ### A stream that is one request -/

/-- The stream is one request with the given route and body, and nothing else. -/
def LocalStream (stream : List UInt8) (route : LocalRoute) (body : List UInt8) : Prop :=
  ∃ separator head, position blankLine stream = some separator ∧
    decodeUtf8 (stream.take separator) = some head ∧
    contentLength head = some (route, body.length) ∧ body = stream.drop (separator + 4)

section Reading

variable {json : Json.Codec} {separator length : ℕ} {bytes : List UInt8} {reads : List ReadResult}

theorem exactBody_eq_some {body : List UInt8} :
    exactBody separator length bytes = some body ↔
      bytes.length = separator + 4 + length ∧ body = bytes.drop (separator + 4) := by
  unfold exactBody
  split_ifs with h
  · simp [h]
  · simp only [Option.some.injEq, not_not.1 h, true_and]
    exact eq_comm

/-- The body loop ends with the stream when it has the announced length. -/
theorem readLocalBody_of_stream (htotal : (bytes ++ received reads).length = separator + 4 + length)
    (hmax : separator + 4 + length ≤ maxRequest) :
    readLocalBody separator length bytes reads =
      .ok (some ((bytes ++ received reads).drop (separator + 4))) := by
  induction reads generalizing bytes with
  | nil =>
    simp only [received, List.append_nil] at htotal ⊢
    rw [readLocalBody, if_neg (by omega), exactBody_eq_some.2 ⟨htotal, rfl⟩]
  | cons read reads ih =>
    unfold readLocalBody
    by_cases hmore : bytes.length < separator + 4 + length
    swap
    · -- the stream is complete, so nothing is left in the reads
      have hrest : received (read :: reads) = [] := by
        rw [List.length_append] at htotal
        exact List.length_eq_zero_iff.1 (by omega)
      rw [hrest, List.append_nil] at htotal ⊢
      rw [if_neg hmore, exactBody_eq_some.2 ⟨htotal, rfl⟩]
    rw [if_pos hmore]
    cases read with
    | failed =>
      simp only [received, List.append_nil] at htotal
      omega
    | chunk chunk hsize =>
      by_cases hempty : chunk.isEmpty = true
      · rw [received, if_pos hempty, List.append_nil] at htotal
        omega
      · rw [received_cons hempty, ← List.append_assoc] at htotal ⊢
        have hfits : ¬ maxRequest < bytes.length + chunk.length := by
          simp only [List.length_append] at htotal
          omega
        simp only [if_neg hempty, if_neg hfits]
        exact ih htotal

theorem readLocalBody_eq_ok {body : List UInt8}
    (h : readLocalBody separator length bytes reads = .ok (some body)) :
    ∃ n, (bytes ++ received (reads.take n)).length = separator + 4 + length ∧
      body = (bytes ++ received (reads.take n)).drop (separator + 4) := by
  induction reads generalizing bytes with
  | nil =>
    unfold readLocalBody at h
    split_ifs at h
    exact ⟨0, by simpa [received] using exactBody_eq_some.1 (Except.ok.inj h)⟩
  | cons read reads ih =>
    unfold readLocalBody at h
    split_ifs at h
    · cases read with
      | failed => cases h
      | chunk chunk hsize =>
        simp only at h
        split_ifs at h with hempty hlong
        · cases h
        · cases h
        · obtain ⟨n, hlength, hbody⟩ := ih h
          refine ⟨n + 1, ?_⟩
          rw [append_received_take hempty]
          exact ⟨hlength, hbody⟩
    · exact ⟨0, by simpa [received] using exactBody_eq_some.1 (Except.ok.inj h)⟩

/-- A request is returned only when it fits the limit and its body is complete. -/
theorem readLocalFramed_eq_ok {request : IncomingRequest}
    (h : readLocalFramed json separator bytes reads = .ok (some request)) :
    ∃ head route length body, decodeUtf8 (bytes.take separator) = some head ∧
      contentLength head = some (route, length) ∧ separator + 4 + length ≤ maxRequest ∧
      readLocalBody separator length bytes reads = .ok (some body) ∧
      routeRequest json route body = some request := by
  unfold readLocalFramed at h
  cases hhead : (decodeUtf8 (bytes.take separator)).bind contentLength with
  | none =>
    rw [hhead] at h
    cases h
  | some p =>
    obtain ⟨route, length⟩ := p
    rw [hhead] at h
    simp only at h
    split_ifs at h with hpanic hlong
    · cases h
    cases hbody : readLocalBody separator length bytes reads with
    | error fault =>
      rw [hbody] at h
      cases h
    | ok body =>
      rw [hbody] at h
      cases body with
      | none => cases h
      | some body =>
        obtain ⟨head, hdecode, hlength⟩ := Option.bind_eq_some_iff.1 hhead
        exact ⟨head, route, length, body, hdecode, hlength, by omega, hbody, Except.ok.inj h⟩

/-- What the reader returns is the routed body of what it has read. -/
theorem readRequestFrom_eq_ok {request : IncomingRequest}
    (h : readRequestFrom json bytes reads = .ok (some request)) :
    ∃ n separator head route length,
      position blankLine (bytes ++ received (reads.take n)) = some separator ∧
      decodeUtf8 ((bytes ++ received (reads.take n)).take separator) = some head ∧
      contentLength head = some (route, length) ∧
      (bytes ++ received (reads.take n)).length = separator + 4 + length ∧
      separator + 4 + length ≤ maxRequest ∧
      routeRequest json route ((bytes ++ received (reads.take n)).drop (separator + 4)) =
        some request := by
  induction reads generalizing bytes with
  | nil =>
    unfold readRequestFrom at h
    split_ifs at h
    cases h
  | cons read reads ih =>
    unfold readRequestFrom at h
    split_ifs at h with hmore
    swap
    · cases h
    cases read with
    | failed => cases h
    | chunk chunk hsize =>
      simp only at h
      split_ifs at h with hempty hlong
      · cases h
      · cases h
      cases hposition : position blankLine (bytes ++ chunk) with
      | none =>
        rw [hposition] at h
        obtain ⟨n, hrest⟩ := ih h
        refine ⟨n + 1, ?_⟩
        rw [append_received_take hempty]
        exact hrest
      | some separator =>
        rw [hposition] at h
        obtain ⟨head, route, length, body, hdecode, hlength, hfits, hread, hroute⟩ :=
          readLocalFramed_eq_ok h
        obtain ⟨n, hn, hbody⟩ := readLocalBody_eq_ok hread
        have hbefore := position_add_le hposition
        refine ⟨n + 1, separator, head, route, length, ?_⟩
        rw [append_received_take hempty]
        refine ⟨position_append hposition _, ?_, hlength, hn, hfits, hbody ▸ hroute⟩
        rw [List.take_append_of_le_length (by omega)]
        exact hdecode

/-- A stream that is one request within the limit is routed, in every chunking. -/
theorem readRequestFrom_of_stream {stream body : List UInt8} {head : List Char}
    {route : LocalRoute} (hposition : position blankLine stream = some separator)
    (hdecode : decodeUtf8 (stream.take separator) = some head)
    (hlength : contentLength head = some (route, body.length))
    (hbody : body = stream.drop (separator + 4)) (hmax : stream.length ≤ maxRequest)
    (hstream : bytes ++ received reads = stream) (hbefore : bytes.length < separator + 4) :
    readRequestFrom json bytes reads = .ok (routeRequest json route body) := by
  have hend : separator + 4 ≤ stream.length := position_add_le hposition
  have htotal : stream.length = separator + 4 + body.length := by
    rw [hbody, List.length_drop]
    omega
  induction reads generalizing bytes with
  | nil =>
    simp only [received, List.append_nil] at hstream
    rw [hstream] at hbefore
    omega
  | cons read reads ih =>
    have hmore : bytes.length < maxRequest := by omega
    unfold readRequestFrom
    rw [if_pos hmore]
    cases read with
    | failed =>
      simp only [received, List.append_nil] at hstream
      rw [hstream] at hbefore
      omega
    | chunk chunk hsize =>
      by_cases hempty : chunk.isEmpty = true
      · rw [received, if_pos hempty, List.append_nil] at hstream
        rw [hstream] at hbefore
        omega
      rw [received_cons hempty, ← List.append_assoc] at hstream
      have hparts : (bytes ++ chunk).length + (received reads).length = stream.length := by
        rw [← List.length_append, hstream]
      have hfits : ¬ maxRequest < bytes.length + chunk.length := by
        rw [List.length_append] at hparts
        omega
      simp only [if_neg hempty, if_neg hfits]
      cases hfound : position blankLine (bytes ++ chunk) with
      | none =>
        refine ih hstream ?_
        -- with the whole blank line at hand it would have been found
        by_contra hlate
        rw [← hstream] at hposition
        rw [position_of_append hposition (Nat.le_of_not_lt hlate)] at hfound
        cases hfound
      | some found =>
        have hsame := position_append hfound (received reads)
        rw [hstream, hposition] at hsame
        obtain rfl := Option.some.inj hsame
        have hfull : separator + 4 ≤ (bytes ++ chunk).length := position_add_le hfound
        have htake : (bytes ++ chunk).take separator = stream.take separator := by
          rw [← hstream]
          exact (List.take_append_of_le_length (by omega)).symm
        have hread := @readLocalBody_of_stream separator body.length (bytes ++ chunk) reads
          (by rw [hstream]; exact htotal) (by omega)
        simp only [readLocalFramed, htake, hdecode, Option.bind_some, hlength]
        rw [if_neg (by omega), if_neg (by omega), hread, hstream, ← hbody]
        rfl

end Reading

/-- **The framing of a local request.**  A stream that is one request is answered by its routed body
when it is within the limit, in every chunking, and otherwise by no request. -/
theorem readRequest_eq_ok_iff (json : Json.Codec) {reads : List ReadResult} {route : LocalRoute}
    {body : List UInt8} (hstream : LocalStream (received reads) route body)
    (request : IncomingRequest) :
    readRequest json reads = .ok (some request) ↔
      (received reads).length ≤ maxRequest ∧ routeRequest json route body = some request := by
  obtain ⟨separator, head, hposition, hdecode, hlength, hbody⟩ := hstream
  have hend : separator + 4 ≤ (received reads).length := position_add_le hposition
  have htotal : (received reads).length = separator + 4 + body.length := by
    rw [hbody, List.length_drop]
    omega
  constructor
  · intro h
    obtain ⟨n, separator', head', route', length', hposition', hdecode', hlength', htotal', hmax,
      hroute⟩ := readRequestFrom_eq_ok h
    rw [List.nil_append] at hposition' hdecode' htotal' hroute
    obtain ⟨rest, hrest⟩ := received_take_prefix reads n
    have hend' : separator' + 4 ≤ (received (reads.take n)).length := position_add_le hposition'
    -- what was read frames the same head, so the same body
    have hsame := position_append hposition' rest
    rw [hrest, hposition] at hsame
    obtain rfl := Option.some.inj hsame
    have htake : (received (reads.take n)).take separator = (received reads).take separator := by
      rw [← hrest]
      exact (List.take_append_of_le_length (by omega)).symm
    rw [htake, hdecode] at hdecode'
    obtain rfl := Option.some.inj hdecode'
    rw [hlength] at hlength'
    cases hlength'
    have hall : received (reads.take n) = received reads :=
      List.IsPrefix.eq_of_length ⟨rest, hrest⟩ (by omega)
    rw [hall, ← hbody] at hroute
    exact ⟨by omega, hroute⟩
  · rintro ⟨hmax, hroute⟩
    have hread := @readRequestFrom_of_stream json separator [] reads (received reads) body head route
      hposition hdecode hlength hbody hmax (List.nil_append _) (by simp)
    rw [readRequest, hread, hroute]

end MsgRiver.Service
