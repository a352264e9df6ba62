import MsgRiver.Service.Framing
import MsgRiver.Service.Local

/-!
# Requests in chunks

A client decides how its bytes are cut into reads.  `read_request` and `read_http_request` scan a
growing buffer and decide the length of the body when the blank line is found, so the two readers
could depend on the cutting.  They do so only when more bytes follow a complete frame.

* `referenceRequest`, `referenceHttp`: the request of a stream that is seen at once;
* `readRequest_cut`, `readHttpRequest_cut`: in every cutting the readers answer as the references;
* `chunking_independent`: this for both readers, with the bounds of `read_request` for any reads.
-/

namespace MsgRiver.Service

open MsgRiver.Connector Ascii Text

/-- The reads bring the stream in chunks of 1 to 1024 bytes, and then its end. -/
inductive Cuts : List UInt8 → List ReadResult → Prop
  | ended (later : List ReadResult) : Cuts [] (.chunk [] (Nat.zero_le _) :: later)
  | chunk {chunk stream : List UInt8} {reads : List ReadResult} (size : chunk.length ≤ 1024)
      (nonempty : chunk ≠ []) : Cuts stream reads →
        Cuts (chunk ++ stream) (.chunk chunk size :: reads)

theorem Cuts.offer {ρ : Type} {failed ended : ρ} {stream : List UInt8} {reads : List ReadResult}
    (h : Cuts stream reads) :
    Reader.Cut ended stream (reads.map (ReadResult.offer failed ended)) := by
  induction h with
  | ended later => exact .ended _
  | chunk size nonempty hcut ih =>
    rw [List.map_cons, ReadResult.offer, if_neg (by simpa using nonempty)]
    exact .chunk _ ih

/-- The stream is a complete frame and at least one byte more. -/
def FollowedByMore (Frame : List UInt8 → Prop) (stream : List UInt8) : Prop :=
  ∃ frame more, Frame frame ∧ more ≠ [] ∧ stream = frame ++ more

/-- A part of a stream that is a frame is the stream. -/
theorem le_of_not_followedByMore {Frame : List UInt8 → Prop} {stream : List UInt8} {n : ℕ}
    (h : ¬ FollowedByMore Frame stream) (hframe : Frame (stream.take n)) : stream.length ≤ n := by
  by_contra hmore
  refine h ⟨stream.take n, stream.drop n, hframe, ?_, (List.take_append_drop n stream).symm⟩
  rw [ne_eq, List.drop_eq_nil_iff]
  exact hmore

/-! ### The local reader -/

/-- What reading a local request returns. -/
abbrev LocalResult := Except Fault (Option IncomingRequest)

/-- The verdict of `read_request` on its buffer, none while it reads on. -/
def judgeLocal (json : Json.Codec) (bytes : List UInt8) : Option LocalResult :=
  if maxRequest < bytes.length then some (.ok none)
  else
    match position blankLine bytes with
    | none => if bytes.length < maxRequest then none else some (.ok none)
    | some separator =>
      match (decodeUtf8 (bytes.take separator)).bind contentLength with
      | none => some (.ok none)
      | some (route, length) =>
        if maxRequest < separator + 4 then some (.error (.error "request size failed"))
        else if maxRequest - (separator + 4) < length then some (.ok none)
        else if bytes.length < separator + 4 + length then none
        else some (.ok ((exactBody separator length bytes).bind (routeRequest json route)))

/-- A chunk is appended before its length is checked, so no chunk is refused. -/
def localReader (json : Json.Codec) : Reader UInt8 LocalResult := ⟨judgeLocal json, fun _ _ => none⟩

/-- The answer to a read that fails. -/
def socketFailed : LocalResult := .error (.error "socket read failed")

/-- What a read offers to the reader of local requests. -/
def offeredLocal (read : ReadResult) : Except LocalResult (List UInt8) :=
  read.offer socketFailed (.ok none)

/-- The contents of the buffer of `read_request`, at its start and after each read. -/
def localBuffers (json : Json.Codec) (reads : List ReadResult) : List (List UInt8) :=
  (localReader json).buffers [] (reads.map offeredLocal)

/-- The buffer holds a head with a route and a length. -/
structure LocalHead (bytes : List UInt8) (separator : ℕ) (route : LocalRoute) (length : ℕ) :
    Prop where
  position : position blankLine bytes = some separator
  announces : (decodeUtf8 (bytes.take separator)).bind contentLength = some (route, length)

section Local

variable {json : Json.Codec} {bytes : List UInt8} {separator length : ℕ} {route : LocalRoute}

theorem LocalHead.append (h : LocalHead bytes separator route length) (later : List UInt8) :
    LocalHead (bytes ++ later) separator route length := by
  have hend := position_add_le h.position
  refine ⟨position_append h.position later, ?_⟩
  rw [List.take_append_of_le_length (by omega)]
  exact h.announces

theorem LocalHead.take {n : ℕ} (h : LocalHead bytes separator route length)
    (hn : separator + 4 ≤ n) : LocalHead (bytes.take n) separator route length := by
  have hend : separator + 4 ≤ bytes.length := position_add_le h.position
  have hposition := h.position
  rw [← List.take_append_drop n bytes] at hposition
  refine ⟨position_of_append hposition ?_, ?_⟩
  · rw [List.length_take, length_blankLine]
    omega
  · rw [List.take_take, Nat.min_eq_left (by omega)]
    exact h.announces

theorem judgeLocal_long (h : maxRequest < bytes.length) :
    judgeLocal json bytes = some (.ok none) := if_pos h

theorem judgeLocal_head (h : LocalHead bytes separator route length)
    (hmax : bytes.length ≤ maxRequest) :
    judgeLocal json bytes =
      if maxRequest - (separator + 4) < length then some (.ok none)
      else if bytes.length < separator + 4 + length then none
      else some (.ok ((exactBody separator length bytes).bind (routeRequest json route))) := by
  have hend : separator + 4 ≤ bytes.length := position_add_le h.position
  rw [judgeLocal, if_neg (by omega)]
  simp only [h.position, h.announces]
  exact if_neg (by omega)

/-- What the verdict on a buffer within the limit depends on. -/
theorem judgeLocal_cases (json : Json.Codec) (hmax : bytes.length ≤ maxRequest) :
    (position blankLine bytes = none ∧
      judgeLocal json bytes = if bytes.length < maxRequest then none else some (.ok none)) ∨
    (∃ separator route length, LocalHead bytes separator route length) ∨
    (∃ separator, position blankLine bytes = some separator ∧
      (decodeUtf8 (bytes.take separator)).bind contentLength = none ∧
      judgeLocal json bytes = some (.ok none)) := by
  cases hposition : position blankLine bytes with
  | none =>
    refine Or.inl ⟨rfl, ?_⟩
    rw [judgeLocal, if_neg (by omega)]
    simp only [hposition]
  | some separator =>
    refine Or.inr ?_
    cases hhead : (decodeUtf8 (bytes.take separator)).bind contentLength with
    | none =>
      refine Or.inr ⟨separator, rfl, hhead, ?_⟩
      rw [judgeLocal, if_neg (by omega)]
      simp only [hposition, hhead]
    | some p => exact Or.inl ⟨separator, p.1, p.2, hposition, hhead⟩

/-- The body loop is the reader behind a head. -/
theorem readLocalBody_eq_run (h : LocalHead bytes separator route length)
    (hmax : bytes.length ≤ maxRequest) (hlength : length ≤ maxRequest - (separator + 4))
    (reads : List ReadResult) :
    ((readLocalBody separator length bytes reads).map fun body =>
        body.bind (routeRequest json route)) =
      (localReader json).run socketFailed bytes (reads.map offeredLocal) := by
  have hjudge := @judgeLocal_head json _ _ _ _ h hmax
  rw [if_neg (by omega)] at hjudge
  induction reads generalizing bytes with
  | nil =>
    unfold readLocalBody
    simp only [List.map_nil, Reader.run, localReader, hjudge]
    split_ifs <;> rfl
  | cons read reads ih =>
    unfold readLocalBody
    by_cases hshort : bytes.length < separator + 4 + length
    swap
    · rw [if_neg hshort] at hjudge ⊢
      exact (Reader.run_of_judge (R := localReader json) hjudge _).symm
    rw [if_pos hshort] at hjudge ⊢
    cases read with
    | failed =>
      simp only [List.map_cons, Reader.run, localReader, hjudge]
      rfl
    | chunk chunk hsize =>
      simp only [List.map_cons, Reader.run, localReader, hjudge, offeredLocal, ReadResult.offer]
      by_cases hempty : chunk.isEmpty = true
      · simp only [if_pos hempty]
        rfl
      simp only [if_neg hempty]
      by_cases hlong : maxRequest < bytes.length + chunk.length
      · rw [if_pos hlong]
        refine (Reader.run_of_judge (R := localReader json) (judgeLocal_long ?_) _).symm
        rw [List.length_append]
        exact hlong
      rw [if_neg hlong]
      have hroom : (bytes ++ chunk).length ≤ maxRequest := by
        rw [List.length_append]
        omega
      refine ih (h.append chunk) hroom ?_
      rw [judgeLocal_head (h.append chunk) hroom, if_neg (by omega)]

/-- The part behind the blank line. -/
theorem readLocalFramed_eq_run (hposition : position blankLine bytes = some separator)
    (hmax : bytes.length ≤ maxRequest) (reads : List ReadResult) :
    readLocalFramed json separator bytes reads =
      (localReader json).run socketFailed bytes (reads.map offeredLocal) := by
  have hend : separator + 4 ≤ bytes.length := position_add_le hposition
  unfold readLocalFramed
  cases hhead : (decodeUtf8 (bytes.take separator)).bind contentLength with
  | none =>
    refine (Reader.run_of_judge (R := localReader json) ?_ _).symm
    simp only [localReader, judgeLocal, if_neg (Nat.not_lt.2 hmax), hposition, hhead]
  | some p =>
    obtain ⟨route, length⟩ := p
    have h : LocalHead bytes separator route length := ⟨hposition, hhead⟩
    simp only
    rw [if_neg (by omega)]
    by_cases hlong : maxRequest - (separator + 4) < length
    · rw [if_pos hlong]
      refine (Reader.run_of_judge (R := localReader json) ?_ _).symm
      exact (judgeLocal_head h hmax).trans (if_pos hlong)
    · rw [if_neg hlong]
      exact readLocalBody_eq_run h hmax (by omega) reads

/-- The outer loop is the reader before the blank line. -/
theorem readRequestFrom_eq_run (hposition : position blankLine bytes = none)
    (hmax : bytes.length ≤ maxRequest) (reads : List ReadResult) :
    readRequestFrom json bytes reads =
      (localReader json).run socketFailed bytes (reads.map offeredLocal) := by
  have hjudge : judgeLocal json bytes =
      if bytes.length < maxRequest then none else some (.ok none) := by
    rw [judgeLocal, if_neg (by omega)]
    simp only [hposition]
  induction reads generalizing bytes with
  | nil =>
    unfold readRequestFrom
    simp only [List.map_nil, Reader.run, localReader, hjudge]
    split_ifs <;> rfl
  | cons read reads ih =>
    unfold readRequestFrom
    by_cases hroom : bytes.length < maxRequest
    swap
    · rw [if_neg hroom] at hjudge ⊢
      exact (Reader.run_of_judge (R := localReader json) hjudge _).symm
    rw [if_pos hroom] at hjudge ⊢
    cases read with
    | failed =>
      simp only [List.map_cons, Reader.run, localReader, hjudge]
      rfl
    | chunk chunk hsize =>
      simp only [List.map_cons, Reader.run, localReader, hjudge, offeredLocal, ReadResult.offer]
      by_cases hempty : chunk.isEmpty = true
      · simp only [if_pos hempty]
      simp only [if_neg hempty]
      -- a chunk over the limit is refused before the blank line is looked for
      by_cases hlong : maxRequest < bytes.length + chunk.length
      · rw [if_pos hlong]
        refine (Reader.run_of_judge (R := localReader json) (judgeLocal_long ?_) _).symm
        rw [List.length_append]
        exact hlong
      rw [if_neg hlong]
      have hfits : (bytes ++ chunk).length ≤ maxRequest := by
        rw [List.length_append]
        omega
      cases hnext : position blankLine (bytes ++ chunk) with
      | some separator => exact readLocalFramed_eq_run hnext hfits reads
      | none =>
        refine ih hnext hfits ?_
        rw [judgeLocal, if_neg (by omega)]
        simp only [hnext]

theorem readRequest_eq_run (json : Json.Codec) (reads : List ReadResult) :
    readRequest json reads =
      (localReader json).run socketFailed [] (reads.map offeredLocal) :=
  readRequestFrom_eq_run rfl (Nat.zero_le _) reads

end Local

/-! ### Streams seen at once -/

/-- The local request of a whole stream: the head is what comes before the first blank line, and the
rest has exactly the announced length. -/
def referenceRequest (json : Json.Codec) (stream : List UInt8) : Option IncomingRequest := do
  let separator ← position blankLine stream
  let head ← decodeUtf8 (stream.take separator)
  let (route, length) ← contentLength head
  let body := stream.drop (separator + 4)
  if body.length = length then routeRequest json route body else none

/-- The webhook request of a whole stream.  A subscription check has no body. -/
def referenceHttp (stream : List UInt8) : HttpResult :=
  match position blankLine stream with
  | none => .ok none
  | some separator =>
    match decodeUtf8 (stream.take separator) with
    | none => .error (.error "webhook request failed")
    | some head =>
      if subscriptionStart.isPrefixOf head then .ok (some (head, []))
      else
        let body := stream.drop (separator + 4)
        .ok (if announcedLength head = some body.length then some (head, body) else none)

/-- One complete local request. -/
def LocalFrame (frame : List UInt8) : Prop :=
  ∃ separator route length,
    LocalHead frame separator route length ∧ frame.length = separator + 4 + length

/-- One complete posted request.  What follows the head of a subscription check is not looked at, so
it is not a frame in this sense. -/
def HttpFrame (frame : List UInt8) : Prop :=
  ∃ separator head length,
    PostedHead frame separator head length ∧ frame.length = separator + 4 + length

section References

variable {json : Json.Codec} {stream part : List UInt8} {separator length : ℕ} {route : LocalRoute}
  {head : List Char}

theorem referenceRequest_head (h : LocalHead stream separator route length) :
    referenceRequest json stream =
      (exactBody separator length stream).bind (routeRequest json route) := by
  have hend : separator + 4 ≤ stream.length := position_add_le h.position
  obtain ⟨text, hdecode, hlength⟩ := Option.bind_eq_some_iff.1 h.announces
  have hbody : (stream.drop (separator + 4)).length = length ↔
      stream.length = separator + 4 + length := by
    rw [List.length_drop]
    omega
  simp only [referenceRequest, h.position, hdecode, hlength, Option.bind_eq_bind, Option.bind_some,
    hbody, exactBody]
  by_cases hexact : stream.length = separator + 4 + length
  · rw [if_pos hexact, if_neg (not_not.2 hexact), Option.bind_some]
  · rw [if_neg hexact, if_pos hexact, Option.bind_none]

theorem referenceRequest_noHead (hposition : position blankLine stream = some separator)
    (hhead : (decodeUtf8 (stream.take separator)).bind contentLength = none) :
    referenceRequest json stream = none := by
  simp only [referenceRequest, hposition, Option.bind_eq_bind, Option.bind_some]
  cases hdecode : decodeUtf8 (stream.take separator) with
  | none => rfl
  | some text =>
    rw [hdecode, Option.bind_some] at hhead
    rw [Option.bind_some, hhead, Option.bind_none]

theorem referenceHttp_posted (h : PostedHead stream separator head length) :
    referenceHttp stream =
      .ok ((exactBody separator length stream).map fun body => (head, body)) := by
  have hend : separator + 4 ≤ stream.length := position_add_le h.position
  have hbody : some length = some (stream.drop (separator + 4)).length ↔
      stream.length = separator + 4 + length := by
    rw [List.length_drop, Option.some.injEq]
    omega
  simp only [referenceHttp, h.position, h.decodes, if_neg h.posted, h.announces, hbody, exactBody]
  by_cases hexact : stream.length = separator + 4 + length
  · rw [if_pos hexact, if_neg (not_not.2 hexact), Option.map_some]
  · rw [if_neg hexact, if_pos hexact, Option.map_none]

/-! ### The readers answer as the references -/

/-- What is decided on a part of a stream is decided as for the stream, unless the part is a frame
and more follows. -/
theorem judgeLocal_part (hmax : stream.length ≤ maxRequest)
    (hmore : ¬ FollowedByMore LocalFrame stream) (hpart : part <+: stream) {verdict : LocalResult}
    (h : judgeLocal json part = some verdict) : verdict = .ok (referenceRequest json stream) := by
  obtain ⟨rest, rfl⟩ := hpart
  have hshort : part.length ≤ maxRequest := by
    rw [List.length_append] at hmax
    omega
  rcases judgeLocal_cases json hshort with ⟨hposition, hjudge⟩ | ⟨separator, route, length, hhead⟩ |
    ⟨separator, hposition, hnone, hjudge⟩
  · -- the buffer is full without a blank line, so the part is the stream
    rw [hjudge] at h
    split_ifs at h with hroom
    cases h
    have hrest : rest = [] := by
      rw [List.length_append] at hmax
      exact List.length_eq_zero_iff.1 (by omega)
    rw [hrest, List.append_nil, referenceRequest, hposition]
    rfl
  · have hwhole := hhead.append rest
    have hend : separator + 4 ≤ part.length := position_add_le hhead.position
    rw [judgeLocal_head hhead hshort] at h
    split_ifs at h with hlong hopen
    · cases h
      rw [referenceRequest_head hwhole, exactBody, if_pos (by omega), Option.bind_none]
    · have hframe : LocalFrame ((part ++ rest).take (separator + 4 + length)) := by
        refine ⟨separator, route, length, hwhole.take (by omega), ?_⟩
        rw [List.length_take, List.length_append]
        omega
      have hle := le_of_not_followedByMore hmore hframe
      have hrest : rest = [] := by
        rw [List.length_append] at hle
        exact List.length_eq_zero_iff.1 (by omega)
      cases h
      rw [hrest, List.append_nil, referenceRequest_head hhead]
  · rw [hjudge] at h
    cases h
    have hend : separator + 4 ≤ part.length := position_add_le hposition
    rw [referenceRequest_noHead (position_append hposition rest)]
    rw [List.take_append_of_le_length (by omega)]
    exact hnone

/-- A stream that is not decided is no request. -/
theorem referenceRequest_of_open (hmax : stream.length ≤ maxRequest)
    (h : judgeLocal json stream = none) : referenceRequest json stream = none := by
  rcases judgeLocal_cases json hmax with ⟨hposition, -⟩ | ⟨separator, route, length, hhead⟩ |
    ⟨separator, -, -, hjudge⟩
  · rw [referenceRequest, hposition]
    rfl
  · rw [judgeLocal_head hhead hmax] at h
    split_ifs at h with hlong hopen
    rw [referenceRequest_head hhead, exactBody, if_pos (by omega), Option.bind_none]
  · rw [hjudge] at h
    cases h

theorem readRequest_cut (json : Json.Codec) (hmax : stream.length ≤ maxRequest)
    (hmore : ¬ FollowedByMore LocalFrame stream) {reads : List ReadResult}
    (hcut : Cuts stream reads) : readRequest json reads = .ok (referenceRequest json stream) := by
  rw [readRequest_eq_run]
  refine Reader.run_of_cut (R := localReader json) hcut.offer ?_ (fun _ _ => rfl) ?_
  · intro part hpart verdict h
    exact judgeLocal_part hmax hmore hpart h
  · intro h
    rw [referenceRequest_of_open hmax h]

theorem judgeHttp_part (hmax : stream.length ≤ maxRequest)
    (hmore : ¬ FollowedByMore HttpFrame stream) (hpart : part <+: stream) {verdict : HttpResult}
    (h : judgeHttp part = some verdict) : verdict = referenceHttp stream := by
  obtain ⟨rest, rfl⟩ := hpart
  have hshort : part.length ≤ maxRequest := by
    rw [List.length_append] at hmax
    omega
  -- what the reader has judged so far does not change with the bytes behind it
  cases hposition : position blankLine part with
  | none =>
    simp only [judgeHttp, hposition, if_pos hshort] at h
    cases h
  | some separator =>
    have hend : separator + 4 ≤ part.length := position_add_le hposition
    have hwhole := position_append hposition rest
    have htake : (part ++ rest).take separator = part.take separator :=
      List.take_append_of_le_length (by omega)
    cases hdecode : decodeUtf8 (part.take separator) with
    | none =>
      simp only [judgeHttp, hposition, hdecode] at h
      cases h
      simp only [referenceHttp, hwhole, htake, hdecode]
    | some head =>
      by_cases hget : subscriptionStart.isPrefixOf head = true
      · simp only [judgeHttp, hposition, hdecode, if_pos hget] at h
        cases h
        simp only [referenceHttp, hwhole, htake, hdecode, if_pos hget]
      cases hlength : announcedLength head with
      | none =>
        simp only [judgeHttp, hposition, hdecode, if_neg hget, hlength] at h
        cases h
        simp only [referenceHttp, hwhole, htake, hdecode, if_neg hget, hlength]
        rfl
      | some length =>
        have hposted : PostedHead part separator head length := ⟨hposition, hdecode, hget, hlength⟩
        rw [judgeHttp_posted hposted, if_neg (by omega)] at h
        split_ifs at h with hlong hopen
        · cases h
          rw [List.length_append] at hmax
          rw [referenceHttp_posted (hposted.append rest), exactBody,
            if_pos (by rw [List.length_append]; omega), Option.map_none]
        · have hframe : HttpFrame ((part ++ rest).take (separator + 4 + length)) := by
            refine ⟨separator, head, length, ?_, ?_⟩
            · rw [List.take_append_of_le_length (by omega)]
              rw [← List.take_append_drop (separator + 4 + length) part] at hposted
              refine hposted.of_append ?_
              rw [List.length_take]
              omega
            · rw [List.length_take, List.length_append]
              omega
          -- the part is the whole request, and nothing follows it
          have hle := le_of_not_followedByMore hmore hframe
          have hrest : rest = [] := by
            rw [List.length_append] at hle
            exact List.length_eq_zero_iff.1 (by omega)
          cases h
          rw [hrest, List.append_nil, referenceHttp_posted hposted]

theorem referenceHttp_of_open (h : judgeHttp stream = none) : referenceHttp stream = .ok none := by
  rcases judgeHttp_cases stream with ⟨hposition, -⟩ | ⟨separator, head, length, hposted⟩ |
    ⟨hjudge, -⟩
  · simp only [referenceHttp, hposition]
  · rw [judgeHttp_posted hposted] at h
    split_ifs at h with hover hlong hopen
    rw [referenceHttp_posted hposted, exactBody, if_pos (by omega), Option.map_none]
  · exact absurd h hjudge

theorem readHttpRequest_cut (hmax : stream.length ≤ maxRequest)
    (hmore : ¬ FollowedByMore HttpFrame stream) {reads : List ReadResult}
    (hcut : Cuts stream reads) : readHttpRequest reads = referenceHttp stream := by
  rw [readHttpRequest_eq_run]
  refine Reader.run_of_cut (R := httpReader) hcut.offer ?_ (fun _ _ => rfl) ?_
  · intro part hpart verdict h
    exact judgeHttp_part hmax hmore hpart h
  · intro h
    exact (referenceHttp_of_open h).symm

end References

/-! ### The bounds of the local reader -/

section Bounds

variable {json : Json.Codec} {bytes : List UInt8} {reads : List ReadResult}

/-- The reader reads on within the limit only. -/
theorem length_le_of_judgeLocal (h : judgeLocal json bytes = none) :
    bytes.length ≤ maxRequest := by
  by_contra hlong
  rw [judgeLocal_long (Nat.lt_of_not_le hlong)] at h
  cases h

theorem length_le_of_mem_localBuffers {buffer : List UInt8} (h : buffer ∈ localBuffers json reads) :
    buffer.length ≤ maxRequest + 1024 := by
  refine Reader.length_le_of_mem_buffers (fun _ => length_le_of_judgeLocal) ?_ (by simp) h
  intro chunk hchunk
  obtain ⟨read, -, hread⟩ := List.mem_map.1 hchunk
  exact ReadResult.length_le_of_offer hread

theorem received_map_offeredLocal (reads : List ReadResult) :
    Reader.received (reads.map offeredLocal) = received reads :=
  received_map_offer socketFailed (.ok none) reads

/-- The same of the reader itself: whatever it still has to read is within that limit. -/
theorem length_le_of_open_readRequest {n : ℕ} (h : Reader.Open (readRequest json) reads n) :
    (received (reads.take (n + 1))).length ≤ maxRequest + 1024 := by
  obtain ⟨later, hlater⟩ := h
  rw [readRequest_eq_run, readRequest_eq_run, List.map_append, List.map_take] at hlater
  rw [← received_map_offeredLocal, List.map_take]
  refine Reader.length_le_of_open (R := localReader json) (fun _ => length_le_of_judgeLocal) ?_
    ⟨_, hlater⟩
  intro chunk hchunk
  obtain ⟨read, -, hread⟩ := List.mem_map.1 hchunk
  exact ReadResult.length_le_of_offer hread

/-- The blank line ends within the limit, so the subtraction does not fail. -/
theorem judgeLocal_ne_error (fault : Fault) : judgeLocal json bytes ≠ some (.error fault) := by
  intro h
  by_cases hlong : maxRequest < bytes.length
  · rw [judgeLocal_long hlong] at h
    cases h
  rcases judgeLocal_cases json (Nat.le_of_not_lt hlong) with ⟨-, hjudge⟩ |
    ⟨separator, route, length, hhead⟩ | ⟨separator, -, -, hjudge⟩
  · rw [hjudge] at h
    split_ifs at h
    cases h
  · rw [judgeLocal_head hhead (Nat.le_of_not_lt hlong)] at h
    split_ifs at h <;> cases h
  · rw [hjudge] at h
    cases h

theorem readRequest_ne_sizeFailed (json : Json.Codec) (reads : List ReadResult) :
    readRequest json reads ≠ .error (.error "request size failed") := by
  rw [readRequest_eq_run]
  intro h
  have hstop : Except.error (.error (.error "request size failed")) ∉ reads.map offeredLocal := by
    intro hmem
    obtain ⟨read, -, hread⟩ := List.mem_map.1 hmem
    cases read with
    | failed => exact absurd hread (by simp [offeredLocal, ReadResult.offer, socketFailed])
    | chunk chunk hsize =>
      simp only [offeredLocal, ReadResult.offer] at hread
      split_ifs at hread
      cases hread
  obtain ⟨n, -, hafter⟩ := Reader.judged_of_run (R := localReader json) (by simp [socketFailed])
    hstop (fun _ _ => by simp [localReader]) rfl h
  exact judgeLocal_ne_error _ hafter

end Bounds

/-- **Chunking does not matter.**  A stream within the limit that is not a frame followed by more is
answered in the same way in every cutting, by both readers; for the local one the answer is that of
the reference.  On any reads the local reader neither fails to subtract nor holds more than a chunk
past the limit, also in what it has received with the next read while its answer is open. -/
theorem chunking_independent (json : Json.Codec) :
    (∀ stream : List UInt8, stream.length ≤ maxRequest → ¬ FollowedByMore LocalFrame stream →
      ∀ reads reads', Cuts stream reads → Cuts stream reads' →
        readRequest json reads = readRequest json reads') ∧
    (∀ stream : List UInt8, stream.length ≤ maxRequest → ¬ FollowedByMore HttpFrame stream →
      ∀ reads reads', Cuts stream reads → Cuts stream reads' →
        readHttpRequest reads = readHttpRequest reads') ∧
    (∀ stream : List UInt8, stream.length ≤ maxRequest → ¬ FollowedByMore LocalFrame stream →
      ∀ reads, Cuts stream reads →
        readRequest json reads = .ok (referenceRequest json stream)) ∧
    (∀ reads, readRequest json reads ≠ .error (.error "request size failed")) ∧
    (∀ reads, ∀ buffer ∈ localBuffers json reads, buffer.length ≤ maxRequest + 1024) ∧
    ∀ reads n, Reader.Open (readRequest json) reads n →
      (received (reads.take (n + 1))).length ≤ maxRequest + 1024 := by
  refine ⟨?_, ?_, ?_, readRequest_ne_sizeFailed json, fun _ _ => length_le_of_mem_localBuffers,
    fun _ _ => length_le_of_open_readRequest⟩
  · intro stream hmax hmore reads reads' hcut hcut'
    rw [readRequest_cut json hmax hmore hcut, readRequest_cut json hmax hmore hcut']
  · intro stream hmax hmore reads reads' hcut hcut'
    rw [readHttpRequest_cut hmax hmore hcut, readHttpRequest_cut hmax hmore hcut']
  · intro stream hmax hmore reads hcut
    exact readRequest_cut json hmax hmore hcut

/-! ### A request in two cuttings -/

/-- A request without a body. -/
def statusRequest : List UInt8 :=
  codes "POST /v1/status HTTP/1.1\r\nContent-Length: 0\r\n\r\n".toList

/-- One read brings the request. -/
def statusAtOnce : List ReadResult :=
  [.chunk statusRequest (by decide +kernel), .chunk [] (Nat.zero_le _)]

/-- The blank line comes in two reads. -/
def statusInTwo : List ReadResult :=
  [.chunk (statusRequest.take 44) (by decide +kernel),
    .chunk (statusRequest.drop 44) (by decide +kernel), .chunk [] (Nat.zero_le _)]

theorem statusAtOnce_cuts : Cuts statusRequest statusAtOnce := by
  have h := Cuts.chunk (by decide +kernel) (by decide +kernel : statusRequest ≠ []) (.ended [])
  rwa [List.append_nil] at h

theorem statusInTwo_cuts : Cuts statusRequest statusInTwo := by
  have hlast := Cuts.chunk (by decide +kernel)
    (by decide +kernel : statusRequest.drop 44 ≠ []) (.ended [])
  have h := Cuts.chunk (by decide +kernel) (by decide +kernel : statusRequest.take 44 ≠ []) hlast
  rwa [List.append_nil, List.take_append_drop] at h

/-- The head of the request ends it. -/
theorem statusRequest_not_followedByMore : ¬ FollowedByMore LocalFrame statusRequest := by
  rintro ⟨frame, more, ⟨separator, route, length, hhead, hframe⟩, hne, hstream⟩
  have hposition := (hhead.append more).position
  have hfound : position blankLine statusRequest = some 43 := by decide +kernel
  have hcount : statusRequest.length = 47 := by decide +kernel
  rw [← hstream, hfound] at hposition
  obtain rfl := Option.some.inj hposition
  rw [hstream, List.length_append] at hcount
  exact hne (List.length_eq_zero_iff.1 (by omega))

/-- The request has no body, so no text is decoded. -/
def unaskedCodec : Json.Codec := ⟨fun _ => none, fun _ => none, fun _ => none, fun _ => none⟩

theorem chunking_independent_status :
    readRequest unaskedCodec statusAtOnce = readRequest unaskedCodec statusInTwo ∧
      readRequest unaskedCodec statusInTwo = .ok (some .status) := by
  have hfits : statusRequest.length ≤ maxRequest := by decide +kernel
  obtain ⟨hsame, -, hanswer, -⟩ := chunking_independent unaskedCodec
  refine ⟨hsame _ hfits statusRequest_not_followedByMore _ _ statusAtOnce_cuts statusInTwo_cuts, ?_⟩
  rw [hanswer _ hfits statusRequest_not_followedByMore _ statusInTwo_cuts]
  decide +kernel

end MsgRiver.Service
