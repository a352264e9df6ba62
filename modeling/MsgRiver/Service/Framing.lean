import MsgRiver.Connector.Framing
import MsgRiver.Service.Webhook

/-!
# The framing of a webhook request

`read_http_request` as an incremental reader: what its buffers hold, and when the subtraction
`MAX_REQUEST - separator - 4` overflows.

The outer loop reads while at most 16 KiB are buffered, so one more chunk can complete a blank line
that ends past the limit.  Nothing is authenticated yet at this point.
-/

namespace MsgRiver.Service

open MsgRiver.Connector Ascii Text

/-- What `read_http_request` returns. -/
abbrev HttpResult := Except Fault (Option (List Char × List UInt8))

/-- The verdict of `read_http_request` on its buffer, none while it reads on. -/
def judgeHttp (bytes : List UInt8) : Option HttpResult :=
  match position blankLine bytes with
  | none => if bytes.length ≤ maxRequest then none else some (.ok none)
  | some separator =>
    match decodeUtf8 (bytes.take separator) with
    | none => some (.error (.error "webhook request failed"))
    | some head =>
      if subscriptionStart.isPrefixOf head then some (.ok (some (head, [])))
      else
        match announcedLength head with
        | none => some (.ok none)
        | some length =>
          if maxRequest < separator + 4 then some (.error .panic)
          else if maxRequest - separator - 4 < length then some (.ok none)
          else if bytes.length < separator + 4 + length then none
          else some (.ok ((exactBody separator length bytes).map fun body => (head, body)))

/-- No chunk is refused. -/
def httpReader : Reader UInt8 HttpResult := ⟨judgeHttp, fun _ _ => none⟩

/-- The answer to a read that fails. -/
def readFailed : HttpResult := .error (.error "webhook read failed")

/-- What a read offers to the reader of webhook requests. -/
def offeredRead (read : ReadResult) : Except HttpResult (List UInt8) :=
  read.offer readFailed (.ok none)

/-- The contents of the buffer of `read_http_request`, at its start and after each read. -/
def httpBuffers (reads : List ReadResult) : List (List UInt8) :=
  httpReader.buffers [] (reads.map offeredRead)

theorem received_map_offer {ρ : Type} (failed ended : ρ) (reads : List ReadResult) :
    Reader.received (reads.map fun read => read.offer failed ended) = received reads := by
  induction reads with
  | nil => rfl
  | cons read reads ih =>
    cases read with
    | failed => rfl
    | chunk chunk hsize =>
      rw [List.map_cons, ReadResult.offer, received]
      split_ifs
      · rfl
      · rw [Reader.received_ok, ih]

theorem received_map_offeredRead (reads : List ReadResult) :
    Reader.received (reads.map offeredRead) = received reads :=
  received_map_offer readFailed (.ok none) reads

/-! ### The loops are the reader -/

/-- The buffer holds a posted head that announces a body within the limit. -/
structure PostedHead (bytes : List UInt8) (separator : ℕ) (head : List Char) (length : ℕ) :
    Prop where
  position : position blankLine bytes = some separator
  decodes : decodeUtf8 (bytes.take separator) = some head
  posted : ¬ subscriptionStart.isPrefixOf head = true
  announces : announcedLength head = some length

theorem PostedHead.append {bytes : List UInt8} {separator : ℕ} {head : List Char} {length : ℕ}
    (h : PostedHead bytes separator head length) (later : List UInt8) :
    PostedHead (bytes ++ later) separator head length := by
  have hend := position_add_le h.position
  refine ⟨position_append h.position later, ?_, h.posted, h.announces⟩
  rw [List.take_append_of_le_length (by omega)]
  exact h.decodes

theorem judgeHttp_posted {bytes : List UInt8} {separator : ℕ} {head : List Char} {length : ℕ}
    (h : PostedHead bytes separator head length) :
    judgeHttp bytes =
      if maxRequest < separator + 4 then some (.error .panic)
      else if maxRequest - separator - 4 < length then some (.ok none)
      else if bytes.length < separator + 4 + length then none
      else some (.ok ((exactBody separator length bytes).map fun body => (head, body))) := by
  simp only [judgeHttp, h.position, h.decodes, if_neg h.posted, h.announces]

/-- The body loop is the reader behind a posted head. -/
theorem readHttpBody_eq_run {bytes : List UInt8} {separator : ℕ} {head : List Char} {length : ℕ}
    (h : PostedHead bytes separator head length) (hend : separator + 4 ≤ maxRequest)
    (hlength : length ≤ maxRequest - separator - 4) (reads : List ReadResult) :
    ((readHttpBody separator length bytes reads).map fun body =>
        body.map fun body => (head, body)) =
      httpReader.run readFailed bytes (reads.map offeredRead) := by
  have hjudge := judgeHttp_posted h
  rw [if_neg (by omega), if_neg (by omega)] at hjudge
  induction reads generalizing bytes with
  | nil =>
    unfold readHttpBody
    simp only [List.map_nil, Reader.run, httpReader, hjudge]
    split_ifs <;> rfl
  | cons read reads ih =>
    unfold readHttpBody
    by_cases hshort : bytes.length < separator + 4 + length
    swap
    · rw [if_neg hshort] at hjudge ⊢
      exact (Reader.run_of_judge (R := httpReader) hjudge _).symm
    rw [if_pos hshort] at hjudge ⊢
    cases read with
    | failed =>
      simp only [List.map_cons, Reader.run, httpReader, hjudge]
      rfl
    | chunk chunk hsize =>
      simp only [List.map_cons, Reader.run, httpReader, hjudge, offeredRead, ReadResult.offer]
      by_cases hempty : chunk.isEmpty = true
      · simp only [if_pos hempty]
        rfl
      simp only [if_neg hempty]
      refine ih (h.append chunk) ?_
      rw [judgeHttp_posted (h.append chunk), if_neg (by omega), if_neg (by omega)]

/-- The part behind the blank line. -/
theorem readHttpFramed_eq_run {bytes : List UInt8} {separator : ℕ}
    (hposition : position blankLine bytes = some separator) (reads : List ReadResult) :
    readHttpFramed separator bytes reads =
      httpReader.run readFailed bytes (reads.map offeredRead) := by
  unfold readHttpFramed
  cases hdecode : decodeUtf8 (bytes.take separator) with
  | none =>
    refine (Reader.run_of_judge (R := httpReader) ?_ _).symm
    simp only [httpReader, judgeHttp, hposition, hdecode]
  | some head =>
    by_cases hget : subscriptionStart.isPrefixOf head = true
    · simp only [if_pos hget]
      refine (Reader.run_of_judge (R := httpReader) ?_ _).symm
      simp only [httpReader, judgeHttp, hposition, hdecode, if_pos hget]
    simp only [if_neg hget]
    cases hlength : announcedLength head with
    | none =>
      refine (Reader.run_of_judge (R := httpReader) ?_ _).symm
      simp only [httpReader, judgeHttp, hposition, hdecode, if_neg hget, hlength]
    | some length =>
      have hposted : PostedHead bytes separator head length := ⟨hposition, hdecode, hget, hlength⟩
      have hjudge := judgeHttp_posted hposted
      simp only
      by_cases hover : maxRequest < separator + 4
      · rw [if_pos hover] at hjudge ⊢
        exact (Reader.run_of_judge (R := httpReader) hjudge _).symm
      rw [if_neg hover] at hjudge ⊢
      by_cases hlong : maxRequest - separator - 4 < length
      · rw [if_pos hlong] at hjudge ⊢
        exact (Reader.run_of_judge (R := httpReader) hjudge _).symm
      rw [if_neg hlong]
      exact readHttpBody_eq_run hposted (by omega) (by omega) reads

/-- The outer loop is the reader before the blank line. -/
theorem readHttpRequestFrom_eq_run {bytes : List UInt8}
    (hposition : position blankLine bytes = none) (reads : List ReadResult) :
    readHttpRequestFrom bytes reads = httpReader.run readFailed bytes (reads.map offeredRead) := by
  induction reads generalizing bytes with
  | nil =>
    unfold readHttpRequestFrom
    simp only [List.map_nil, Reader.run, httpReader, judgeHttp, hposition]
    split_ifs <;> rfl
  | cons read reads ih =>
    unfold readHttpRequestFrom
    by_cases hroom : bytes.length ≤ maxRequest
    swap
    · simp [Reader.run, httpReader, judgeHttp, hposition, hroom]
    simp only [List.map_cons, Reader.run, httpReader, judgeHttp, hposition, if_pos hroom]
    cases read with
    | failed => rfl
    | chunk chunk hsize =>
      simp only [offeredRead, ReadResult.offer]
      by_cases hempty : chunk.isEmpty = true
      · simp only [if_pos hempty]
      simp only [if_neg hempty]
      cases hnext : position blankLine (bytes ++ chunk) with
      | none => exact ih hnext
      | some separator => exact readHttpFramed_eq_run hnext reads

theorem readHttpRequest_eq_run (reads : List ReadResult) :
    readHttpRequest reads = httpReader.run readFailed [] (reads.map offeredRead) :=
  readHttpRequestFrom_eq_run rfl reads

/-! ### What bounds the reader -/

/-- What the verdict on a buffer depends on. -/
theorem judgeHttp_cases (bytes : List UInt8) :
    (position blankLine bytes = none ∧
      judgeHttp bytes = if bytes.length ≤ maxRequest then none else some (.ok none)) ∨
    (∃ separator head length, PostedHead bytes separator head length) ∨
    (judgeHttp bytes ≠ none ∧ judgeHttp bytes ≠ some (.error .panic)) := by
  cases hposition : position blankLine bytes with
  | none => exact Or.inl ⟨rfl, by simp only [judgeHttp, hposition]⟩
  | some separator =>
    refine Or.inr ?_
    cases hdecode : decodeUtf8 (bytes.take separator) with
    | none => exact Or.inr (by simp [judgeHttp, hposition, hdecode])
    | some head =>
      by_cases hget : subscriptionStart.isPrefixOf head = true
      · exact Or.inr (by simp [judgeHttp, hposition, hdecode, hget])
      cases hlength : announcedLength head with
      | none => exact Or.inr (by simp [judgeHttp, hposition, hdecode, hget, hlength])
      | some length => exact Or.inl ⟨separator, head, length, hposition, hdecode, hget, hlength⟩

/-- The reader reads on within the limit only. -/
theorem length_le_of_judgeHttp {bytes : List UInt8} (h : judgeHttp bytes = none) :
    bytes.length ≤ maxRequest := by
  rcases judgeHttp_cases bytes with ⟨-, hjudge⟩ | ⟨separator, head, length, hposted⟩ |
    ⟨hjudge, -⟩
  · rw [hjudge] at h
    split_ifs at h with hroom
    exact hroom
  · rw [judgeHttp_posted hposted] at h
    split_ifs at h with hover hlong hshort
    omega
  · exact absurd h hjudge

theorem length_le_of_mem_httpBuffers {reads : List ReadResult} {buffer : List UInt8}
    (h : buffer ∈ httpBuffers reads) : buffer.length ≤ maxRequest + 1024 := by
  refine Reader.length_le_of_mem_buffers (fun _ => length_le_of_judgeHttp) ?_ (by simp) h
  intro chunk hchunk
  obtain ⟨read, -, hread⟩ := List.mem_map.1 hchunk
  exact ReadResult.length_le_of_offer hread

/-- The same of the reader itself: whatever it still has to read is within that limit. -/
theorem length_le_of_open_readHttpRequest {reads : List ReadResult} {n : ℕ}
    (h : Reader.Open readHttpRequest reads n) :
    (received (reads.take (n + 1))).length ≤ maxRequest + 1024 := by
  obtain ⟨later, hlater⟩ := h
  rw [readHttpRequest_eq_run, readHttpRequest_eq_run, List.map_append, List.map_take] at hlater
  rw [← received_map_offeredRead, List.map_take]
  refine Reader.length_le_of_open (R := httpReader) (fun _ => length_le_of_judgeHttp) ?_
    ⟨_, hlater⟩
  intro chunk hchunk
  obtain ⟨read, -, hread⟩ := List.mem_map.1 hchunk
  exact ReadResult.length_le_of_offer hread

/-- The buffers on which the subtraction overflows. -/
theorem judgeHttp_eq_panic {bytes : List UInt8} :
    judgeHttp bytes = some (.error .panic) ↔
      ∃ separator head length, PostedHead bytes separator head length ∧
        maxRequest < separator + 4 := by
  constructor
  · intro h
    rcases judgeHttp_cases bytes with ⟨-, hjudge⟩ | ⟨separator, head, length, hposted⟩ |
      ⟨-, hjudge⟩
    · rw [hjudge] at h
      split_ifs at h
      cases h
    · rw [judgeHttp_posted hposted] at h
      split_ifs at h with hover
      · exact ⟨separator, head, length, hposted, hover⟩
      all_goals cases h
    · exact absurd h hjudge
  · rintro ⟨separator, head, length, hposted, hover⟩
    rw [judgeHttp_posted hposted, if_pos hover]

theorem received_take (reads : List ReadResult) (n : ℕ) :
    Reader.received ((reads.map offeredRead).take n) = received (reads.take n) := by
  rw [← List.map_take, received_map_offeredRead]

/-- A read, begun with no more than the limit in the buffer, completes the first blank line of the
stream past the limit, behind the head of a posted request with one `Content-Length`. -/
def CompletesOverlongHead (reads : List ReadResult) : Prop :=
  ∃ n separator head length, PostedHead (received reads) separator head length ∧
    maxRequest < separator + 4 ∧ (received (reads.take n)).length ≤ maxRequest ∧
    separator + 4 ≤ (received (reads.take (n + 1))).length

/-- A posted head in a buffer is that of the stream. -/
theorem PostedHead.of_append {bytes later : List UInt8} {separator : ℕ} {head : List Char}
    {length : ℕ} (h : PostedHead (bytes ++ later) separator head length)
    (hend : separator + 4 ≤ bytes.length) : PostedHead bytes separator head length := by
  refine ⟨position_of_append h.position hend, ?_, h.posted, h.announces⟩
  rw [← h.decodes, List.take_append_of_le_length (by omega)]

theorem length_received_take_le (reads : List ReadResult) {k n : ℕ} (h : k ≤ n) :
    (received (reads.take k)).length ≤ (received (reads.take n)).length := by
  simpa only [received_take] using (Reader.received_take_prefix (reads.map offeredRead) h).length_le

theorem offeredRead_ne_panic (reads : List ReadResult) :
    Except.error (.error .panic) ∉ reads.map offeredRead := by
  intro hmem
  obtain ⟨read, -, hread⟩ := List.mem_map.1 hmem
  cases read with
  | failed => cases hread
  | chunk chunk hsize =>
    simp only [offeredRead, ReadResult.offer] at hread
    split_ifs at hread
    cases hread

theorem readHttpRequest_panic_iff (reads : List ReadResult) :
    readHttpRequest reads = .error .panic ↔ CompletesOverlongHead reads := by
  rw [readHttpRequest_eq_run]
  constructor
  · intro h
    obtain ⟨n, hbefore, hafter⟩ := Reader.judged_of_run (R := httpReader) (by simp [readFailed])
      (offeredRead_ne_panic reads) nofun rfl h
    rw [List.nil_append, received_take] at hbefore hafter
    obtain ⟨separator, head, length, hposted, hover⟩ := judgeHttp_eq_panic.1 hafter
    obtain ⟨rest, hrest⟩ := received_take_prefix reads (n + 1)
    exact ⟨n, separator, head, length, hrest ▸ hposted.append rest, hover,
      length_le_of_judgeHttp hbefore, position_add_le hposted.position⟩
  · rintro ⟨n, separator, head, length, hposted, hover, hroom, hend⟩
    refine Reader.run_of_judged (n := n) ?_ (fun _ _ _ => rfl) ?_
    · intro k hk
      rw [List.nil_append, received_take]
      have hle := length_received_take_le reads hk
      obtain ⟨rest, hrest⟩ := received_take_prefix reads k
      -- the blank line is not complete yet
      have hnone : position blankLine (received (reads.take k)) = none :=
        position_of_short (hrest ▸ hposted.position) (by rw [length_blankLine]; omega)
      simp only [httpReader, judgeHttp, hnone]
      exact if_pos (by omega)
    · rw [List.nil_append, received_take]
      obtain ⟨rest, hrest⟩ := received_take_prefix reads (n + 1)
      exact judgeHttp_eq_panic.2 ⟨separator, head, length, (hrest ▸ hposted).of_append hend, hover⟩

/-- The webhook reader does not overflow and holds at most one chunk more than the limit, exactly
when no read completes an overlong head.  As long as the reads leave its answer open, what has been
received with the next one is no more either. -/
theorem readHttpRequest_bounded_iff (reads : List ReadResult) :
    (readHttpRequest reads ≠ .error .panic ∧
      (∀ buffer ∈ httpBuffers reads, buffer.length ≤ maxRequest + 1024) ∧
      ∀ n, Reader.Open readHttpRequest reads n →
        (received (reads.take (n + 1))).length ≤ maxRequest + 1024) ↔
      ¬ CompletesOverlongHead reads := by
  rw [← readHttpRequest_panic_iff]
  exact ⟨fun h => h.1, fun h => ⟨h, fun _ => length_le_of_mem_httpBuffers,
    fun _ => length_le_of_open_readHttpRequest⟩⟩

/-! ### A peer that makes the subtraction overflow -/

/-- The first line of a request whose head is too long. -/
def overlongRequestLine : List Char := "POST / HTTP/1.1".toList

/-- A head with a value of `n` letters. -/
def overlongHead (n : ℕ) : List Char :=
  overlongRequestLine ++ '\r' :: '\n' :: (Ntfy.overlongHeaders ++ List.replicate n 'a')

theorem announcedLength_overlongHead (n : ℕ) : announcedLength (overlongHead n) = some 0 := by
  obtain ⟨hcr, hlength⟩ := Ntfy.lengthLine_facts
  have hfirst : '\r' ∉ overlongRequestLine := by decide +kernel
  have hpad : '\r' ∉ 'x' :: ':' :: ' ' :: List.replicate n 'a' := by
    simp [List.mem_replicate]
  have hother : splitOnce ':' ('x' :: ':' :: ' ' :: List.replicate n 'a') =
      some (['x'], ' ' :: List.replicate n 'a') :=
    @splitOnce_append ':' ['x'] (by decide) _
  have hlines : splitCrLf (overlongHead n) =
      [overlongRequestLine, Ntfy.lengthLine, 'x' :: ':' :: ' ' :: List.replicate n 'a'] := by
    have htext : overlongHead n = overlongRequestLine ++ '\r' :: '\n' ::
        (Ntfy.lengthLine ++ '\r' :: '\n' :: ('x' :: ':' :: ' ' :: List.replicate n 'a')) := by
      simp only [overlongHead, Ntfy.overlongHeaders, List.append_assoc, List.cons_append,
        List.nil_append]
    rw [htext, splitCrLf_line hfirst, splitCrLf_line hcr, splitCrLf_of_notMem hpad]
  have hname : eqIgnoreAsciiCase "content-length".toList "content-length".toList = true := by
    decide +kernel
  have hnot : ¬ eqIgnoreAsciiCase ['x'] "content-length".toList = true := by decide +kernel
  have hvalue : parseUnsigned (2 ^ 64 - 1) (trim [' ', '0']) = some 0 := by decide +kernel
  unfold announcedLength headerOnce
  rw [hlines]
  generalize "content-length".toList = wanted at *
  simp only [List.drop_succ_cons, List.drop_zero, headerOnceFrom, hlength, hname, if_true, hother,
    if_neg hnot, Option.isSome_none, Bool.false_eq_true, if_false, Option.bind_some, hvalue]

theorem length_codes_overlongHead : (codes (overlongHead 0)).length = 39 := by decide +kernel

/-- The first read is a full one. -/
theorem length_firstChunk : (codes (overlongHead 0) ++ List.replicate 985 0x61).length ≤ 1024 := by
  rw [List.length_append, length_codes_overlongHead, List.length_replicate]

theorem length_blankLine_le : blankLine.length ≤ 1024 := by decide

theorem length_fullChunk_le : (List.replicate 1024 (0x61 : UInt8)).length ≤ 1024 :=
  Nat.le_of_eq List.length_replicate

/-- Sixteen reads of 1024 bytes, and what follows them. -/
def overlongReadsFrom (rest : List ReadResult) : List ReadResult :=
  .chunk (codes (overlongHead 0) ++ List.replicate 985 0x61) length_firstChunk ::
    (List.replicate 15 (.chunk (List.replicate 1024 0x61) length_fullChunk_le) ++ rest)

/-- The blank line comes in one more read. -/
def overlongReads : List ReadResult := overlongReadsFrom [.chunk blankLine length_blankLine_le]

theorem overlongHead_eq (n : ℕ) : overlongHead n = overlongHead 0 ++ List.replicate n 'a' := by
  simp only [overlongHead, List.replicate_zero, List.append_nil, List.append_assoc,
    List.cons_append]

theorem codes_overlongHead (n : ℕ) :
    codes (overlongHead n) = codes (overlongHead 0) ++ List.replicate n 0x61 := by
  have hpad : codes (List.replicate n 'a') = List.replicate n 0x61 := List.map_replicate
  rw [overlongHead_eq, codes_append, hpad]

theorem offeredRead_chunk {chunk : List UInt8} (size : chunk.length ≤ 1024) (h : chunk ≠ []) :
    offeredRead (.chunk chunk size) = .ok chunk := by
  simp [offeredRead, ReadResult.offer, h]

theorem received_overlongReadsFrom (rest : List ReadResult) :
    received (overlongReadsFrom rest) = codes (overlongHead 16345) ++ received rest := by
  have hpad : ∀ n : ℕ, 0 < n → List.replicate n (0x61 : UInt8) ≠ [] := by
    intro n hn
    simp only [ne_eq, List.replicate_eq_nil_iff]
    omega
  have hstart : codes (overlongHead 0) ++ List.replicate 985 0x61 ≠ [] :=
    List.append_ne_nil_of_right_ne_nil _ (hpad 985 (by decide))
  have hsum : List.replicate 16345 (0x61 : UInt8) =
      List.replicate 985 0x61 ++ List.replicate (15 * 1024) 0x61 := by
    rw [← List.replicate_add]
  rw [← received_map_offeredRead, overlongReadsFrom, List.map_cons, offeredRead_chunk _ hstart,
    List.map_append, List.map_replicate, offeredRead_chunk _ (hpad 1024 (by decide)),
    Reader.received_ok, Reader.received_replicate, received_map_offeredRead,
    codes_overlongHead 16345, hsum]
  simp only [List.append_assoc]

theorem overlongReads_completes : CompletesOverlongHead overlongReads := by
  have hstream : received overlongReads = codes (overlongHead 16345) ++ blankLine := by
    have hend : received [] = [] := rfl
    rw [overlongReads, received_overlongReadsFrom, received_cons (by decide), hend, List.append_nil]
  have hclears : Clears blankLine (codes (overlongHead 0)) := by
    unfold Clears
    decide +kernel
  have hcount : (codes (overlongHead 16345)).length = 16384 := by
    rw [codes_overlongHead, List.length_append, List.length_replicate, length_codes_overlongHead]
  have hascii : ∀ c ∈ overlongHead 16345, c.toNat < 128 := by
    have hstart : ∀ c ∈ overlongHead 0, c.toNat < 128 := forall_mem_of_all (by decide +kernel)
    intro c hc
    rw [overlongHead_eq] at hc
    rcases List.mem_append.1 hc with hc | hc
    · exact hstart c hc
    · rw [List.eq_of_mem_replicate hc]
      decide
  refine ⟨16, 16384, overlongHead 16345, 0, ⟨?_, ?_, ?_, announcedLength_overlongHead _⟩, by decide,
    ?_, ?_⟩
  · rw [hstream, codes_overlongHead, List.append_assoc, Ntfy.position_padded hclears,
      length_codes_overlongHead]
  · rw [hstream, ← hcount, List.take_left]
    exact decodeUtf8_codes hascii
  · intro hget
    have hline : overlongRequestLine <+: overlongHead 16345 := List.prefix_append _ _
    have hsame := List.prefix_of_prefix_length_le hline (List.isPrefixOf_iff_prefix.1 hget)
      (by decide +kernel)
    exact absurd hsame (by decide +kernel)
  · have hbefore : overlongReads.take 16 = overlongReadsFrom [] := rfl
    rw [hbefore, received_overlongReadsFrom, List.length_append, hcount]
    decide
  · have hall : overlongReads.take (16 + 1) = overlongReads := rfl
    rw [hall, hstream, List.length_append, hcount, length_blankLine]

/-- A peer that is not authenticated ends the process. -/
theorem readHttpRequest_overlongReads : readHttpRequest overlongReads = .error .panic :=
  (readHttpRequest_panic_iff _).2 overlongReads_completes

end MsgRiver.Service
