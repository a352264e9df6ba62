import MsgRiver.Lib.Reader
import MsgRiver.Connector.Ntfy

/-!
# The framing of a provider response

The ntfy response reader as an incremental reader: what its buffers hold, when the subtraction
`MAX_RESPONSE_HEADERS - header_end` overflows, and what it takes from a stream whatever the reads
that carry it.

The outer loop asks for one more chunk while fewer than 16 KiB are buffered, so that chunk can
complete a blank line that ends past the limit.
-/

namespace MsgRiver.Connector

open Ascii Text

/-- What a read brings to a reader, with the verdicts on a failed read and on the end of the
stream. -/
def ReadResult.offer {ρ : Type} (failed ended : ρ) : ReadResult → Except ρ (List UInt8)
  | .failed => .error failed
  | .chunk bytes _ => if bytes.isEmpty then .error ended else .ok bytes

theorem ReadResult.length_le_of_offer {ρ : Type} {failed ended : ρ} {read : ReadResult}
    {chunk : List UInt8} (h : read.offer failed ended = .ok chunk) : chunk.length ≤ 1024 := by
  cases read with
  | failed => cases h
  | chunk bytes hsize =>
    simp only [ReadResult.offer] at h
    split_ifs at h
    cases h
    exact hsize

theorem length_blankLine : blankLine.length = 4 := rfl

namespace Ntfy

/-! ### The head of a response -/

/-- The header section that ends at `headerEnd` announces the length of the body. -/
def Announces (bytes : List UInt8) (headerEnd length : ℕ) : Prop :=
  ∃ lineEnd headers, position [0x0d, 0x0a] bytes = some lineEnd ∧
    decodeUtf8 ((bytes.take headerEnd).drop (lineEnd + 2)) = some headers ∧
    contentLengths headers = some [length]

/-- The status line of a response. -/
def StatusLine (bytes : List UInt8) (status : ℕ) : Prop :=
  ∃ lineEnd line version code, position [0x0d, 0x0a] bytes = some lineEnd ∧
    decodeUtf8 (bytes.take lineEnd) = some line ∧
    (splitAsciiWhitespace line)[0]? = some version ∧
    (version = "HTTP/1.1".toList ∨ version = "HTTP/1.0".toList) ∧
    (splitAsciiWhitespace line)[1]? = some code ∧ parseUnsigned 65535 code = some status

/-- What `response` reads before it subtracts. -/
theorem responseHead_cases (bytes : List UInt8) (headerEnd : ℕ) :
    (∃ status length, StatusLine bytes status ∧ Announces bytes headerEnd length ∧
      responseHead bytes headerEnd =
        if maxResponseHeaders < headerEnd then .error .subtractOverflow
        else if maxResponseHeaders - headerEnd < length then .ok none
        else .ok (some ⟨status, headerEnd, length⟩)) ∨
    ((∀ status length, StatusLine bytes status → ¬ Announces bytes headerEnd length) ∧
      responseHead bytes headerEnd = .ok none) := by
  unfold responseHead
  extract_lets parsed
  have hparsed : ∀ status length, parsed = some (status, [length]) ↔
      StatusLine bytes status ∧ Announces bytes headerEnd length := by
    -- the checks one after the other, each with the value it hands on
    intro status length
    simp only [parsed, StatusLine, Announces]
    generalize "HTTP/1.1".toList = v₁
    generalize "HTTP/1.0".toList = v₀
    simp only [Option.bind_eq_bind, Option.bind_eq_some_iff, Option.pure_def]
    constructor
    · rintro ⟨lineEnd, hline, line, htext, version, hversion, h⟩
      split_ifs at h with hother
      · cases h
      simp only [Option.bind_eq_some_iff, Option.some.injEq, Prod.mk.injEq] at h
      obtain ⟨code, hcode, status', hstatus, headers, hheaders, lengths, hlengths, rfl, rfl⟩ := h
      simp only [bne_iff_ne, Bool.and_eq_true, not_and_or, not_not, ne_eq] at hother
      exact ⟨⟨lineEnd, line, version, code, hline, htext, hversion, hother, hcode, hstatus⟩,
        lineEnd, headers, hline, hheaders, hlengths⟩
    · rintro ⟨⟨lineEnd, line, version, code, hline, htext, hversion, hone, hcode, hstatus⟩,
        lineEnd', headers, hline', hheaders, hlengths⟩
      obtain rfl : lineEnd' = lineEnd := Option.some.inj (hline'.symm.trans hline)
      refine ⟨lineEnd', hline, line, htext, version, hversion, ?_⟩
      rw [if_neg (by simpa only [bne_iff_ne, Bool.and_eq_true, not_and_or, not_not,
        ne_eq] using hone)]
      simp only [Option.bind_eq_some_iff, Option.some.injEq, Prod.mk.injEq]
      exact ⟨code, hcode, status, hstatus, headers, hheaders, [length], hlengths, rfl, rfl⟩
  generalize parsed = result at hparsed ⊢
  match result with
  | some (status, [length]) =>
    obtain ⟨hstatus, hlength⟩ := (hparsed status length).1 rfl
    exact Or.inl ⟨status, length, hstatus, hlength, rfl⟩
  | none | some (status, []) | some (status, _ :: _ :: _) =>
    refine Or.inr ⟨fun status length hstatus hlength => ?_, rfl⟩
    cases (hparsed status length).2 ⟨hstatus, hlength⟩

/-- A header section holds its first line. -/
theorem exists_line {bytes : List UInt8} {separator : ℕ}
    (h : position blankLine bytes = some separator) :
    ∃ lineEnd ≤ separator, position [0x0d, 0x0a] bytes = some lineEnd := by
  obtain ⟨hle, hat, -⟩ := position_eq_some_iff.1 h
  exact exists_position_le hle ((by decide : [0x0d, 0x0a] <+: blankLine).trans hat)

/-- What is read behind a header section does not change what it says. -/
theorem statusLine_append {bytes : List UInt8} {separator status : ℕ}
    (h : position blankLine bytes = some separator) (later : List UInt8) :
    StatusLine (bytes ++ later) status ↔ StatusLine bytes status := by
  obtain ⟨lineEnd, hle, hline⟩ := exists_line h
  have hend := position_add_le h
  have htake : (bytes ++ later).take lineEnd = bytes.take lineEnd :=
    List.take_append_of_le_length (by omega)
  unfold StatusLine
  simp only [position_append hline, hline, Option.some.injEq, exists_and_left, exists_eq_left',
    htake]

theorem announces_append {bytes : List UInt8} {separator length : ℕ}
    (h : position blankLine bytes = some separator) (later : List UInt8) :
    Announces (bytes ++ later) (separator + 4) length ↔ Announces bytes (separator + 4) length := by
  obtain ⟨lineEnd, hle, hline⟩ := exists_line h
  have hend : separator + 4 ≤ bytes.length := position_add_le h
  unfold Announces
  rw [position_append hline, hline, List.take_append_of_le_length hend]

theorem responseHead_append {bytes : List UInt8} {separator : ℕ}
    (h : position blankLine bytes = some separator) (later : List UInt8) :
    responseHead (bytes ++ later) (separator + 4) = responseHead bytes (separator + 4) := by
  obtain ⟨lineEnd, hle, hline⟩ := exists_line h
  have hend : separator + 4 ≤ bytes.length := position_add_le h
  have htake : (bytes ++ later).take lineEnd = bytes.take lineEnd :=
    List.take_append_of_le_length (by omega)
  unfold responseHead
  rw [position_append hline, hline, List.take_append_of_le_length hend]
  simp only [Option.bind_eq_bind, Option.bind_some, htake]

/-! ### The reader -/

/-- The verdict of `response` on its buffer, none while it reads on. -/
def judgeResponse (bytes : List UInt8) : Option (Except Panic (Option NtfyResponse)) :=
  match position blankLine bytes with
  | none => if bytes.length < maxResponseHeaders then none else some (.ok none)
  | some separator =>
    match responseHead bytes (separator + 4) with
    | .error panic => some (.error panic)
    | .ok none => some (.ok none)
    | .ok (some head) =>
      if bytes.length < head.headerEnd + head.length then none
      else some (.ok (completeResponse head bytes))

/-- The chunks that the body loop refuses. -/
def refuseChunk (bytes chunk : List UInt8) : Option (Except Panic (Option NtfyResponse)) :=
  if (position blankLine bytes).isSome ∧ maxResponseHeaders < bytes.length + chunk.length then
    some (.ok none)
  else none

/-- The loop of the ntfy driver that collects a response, as a reader of chunks. -/
def responseReader : Reader UInt8 (Except Panic (Option NtfyResponse)) :=
  ⟨judgeResponse, refuseChunk⟩

/-- What a turn brings: nothing after the deadline. -/
def offered (turn : Turn) : Except (Except Panic (Option NtfyResponse)) (List UInt8) :=
  if turn.late then .error (.ok none) else turn.read.offer (.ok none) (.ok none)

/-- The contents of the buffer of `response`, at its start and after each read. -/
def responseBuffers (turns : List Turn) : List (List UInt8) :=
  responseReader.buffers [] (turns.map offered)

/-- The stream that the turns bring before the deadline. -/
def stream (turns : List Turn) : List UInt8 := Reader.received (turns.map offered)

theorem judgeResponse_head {bytes : List UInt8} {separator : ℕ} {head : ResponseHead}
    (hposition : position blankLine bytes = some separator)
    (hhead : responseHead bytes (separator + 4) = .ok (some head)) :
    judgeResponse bytes =
      if bytes.length < head.headerEnd + head.length then none
      else some (.ok (completeResponse head bytes)) := by
  simp only [judgeResponse, hposition, hhead]

/-- The body loop is the reader behind a header section. -/
theorem responseBody_eq_run {bytes : List UInt8} {separator : ℕ} {head : ResponseHead}
    (hposition : position blankLine bytes = some separator)
    (hhead : responseHead bytes (separator + 4) = .ok (some head)) (turns : List Turn) :
    .ok (responseBody head bytes turns) =
      responseReader.run (.ok none) bytes (turns.map offered) := by
  induction turns generalizing bytes with
  | nil =>
    unfold responseBody
    simp only [List.map_nil, Reader.run, responseReader, judgeResponse_head hposition hhead]
    split_ifs <;> rfl
  | cons turn turns ih =>
    unfold responseBody
    have hjudge := judgeResponse_head hposition hhead
    by_cases hshort : bytes.length < head.headerEnd + head.length
    swap
    · rw [if_neg hshort] at hjudge ⊢
      exact (Reader.run_of_judge (R := responseReader) hjudge _).symm
    rw [if_pos hshort] at hjudge ⊢
    simp only [List.map_cons, Reader.run, responseReader, hjudge, offered]
    by_cases hlate : turn.late = true
    · simp only [if_pos hlate]
    simp only [if_neg hlate]
    cases turn.read with
    | failed => rfl
    | chunk chunk hsize =>
      by_cases hempty : chunk.isEmpty = true
      · simp only [ReadResult.offer, hempty, Bool.true_or, if_true]
      simp only [ReadResult.offer, hempty, Bool.false_or, Bool.false_eq_true, if_false,
        decide_eq_true_eq]
      by_cases hlong : maxResponseHeaders < bytes.length + chunk.length
      · simp [refuseChunk, hposition, hlong]
      · simp only [refuseChunk, hlong, and_false, if_false]
        exact ih (position_append hposition chunk)
          ((responseHead_append hposition chunk).trans hhead)

/-- The outer loop is the reader before a header section. -/
theorem responseFrom_eq_run {bytes : List UInt8} (hposition : position blankLine bytes = none)
    (turns : List Turn) :
    responseFrom bytes turns = responseReader.run (.ok none) bytes (turns.map offered) := by
  induction turns generalizing bytes with
  | nil =>
    unfold responseFrom
    simp only [List.map_nil, Reader.run, responseReader, judgeResponse, hposition]
    split_ifs <;> rfl
  | cons turn turns ih =>
    unfold responseFrom
    -- a full buffer without a blank line ends the loop
    by_cases hroom : bytes.length < maxResponseHeaders
    swap
    · simp [Reader.run, responseReader, judgeResponse, hposition, hroom]
    simp only [List.map_cons, Reader.run, responseReader, judgeResponse, hposition, if_pos hroom,
      offered]
    by_cases hlate : turn.late = true
    · simp only [if_pos hlate]
    simp only [if_neg hlate]
    cases turn.read with
    | failed => rfl
    | chunk chunk hsize =>
      by_cases hempty : chunk.isEmpty = true
      · simp only [ReadResult.offer, hempty, if_true]
      simp only [ReadResult.offer, hempty, if_false, refuseChunk, hposition, Option.isSome_none,
        Bool.false_eq_true, false_and]
      cases hnext : position blankLine (bytes ++ chunk) with
      | none => exact ih hnext
      | some separator =>
        simp only
        cases hhead : responseHead (bytes ++ chunk) (separator + 4) with
        | error panic =>
          refine (Reader.run_of_judge (R := responseReader) ?_ _).symm
          simp only [responseReader, judgeResponse, hnext, hhead]
          rfl
        | ok head =>
          cases head with
          | none =>
            refine (Reader.run_of_judge (R := responseReader) ?_ _).symm
            simp only [responseReader, judgeResponse, hnext, hhead]
            rfl
          | some head => exact responseBody_eq_run hnext hhead turns

theorem response_eq_run (turns : List Turn) :
    response turns = responseReader.run (.ok none) [] (turns.map offered) :=
  responseFrom_eq_run rfl turns

/-! ### What bounds the reader -/

theorem responseHead_eq_error {bytes : List UInt8} {headerEnd : ℕ} {panic : Panic} :
    responseHead bytes headerEnd = .error panic ↔
      (∃ status length, StatusLine bytes status ∧ Announces bytes headerEnd length) ∧
        maxResponseHeaders < headerEnd := by
  cases panic
  rcases responseHead_cases bytes headerEnd with ⟨status, length, hstatus, hlength, h⟩ | ⟨hno, h⟩
  · rw [h]
    by_cases hover : maxResponseHeaders < headerEnd
    · simp only [if_pos hover, true_iff]
      exact ⟨⟨status, length, hstatus, hlength⟩, hover⟩
    · simp only [hover, and_false, iff_false, if_false]
      split_ifs <;> simp
  · rw [h]
    refine iff_of_false nofun ?_
    rintro ⟨⟨status, length, hstatus, hlength⟩, -⟩
    exact hno status length hstatus hlength

theorem responseHead_eq_some {bytes : List UInt8} {headerEnd : ℕ} {head : ResponseHead}
    (h : responseHead bytes headerEnd = .ok (some head)) :
    StatusLine bytes head.status ∧ Announces bytes headerEnd head.length ∧
      head.headerEnd = headerEnd ∧ headerEnd + head.length ≤ maxResponseHeaders := by
  rcases responseHead_cases bytes headerEnd with ⟨status, length, hstatus, hlength, hcase⟩ |
    ⟨-, hcase⟩
  · rw [hcase] at h
    split_ifs at h with hover hlong
    · cases h
    obtain rfl := Option.some.inj (Except.ok.inj h)
    refine ⟨hstatus, hlength, rfl, ?_⟩
    show headerEnd + length ≤ maxResponseHeaders
    omega
  · rw [hcase] at h
    cases h

/-- The reader reads on within the limit only. -/
theorem length_le_of_judgeResponse {bytes : List UInt8} (h : judgeResponse bytes = none) :
    bytes.length ≤ maxResponseHeaders := by
  unfold judgeResponse at h
  cases hposition : position blankLine bytes with
  | none =>
    simp only [hposition] at h
    split_ifs at h with hroom
    omega
  | some separator =>
    simp only [hposition] at h
    cases hhead : responseHead bytes (separator + 4) with
    | error panic => simp [hhead] at h
    | ok head =>
      cases head with
      | none => simp [hhead] at h
      | some head =>
        simp only [hhead] at h
        split_ifs at h with hshort
        obtain ⟨-, -, hend, htotal⟩ := responseHead_eq_some hhead
        omega

theorem length_le_of_offered {turn : Turn} {chunk : List UInt8} (h : offered turn = .ok chunk) :
    chunk.length ≤ 1024 := by
  unfold offered at h
  split_ifs at h
  exact ReadResult.length_le_of_offer h

theorem length_le_of_mem_responseBuffers {turns : List Turn} {buffer : List UInt8}
    (h : buffer ∈ responseBuffers turns) : buffer.length ≤ maxResponseHeaders + 1024 := by
  refine Reader.length_le_of_mem_buffers (fun _ => length_le_of_judgeResponse) ?_ (by simp) h
  intro chunk hchunk
  obtain ⟨turn, -, hturn⟩ := List.mem_map.1 hchunk
  exact length_le_of_offered hturn

/-- The same of the reader itself: whatever it still has to read is within that limit. -/
theorem length_le_of_open_response {turns : List Turn} {n : ℕ} (h : Reader.Open response turns n) :
    (stream (turns.take (n + 1))).length ≤ maxResponseHeaders + 1024 := by
  obtain ⟨later, hlater⟩ := h
  rw [response_eq_run, response_eq_run, List.map_append, List.map_take] at hlater
  rw [stream, List.map_take]
  refine Reader.length_le_of_open (R := responseReader) (fun _ => length_le_of_judgeResponse) ?_
    ⟨_, hlater⟩
  intro chunk hchunk
  obtain ⟨turn, -, hturn⟩ := List.mem_map.1 hchunk
  exact length_le_of_offered hturn

theorem stream_take (turns : List Turn) (n : ℕ) :
    Reader.received ((turns.map offered).take n) = stream (turns.take n) := by
  rw [stream, List.map_take]

theorem stream_take_le (turns : List Turn) {k n : ℕ} (h : k ≤ n) :
    stream (turns.take k) <+: stream (turns.take n) := by
  simpa only [stream_take] using Reader.received_take_prefix (turns.map offered) h

theorem stream_prefix (turns : List Turn) (n : ℕ) : stream (turns.take n) <+: stream turns := by
  rcases Nat.le_total n turns.length with h | h
  · simpa using stream_take_le turns h
  · have hall : turns.take n = turns := List.take_of_length_le h
    simp only [hall, List.prefix_rfl]

/-- A turn, begun with less than the limit in the buffer, completes the first blank line of the
stream past the limit, behind a status line and one `Content-Length`. -/
def CompletesOverlongHeader (turns : List Turn) : Prop :=
  ∃ n separator status length, position blankLine (stream turns) = some separator ∧
    StatusLine (stream turns) status ∧ Announces (stream turns) (separator + 4) length ∧
    maxResponseHeaders < separator + 4 ∧
    (stream (turns.take n)).length < maxResponseHeaders ∧
    separator + 4 ≤ (stream (turns.take (n + 1))).length

/-- The bytes are one response: a header section that ends with the first blank line, and the body
that it announces, within the limit together. -/
def OneResponse (bytes : List UInt8) (separator length : ℕ) : Prop :=
  position blankLine bytes = some separator ∧ Announces bytes (separator + 4) length ∧
    bytes.length = separator + 4 + length ∧ bytes.length ≤ maxResponseHeaders

/-- The buffers on which the subtraction overflows. -/
theorem judgeResponse_eq_error {bytes : List UInt8} {panic : Panic} :
    judgeResponse bytes = some (.error panic) ↔
      ∃ separator status length, position blankLine bytes = some separator ∧
        StatusLine bytes status ∧ Announces bytes (separator + 4) length ∧
        maxResponseHeaders < separator + 4 := by
  constructor
  · intro h
    unfold judgeResponse at h
    cases hposition : position blankLine bytes with
    | none =>
      simp only [hposition] at h
      split_ifs at h
      cases h
    | some separator =>
      simp only [hposition] at h
      cases hhead : responseHead bytes (separator + 4) with
      | error other =>
        obtain ⟨⟨status, length, hstatus, hlength⟩, hover⟩ := responseHead_eq_error.1 hhead
        exact ⟨separator, status, length, rfl, hstatus, hlength, hover⟩
      | ok head =>
        cases head with
        | none => simp [hhead] at h
        | some head =>
          simp only [hhead] at h
          split_ifs at h
          cases h
  · rintro ⟨separator, status, length, hposition, hstatus, hlength, hover⟩
    have hhead : responseHead bytes (separator + 4) = .error panic :=
      responseHead_eq_error.2 ⟨⟨status, length, hstatus, hlength⟩, hover⟩
    simp only [judgeResponse, hposition, hhead]

theorem offered_ne {turns : List Turn} {verdict : Except Panic (Option NtfyResponse)}
    (h : verdict ≠ .ok none) : Except.error verdict ∉ turns.map offered := by
  intro hmem
  obtain ⟨turn, -, hturn⟩ := List.mem_map.1 hmem
  refine h ?_
  unfold offered ReadResult.offer at hturn
  split_ifs at hturn with hlate
  · exact (Except.error.inj hturn).symm
  · split at hturn
    · exact (Except.error.inj hturn).symm
    · split_ifs at hturn
      exact (Except.error.inj hturn).symm

theorem refuseChunk_ne {verdict : Except Panic (Option NtfyResponse)} (h : verdict ≠ .ok none)
    (bytes chunk : List UInt8) : refuseChunk bytes chunk ≠ some verdict := by
  unfold refuseChunk
  split_ifs
  · exact fun heq => h (Option.some.inj heq).symm
  · nofun

/-- A verdict other than giving up is that on a buffer. -/
theorem judged_of_response {turns : List Turn} {verdict : Except Panic (Option NtfyResponse)}
    (hverdict : verdict ≠ .ok none) (h : response turns = verdict) :
    ∃ n, judgeResponse (stream (turns.take n)) = none ∧
      judgeResponse (stream (turns.take (n + 1))) = some verdict := by
  rw [response_eq_run] at h
  obtain ⟨n, hbefore, hafter⟩ := Reader.judged_of_run (R := responseReader) hverdict.symm
    (offered_ne hverdict) (refuseChunk_ne hverdict) rfl h
  rw [List.nil_append, stream_take] at hbefore hafter
  exact ⟨n, hbefore, hafter⟩

theorem response_overflow_iff (turns : List Turn) :
    response turns = .error .subtractOverflow ↔ CompletesOverlongHeader turns := by
  constructor
  · intro h
    obtain ⟨n, hbefore, hafter⟩ := judged_of_response (by simp) h
    obtain ⟨separator, status, length, hposition, hstatus, hlength, hover⟩ :=
      judgeResponse_eq_error.1 hafter
    have hopen := length_le_of_judgeResponse hbefore
    obtain ⟨rest, hrest⟩ := stream_prefix turns (n + 1)
    refine ⟨n, separator, status, length, ?_, ?_, ?_, hover, ?_, position_add_le hposition⟩
    · exact hrest ▸ position_append hposition rest
    · exact hrest ▸ (statusLine_append hposition rest).2 hstatus
    · exact hrest ▸ (announces_append hposition rest).2 hlength
    · -- the buffer before the read is too short for the blank line, so the limit kept the loop open
      obtain ⟨chunk, hchunk⟩ := stream_take_le turns (Nat.le_succ n)
      have hnone : position blankLine (stream (turns.take n)) = none :=
        position_of_short (hchunk ▸ hposition) (by rw [length_blankLine]; omega)
      unfold judgeResponse at hbefore
      simp only [hnone] at hbefore
      split_ifs at hbefore with hroom
      exact hroom
  · rintro ⟨n, separator, status, length, hposition, hstatus, hlength, hover, hroom, hend⟩
    have hshort : ∀ k ≤ n, (stream (turns.take k)).length < maxResponseHeaders := by
      intro k hk
      have := (stream_take_le turns hk).length_le
      omega
    have hnone : ∀ k ≤ n, position blankLine (stream (turns.take k)) = none := by
      intro k hk
      obtain ⟨rest, hrest⟩ := stream_prefix turns k
      have := hshort k hk
      exact position_of_short (hrest ▸ hposition) (by rw [length_blankLine]; omega)
    rw [response_eq_run]
    refine Reader.run_of_judged (n := n) ?_ ?_ ?_
    · intro k hk
      rw [List.nil_append, stream_take]
      simp only [responseReader, judgeResponse, hnone k hk, if_pos (hshort k hk)]
    · intro k hk chunk
      rw [List.nil_append, stream_take]
      simp [responseReader, refuseChunk, hnone k hk]
    · rw [List.nil_append, stream_take]
      obtain ⟨rest, hrest⟩ := stream_prefix turns (n + 1)
      have hfirst : position blankLine (stream (turns.take (n + 1))) = some separator :=
        position_of_append (hrest ▸ hposition) hend
      rw [← hrest] at hstatus hlength
      exact judgeResponse_eq_error.2 ⟨separator, status, length, hfirst,
        (statusLine_append hfirst rest).1 hstatus, (announces_append hfirst rest).1 hlength, hover⟩

/-! ### What the reader takes -/

theorem Announces.unique {bytes : List UInt8} {headerEnd m n : ℕ} (hm : Announces bytes headerEnd m)
    (hn : Announces bytes headerEnd n) : m = n := by
  obtain ⟨lineEnd, headers, hline, hdecode, hlengths⟩ := hm
  obtain ⟨lineEnd', headers', hline', hdecode', hlengths'⟩ := hn
  rw [hline, Option.some.injEq] at hline'
  subst hline'
  rw [hdecode, Option.some.injEq] at hdecode'
  subst hdecode'
  rw [hlengths, Option.some.injEq] at hlengths'
  exact (List.cons.inj hlengths').1

/-- A returned response is the whole buffer, and within the limit. -/
theorem judgeResponse_eq_response {bytes : List UInt8} {response : NtfyResponse}
    (h : judgeResponse bytes = some (.ok (some response))) :
    ∃ separator length, OneResponse bytes separator length ∧ StatusLine bytes response.status ∧
      response.body = bytes.drop (separator + 4) := by
  unfold judgeResponse at h
  cases hposition : position blankLine bytes with
  | none =>
    simp only [hposition] at h
    split_ifs at h
    cases h
  | some separator =>
    simp only [hposition] at h
    cases hhead : responseHead bytes (separator + 4) with
    | error panic => simp [hhead] at h
    | ok head =>
      cases head with
      | none => simp [hhead] at h
      | some head =>
        obtain ⟨hstatus, hlength, hend, htotal⟩ := responseHead_eq_some hhead
        simp only [hhead, completeResponse] at h
        split_ifs at h with hshort hexact
        · cases h
        · cases h
          rw [not_not] at hexact
          exact ⟨separator, head.length, ⟨hposition, hlength, by omega, by omega⟩, hstatus,
            by simp only [hend]⟩

/-- The head of one response is refused, or announces its body. -/
theorem responseHead_of_one {bytes : List UInt8} {separator length : ℕ}
    (h : OneResponse bytes separator length) :
    responseHead bytes (separator + 4) = .ok none ∨
      ∃ status, responseHead bytes (separator + 4) =
        .ok (some ⟨status, separator + 4, length⟩) := by
  obtain ⟨-, hlength, hexact, hlimit⟩ := h
  rcases responseHead_cases bytes (separator + 4) with ⟨status, n, -, hn, hcase⟩ | ⟨-, hcase⟩
  · obtain rfl := hlength.unique hn
    rw [if_neg (by omega), if_neg (by omega)] at hcase
    exact Or.inr ⟨status, hcase⟩
  · exact Or.inl hcase

/-- No part of one response is judged in another way than the whole. -/
theorem judgeResponse_part {bytes : List UInt8} {separator length : ℕ}
    (h : OneResponse bytes separator length) :
    ∃ verdict, judgeResponse bytes = some verdict ∧
      ∀ part, part <+: bytes → ∀ v, judgeResponse part = some v → v = verdict := by
  have hhead := responseHead_of_one h
  obtain ⟨hposition, -, hexact, hlimit⟩ := h
  have hwhole : ∃ verdict, judgeResponse bytes = some verdict := by
    rcases hhead with hhead | ⟨status, hhead⟩ <;> simp [judgeResponse, hposition, hhead, hexact]
  obtain ⟨verdict, hverdict⟩ := hwhole
  refine ⟨verdict, hverdict, ?_⟩
  rintro part ⟨rest, rfl⟩ v hv
  rw [List.length_append] at hexact hlimit
  rcases Nat.eq_zero_or_pos rest.length with hrest | hrest
  · rw [List.length_eq_zero_iff.1 hrest, List.append_nil, hv] at hverdict
    exact Option.some.inj hverdict
  cases hpart : position blankLine part with
  | none =>
    simp only [judgeResponse, hpart] at hv
    rw [if_pos (by omega)] at hv
    cases hv
  | some early =>
    obtain rfl : early = separator :=
      Option.some.inj ((position_append hpart rest).symm.trans hposition)
    rw [responseHead_append hpart] at hhead
    rcases hhead with hhead | ⟨status, hhead⟩
    · simp only [judgeResponse, hpart, hhead] at hv
      simp only [judgeResponse, hposition, responseHead_append hpart, hhead] at hverdict
      exact Option.some.inj (hv.symm.trans hverdict)
    · simp only [judgeResponse, hpart, hhead] at hv
      rw [if_pos (by omega)] at hv
      cases hv

/-- The result on one response does not depend on the reads that carry it. -/
theorem response_of_one {turns turns' : List Turn} {separator length : ℕ}
    (h : OneResponse (stream turns) separator length) (hstream : stream turns' = stream turns) :
    response turns' = response turns := by
  obtain ⟨verdict, hwhole, hparts⟩ := judgeResponse_part h
  have hrefuse : ∀ part chunk, part ++ chunk <+: stream turns → refuseChunk part chunk = none := by
    intro part chunk hpart
    have hlimit := h.2.2.2
    have hle := hpart.length_le
    rw [List.length_append] at hle
    refine if_neg ?_
    omega
  have hany : ∀ turns', stream turns' = stream turns → response turns' = verdict := by
    intro turns' hstream'
    rw [response_eq_run]
    exact Reader.run_of_whole (R := responseReader) hwhole hparts hrefuse hstream'
  rw [hany turns' hstream, hany turns rfl]

/-- The framing of the ntfy response reader: no overflow, a bounded buffer (also in what has been
received with the next turn while the answer is open), responses within the limit, and one result
for one response.  All of it holds exactly when no turn completes an overlong header section. -/
theorem response_framing_iff (turns : List Turn) :
    (response turns ≠ .error .subtractOverflow ∧
      (∀ buffer ∈ responseBuffers turns, buffer.length ≤ maxResponseHeaders + 1024) ∧
      (∀ n, Reader.Open response turns n →
        (stream (turns.take (n + 1))).length ≤ maxResponseHeaders + 1024) ∧
      (∀ result, response turns = .ok (some result) → ∃ n separator length,
        OneResponse (stream (turns.take n)) separator length ∧
          StatusLine (stream (turns.take n)) result.status ∧
          result.body = (stream (turns.take n)).drop (separator + 4)) ∧
      (∀ separator length, OneResponse (stream turns) separator length →
        ∀ turns', stream turns' = stream turns → response turns' = response turns)) ↔
      ¬ CompletesOverlongHeader turns := by
  rw [← response_overflow_iff]
  refine ⟨fun h => h.1, fun h => ⟨h, fun _ => length_le_of_mem_responseBuffers,
    fun _ => length_le_of_open_response, ?_, ?_⟩⟩
  · intro result hresult
    obtain ⟨n, -, hjudge⟩ := judged_of_response (by simp) hresult
    obtain ⟨separator, length, hone, hstatus, hbody⟩ := judgeResponse_eq_response hjudge
    exact ⟨n + 1, separator, length, hone, hstatus, hbody⟩
  · exact fun separator length hone turns' => response_of_one hone

/-- A chunk in time. -/
def onTime (chunk : List UInt8) (size : chunk.length ≤ 1024) : Turn := ⟨false, .chunk chunk size⟩

theorem offered_onTime {chunk : List UInt8} (size : chunk.length ≤ 1024) (h : chunk ≠ []) :
    offered (onTime chunk size) = .ok chunk := by
  simp [offered, onTime, ReadResult.offer, h]

/-- A header section with a long last line ends behind that line. -/
theorem position_padded {start : List UInt8} (h : Clears blankLine start) (n : ℕ) :
    position blankLine (start ++ (List.replicate n 0x61 ++ blankLine)) =
      some (start.length + n) := by
  have hpad : (0x0d : UInt8) ∉ List.replicate n 0x61 := by
    intro hmem
    exact absurd (List.eq_of_mem_replicate hmem) (by decide)
  rw [position_append_left h, blankLine, position_append_left (clears_of_notMem hpad)]
  simp [position, Nat.add_comm]

/-- The status line of a long response. -/
def overlongStatus : List Char := "HTTP/1.1 200 OK".toList

/-- A header line that announces an empty body. -/
def lengthLine : List Char := "content-length: 0".toList

/-- Its headers, up to a value that goes on and on. -/
def overlongHeaders : List Char := lengthLine ++ ['\r', '\n', 'x', ':', ' ']

/-- The first bytes of a response whose head is longer than the driver admits. -/
def overlongStart : List UInt8 := codes (overlongStatus ++ '\r' :: '\n' :: overlongHeaders)

/-- A header section of 16383 bytes in sixteen reads, and what follows it. -/
def overlongFrom (rest : List Turn) : List Turn :=
  onTime (overlongStart ++ List.replicate 985 0x61)
      (by rw [List.length_append, List.length_replicate]; decide) ::
    (List.replicate 14 (onTime (List.replicate 1024 0x61) (Nat.le_of_eq List.length_replicate)) ++
      onTime (List.replicate 1023 0x61)
        (Nat.le_trans (Nat.le_of_eq List.length_replicate) (by decide)) :: rest)

/-- It ends with a blank line in a read of its own. -/
def overlongTurns : List Turn := overlongFrom [onTime blankLine (by decide)]

theorem lengthLine_facts : '\r' ∉ lengthLine ∧
    splitOnce ':' lengthLine = some ("content-length".toList, [' ', '0']) := by
  decide +kernel

/-- The lines of a header section whose last value is a run of one letter. -/
theorem splitCrLf_padded {line : List Char} (h : '\r' ∉ line) (n : ℕ) :
    splitCrLf (line ++ ['\r', '\n', 'x', ':', ' '] ++
        (List.replicate n 'a' ++ ['\r', '\n', '\r', '\n'])) =
      [line, 'x' :: ':' :: ' ' :: List.replicate n 'a', [], []] := by
  have hpad : '\r' ∉ 'x' :: ':' :: ' ' :: List.replicate n 'a' := by
    simp [List.mem_replicate]
  have htext : line ++ ['\r', '\n', 'x', ':', ' '] ++
        (List.replicate n 'a' ++ ['\r', '\n', '\r', '\n']) =
      line ++ '\r' :: '\n' ::
        (('x' :: ':' :: ' ' :: List.replicate n 'a') ++ '\r' :: '\n' :: ['\r', '\n']) := by
    simp only [List.append_assoc, List.cons_append, List.nil_append]
  rw [htext, splitCrLf_line h, splitCrLf_line hpad]
  rfl

theorem contentLengths_overlong (n : ℕ) :
    contentLengths (overlongHeaders ++ (List.replicate n 'a' ++ ['\r', '\n', '\r', '\n'])) =
      some [0] := by
  obtain ⟨hcr, hlength⟩ := lengthLine_facts
  have hpad : splitOnce ':' ('x' :: ':' :: ' ' :: List.replicate n 'a') =
      some (['x'], ' ' :: List.replicate n 'a') :=
    @splitOnce_append ':' ['x'] (by decide) _
  have hempty : splitOnce ':' [] = none := rfl
  have hother : ¬ eqIgnoreAsciiCase ['x'] "content-length".toList = true := by decide +kernel
  unfold contentLengths overlongHeaders
  rw [splitCrLf_padded hcr]
  simp only [List.filterMap_cons, hlength, hpad, hempty, List.filterMap_nil]
  rw [List.filter_cons_of_pos (by decide +kernel), List.filter_cons_of_neg (by exact hother)]
  decide +kernel

theorem stream_overlongFrom (rest : List Turn) :
    stream (overlongFrom rest) = overlongStart ++ (List.replicate 16344 0x61 ++ stream rest) := by
  have hpad : ∀ n : ℕ, 0 < n → List.replicate n (0x61 : UInt8) ≠ [] := by
    intro n hn
    simp only [ne_eq, List.replicate_eq_nil_iff]
    omega
  have hstart : overlongStart ++ List.replicate 985 0x61 ≠ [] :=
    List.append_ne_nil_of_right_ne_nil _ (hpad 985 (by decide))
  have hsum : List.replicate 16344 (0x61 : UInt8) = List.replicate 985 0x61 ++
      (List.replicate (14 * 1024) 0x61 ++ List.replicate 1023 0x61) := by
    rw [← List.replicate_add, ← List.replicate_add]
  unfold stream overlongFrom
  rw [List.map_cons, offered_onTime _ hstart, List.map_append, List.map_replicate,
    offered_onTime _ (hpad 1024 (by decide)), List.map_cons, offered_onTime _ (hpad 1023 (by decide)),
    Reader.received_ok, Reader.received_replicate, Reader.received_ok, hsum]
  simp only [List.append_assoc]

theorem stream_overlongTurns :
    stream overlongTurns = overlongStart ++ (List.replicate 16344 0x61 ++ blankLine) := by
  rw [overlongTurns, stream_overlongFrom, stream, List.map_cons, offered_onTime _ (by decide),
    List.map_nil, Reader.received_ok, Reader.received_nil, List.append_nil]

theorem length_overlongStart : overlongStart.length = 39 := by decide +kernel

/-- The long response, cut behind its status line. -/
theorem stream_overlongTurns_lines : stream overlongTurns = codes overlongStatus ++
    ([0x0d, 0x0a] ++ codes (overlongHeaders ++
      (List.replicate 16344 'a' ++ ['\r', '\n', '\r', '\n']))) := by
  have hpad : codes (List.replicate 16344 'a') = List.replicate 16344 0x61 := List.map_replicate
  have hstart : overlongStart = codes overlongStatus ++ ([0x0d, 0x0a] ++ codes overlongHeaders) :=
    codes_append _ _
  have hblank : codes ['\r', '\n', '\r', '\n'] = blankLine := rfl
  rw [stream_overlongTurns, codes_append, codes_append, hpad, hblank, hstart]
  simp only [List.append_assoc]

theorem overlongTurns_completes : CompletesOverlongHeader overlongTurns := by
  have hclears : Clears blankLine overlongStart := by
    unfold Clears
    decide +kernel
  have hposition : position blankLine (stream overlongTurns) = some 16383 := by
    rw [stream_overlongTurns, position_padded hclears, length_overlongStart]
  have hstatus : Clears [0x0d, 0x0a] (codes overlongStatus) := by
    unfold Clears
    decide +kernel
  have hcount : (codes overlongStatus).length = 15 := by decide +kernel
  have hline : position [0x0d, 0x0a] (stream overlongTurns) = some 15 := by
    rw [stream_overlongTurns_lines, position_append_left hstatus, hcount]
    rfl
  refine ⟨16, 16383, 200, 0, hposition, ?_, ?_, by decide, ?_, ?_⟩
  · refine ⟨15, overlongStatus, "HTTP/1.1".toList, "200".toList, hline, ?_, ?_, Or.inl rfl, ?_, ?_⟩
    · rw [stream_overlongTurns_lines, ← hcount, List.take_left]
      exact decodeUtf8_codes (forall_mem_of_all (by decide +kernel))
    all_goals decide +kernel
  · refine ⟨15, _, hline, ?_, contentLengths_overlong 16344⟩
    have htake : (stream overlongTurns).take (16383 + 4) = stream overlongTurns := by
      refine List.take_of_length_le (Nat.le_of_eq ?_)
      rw [stream_overlongTurns, List.length_append, List.length_append, length_overlongStart,
        List.length_replicate, length_blankLine]
    rw [htake, stream_overlongTurns_lines, ← hcount, ← List.drop_drop, List.drop_left]
    refine decodeUtf8_codes ?_
    have hheaders : ∀ c ∈ overlongHeaders, c.toNat < 128 := forall_mem_of_all (by decide +kernel)
    have hblank : ∀ c ∈ ['\r', '\n', '\r', '\n'], c.toNat < 128 := forall_mem_of_all (by decide)
    intro c hc
    rcases List.mem_append.1 hc with hc | hc
    · exact hheaders c hc
    rcases List.mem_append.1 hc with hc | hc
    · rw [List.eq_of_mem_replicate hc]
      decide
    · exact hblank c hc
  · have hbefore : overlongTurns.take 16 = overlongFrom [] := rfl
    rw [hbefore, stream_overlongFrom, List.length_append, List.length_append, length_overlongStart,
      List.length_replicate]
    decide
  · have hall : overlongTurns.take (16 + 1) = overlongTurns := rfl
    rw [hall, stream_overlongTurns, List.length_append, List.length_append, length_overlongStart,
      List.length_replicate]
    decide

/-- A server makes the subtraction overflow: sixteen reads that leave one byte of room, and the
blank line in the next. -/
theorem response_overlongTurns : response overlongTurns = .error .subtractOverflow :=
  (response_overflow_iff _).2 overlongTurns_completes

end Ntfy

end MsgRiver.Connector
