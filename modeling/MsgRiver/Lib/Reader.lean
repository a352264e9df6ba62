import Mathlib.Data.List.Basic

/-!
# Incremental readers

A reader keeps a buffer.  It judges the buffer; while the verdict is open it asks for another read.
A read brings a chunk, which the reader may refuse, or ends the reading with a verdict of its own.

* `Reader.run`: the verdict; `Reader.buffers`: the buffer at the start and after each read;
* `Reader.Open`: the answer is not decided by the reads so far, so that another one is made;
* `Reader.length_le_of_mem_buffers`, `Reader.length_le_of_open`: a reader that decides every buffer
  past a limit overshoots it by one chunk at most;
* `Reader.judged_of_run` and `Reader.run_of_judged`: a verdict on the buffer is the verdict on the
  first buffer that has one;
* `Reader.run_of_whole`: when no part of a stream has another verdict, the chunks do not matter;
* `Reader.run_of_cut`: the same of a stream that ends, where the end may bring the verdict.
-/

/-- What a reader decides: from its buffer, and from a buffer and the chunk it is offered. -/
structure Reader (β ρ : Type*) where
  judge : List β → Option ρ
  refuse : List β → List β → Option ρ

namespace Reader

variable {β ρ : Type*} (R : Reader β ρ) (late : ρ)

/-- The verdict on a list of reads; `late` is the verdict when no read is left. -/
def run (buffer : List β) : List (Except ρ (List β)) → ρ
  | [] => (R.judge buffer).getD late
  | read :: reads =>
    match R.judge buffer with
    | some verdict => verdict
    | none =>
      match read with
      | .error verdict => verdict
      | .ok chunk =>
        match R.refuse buffer chunk with
        | some verdict => verdict
        | none => run (buffer ++ chunk) reads

/-- The buffers of the same run: each read that is neither an end nor refused adds one. -/
def buffers (buffer : List β) : List (Except ρ (List β)) → List (List β)
  | [] => [buffer]
  | read :: reads =>
    buffer ::
      match R.judge buffer with
      | some _ => []
      | none =>
        match read with
        | .error _ => []
        | .ok chunk =>
          match R.refuse buffer chunk with
          | some _ => []
          | none => buffers (buffer ++ chunk) reads

/-- The first `n` reads do not decide what the reader answers. -/
def Open {α : Type*} (reader : List α → ρ) (reads : List α) (n : ℕ) : Prop :=
  ∃ later, reader (reads.take n ++ later) ≠ reader reads

/-- The stream that the reads bring. -/
def received : List (Except ρ (List β)) → List β
  | .ok chunk :: reads => chunk ++ received reads
  | _ => []

@[simp] theorem received_nil : received ([] : List (Except ρ (List β))) = [] := rfl

@[simp] theorem received_error (verdict : ρ) (reads : List (Except ρ (List β))) :
    received (.error verdict :: reads) = [] := rfl

@[simp] theorem received_ok (chunk : List β) (reads : List (Except ρ (List β))) :
    received (.ok chunk :: reads) = chunk ++ received reads := rfl

theorem received_replicate {k m : ℕ} (a : β) (reads : List (Except ρ (List β))) :
    received (List.replicate k (.ok (List.replicate m a)) ++ reads) =
      List.replicate (k * m) a ++ received reads := by
  induction k with
  | zero => simp
  | succ k ih =>
    rw [List.replicate_succ, List.cons_append, received_ok, ih, ← List.append_assoc,
      ← List.replicate_add, Nat.succ_mul, Nat.add_comm]

/-- What more reads bring is appended. -/
theorem received_take_prefix (reads : List (Except ρ (List β))) {k n : ℕ} (h : k ≤ n) :
    received (reads.take k) <+: received (reads.take n) := by
  induction reads generalizing k n with
  | nil => simp
  | cons read reads ih =>
    cases k with
    | zero => exact List.nil_prefix
    | succ k =>
      obtain ⟨n, rfl⟩ : ∃ m, n = m + 1 := ⟨n - 1, by omega⟩
      cases read with
      | error verdict => exact List.prefix_rfl
      | ok chunk => exact (List.prefix_append_right_inj _).2 (ih (by omega))

variable {R late}

theorem run_of_judge {buffer : List β} {verdict : ρ} (h : R.judge buffer = some verdict)
    (reads : List (Except ρ (List β))) : R.run late buffer reads = verdict := by
  cases reads <;> simp [run, h]

theorem run_ok {buffer chunk : List β} (hjudge : R.judge buffer = none)
    (hrefuse : R.refuse buffer chunk = none) (reads : List (Except ρ (List β))) :
    R.run late buffer (.ok chunk :: reads) = R.run late (buffer ++ chunk) reads := by
  simp [run, hjudge, hrefuse]

/-- A reader that decides every buffer past `limit` holds at most one chunk more. -/
theorem length_le_of_mem_buffers {limit size : ℕ}
    (hjudge : ∀ buffer, R.judge buffer = none → buffer.length ≤ limit)
    {reads : List (Except ρ (List β))} (hsize : ∀ chunk, .ok chunk ∈ reads → chunk.length ≤ size)
    {start buffer : List β} (hstart : start.length ≤ limit + size)
    (h : buffer ∈ R.buffers start reads) : buffer.length ≤ limit + size := by
  induction reads generalizing start with
  | nil =>
    obtain rfl := List.mem_singleton.1 h
    exact hstart
  | cons read reads ih =>
    rcases List.mem_cons.1 h with rfl | hlater
    · exact hstart
    cases hopen : R.judge start with
    | some verdict => simp [hopen] at hlater
    | none =>
      cases read with
      | error verdict => simp [hopen] at hlater
      | ok chunk =>
        cases hrefuse : R.refuse start chunk with
        | some verdict => simp [hopen, hrefuse] at hlater
        | none =>
          simp only [hopen, hrefuse] at hlater
          refine ih (fun c hc => hsize c (List.mem_cons_of_mem _ hc)) ?_ hlater
          have := hjudge start hopen
          have := hsize chunk List.mem_cons_self
          rw [List.length_append]
          omega

/-- A buffer with a verdict. -/
theorem run_of_judge_ne_none {buffer : List β} (h : R.judge buffer ≠ none)
    (reads reads' : List (Except ρ (List β))) :
    R.run late buffer reads = R.run late buffer reads' := by
  obtain ⟨verdict, hverdict⟩ := Option.ne_none_iff_exists'.1 h
  rw [run_of_judge hverdict, run_of_judge hverdict]

/-- When the buffer has a verdict the later reads do not matter. -/
theorem run_take_append {buffer : List β} {reads : List (Except ρ (List β))} {n : ℕ}
    (h : R.judge (buffer ++ received (reads.take n)) ≠ none) (later : List (Except ρ (List β))) :
    R.run late buffer (reads.take n ++ later) = R.run late buffer reads := by
  induction reads generalizing buffer n with
  | nil =>
    rw [List.take_nil, received_nil, List.append_nil] at h
    exact run_of_judge_ne_none h _ _
  | cons read reads ih =>
    cases n with
    | zero =>
      rw [List.take_zero, received_nil, List.append_nil] at h
      exact run_of_judge_ne_none h _ _
    | succ n =>
      by_cases hopen : R.judge buffer = none
      swap
      · exact run_of_judge_ne_none hopen _ _
      rw [List.take_succ_cons, List.cons_append]
      cases read with
      | error verdict => simp only [run, hopen]
      | ok chunk =>
        cases hrefuse : R.refuse buffer chunk with
        | some verdict => simp only [run, hopen, hrefuse]
        | none =>
          rw [run_ok hopen hrefuse, run_ok hopen hrefuse]
          rw [List.take_succ_cons, received_ok, ← List.append_assoc] at h
          exact ih h

theorem length_received_take_succ {size : ℕ} {reads : List (Except ρ (List β))}
    (hsize : ∀ chunk, .ok chunk ∈ reads → chunk.length ≤ size) (n : ℕ) :
    (received (reads.take (n + 1))).length ≤ (received (reads.take n)).length + size := by
  induction reads generalizing n with
  | nil => simp
  | cons read reads ih =>
    cases read with
    | error verdict => simp
    | ok chunk =>
      have hchunk : chunk.length ≤ size := hsize chunk List.mem_cons_self
      cases n with
      | zero => simpa using hchunk
      | succ n =>
        have := ih (fun c hc => hsize c (List.mem_cons_of_mem _ hc)) n
        simp only [List.take_succ_cons, received_ok, List.length_append]
        omega

/-- The next read takes the buffer past the limit by one chunk at most. -/
theorem length_le_of_open {limit size : ℕ}
    (hjudge : ∀ buffer, R.judge buffer = none → buffer.length ≤ limit)
    {reads : List (Except ρ (List β))} (hsize : ∀ chunk, .ok chunk ∈ reads → chunk.length ≤ size)
    {n : ℕ} (hopen : Open (R.run late []) reads n) :
    (received (reads.take (n + 1))).length ≤ limit + size := by
  obtain ⟨later, hlater⟩ := hopen
  have hnone : R.judge (received (reads.take n)) = none := by
    by_contra hjudged
    exact hlater (run_take_append hjudged later)
  have hlimit := hjudge _ hnone
  have hnext := length_received_take_succ hsize n
  omega

/-- A verdict that no read and no refusal gives is that on a buffer, and one read earlier the buffer
was undecided. -/
theorem judged_of_run {verdict : ρ} {reads : List (Except ρ (List β))} (hlate : late ≠ verdict)
    (hstop : Except.error verdict ∉ reads) (hrefuse : ∀ b c, R.refuse b c ≠ some verdict)
    {buffer : List β} (hopen : R.judge buffer = none) (h : R.run late buffer reads = verdict) :
    ∃ n, R.judge (buffer ++ received (reads.take n)) = none ∧
      R.judge (buffer ++ received (reads.take (n + 1))) = some verdict := by
  induction reads generalizing buffer with
  | nil =>
    simp only [run, hopen, Option.getD_none] at h
    exact absurd h hlate
  | cons read reads ih =>
    simp only [run, hopen] at h
    cases read with
    | error v =>
      obtain rfl : v = verdict := h
      exact absurd List.mem_cons_self hstop
    | ok chunk =>
      simp only at h
      cases hrefused : R.refuse buffer chunk with
      | some v =>
        rw [hrefused] at h
        obtain rfl : v = verdict := h
        exact absurd hrefused (hrefuse _ _)
      | none =>
        rw [hrefused] at h
        cases hnext : R.judge (buffer ++ chunk) with
        | some v =>
          have hv : v = verdict := (run_of_judge hnext reads).symm.trans h
          exact ⟨0, by simpa using hopen, by simpa [hv] using hnext⟩
        | none =>
          obtain ⟨n, hbefore, hafter⟩ :=
            ih (fun hmem => hstop (List.mem_cons_of_mem _ hmem)) hnext h
          rw [List.append_assoc] at hbefore hafter
          exact ⟨n + 1, hbefore, hafter⟩

/-- The first verdict on a buffer is that of the run. -/
theorem run_of_judged {verdict : ρ} {n : ℕ} {reads : List (Except ρ (List β))} {buffer : List β}
    (hopen : ∀ k ≤ n, R.judge (buffer ++ received (reads.take k)) = none)
    (hrefuse : ∀ k ≤ n, ∀ chunk, R.refuse (buffer ++ received (reads.take k)) chunk = none)
    (h : R.judge (buffer ++ received (reads.take (n + 1))) = some verdict) :
    R.run late buffer reads = verdict := by
  have hfirst : R.judge buffer = none := by simpa using hopen 0 (Nat.zero_le n)
  -- each turn shifts one read from the stream to the buffer
  induction n generalizing reads buffer with
  | zero =>
    cases reads with
    | nil => simp [hfirst] at h
    | cons read reads =>
      cases read with
      | error v => simp [hfirst] at h
      | ok chunk =>
        rw [run_ok hfirst (by simpa using hrefuse 0 (Nat.le_refl 0) chunk)]
        exact run_of_judge (by simpa using h) reads
  | succ n ih =>
    cases reads with
    | nil => simp [hfirst] at h
    | cons read reads =>
      cases read with
      | error v => simp [hfirst] at h
      | ok chunk =>
        have hshift : ∀ k, buffer ++ received ((.ok chunk :: reads).take (k + 1)) =
            (buffer ++ chunk) ++ received (reads.take k) := by
          intro k
          rw [List.take_succ_cons, received_ok, List.append_assoc]
        rw [run_ok hfirst (by simpa using hrefuse 0 (Nat.zero_le _) chunk)]
        refine ih (fun k hk => ?_) (fun k hk c => ?_) ?_ ?_
        · rw [← hshift]
          exact hopen (k + 1) (by omega)
        · rw [← hshift]
          exact hrefuse (k + 1) (by omega) c
        · rw [← hshift]
          exact h
        · simpa using hopen 1 (by omega)

/-- A stream none of whose parts has another verdict is judged as a whole, whatever chunks carry
it. -/
theorem run_of_whole {stream : List β} {verdict : ρ} (h : R.judge stream = some verdict)
    (hparts : ∀ part, part <+: stream → ∀ v, R.judge part = some v → v = verdict)
    (hrefuse : ∀ part chunk, part ++ chunk <+: stream → R.refuse part chunk = none)
    {buffer : List β} {reads : List (Except ρ (List β))}
    (hreads : buffer ++ received reads = stream) : R.run late buffer reads = verdict := by
  induction reads generalizing buffer with
  | nil =>
    obtain rfl : buffer = stream := by simpa using hreads
    exact run_of_judge h _
  | cons read reads ih =>
    cases hbuffer : R.judge buffer with
    | some v =>
      rw [run_of_judge hbuffer]
      exact hparts buffer (hreads ▸ List.prefix_append _ _) v hbuffer
    | none =>
      cases read with
      | error v =>
        -- an undecided buffer is not yet the stream
        obtain rfl : buffer = stream := by simpa using hreads
        rw [hbuffer] at h
        cases h
      | ok chunk =>
        rw [received_ok, ← List.append_assoc] at hreads
        rw [run_ok hbuffer (hrefuse buffer chunk (hreads ▸ List.prefix_append _ _))]
        exact ih hreads

/-- The reads bring the stream in chunks, and then its end.  What comes after the end is not read.
-/
inductive Cut (ended : ρ) : List β → List (Except ρ (List β)) → Prop
  | ended (later : List (Except ρ (List β))) : Cut ended [] (.error ended :: later)
  | chunk (chunk : List β) {stream : List β} {reads : List (Except ρ (List β))} :
      Cut ended stream reads → Cut ended (chunk ++ stream) (.ok chunk :: reads)

/-- A stream none of whose parts has another verdict than the end brings, or than the stream itself,
has one verdict in every cutting. -/
theorem run_of_cut {ended verdict : ρ} {stream : List β} {reads : List (Except ρ (List β))}
    (hcut : Cut ended stream reads) {buffer : List β}
    (hparts : ∀ part, part <+: buffer ++ stream → ∀ v, R.judge part = some v → v = verdict)
    (hrefuse : ∀ part chunk, R.refuse part chunk = none)
    (hend : R.judge (buffer ++ stream) = none → ended = verdict) :
    R.run late buffer reads = verdict := by
  induction hcut generalizing buffer with
  | ended later =>
    rw [List.append_nil] at hparts hend
    cases hbuffer : R.judge buffer with
    | some v =>
      rw [run_of_judge hbuffer]
      exact hparts buffer List.prefix_rfl v hbuffer
    | none => simpa [run, hbuffer] using hend hbuffer
  | chunk chunk hcut ih =>
    cases hbuffer : R.judge buffer with
    | some v =>
      rw [run_of_judge hbuffer]
      exact hparts buffer (List.prefix_append _ _) v hbuffer
    | none =>
      rw [run_ok hbuffer (hrefuse buffer chunk)]
      rw [← List.append_assoc] at hparts hend
      exact ih hparts hend

end Reader
