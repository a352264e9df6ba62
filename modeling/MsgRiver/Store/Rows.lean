import MsgRiver.Store.Status
import MsgRiver.Store.Upgrades

/-!
# The queue and its rows

A message as a row of `m3_messages`, and as a row of `m2_messages` before v4.  A table of
`m3_messages` whose rows are messages is a queue of the store (`exists_queue`).
-/

namespace MsgRiver.Store

open Sql

/-- A text column that may be null. -/
def textOrNull (s : Option String) : Value := s.elim .null .text

/-- A time column that may be null. -/
def timeOrNull (t : Option Int64) : Value := t.elim .null fun t => .integer t.toInt

/-- A message as a row of `m2_messages`. -/
def Message.legacyRow (m : Message) : Row :=
  [.text m.messageId, .text m.idempotencyKey, .text m.topic, textOrNull m.title, .text m.body,
    .text m.state.text, .integer m.attempts, timeOrNull m.nextAttemptAtUnixMs,
    textOrNull m.providerAck, textOrNull m.lastError, .integer m.createdAtUnixMs.toInt,
    .integer m.updatedAtUnixMs.toInt]

/-- A message as a row of `m3_messages`. -/
def Message.row (m : Message) : Row :=
  m.legacyRow ++ [.text m.driver] ++ [.text m.destination] ++ [.text m.payload]

/-- The message of a row of `m2_messages` after v4. -/
def Message.upgraded (m : Message) : Message :=
  { m with driver := "ntfy", destination := m.topic, payload := "" }

theorem upgradeRow_legacyRow (m : Message) : upgradeRow m.legacyRow = m.upgraded.row := by
  have htopic : field m2Columns "topic" m.legacyRow = .text m.topic := by
    simp [field, m2Columns, Message.legacyRow]
  rw [upgradeRow, htopic]
  rfl

/-- The columns of a message. -/
theorem field_row (m : Message) :
    field m3Columns "message_id" m.row = .text m.messageId ∧
    field m3Columns "idempotency_key" m.row = .text m.idempotencyKey ∧
    field m3Columns "topic" m.row = .text m.topic ∧
    field m3Columns "body" m.row = .text m.body ∧
    field m3Columns "state" m.row = .text m.state.text ∧
    field m3Columns "attempts" m.row = .integer m.attempts ∧
    field m3Columns "next_attempt_at_unix_ms" m.row = timeOrNull m.nextAttemptAtUnixMs ∧
    field m3Columns "provider_ack" m.row = textOrNull m.providerAck ∧
    field m3Columns "last_error" m.row = textOrNull m.lastError ∧
    field m3Columns "driver" m.row = .text m.driver := by
  simp [field, m3Columns, m2Columns, Message.row, Message.legacyRow]

/-! ### Constraints -/

section Constraints

variable {columns : List String} {row : Row} {column : String}

theorem passes_lengthIs {s : String} (h : field columns column row = .text s) (n : ℤ) :
    (lengthIs column n).passes columns row = true ↔ (sqlLength s : ℤ) = n := by
  simp only [Expr.passes, lengthIs, Expr.eval, h, show (Value.text s).length =
    .integer (sqlLength s) from rfl]
  simp [Value.compare, Value.ofBool]

theorem passes_lengthBetween {s : String} (h : field columns column row = .text s) (low high : ℤ) :
    (lengthBetween column low high).passes columns row = true ↔
      low ≤ sqlLength s ∧ (sqlLength s : ℤ) ≤ high := by
  simp only [Expr.passes, lengthBetween, Expr.eval, h, show (Value.text s).length =
    .integer (sqlLength s) from rfl]
  by_cases hlow : low ≤ sqlLength s <;> by_cases hhigh : (sqlLength s : ℤ) ≤ high <;>
    simp [Value.compare, Value.ofBool, Value.le, Value.both, hlow, hhigh]

theorem passes_between {n : ℤ} (h : field columns column row = .integer n) (low high : ℤ) :
    (Expr.between (.column column) (.literal (.integer low)) (.literal (.integer high))).passes
      columns row = true ↔ low ≤ n ∧ n ≤ high := by
  simp only [Expr.passes, Expr.eval, h]
  by_cases hlow : low ≤ n <;> by_cases hhigh : n ≤ high <;>
    simp [Value.compare, Value.ofBool, Value.le, Value.both, hlow, hhigh]

theorem eval_textIn {s : String} (h : field columns column row = .text s) (values : List String) :
    (textIn column values).eval columns row = .ofBool (decide (s ∈ values)) := by
  simp only [textIn, Expr.eval, h, Value.compare, List.mem_map, Value.text.injEq, exists_eq_right]

theorem eval_notNull (columns : List String) (row : Row) (column : String) :
    (notNull column).eval columns row = .ofBool (decide (field columns column row ≠ .null)) := rfl

theorem passes_equal {a b : Expr} {x y : Bool} (ha : a.eval columns row = .ofBool x)
    (hb : b.eval columns row = .ofBool y) :
    (Expr.equal a b).passes columns row = true ↔ x = y := by
  simp only [Expr.passes, Expr.eval, ha, hb]
  cases x <;> cases y <;> simp [Value.compare, Value.ofBool]

end Constraints

theorem textOrNull_ne_null (s : Option String) : decide (textOrNull s ≠ .null) = s.isSome := by
  cases s <;> simp [textOrNull]

theorem timeOrNull_ne_null (t : Option Int64) : decide (timeOrNull t ≠ .null) = t.isSome := by
  cases t <;> simp [timeOrNull]

/-- The constraints of `m3_messages` are those of a message. -/
theorem check_of_admitsRow {m : Message} (h : m3Shape.AdmitsRow m.row) : m.check = true := by
  obtain ⟨hid, hkey, htopic, hbody, hstate, hattempts, hnext, hack, herror, hdriver⟩ := field_row m
  have hpass : ∀ e ∈ m3Shape.checks, e.passes m3Columns m.row = true := h.2
  refine (Message.check_iff m).2 ⟨?_, ?_, ?_, ?_, ?_, ?_, ?_, ?_, ?_⟩
  · have := (passes_lengthIs hid 64).1 (hpass _ (by decide +kernel))
    omega
  · have := (passes_lengthBetween hkey 1 128).1 (hpass _ (by decide +kernel))
    omega
  · have := (passes_lengthBetween htopic 1 64).1 (hpass _ (by decide +kernel))
    omega
  · have := (passes_lengthBetween hbody 1 4096).1 (hpass _ (by decide +kernel))
    omega
  · exact (passes_between hattempts 0 5).1 (hpass _ (by decide +kernel))
  · have := (passes_equal (eval_textIn hstate ["queued", "retry_scheduled"])
      (eval_notNull m3Columns m.row "next_attempt_at_unix_ms")).1 (hpass _ (by decide +kernel))
    rw [hnext, timeOrNull_ne_null] at this
    rw [← this]
    cases m.state <;> decide
  · have hequal : (Expr.equal (.column "state") (.literal (.text "provider_accepted"))).eval
        m3Columns m.row = .ofBool (decide (m.state.text = "provider_accepted")) := by
      simp [Expr.eval, hstate, Value.compare]
    have := (passes_equal hequal (eval_notNull m3Columns m.row "provider_ack")).1
      (hpass _ (by decide +kernel))
    rw [hack, textOrNull_ne_null] at this
    rw [← this]
    cases m.state <;> decide
  · have := (passes_equal (eval_textIn hstate ["ambiguous", "failed"])
      (eval_notNull m3Columns m.row "last_error")).1 (hpass _ (by decide +kernel))
    rw [herror, textOrNull_ne_null] at this
    rw [← this]
    cases m.state <;> decide
  · have := hpass (textIn "driver" ["ntfy", "whatsapp"]) (by decide +kernel)
    rw [Expr.passes, eval_textIn hdriver] at this
    simpa [Value.ofBool] using this

/-- A key column of messages without a duplicate. -/
theorem nodup_of_field {ms : List Message} {column : String} {key : Message → String}
    (hfield : ∀ m : Message, field m3Columns column m.row = .text (key m))
    (h : (((ms.map Message.row).map (field m3Columns column)).filter (· ≠ .null)).Nodup) :
    (ms.map key).Nodup := by
  have hmap : ((ms.map Message.row).map (field m3Columns column)).filter (· ≠ .null) =
      (ms.map key).map .text := by
    rw [List.map_map, List.map_map, List.filter_eq_self.2]
    · exact List.map_congr_left fun m _ => hfield m
    · intro v hv
      obtain ⟨m, -, rfl⟩ := List.mem_map.1 hv
      simp [hfield m]
  rw [hmap] at h
  exact h.of_map _

/-- **A table of messages is a queue of the store.** -/
theorem exists_queue {t : Table} {ms : List Message} (hshape : t.shape = m3Shape)
    (hrows : t.rows = ms.map Message.row) :
    ∃ messages : RelTable.Table messageSchema, messages.rows = ms := by
  have hadmitted := t.admitted
  rw [hshape, hrows] at hadmitted
  refine ⟨⟨ms, fun m hm => check_of_admitsRow (hadmitted.1 _ (List.mem_map_of_mem hm)), ?_⟩, rfl⟩
  intro k hk
  simp only [messageSchema, List.mem_cons, List.not_mem_nil, or_false] at hk
  rcases hk with rfl | rfl
  · exact nodup_of_field (fun m => (field_row m).1) (hadmitted.2 "message_id" (by decide))
  · exact nodup_of_field (fun m => (field_row m).2.1) (hadmitted.2 "idempotency_key" (by decide))

end MsgRiver.Store
