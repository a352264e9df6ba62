import MsgRiver.Lib.Sql

/-!
# The migration catalog

The statements of the migrations v1 to v5, in the order of their scripts, and the pinned checksums
of the scripts.  Of the selected-state tables of v2 only the names, the columns, the indexes and the
triggers are kept: no migration writes a row of them, so their constraints and the bodies of the
triggers play no part.  The text of a table is kept for the ledger, where it is compared.
-/

namespace MsgRiver.Store

open Sql

/-- The tables, indexes and triggers of v2. -/
inductive SelectedState
  | principals | principalsIdImmutable | principalProviderGrants | peerMappings
  | peerMappingsPrincipalIdx | peerMappingsIdImmutable
  | peerMappingsPreserveLastLocalOperatorOnDelete | peerMappingsPreserveLastLocalOperatorOnUpdate
  | principalsPreserveLastLocalOperatorOnUpdate | apiKeys | apiKeysPrincipalStatusIdx
  | configurationGenerations | configurationGenerationsOneSelectedIdx | connectorIdentities
  | connectorIdentitiesImmutable | providers | providersIdImmutable | messages
  | messagesEligibleIdx | messagesOwnerIdx | messagesRetentionIdx
  | messagesEffectMayHaveOccurredMonotonic | messagesDuplicateEffectPossibleMonotonic
  | idempotencyRecords | idempotencyRecordsActiveLookupIdx | idempotencyRecordsExpiryIdx | attempts
  | attemptsMessageOrdinalIdx | attemptsMessageFenceIdx | replayRequests | replayRequestsLookupIdx
  | providerRuntime | schedulerPrincipalCursor | operationCommands | historyEpochs
  | historyEpochsImmutable | restoreComparisonBatches | restoreComparisonOneBoundaryPerEpochIdx
  | restoreComparisonBatchesImmutable | restoreComparisonBatchesCompactionPrefixOnly
  | restoreComparisonBatchesContiguousBeforeInsert | restoreComparisonBatchesBoundaryBeforeInsert
  | restoreComparisonEvents | restoreComparisonEventsMessageIdx | restoreComparisonEventsCommandIdx
  | restoreComparisonEventsImmutable | restoreComparisonEventsCompactionPrefixOnly
  | restoreComparisonEventsContiguousBeforeInsert | purgeTombstones
  | purgeTombstonesRequiresPayloadPurgedEvent | purgeTombstonesImmutable | purgeTombstonesRetained
  | auditEvents | auditEventsTimeIdx | auditEventsMessageIdx | backupJobs | backupJobsOneRunningIdx
  | backupHistory | upgradeState | «meta» | metaComparisonHeadRequiresCompleteBatch
  | metaComparisonHeadAdvancesOneCompleteBatch | messagesInsertRequiresAcceptedComparisonEvent
  | messagesTerminalStateRequiresComparisonEvent | messagesAmbiguityRequiresComparisonEvent
  | messagesEffectRequiresDispatchComparisonEvent | metaMacSerialHighWater
  deriving DecidableEq

/-- The names of tables, indexes and triggers: those of the catalog, and any other. -/
inductive Name
  | schemaMigrations
  | selectedState (object : SelectedState)
  | m2Messages
  | m2MessagesDueIdx
  | m3Messages
  | m3MessagesDriverDueIdx
  | m4InboundControl
  | m4InboundReceipts
  | m4NotifyRateEvents
  | m4NotifyRateEventsSenderTimeIdx
  | other (name : String)
  deriving DecidableEq

instance : Coe SelectedState Name := ⟨Name.selectedState⟩

/-! ### Constraints -/

/-- `column NOT NULL`. -/
def notNull (column : String) : Expr := .isNotNull (.column column)

/-- `CHECK(column IN (…))` for texts. -/
def textIn (column : String) (values : List String) : Expr :=
  .isIn (.column column) (values.map .text)

/-- `CHECK(length(column) BETWEEN low AND high)`. -/
def lengthBetween (column : String) (low high : ℤ) : Expr :=
  .between (.length (.column column)) (.literal (.integer low)) (.literal (.integer high))

/-- `CHECK(length(column) = n)`. -/
def lengthIs (column : String) (n : ℤ) : Expr :=
  .equal (.length (.column column)) (.literal (.integer n))

/-! ### v1 -/

/-- `MIGRATION_V1_SQL` without its end `;\n`. -/
def ledgerSql : String :=
  "CREATE TABLE schema_migrations (\n" ++
  "    version INTEGER PRIMARY KEY CHECK (version > 0),\n" ++
  "    checksum BLOB NOT NULL CHECK (length(checksum) = 32),\n" ++
  "    applied_binary BLOB NOT NULL CHECK (length(applied_binary) > 0),\n" ++
  "    applied_at_unix_ms INTEGER NOT NULL\n" ++
  ")"

/-- The columns of the migration ledger. -/
def ledgerColumns : List String := ["version", "checksum", "applied_binary", "applied_at_unix_ms"]

/-- `schema_migrations`. -/
def ledgerShape : Shape where
  sql := some ledgerSql
  columns := ledgerColumns
  checks := [
    .isInteger (.column "version"),
    .less (.literal (.integer 0)) (.column "version"),
    notNull "checksum", lengthIs "checksum" 32,
    notNull "applied_binary",
    .less (.literal (.integer 0)) (.length (.column "applied_binary")),
    notNull "applied_at_unix_ms"]
  unique := ["version"]

/-- The first migration: the ledger itself. -/
def migrationV1Sql : List (Statement Name) := [.createTable .schemaMigrations ledgerShape]

/-! ### v2 -/

/-- A table of v2, as far as it is modelled. -/
def selectedTable (name : SelectedState) (columns : List String) : Statement Name :=
  .createTable name ⟨none, columns, [], []⟩

/-- The second migration: the tables of the selected state. -/
def migrationV2Sql : List (Statement Name) :=
  [selectedTable .principals ["principal_id", "display_name", "enabled", "scope_mask",
     "max_outstanding_messages", "max_outstanding_payload_bytes", "accepted_rate_capacity",
     "accepted_rate_refill_per_second", "resource_incarnation", "principal_generation_hi",
     "principal_generation_lo", "principal_receipt_incarnation", "principal_receipt_prior_hi",
     "principal_receipt_prior_lo", "principal_receipt_result_hi", "principal_receipt_result_lo",
     "principal_receipt_actor_namespace", "principal_receipt_operation",
     "principal_receipt_desired_state", "principal_receipt_reason", "principal_receipt_result_ref",
     "grant_generation_hi", "grant_generation_lo", "grant_receipt_incarnation",
     "grant_receipt_prior_hi", "grant_receipt_prior_lo", "grant_receipt_result_hi",
     "grant_receipt_result_lo", "grant_receipt_actor_namespace", "grant_receipt_operation",
     "grant_receipt_desired_state", "grant_receipt_reason", "grant_receipt_result_ref"],
   .createTrigger SelectedState.principalsIdImmutable SelectedState.principals,
   selectedTable .principalProviderGrants ["principal_id", "provider_id"],
   selectedTable .peerMappings ["mapping_id", "uid", "principal_id", "scope_mask", "enabled",
     "status", "mapping_generation_hi", "mapping_generation_lo"],
   .createIndex SelectedState.peerMappingsPrincipalIdx SelectedState.peerMappings ["principal_id",
     "enabled", "uid"],
   .createTrigger SelectedState.peerMappingsIdImmutable SelectedState.peerMappings,
   .createTrigger SelectedState.peerMappingsPreserveLastLocalOperatorOnDelete
     SelectedState.peerMappings,
   .createTrigger SelectedState.peerMappingsPreserveLastLocalOperatorOnUpdate
     SelectedState.peerMappings,
   .createTrigger SelectedState.principalsPreserveLastLocalOperatorOnUpdate
     SelectedState.principals,
   selectedTable .apiKeys ["key_id", "principal_id", "scope_mask", "status", "created_at_unix_ms",
     "status_changed_at_unix_ms", "expires_at_unix_ms", "verify_purpose", "verify_origin",
     "verify_serial_hi", "verify_serial_lo", "verifier"],
   .createIndex SelectedState.apiKeysPrincipalStatusIdx SelectedState.apiKeys ["principal_id",
     "status", "expires_at_unix_ms"],
   selectedTable .configurationGenerations ["configuration_generation", "status",
     "canonical_nonsecret_bytes", "canonical_nonsecret_digest", "compatibility_report",
     "compatibility_report_digest", "reference_catalog_generation", "reference_catalog_digest",
     "activated_at_unix_ms", "actor_namespace", "command_result_ref"],
   .createIndex SelectedState.configurationGenerationsOneSelectedIdx
     SelectedState.configurationGenerations ["status"],
   selectedTable .connectorIdentities ["connector_identity_id", "configuration_generation",
     "driver_id", "endpoint_snapshot", "endpoint_snapshot_digest", "policy_snapshot",
     "policy_snapshot_digest", "credential_reference_name"],
   .createTrigger SelectedState.connectorIdentitiesImmutable SelectedState.connectorIdentities,
   selectedTable .providers ["provider_id", "display_name", "enabled", "connector_identity_id",
     "configuration_generation"],
   .createTrigger SelectedState.providersIdImmutable SelectedState.providers,
   selectedTable .messages ["message_id", "owner_principal_id", "provider_id",
     "connector_identity_id", "configuration_generation", "destination_schema_id",
     "destination_kind", "destination_schema_version", "destination_payload", "content_schema_id",
     "content_kind", "content_schema_version", "content_payload", "options_schema_id",
     "options_kind", "options_schema_version", "options_payload", "state", "hold_reason",
     "outcome_class", "created_at_unix_ms", "updated_at_unix_ms", "expires_at_unix_ms",
     "terminal_at_unix_ms", "created_sequence", "attempt_count", "next_attempt_at_unix_ms",
     "lease_generation_hi", "lease_generation_lo", "fence_token", "lease_expires_at_unix_ms",
     "cancel_requested", "effect_may_have_occurred", "duplicate_effect_possible",
     "known_provider_ack_attempt_id", "deferred_outcome_class", "deferred_relative_delay_ms",
     "replay_of", "replay_children_count", "payload_available", "payload_purged_at_unix_ms",
     "byte_charge"],
   .createIndex SelectedState.messagesEligibleIdx SelectedState.messages ["state",
     "next_attempt_at_unix_ms", "provider_id", "owner_principal_id", "created_sequence"],
   .createIndex SelectedState.messagesOwnerIdx SelectedState.messages ["owner_principal_id",
     "created_sequence", "message_id"],
   .createIndex SelectedState.messagesRetentionIdx SelectedState.messages ["terminal_at_unix_ms",
     "payload_purged_at_unix_ms"],
   .createTrigger SelectedState.messagesEffectMayHaveOccurredMonotonic SelectedState.messages,
   .createTrigger SelectedState.messagesDuplicateEffectPossibleMonotonic SelectedState.messages,
   selectedTable .idempotencyRecords ["principal_id", "lookup_purpose", "lookup_origin",
     "lookup_serial_hi", "lookup_serial_lo", "lookup_digest", "fingerprint_purpose",
     "fingerprint_origin", "fingerprint_serial_hi", "fingerprint_serial_lo", "fingerprint_tag",
     "canonicalizer_version", "destination_schema_id", "destination_kind",
     "destination_schema_version", "content_schema_id", "content_kind", "content_schema_version",
     "options_schema_id", "options_kind", "options_schema_version", "message_id",
     "expires_at_unix_ms"],
   .createIndex SelectedState.idempotencyRecordsActiveLookupIdx SelectedState.idempotencyRecords
     ["principal_id", "lookup_origin", "lookup_serial_hi", "lookup_serial_lo", "lookup_digest"],
   .createIndex SelectedState.idempotencyRecordsExpiryIdx SelectedState.idempotencyRecords
     ["expires_at_unix_ms"],
   selectedTable .attempts ["attempt_id", "message_id", "ordinal", "fence_generation_hi",
     "fence_generation_lo", "fence_token_digest", "phase", "prepared_at_unix_ms",
     "dispatch_marked_at_unix_ms", "finished_at_unix_ms", "configuration_generation",
     "credential_generation", "jitter_purpose", "jitter_origin", "jitter_serial_hi",
     "jitter_serial_lo", "jitter_derivation_version", "multiplier_milli", "relative_delay_ms",
     "outcome_class", "ambiguity_observed", "provider_ack_reference"],
   .createIndex SelectedState.attemptsMessageOrdinalIdx SelectedState.attempts ["message_id",
     "ordinal"],
   .createIndex SelectedState.attemptsMessageFenceIdx SelectedState.attempts ["message_id",
     "fence_generation_hi", "fence_generation_lo"],
   selectedTable .replayRequests ["actor_principal_id", "replay_purpose", "replay_origin",
     "replay_serial_hi", "replay_serial_lo", "replay_digest", "fingerprint_purpose",
     "fingerprint_origin", "fingerprint_serial_hi", "fingerprint_serial_lo", "fingerprint_tag",
     "canonicalizer_version", "source_message_id", "child_message_id"],
   .createIndex SelectedState.replayRequestsLookupIdx SelectedState.replayRequests
     ["actor_principal_id", "replay_origin", "replay_serial_hi", "replay_serial_lo",
     "replay_digest"],
   selectedTable .providerRuntime ["connector_identity_id", "circuit_state", "not_before_unix_ms",
     "failure_class", "consecutive_failures", "probe_generation_hi", "probe_generation_lo",
     "probe_fence_digest", "probe_expires_at_unix_ms"],
   selectedTable .schedulerPrincipalCursor ["provider_id", "last_principal_id"],
   selectedTable .operationCommands ["operation_id", "actor_namespace", "command_purpose",
     "command_origin", "command_serial_hi", "command_serial_lo", "command_digest",
     "semantic_purpose", "semantic_origin", "semantic_serial_hi", "semantic_serial_lo",
     "semantic_tag", "phase_purpose", "phase_origin", "phase_serial_hi", "phase_serial_lo",
     "phase_tag", "source_runtime_id", "source_process_id", "phase", "result_kind", "result_ref",
     "terminal_at_unix_ms", "command_expires_at_unix_ms", "portable_purpose", "portable_origin",
     "portable_serial_hi", "portable_serial_lo", "portable_digest"],
   selectedTable .historyEpochs ["history_epoch_id", "owner_namespace", "branch_serial_hi",
     "branch_serial_lo", "origin_transition", "parent_history_epoch_id", "parent_batch_sequence",
     "parent_batch_digest", "activation_certificate_digest"],
   .createTrigger SelectedState.historyEpochsImmutable SelectedState.historyEpochs,
   selectedTable .restoreComparisonBatches ["batch_sequence", "history_epoch_id",
     "source_transaction_sequence", "event_count", "previous_batch_digest",
     "canonical_batch_digest", "boundary_parent_history_epoch_id", "boundary_parent_batch_sequence",
     "boundary_parent_batch_digest", "boundary_parent_origin"],
   .createIndex SelectedState.restoreComparisonOneBoundaryPerEpochIdx
     SelectedState.restoreComparisonBatches ["history_epoch_id"],
   .createTrigger SelectedState.restoreComparisonBatchesImmutable
     SelectedState.restoreComparisonBatches,
   .createTrigger SelectedState.restoreComparisonBatchesCompactionPrefixOnly
     SelectedState.restoreComparisonBatches,
   .createTrigger SelectedState.restoreComparisonBatchesContiguousBeforeInsert
     SelectedState.restoreComparisonBatches,
   .createTrigger SelectedState.restoreComparisonBatchesBoundaryBeforeInsert
     SelectedState.restoreComparisonBatches,
   selectedTable .restoreComparisonEvents ["batch_sequence", "event_ordinal", "lifecycle_event",
     "command_ref", "message_id", "attempt_id", "terminal", "effect_may_have_occurred",
     "duplicate_effect_possible", "purge_message_id", "purge_at_unix_ms", "purge_source",
     "purge_reason"],
   .createIndex SelectedState.restoreComparisonEventsMessageIdx
     SelectedState.restoreComparisonEvents ["message_id"],
   .createIndex SelectedState.restoreComparisonEventsCommandIdx
     SelectedState.restoreComparisonEvents ["command_ref"],
   .createTrigger SelectedState.restoreComparisonEventsImmutable
     SelectedState.restoreComparisonEvents,
   .createTrigger SelectedState.restoreComparisonEventsCompactionPrefixOnly
     SelectedState.restoreComparisonEvents,
   .createTrigger SelectedState.restoreComparisonEventsContiguousBeforeInsert
     SelectedState.restoreComparisonEvents,
   selectedTable .purgeTombstones ["message_id", "purged_at_unix_ms", "purge_source",
     "purge_reason", "history_epoch_id", "comparison_batch_sequence", "comparison_event_ordinal"],
   .createTrigger SelectedState.purgeTombstonesRequiresPayloadPurgedEvent
     SelectedState.purgeTombstones,
   .createTrigger SelectedState.purgeTombstonesImmutable SelectedState.purgeTombstones,
   .createTrigger SelectedState.purgeTombstonesRetained SelectedState.purgeTombstones,
   selectedTable .auditEvents ["audit_event_id", "occurred_at_unix_ms", "event_code",
     "actor_namespace", "message_id", "provider_id", "command_ref"],
   .createIndex SelectedState.auditEventsTimeIdx SelectedState.auditEvents ["occurred_at_unix_ms",
     "audit_event_id"],
   .createIndex SelectedState.auditEventsMessageIdx SelectedState.auditEvents ["message_id",
     "occurred_at_unix_ms"],
   selectedTable .backupJobs ["backup_job_id", "external_state", "publication_phase",
     "temporary_basename", "final_basename", "expected_artifact_digest", "expected_artifact_size",
     "cancellation_requested", "pin_history_epoch_id", "pin_batch_sequence", "pin_batch_digest",
     "execution_deadline_unix_ms", "retention_deadline_unix_ms", "terminal_reason"],
   .createIndex SelectedState.backupJobsOneRunningIdx SelectedState.backupJobs ["external_state"],
   selectedTable .backupHistory ["backup_job_id", "artifact_digest", "source_instance_id",
     "source_lineage_id", "snapshot_transaction_sequence", "base_tombstone_count",
     "base_tombstone_digest", "base_tombstone_watermark", "history_epoch_id",
     "comparison_batch_sequence", "comparison_batch_digest",
     "nonempty_restore_supported_until_unix_ms"],
   selectedTable .upgradeState ["singleton", "upgrade_id", "transition_id", "phase",
     "prepare_deadline_unix_ms", "source_generation", "target_generation", "source_schema_version",
     "target_schema_version", "source_history_epoch_id", "source_comparison_batch_sequence",
     "source_comparison_batch_digest", "target_certificate_digest", "rollback_eligible",
     "divergence_digest", "activation_status"],
   selectedTable .«meta» ["singleton", "schema_version", "active_configuration_generation",
     "runtime_instance_id", "lineage_id", "transaction_sequence", "authorization_epoch",
     "active_history_epoch_id", "comparison_anchor_batch_sequence",
     "comparison_anchor_batch_digest", "comparison_head_batch_sequence",
     "comparison_head_batch_digest", "selected_origin_incarnation", "last_safe_wall_time_unix_ms"],
   .createTrigger SelectedState.metaComparisonHeadRequiresCompleteBatch SelectedState.«meta»,
   .createTrigger SelectedState.metaComparisonHeadAdvancesOneCompleteBatch SelectedState.«meta»,
   .createTrigger SelectedState.messagesInsertRequiresAcceptedComparisonEvent
     SelectedState.messages,
   .createTrigger SelectedState.messagesTerminalStateRequiresComparisonEvent
     SelectedState.messages,
   .createTrigger SelectedState.messagesAmbiguityRequiresComparisonEvent SelectedState.messages,
   .createTrigger SelectedState.messagesEffectRequiresDispatchComparisonEvent
     SelectedState.messages,
   selectedTable .metaMacSerialHighWater ["purpose", "serial_hi", "serial_lo"]]

/-! ### v3 -/

/-- The columns of the first message table. -/
def m2Columns : List String :=
  ["message_id", "idempotency_key", "topic", "title", "body", "state", "attempts",
    "next_attempt_at_unix_ms", "provider_ack", "last_error", "created_at_unix_ms",
    "updated_at_unix_ms"]

/-- `m2_messages`. -/
def m2Shape : Shape where
  sql := none
  columns := m2Columns
  checks := [
    lengthIs "message_id" 64,
    notNull "idempotency_key", lengthBetween "idempotency_key" 1 128,
    notNull "topic", lengthBetween "topic" 1 64,
    notNull "body", lengthBetween "body" 1 4096,
    notNull "state",
    textIn "state" ["queued", "sending", "retry_scheduled", "provider_accepted", "ambiguous",
      "failed"],
    notNull "attempts",
    .between (.column "attempts") (.literal (.integer 0)) (.literal (.integer 5)),
    notNull "created_at_unix_ms", notNull "updated_at_unix_ms",
    .equal (textIn "state" ["queued", "retry_scheduled"]) (notNull "next_attempt_at_unix_ms"),
    .equal (.equal (.column "state") (.literal (.text "provider_accepted")))
      (notNull "provider_ack"),
    .equal (textIn "state" ["ambiguous", "failed"]) (notNull "last_error")]
  unique := ["message_id", "idempotency_key"]

/-- The third migration: the message queue. -/
def migrationV3Sql : List (Statement Name) :=
  [.createTable .m2Messages m2Shape,
   .createIndex .m2MessagesDueIdx .m2Messages
     ["state", "next_attempt_at_unix_ms", "created_at_unix_ms"]]

/-! ### v4 -/

/-- The fourth migration: the queue gets drivers, destinations and payloads. -/
def migrationV4Sql : List (Statement Name) :=
  [.renameTable .m2Messages .m3Messages,
   .addColumn .m3Messages "driver" (.text "ntfy")
     [notNull "driver", textIn "driver" ["ntfy", "whatsapp"]],
   .addColumn .m3Messages "destination" (.text "") [notNull "destination"],
   .addColumn .m3Messages "payload" (.text "") [notNull "payload"],
   .update .m3Messages "destination" (.column "topic")
     (.equal (.column "driver") (.literal (.text "ntfy"))),
   .createIndex .m3MessagesDriverDueIdx .m3Messages
     ["driver", "state", "next_attempt_at_unix_ms", "created_at_unix_ms"]]

/-! ### v5 -/

/-- `m4_inbound_control`. -/
def controlShape : Shape where
  sql := none
  columns := ["singleton", "enabled"]
  checks := [
    .isInteger (.column "singleton"),
    .equal (.column "singleton") (.literal (.integer 1)),
    notNull "enabled", .isIn (.column "enabled") [.integer 0, .integer 1]]
  unique := ["singleton"]

/-- `m4_inbound_receipts`. -/
def receiptsShape : Shape where
  sql := none
  columns := ["provider_message_id", "sender", "verb", "accepted_at_unix_ms"]
  checks := [
    notNull "sender", notNull "verb", textIn "verb" ["notify", "status"],
    notNull "accepted_at_unix_ms"]
  unique := ["provider_message_id"]

/-- `m4_notify_rate_events`. -/
def rateEventsShape : Shape where
  sql := none
  columns := ["sender", "accepted_at_unix_ms"]
  checks := [notNull "sender", notNull "accepted_at_unix_ms"]
  unique := []

/-- The fifth migration: the tables of inbound commands. -/
def migrationV5Sql : List (Statement Name) :=
  [.createTable .m4InboundControl controlShape,
   .insert .m4InboundControl ["singleton", "enabled"] [.integer 1, .integer 0],
   .createTable .m4InboundReceipts receiptsShape,
   .createTable .m4NotifyRateEvents rateEventsShape,
   .createIndex .m4NotifyRateEventsSenderTimeIdx .m4NotifyRateEvents
     ["sender", "accepted_at_unix_ms"]]

/-! ### Checksums -/

/-- The pinned checksum of the first migration. -/
def migrationV1Checksum : List UInt8 :=
  [0xf8, 0x7b, 0x65, 0xde, 0xb2, 0x95, 0x6b, 0x5a, 0x43, 0x41, 0x63, 0x4f, 0x24, 0xf4, 0xc0, 0x30,
   0xbc, 0x91, 0xcd, 0xdd, 0xbf, 0x6d, 0x73, 0x5c, 0xb4, 0xb2, 0x7d, 0x44, 0x18, 0x12, 0x0e, 0x84]

/-- The pinned checksum of the second migration. -/
def migrationV2Checksum : List UInt8 :=
  [0xd2, 0x8d, 0x42, 0xfb, 0xa1, 0x3f, 0x53, 0xd1, 0x90, 0x9c, 0xe0, 0x44, 0xd5, 0x99, 0x24, 0xf5,
   0x2e, 0x27, 0x6d, 0x3c, 0xed, 0xc1, 0xc3, 0x88, 0x4b, 0xc4, 0x04, 0xdb, 0x45, 0x55, 0x6d, 0x43]

/-- The pinned checksum of the third migration. -/
def migrationV3Checksum : List UInt8 :=
  [0x98, 0x72, 0x5f, 0x75, 0xc0, 0xa3, 0xd2, 0x85, 0xd2, 0xf4, 0x0a, 0x47, 0x33, 0x52, 0xb1, 0x5b,
   0xce, 0xdb, 0x3b, 0x09, 0x43, 0x5f, 0xfc, 0x4f, 0x49, 0xf3, 0x1a, 0x32, 0x38, 0x13, 0x76, 0xa6]

/-- The pinned checksum of the fourth migration. -/
def migrationV4Checksum : List UInt8 :=
  [0x44, 0x9b, 0xb7, 0xc7, 0x53, 0x4e, 0xd3, 0x46, 0x99, 0x46, 0xc3, 0x82, 0x63, 0xf2, 0x87, 0xb1,
   0x69, 0x47, 0xc8, 0x91, 0xf4, 0x95, 0xc0, 0xd8, 0xcd, 0x55, 0x65, 0xc4, 0x54, 0x34, 0xd7, 0x4f]

/-- The pinned checksum of the fifth migration. -/
def migrationV5Checksum : List UInt8 :=
  [0xf7, 0x12, 0x7c, 0xa8, 0x7e, 0xf7, 0x5d, 0x0c, 0xf1, 0xe0, 0x1a, 0x9c, 0x6c, 0x9d, 0x24, 0xd6,
   0x79, 0x89, 0xda, 0xc6, 0xe1, 0xf8, 0xae, 0xf0, 0xdc, 0x1b, 0x98, 0xec, 0x12, 0x51, 0x56, 0xa9]

end MsgRiver.Store
