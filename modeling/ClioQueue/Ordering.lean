/-
# Order indexes and job events

`clio_relay/queue_order_index.py` and the job-event half of
`clio_relay/queue_events.py`: the durable global sequence of a record, the
per-job order index, and the per-job event log with its monotonic sequence.
-/

import ClioQueue.Store

namespace ClioQueue

open Durable Durable.Prog

/-- `DEFAULT_EXACT_RECORD_LIMIT`. -/
def defaultExactRecordLimit : Nat := 1000

/-! ### Global order -/

/-- The range of a durable sequence. -/
def validSequence (sequence : Nat) : Bool := decide (1 ≤ sequence ∧ sequence < 2 ^ 63)

/-- `_read_global_record`, from a mapping or an entry. -/
def readGlobalRecord (found : Option GlobalOrderRecord) : Op (Option GlobalOrderRecord) := do
  require (found.all fun record => validSequence record.sequence)
    (.conflict "invalid global-order record")
  pure found

/-- `_read_global_head`. -/
def readGlobalHead (family : GlobalFamily) : Op Nat := do
  let head ← read (.globalHead family)
  match head with
  | none => pure 0
  | some latest => do
    require (validSequence latest) (.conflict "invalid global-order head")
    pure latest

/-- `_ensure_global_sequence`. -/
def ensureGlobalSequence (family : GlobalFamily) (recordId : DurableRecordId) (sequence : Nat) :
    Op Unit := do
  let entry ← read (.globalEntry family sequence)
  let existing ← readGlobalRecord entry
  match existing with
  | some record =>
    require (record == ⟨recordId, sequence⟩)
      (.conflict s!"global-order sequence collision: {sequence}")
  | none => put (.globalEntry family sequence) ⟨recordId, sequence⟩

/-- `ensure_global`. -/
def ensureGlobal (family : GlobalFamily) (recordId : DurableRecordId) : Op Nat := do
  let byId ← read (.globalById family recordId)
  let mapping ← readGlobalRecord byId
  let latest ← readGlobalHead family
  match mapping with
  | some record => do
    require (record.recordId == recordId && decide (record.sequence ≤ latest))
      (.conflict s!"global-order mapping identity mismatch: {recordId}")
    ensureGlobalSequence family recordId record.sequence
    pure record.sequence
  | none => do
    require (decide (latest < 2 ^ 63 - 1)) (.conflict "global-order sequence exhausted")
    put (.globalHead family) (latest + 1)
    put (.globalById family recordId) ⟨recordId, latest + 1⟩
    ensureGlobalSequence family recordId (latest + 1)
    pure (latest + 1)

/-! ### The job index -/

/-- The index `_initialize_job_index_unlocked` writes. -/
def emptyJobIndex : JobIndex where
  taskCount := 0
  artifactCount := 0
  progressCount := 0
  latestProgressId := none
  latestEventSeq := 0

/-- `_initialize_job_index_unlocked`. -/
def initializeJobIndex (jobId : DurableRecordId) : Op Unit := do
  let found ← present (.jobIndex jobId)
  if found then pure () else put (.jobIndex jobId) emptyJobIndex

/-- `_update_job_index_unlocked`; a missing index stays missing. -/
def updateJobIndex (jobId : DurableRecordId) (update : JobIndex → JobIndex) : Op Unit := do
  let found ← read (.jobIndex jobId)
  match found with
  | none => pure ()
  | some index => put (.jobIndex jobId) (update index)

/-- `_next_job_record_sequence_unlocked`, for one of the counts. -/
def nextJobRecordSequence (jobId : DurableRecordId) (count : JobIndex → Nat) : Op Nat := do
  let index ← read (.jobIndex jobId)
  match index with
  | none => raise (.conflict s!"job order index is missing: {jobId}")
  | some index => pure (count index + 1)

/-- `update_job_index` of `latest_event_seq`. -/
def JobIndex.setLatestEventSeq (seq : Nat) (index : JobIndex) : JobIndex :=
  { index with latestEventSeq := seq }

/-! ### Events -/

/-- The first sequence from `start` on, among `limit`, that has no event. -/
def firstFreeEventSeq (s : Store) (jobId : DurableRecordId) (start limit : Nat) : Option Nat :=
  (List.range' start limit).find? fun seq => (s.read (.event jobId seq)).isNone

/-- `_next_event_seq`. -/
def nextEventSeq (jobId : DurableRecordId) : Op Nat := do
  let index ← read (.jobIndex jobId)
  match index with
  | some index => do
    let free ← look fun s =>
      firstFreeEventSeq s jobId (index.latestEventSeq + 1) defaultExactRecordLimit
    match free with
    | some seq => pure seq
    | none => raise (.conflict s!"event head recovery exceeded bound: {jobId}")
  | none => do
    let free ← look fun s => firstFreeEventSeq s jobId 1 defaultExactRecordLimit
    match free with
    | some seq => pure seq
    | none => raise (.conflict s!"legacy event sequence requires index migration: {jobId}")

/-- `<sequence:020d>.json`. -/
def sequenceName (sequence : Nat) : String :=
  String.ofList (List.replicate (20 - (toString sequence).toList.length) '0') ++
    toString sequence ++ ".json"

/-- The keys of the compatibility metadata of a migrated output event. -/
def legacyOutputKeys : List String :=
  ["schema_version", "archive_path", "archive_sha256", "archive_size_bytes",
    "original_message_utf8_bytes", "original_payload_text_utf8_bytes", "representation"]

/-- `_validate_legacy_output_event_access`, with which every read of an event ends, and the reason
that its `LegacyQueueStateError` reports.  Only the migration of a 0.9 queue writes archives, so
that the queue has none, and an event with the reserved key of the migrated ones is refused. -/
def validateLegacyOutputEventAccess (event : RelayEvent) : Except RelayError Unit :=
  if !event.payload.has "legacy_output" then .ok ()
  else .error <| .conflict <|
    match event.payload.get "legacy_output" with
    | .obj compatibility =>
      let keys := event.payload.map Prod.fst
      let metadata : Dict := compatibility
      if !(metadata.map Prod.fst).isPerm legacyOutputKeys ||
          metadata.get "schema_version" ≠ .str "clio-relay.legacy-output-compatibility.v1" then
        "legacy output compatibility metadata has an unknown schema"
      else if !(metadata.get "representation" = .str "payload_text" &&
            keys.isPerm ["stream", "text", "legacy_output"] ||
          metadata.get "representation" = .str "archive" &&
            keys.isPerm ["stream", "legacy_output"]) then
        "legacy output compatibility payload has an unknown shape"
      else if metadata.get "archive_path" ≠
          .str s!"legacy_output_archives/{event.jobId}/{sequenceName event.seq}" then
        "legacy output compatibility archive path is not canonical"
      else "legacy output archive is invalid: FileNotFoundError"
    | _ => "legacy output compatibility metadata is not an object"

/-- Reading an event is refused for the reserved key alone. -/
theorem validateLegacyOutputEventAccess_ok {event : RelayEvent} :
    validateLegacyOutputEventAccess event = .ok () ↔
      event.payload.has "legacy_output" = false := by
  unfold validateLegacyOutputEventAccess
  cases event.payload.has "legacy_output" <;> simp

section

variable [Platform] [Entropy]

/-- `_append_event_unlocked`. -/
def appendEventUnlocked (jobId : DurableRecordId) (eventType message : String) (payload : Dict) :
    Op RelayEvent := do
  let seq ← nextEventSeq jobId
  let createdAt ← utcNow
  let event : RelayEvent := { jobId, seq, eventType, message, createdAt, payload }
  putWithin (Platform.eventFits event) (.event jobId seq) event
  updateJobIndex jobId (JobIndex.setLatestEventSeq seq)
  pure event

end

end ClioQueue
