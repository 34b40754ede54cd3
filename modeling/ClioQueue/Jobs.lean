/-
# Job state and cancellation

The remaining operations of `clio_relay/queue_jobs.py` on an existing job:
metadata and state updates, cancellation and its acknowledgement.
-/

import ClioQueue.Submission

namespace ClioQueue

open Durable Durable.Prog

section

variable [Platform] [Entropy]

/-- The metadata update of `update_job_metadata`, validated when the job has no owner
session yet. -/
def updateMetadataUnlocked (jobId : DurableRecordId) (metadata : Dict) : Op RelayJob := do
  let job ← getJob jobId
  let merged := job.metadata.update metadata
  (if job.metadata.get "owner_session_id" = .null then
    ofExcept (validateNewOwnerSessionMetadata merged)
  else pure ())
  let updatedAt ← utcNow
  let updated : RelayJob := { job with updatedAt, metadata := merged }
  writeJob updated
  pure updated

/-- `update_job_metadata`. -/
def updateJobMetadata (jobId : DurableRecordId) (metadata : Dict) : Op RelayJob := do
  recoverPendingTransitions
  updateMetadataUnlocked jobId metadata

/-- The optional arguments of `update_job_state`; `leasedBy := none` is the default that
keeps the field. -/
structure StateUpdate where
  message : Option String := none
  error : Option String := none
  leasedBy : Option (Option String) := none
  deriving DecidableEq

/-- An optional string as JSON. -/
def Json.ofOption : Option String → Json
  | none => .null
  | some text => .str text

/-- `message or default`. -/
def messageOr (message : Option String) (default : String) : String :=
  if message.getD "" = "" then default else message.getD ""

/-- `require_durable_record_id(leased_by)`, for a string. -/
def validateLeasedBy : Option (Option String) → Except RelayError Unit
  | some (some text) =>
    match requireDurableRecordId text "leased_by" with
    | .ok _ => .ok ()
    | .error e => .error e
  | _ => .ok ()

/-- What `update_job_state` does once the journal is replayed. -/
def updateStateUnlocked (jobId : DurableRecordId) (state : JobState) (update : StateUpdate) :
    Op RelayJob := do
  let job ← getJob jobId
  require (!job.state.terminal || state == job.state)
    (.conflict s!"cannot change terminal job {jobId} from {job.state.value} to {state.value}")
  let updatedAt ← utcNow
  let updated : RelayJob :=
    { job with state, updatedAt, lastError := update.error,
               leasedBy := update.leasedBy.getD job.leasedBy }
  writeJob updated
  let _event ← appendEventUnlocked jobId s!"job.{state.value}"
    (messageOr update.message s!"Job {state.value}")
    [("state", .str state.value), ("error", Json.ofOption update.error)]
  pure updated

/-- `update_job_state`. -/
def updateJobState (jobId : DurableRecordId) (state : JobState) (update : StateUpdate) :
    Op RelayJob := do
  ofExcept (validateLeasedBy update.leasedBy)
  recoverPendingTransitions
  updateStateUnlocked jobId state update

/-! ### Cancellation -/

/-- The cancellation request recorded in the metadata of a job. -/
def cancellationRequest (job : RelayJob) (requestedAt : Time) (cancelScheduler : Bool) : Dict :=
  [("schema_version", .str "clio-relay.cancellation-request.v1"),
    ("requested_at", .str (Platform.isoformat requestedAt)),
    ("previous_state", .str job.state.value),
    ("cancel_scheduler", .bool cancelScheduler)]

/-- The request, acknowledged. -/
def acknowledgedRequest (request : Dict) (acknowledgedAt : Time) : Dict :=
  (request.set "acknowledged_at" (.str (Platform.isoformat acknowledgedAt))).set
    "cleanup_acknowledged" (.bool true)

/-- The job with a cancellation request; a queued job is canceled at once. -/
def cancellationRequested (job : RelayJob) (requestedAt : Time) (cancelScheduler : Bool) :
    RelayJob :=
  let request := cancellationRequest job requestedAt cancelScheduler
  if job.state = .queued then
    { job with
      updatedAt := requestedAt
      state := .canceled
      leasedBy := none
      lastError := none
      metadata := job.metadata.set "cancellation_request"
        (.obj (acknowledgedRequest request requestedAt)) }
  else
    { job with
      updatedAt := requestedAt
      metadata := job.metadata.set "cancellation_request" (.obj request) }

/-- Request the cancellation of an active job. -/
def requestCancellation (job : RelayJob) (cancelScheduler : Bool) : Op RelayJob := do
  let requestedAt ← utcNow
  let updated := cancellationRequested job requestedAt cancelScheduler
  (if cancelScheduler then do
    let _pending ← ensureSchedulerCancelPendingUnlocked job requestedAt "operator_request"
    pure ()
  else pure ())
  writeJob updated
  let _event ← appendEventUnlocked job.jobId "job.cancel_requested" "Cancellation requested"
    [("previous_state", .str job.state.value), ("cancel_scheduler", .bool cancelScheduler)]
  (if updated.state = .canceled then do
    let _event ← appendEventUnlocked job.jobId "job.canceled" "Job canceled"
      [("state", .str JobState.canceled.value), ("error", .null),
        ("cleanup_acknowledged", .bool true)]
    pure ()
  else pure ())
  pure updated

/-- What `cancel_job_if_active` does once the journal is replayed. -/
def cancelIfActiveUnlocked (jobId : DurableRecordId) (cancelScheduler : Bool)
    (expectedState : Option JobState) (expectedUpdatedAt : Option Time) : Op (RelayJob × Bool) := do
  let job ← getJob jobId
  if job.state.terminal || !expectedState.all (· == job.state) ||
      !expectedUpdatedAt.all (· == job.updatedAt) then pure (job, false)
  else do
    let updated ← requestCancellation job cancelScheduler
    pure (updated, true)

/-- `cancel_job_if_active`. -/
def cancelJobIfActive (jobId : DurableRecordId) (cancelScheduler : Bool)
    (expectedState : Option JobState) (expectedUpdatedAt : Option Time) : Op (RelayJob × Bool) := do
  recoverPendingTransitions
  cancelIfActiveUnlocked jobId cancelScheduler expectedState expectedUpdatedAt

/-- The job of an acknowledged cancellation. -/
def canceledJob (job : RelayJob) (request : Dict) (acknowledgedAt : Time) : RelayJob :=
  { job with
    state := .canceled
    leasedBy := none
    updatedAt := acknowledgedAt
    lastError := none
    metadata := job.metadata.set "cancellation_request"
      (.obj (acknowledgedRequest request acknowledgedAt)) }

/-- What `acknowledge_job_cancellation` does once the journal is replayed. -/
def acknowledgeCancellationUnlocked (jobId : DurableRecordId) : Op RelayJob := do
  let job ← getJob jobId
  if job.state = .canceled then pure job
  else do
    require (!job.state.terminal)
      (.conflict s!"cannot acknowledge cancellation for terminal job {jobId}: {job.state.value}")
    match (job.metadata.get "cancellation_request").obj? with
    | none => raise (.conflict s!"job {jobId} has no durable cancellation request")
    | some request => do
      let acknowledgedAt ← utcNow
      let canceled := canceledJob job request acknowledgedAt
      writeJob canceled
      let _event ← appendEventUnlocked jobId "job.canceled"
        "Job cancellation cleanup acknowledged"
        [("state", .str JobState.canceled.value), ("error", .null),
          ("cleanup_acknowledged", .bool true)]
      pure canceled

/-- `acknowledge_job_cancellation`. -/
def acknowledgeJobCancellation (jobId : DurableRecordId) : Op RelayJob := do
  recoverPendingTransitions
  acknowledgeCancellationUnlocked jobId

end

end ClioQueue
