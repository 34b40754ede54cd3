/-
# Job submission

`submit_job` of `clio_relay/queue_jobs.py` with what it calls: the idempotency
record and digest of `clio_relay/queue_idempotency.py`, the execution id of an
owned JARVIS run (`clio_relay/models_job.py`), the input-ingest quota of
`clio_relay/core_queue.py`, the active-job capacity and the queued event.

A submission reserves its idempotency key, takes a place in the global order,
initializes the job index, writes its lineage edges, the job, the committed
idempotency record and the `job.queued` event; a repeated submission of the same
key finishes what an interrupted one has left.
-/

import ClioQueue.Lineage
import ClioQueue.SchedulerCancelState

namespace ClioQueue

open Durable Durable.Prog

/-! ### Owned JARVIS runs -/

/-- `REGISTERED_JARVIS_EXECUTION_CONTRACTS`. -/
def registeredJarvisExecutionContracts : List String :=
  ["clio-kit-jarvis-user-v3.6", "clio-kit-jarvis-user-v3.7.2"]

/-- `is_owned_jarvis_run_spec`. -/
def isOwnedJarvisRunSpec (kind : JobKind) : JobSpec → Bool
  | .mcpCall spec =>
    kind == .mcpCall && spec.operation == .toolsCall &&
      ((spec.tool.getD "").map fun c => if c = '-' then '_' else c).toLower == "jarvis_run" &&
      spec.expectedServerArtifactDigest.isSome &&
      (if spec.expectedJarvisCdLockBinding.isSome then spec.expectedRegisteredContract.isNone
      else spec.expectedRegisteredContract.any registeredJarvisExecutionContracts.contains)
  | _ => false

/-- The stems a portable path component may not have. -/
def reservedStems : List String :=
  ["CON", "PRN", "AUX", "NUL",
    "COM1", "COM2", "COM3", "COM4", "COM5", "COM6", "COM7", "COM8", "COM9",
    "LPT1", "LPT2", "LPT3", "LPT4", "LPT5", "LPT6", "LPT7", "LPT8", "LPT9"]

/-- The characters `[A-Za-z0-9]`. -/
def asciiAlnum (c : Char) : Bool := lowerAlnum c || ('A' ≤ c && c ≤ 'Z')

/-- `_validate_jarvis_execution_id`. -/
def validateJarvisExecutionId (value : Json) : Except RelayError String :=
  match value.str? with
  | none =>
    .error (.value "trusted jarvis_run execution_id must be 1-128 portable ASCII characters")
  | some text =>
    if !text.toList.head?.any asciiAlnum || decide (128 < text.toList.length) ||
        !text.toList.all fun c => asciiAlnum c || c == '.' || c == '_' || c == '-' then
      .error (.value "trusted jarvis_run execution_id must be 1-128 portable ASCII characters")
    else if text.toList.getLast? == some '.' ||
        reservedStems.contains (String.ofList (text.toList.takeWhile (· ≠ '.'))).toUpper then
      .error (.value "trusted jarvis_run execution_id is not a portable path component")
    else .ok text

section

variable [Platform] [Entropy]

/-- `prepare_owned_jarvis_run_submission`. -/
def prepareOwnedJarvisRunSubmission (job : RelayJob) : Except RelayError RelayJob :=
  match job.spec with
  | .mcpCall spec =>
    if !isOwnedJarvisRunSpec job.kind job.spec then .ok job
    else if spec.arguments.has "wait" then
      .error (.value "trusted jarvis_run does not accept internal wait; query the returned execution with jarvis_get_execution")
    else
      let expected :=
        Platform.deterministicJarvisExecutionId job.cluster job.idempotencyKey job.jobId
      let bound : RelayJob :=
        { job with
          spec := .mcpCall
            { spec with arguments := spec.arguments.set "execution_id" (.str expected) } }
      match spec.arguments.get "execution_id" with
      | .null => .ok bound
      | supplied =>
        match validateJarvisExecutionId supplied with
        | .error e => .error e
        | .ok text =>
          if text = expected then .ok bound
          else .error (.value "trusted jarvis_run execution_id must match the relay-owned cluster and idempotency identity")
  | _ => .ok job

/-! ### Idempotency -/

/-- The metadata that a digest covers. -/
def digestMetadata (job : RelayJob) : Dict :=
  if job.kind = .inputIngest then
    ((job.metadata.pop "input_ingest_policy").pop "input_ingest_original_policy").pop
      "input_ingest_attempt"
  else job.metadata

/-- The specification that a digest covers; a dropped `null` or default field is told
apart by the field itself. -/
def digestSpec (job : RelayJob) : JobSpec :=
  match job.spec with
  | .jarvisRun fields => .jarvisRun (Json.sortFields fields)
  | .remoteAgentTask fields => .remoteAgentTask (Json.sortFields fields)
  | .mcpCall spec =>
    .mcpCall
      { spec with
        arguments := Json.sortFields (if isOwnedJarvisRunSpec job.kind job.spec then
          spec.arguments.pop "execution_id" else spec.arguments)
        options := Json.sortFields spec.options }
  | .inputArtifact spec => .inputArtifact spec

/-- `_job_idempotency_digest`. -/
def jobIdempotencyDigest (job : RelayJob) : JobDigest :=
  .sha256
    { cluster := job.cluster
      kind := job.kind
      spec := digestSpec job
      idempotencyKey := job.idempotencyKey
      ownerSessionId := job.ownerSessionId
      ownerSessionGenerationId := job.ownerSessionGenerationId
      usedArtifactRefs := job.usedArtifactRefs.map fun use =>
        { use with provenance := use.provenance.sortKeys }
      storageReservation := job.storageReservation
      metadata := Json.sortFields (digestMetadata job) }

/-- `_committed_idempotency_record`. -/
def committedIdempotencyRecord (job : RelayJob) (digest : JobDigest) (committedAt : Time) :
    IdempotencyRecord where
  state := .committed
  jobId := job.jobId
  idempotencyKey := job.idempotencyKey
  jobDigest := some digest
  createdAt := job.createdAt
  committedAt := some committedAt

/-- Write an idempotency record. -/
def writeIdempotencyRecord (record : IdempotencyRecord) : Op Unit :=
  putWithin (Platform.idempotencyFits record) (.idempotency record.idempotencyKey) record

/-- `_write_committed_idempotency_record`. -/
def writeCommittedIdempotencyRecord (job : RelayJob) (digest : JobDigest) : Op Unit := do
  let committedAt ← utcNow
  writeIdempotencyRecord (committedIdempotencyRecord job digest committedAt)

/-- The job a retired submission is answered with. -/
def retiredJob (submitted : RelayJob) (tombstone : JobTombstone) : RelayJob :=
  { submitted with
    jobId := tombstone.jobId
    cluster := tombstone.cluster
    kind := tombstone.kind
    state := tombstone.finalState
    createdAt := tombstone.createdAt
    updatedAt := tombstone.updatedAt
    attempts := tombstone.attempts
    lastError := tombstone.lastError
    leasedBy := none
    metadata := submitted.metadata.set "retired_job" (.obj
      [("schema_version", .str "clio-relay.job-tombstone.v1"),
        ("phase", .str tombstone.phase),
        ("gc_started_at", .str (Platform.isoformat tombstone.gcStartedAt))]) }

/-- `_replay_retired_job`. -/
def replayRetiredJob (submitted : RelayJob) (record : IdempotencyRecord) (digest : JobDigest) :
    Op RelayJob := do
  let tombstone ← read (.jobTombstone record.jobId)
  require (tombstone.all fun tombstone => tombstone.jobId == record.jobId)
    (.conflict "canonical job tombstone identity mismatch")
  match tombstone with
  | none =>
    raise (.conflict
      s!"retired idempotency record points to a missing tombstone: {record.jobId}")
  | some tombstone => do
    require (tombstone.jobDigest == digest &&
        tombstone.idempotencyKey == submitted.idempotencyKey)
      (.conflict s!"retired idempotency identity mismatch: {record.jobId}")
    pure (retiredJob submitted tombstone)

/-! ### Input-ingest quota -/

/-- `InputArtifactIngestPolicy`. -/
structure InputArtifactIngestPolicy where
  maxFileCount : Nat
  maxTotalBytes : Nat
  deriving DecidableEq

/-- `InputArtifactIngestPolicy.model_validate`. -/
def inputArtifactIngestPolicy (value : Json) : Option InputArtifactIngestPolicy := do
  let fields ← value.obj?
  let known := ["schema_version", "max_file_count", "max_total_bytes"]
  let count ← (Dict.get fields "max_file_count").int?
  let bytes ← (Dict.get fields "max_total_bytes").int?
  if fields.all (fun entry => known.contains entry.1) && decide (1 ≤ count ∧ count ≤ 1000) &&
      decide (1 ≤ bytes) && (!Dict.has fields "schema_version" ||
        Dict.get fields "schema_version" == .str "clio-relay.input-artifact-ingest-policy.v1") then
    some ⟨count.toNat, bytes.toNat⟩
  else none

/-- `_input_ingest_consumes_quota_unlocked`. -/
def inputIngestConsumesQuota (job : RelayJob) (spec : InputArtifactSpec) : Op Bool :=
  if job.state = .failed ∨ job.state = .canceled then do
    let artifactId := Platform.deterministicInputArtifactId job.jobId
    let artifact ← read (.artifact artifactId)
    match artifact with
    | none => pure false
    | some artifact => do
      require (artifact.artifactId == artifactId && artifact.jobId == job.jobId &&
          artifact.kind == "input" && artifact.sizeBytes == some spec.sizeBytes &&
          artifact.sha256 == some spec.sha256 &&
          artifact.metadata.get "schema_version" == .str "clio-relay.input-artifact.v1" &&
          artifact.metadata.get "logical_name" == .str spec.logicalName)
        (.conflict s!"terminal input ingest artifact identity changed: {job.jobId}")
      pure true
  else pure true

/-- The size a member of the generation adds to the quota, `none` for a member that does
not count. -/
def ingestMemberSize (job : RelayJob) (owner : String) (generation : DurableRecordId)
    (membership : OwnerSessionJobMembership) : Op (Option Nat) := do
  require (membership.ownerSessionId == owner &&
      membership.sessionGenerationId == some generation)
    (.conflict "input ingest quota membership identity mismatch")
  let existing ← readJob membership.jobId
  match existing with
  | none =>
    raise (.conflict s!"input ingest quota membership has no producer: {membership.jobId}")
  | some existing => do
    require (existing.metadata.get "owner_session_id" == .str owner &&
        existing.metadata.get "owner_session_generation_id" == .str generation.value)
      (.conflict s!"input ingest quota producer identity changed: {membership.jobId}")
    if existing.kind ≠ .inputIngest then pure none
    else
      match existing.spec with
      | .inputArtifact spec =>
        if existing.jobId = job.jobId then pure none
        else do
          let consumes ← inputIngestConsumesQuota existing spec
          pure (if consumes then some spec.sizeBytes else none)
      | _ =>
        raise (.conflict
          s!"input ingest quota producer has an invalid spec: {membership.jobId}")

/-- The loop of `_assert_input_ingest_quota_unlocked`: the files and bytes already used. -/
def ingestQuotaUsed (job : RelayJob) (size : Nat) (owner : String) (generation : DurableRecordId)
    (policy : InputArtifactIngestPolicy) :
    List OwnerSessionJobMembership → Nat → Nat → Op (Nat × Nat)
  | [], files, bytes => pure (files, bytes)
  | membership :: members, files, bytes => do
    let used ← ingestMemberSize job owner generation membership
    match used with
    | none => ingestQuotaUsed job size owner generation policy members files bytes
    | some used => do
      require (decide (files + 1 < policy.maxFileCount))
        (.conflict s!"input_ingest_file_count_limit_reached: owner-session generation limit is {policy.maxFileCount}")
      require (decide (bytes + used + size ≤ policy.maxTotalBytes))
        (.conflict s!"input_ingest_total_bytes_limit_reached: owner-session generation limit is {policy.maxTotalBytes} bytes")
      ingestQuotaUsed job size owner generation policy members (files + 1) (bytes + used)

/-- The members of a generation. -/
def membersListed (owner : String) (generation : DurableRecordId) (p : Path) (c : Content p) :
    Option OwnerSessionJobMembership :=
  match p, c with
  | .ownerSessionJob session gen _, membership =>
    if session = stableRefToken [owner] ∧ gen = some (stableRefToken [generation.value]) then
      some membership
    else none
  | _, _ => none

/-- `_assert_input_ingest_quota_unlocked`; without a policy, that of the job counts. -/
def assertInputIngestQuotaWith (policy : Option InputArtifactIngestPolicy) (job : RelayJob) :
    Op Unit :=
  if job.kind ≠ .inputIngest then pure ()
  else
    match job.spec with
    | .inputArtifact spec => do
      let identity ← ofExcept (ownerSessionIdentity job.metadata false)
      match identity with
      | some (owner, some generation) => do
        require (job.metadata.get "owner" == .str "clio-relay")
          (.conflict "input ingest requires exact relay owner-session identity")
        match policy.or (inputArtifactIngestPolicy (job.metadata.get "input_ingest_policy")) with
        | none => raise (.conflict "input ingest has no valid server quota policy")
        | some policy => do
          let members ← boundedListing (membersListed owner generation) maxActiveJobRecords
            "owner-session input ingest quota membership"
          let used ← ingestQuotaUsed job spec.sizeBytes owner generation policy members 0 0
          require (decide (used.1 + 1 ≤ policy.maxFileCount))
            (.conflict s!"input_ingest_file_count_limit_reached: owner-session generation limit is {policy.maxFileCount}")
          require (decide (used.2 + spec.sizeBytes ≤ policy.maxTotalBytes))
            (.conflict s!"input_ingest_total_bytes_limit_reached: owner-session generation limit is {policy.maxTotalBytes} bytes")
      | _ =>
        raise (.conflict "input ingest requires exact relay owner-session identity")
    | _ => raise (.conflict "input ingest job has an invalid specification")

/-- `_assert_input_ingest_quota_unlocked`, of a submission. -/
def assertInputIngestQuota (job : RelayJob) : Op Unit := assertInputIngestQuotaWith none job

/-! ### Active-job capacity -/

/-- The active-job index, with its file names. -/
def activeJobsListed (p : Path) (c : Content p) : Option (DurableRecordId × RelayJob) :=
  match p, c with
  | .jobActive jobId, job => some (jobId, job)
  | _, _ => none

/-- One entry of `_repair_active_job_index_unlocked`. -/
def repairActiveJob (entry : DurableRecordId × RelayJob) : Op Unit := do
  let canonical ← readJob entry.2.jobId
  match canonical with
  | none => do
    unlink (.jobActive entry.1)
    unlink (.jobQueued entry.2.jobId)
  | some job =>
    if job.state.terminal then do
      unlink (.jobActive entry.1)
      unlink (.jobQueued entry.2.jobId)
    else do
      putWithin (Platform.jobFits job) (.jobActive entry.1) job
      if job.state = .queued then
        putWithin (Platform.jobFits job) (.jobQueued job.jobId) job
      else unlink (.jobQueued job.jobId)

/-- `_repair_active_job_index_unlocked`. -/
def repairActiveJobIndex : Op Unit := do
  let entries ← boundedListing activeJobsListed maxActiveJobRecords "active job index"
  each repairActiveJob entries

/-- The error of a full index that could not be repaired. -/
def unreconciledCapacity (full : Bool) : RelayError → RelayError
  | .conflict message =>
    if full then .conflict "active_job_capacity_reached: active job capacity 10000 reached and the index could not be safely reconciled"
    else .conflict message
  | .value message =>
    if full then .conflict "active_job_capacity_reached: active job capacity 10000 reached and the index could not be safely reconciled"
    else .value message
  | e => e

/-- `_ensure_active_job_capacity_unlocked`. -/
def ensureActiveJobCapacity (job : RelayJob) : Op Unit :=
  if job.state ≠ .queued then pure ()
  else do
    let initial ← listing activeJobsListed
    Prog.mapError (unreconciledCapacity (decide (maxActiveJobRecords ≤ initial.length)))
      repairActiveJobIndex
    let active ← listing activeJobsListed
    require (decide (active.length < maxActiveJobRecords))
      (.conflict "active_job_capacity_reached: active job capacity 10000 reached; cancel or drain active work before submitting another job")

/-! ### Cancellation requests -/

/-- `scheduler_cancellation_request`. -/
def schedulerCancellationRequest (job : RelayJob) : Option Dict := do
  let request ← (job.metadata.get "cancellation_request").obj?
  if Dict.get request "schema_version" = .str "clio-relay.cancellation-request.v1" then
    some request
  else none

/-- `cancellation_requested_at`. -/
def cancellationRequestedAt (request : Dict) : Option Time :=
  (Dict.get request "requested_at").str?.bind Platform.fromisoformat

/-- Keep the scheduler cancellation of a resubmitted job pending. -/
def ensureRequestedCancellation (job : RelayJob) : Op Unit :=
  match schedulerCancellationRequest job with
  | none => pure ()
  | some request =>
    if Dict.get request "cancel_scheduler" = .bool true then do
      let _pending ← ensureSchedulerCancelPendingUnlocked job
        ((cancellationRequestedAt request).getD job.updatedAt) "operator_request"
      pure ()
    else pure ()

/-! ### Submission -/

/-- `_ensure_job_queued_event`. -/
def ensureJobQueuedEvent (job : RelayJob) : Op Unit := do
  let found ← present (.event job.jobId 1)
  if found then pure ()
  else do
    updateJobIndex job.jobId (JobIndex.setLatestEventSeq 0)
    let _event ← appendEventUnlocked job.jobId "job.queued" "Job queued" []
    pure ()

/-- The job that is submitted: the canonical id of the key, the execution id and the
digest. -/
def preparedSubmission (job : RelayJob) (existing : Option IdempotencyRecord) :
    Except RelayError RelayJob := do
  let canonical := match existing with
    | none => job
    | some record => { job with jobId := record.jobId }
  let prepared ← prepareOwnedJarvisRunSubmission canonical
  let digest := jobIdempotencyDigest prepared
  if prepared.submissionDigest.all (· == digest) then
    pure { prepared with submissionDigest := some digest }
  else .error (.conflict "submitted job carries a mismatched submission_digest")

/-- Admission of a job that does not exist yet. -/
def admitNewJob (job : RelayJob) : Op Unit := do
  assertOwnerSessionIntakeOpen job.metadata false
  assertInputIngestQuota job
  ensureActiveJobCapacity job

/-- Create the job of a reserved key. -/
def createJob (job : RelayJob) (digest : JobDigest) : Op RelayJob := do
  let _sequence ← ensureGlobal .jobs job.jobId
  initializeJobIndex job.jobId
  ensureArtifactUseIndexes job
  writeJob job
  writeCommittedIdempotencyRecord job digest
  let _event ← appendEventUnlocked job.jobId "job.queued" "Job queued" []
  pure job

/-- Answer a repeated submission from the job that exists. -/
def resumeJob (existing : RelayJob) (state : IdempotencyState) (job : RelayJob)
    (digest : JobDigest) : Op RelayJob := do
  require (existing.idempotencyKey == job.idempotencyKey &&
      existing.submissionDigest.all (· == digest))
    (.conflict s!"idempotency target identity mismatch: {existing.jobId}")
  let _sequence ← ensureGlobal .jobs existing.jobId
  initializeJobIndex existing.jobId
  ensureArtifactUseIndexes existing
  writeJob existing
  ensureRequestedCancellation existing
  ensureJobQueuedEvent existing
  (if state = .reserved then writeCommittedIdempotencyRecord existing digest else pure ())
  pure existing

/-- Record the digest of a reservation that has none. -/
def settleReservedDigest (record : IdempotencyRecord) (digest : JobDigest) :
    Op (Option JobDigest) :=
  if record.jobDigest.isNone && record.state == .reserved then do
    writeIdempotencyRecord { record with jobDigest := some digest }
    pure (some digest)
  else pure record.jobDigest

/-- A submission under a key that has a record. -/
def resubmit (job : RelayJob) (record : IdempotencyRecord) (digest : JobDigest) :
    Op RelayJob := do
  let recorded ← settleReservedDigest record digest
  require (recorded == some digest)
    (.conflict s!"idempotency key was reused with a different job payload: {job.idempotencyKey}")
  if record.state = .retired then replayRetiredJob job record digest
  else do
    let existing ← readJob record.jobId
    match existing with
    | some existing => resumeJob existing record.state job digest
    | none => do
      require (record.state == .reserved)
        (.conflict s!"idempotency key points to missing job: {job.idempotencyKey}")
      admitNewJob job
      createJob job digest

/-- A submission under a key that has no record. -/
def submitNew (job : RelayJob) (digest : JobDigest) : Op RelayJob := do
  let _uses ← artifactUseRecords job false
  admitNewJob job
  let createdAt ← utcNow
  writeIdempotencyRecord
    { state := .reserved, jobId := job.jobId, idempotencyKey := job.idempotencyKey,
      jobDigest := some digest, createdAt, committedAt := none }
  createJob job digest

/-- What `submit_job` does once the journal is replayed. -/
def submitJobUnlocked (job : RelayJob) : Op RelayJob := do
  let found ← read (.idempotency job.idempotencyKey)
  require (found.all fun record => record.idempotencyKey == job.idempotencyKey)
    (.conflict s!"invalid idempotency record for key: {job.idempotencyKey}")
  let prepared ← ofExcept (preparedSubmission job found)
  match found with
  | none => submitNew prepared (jobIdempotencyDigest prepared)
  | some record => resubmit prepared record (jobIdempotencyDigest prepared)

/-- `submit_job`. -/
def submitJob (job : RelayJob) : Op RelayJob := do
  ofExcept (validateNewOwnerSessionMetadata job.metadata)
  requireIndexMigrationComplete
  recoverPendingTransitions
  submitJobUnlocked job

end

end ClioQueue
