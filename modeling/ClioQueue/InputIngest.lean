/-
# Input ingest

`clio_relay/queue_input_ingest.py`: the attempts of a synchronous ingest job, kept in
the metadata of the job.  An attempt is begun under the quota of its owner-session
generation, failed or abandoned, or its artifact is reconciled and the job completed.
An attempt is claimed by its id; a call with another id is refused.
-/

import ClioQueue.EventLog
import ClioQueue.JobListings
import ClioQueue.LeaseAdmission

namespace ClioQueue

open Durable Durable.Prog

/-! ### Attempts -/

/-- The outcomes of an attempt. -/
inductive IngestOutcome where
  | running
  | succeeded
  | failed
  | abandoned
  deriving DecidableEq

/-- The text of an outcome. -/
def IngestOutcome.value : IngestOutcome → String
  | .running => "running"
  | .succeeded => "succeeded"
  | .failed => "failed"
  | .abandoned => "abandoned"

/-- The outcome of a text. -/
def ingestOutcome : Json → Option IngestOutcome
  | .str "running" => some .running
  | .str "succeeded" => some .succeeded
  | .str "failed" => some .failed
  | .str "abandoned" => some .abandoned
  | _ => none

/-- A validated attempt record. -/
structure InputIngestAttempt where
  attemptId : DurableRecordId
  startedAt : String
  outcome : IngestOutcome
  completedAt : Option String
  error : Option String
  deriving DecidableEq

/-- `INPUT_INGEST_ATTEMPT_SCHEMA`. -/
def inputIngestAttemptSchema : String := "clio-relay.input-ingest-attempt.v1"

/-- The dictionary of an attempt. -/
def InputIngestAttempt.dict (attempt : InputIngestAttempt) : Dict :=
  [("schema_version", .str inputIngestAttemptSchema), ("attempt_id", .str attempt.attemptId.value),
    ("started_at", .str attempt.startedAt), ("outcome", .str attempt.outcome.value)] ++
  (attempt.completedAt.toList.map fun text => ("completed_at", Json.str text)) ++
  attempt.error.toList.map fun text => ("error", Json.str text)

/-- An optional text of an attempt record. -/
def attemptText (invalid : RelayError) : Json → Except RelayError (Option String)
  | .null => .ok none
  | .str text => .ok (some text)
  | _ => .error invalid

section

variable [Platform] [Entropy]

/-- `_input_ingest_attempt`. -/
def inputIngestAttempt (job : RelayJob) : Except RelayError (Option InputIngestAttempt) :=
  let invalid : RelayError := .conflict s!"input ingest attempt metadata is invalid: {job.jobId}"
  match job.metadata.get "input_ingest_attempt" with
  | .null => .ok none
  | .obj attempt =>
    if Dict.get attempt "schema_version" ≠ .str inputIngestAttemptSchema then .error invalid
    else
      match Dict.get attempt "attempt_id", Dict.get attempt "started_at",
        ingestOutcome (Dict.get attempt "outcome") with
      | .str attemptId, .str startedAt, some outcome =>
        match validateDurableRecordId attemptId, Platform.isoOffset startedAt with
        | .ok attemptId, some (some _) => do
          let completedAt ← attemptText invalid (Dict.get attempt "completed_at")
          let error ← attemptText invalid (Dict.get attempt "error")
          .ok (some { attemptId, startedAt, outcome, completedAt, error })
        | .ok _, some none =>
          .error (.conflict s!"input ingest attempt timestamp is naive: {job.jobId}")
        | _, _ => .error invalid
      | _, _, _ => .error invalid
  | _ => .error invalid

/-- Whether the attempt with the id is running. -/
def attemptRuns (attempt : Option InputIngestAttempt) (attemptId : DurableRecordId) : Bool :=
  attempt.any fun attempt => attempt.attemptId == attemptId && attempt.outcome == .running

/-- The specification of an ingest job. -/
def RelayJob.ingestSpec (job : RelayJob) : Option InputArtifactSpec :=
  match job.kind, job.spec with
  | .inputIngest, .inputArtifact spec => some spec
  | _, _ => none

/-- A job that must be an ingest job. -/
def requireIngestJob (jobId : DurableRecordId) : Op (RelayJob × InputArtifactSpec) := do
  let job ← getJob jobId
  match job.ingestSpec with
  | none => raise (.conflict s!"job is not an input ingest: {jobId}")
  | some spec => pure (job, spec)

/-! ### Beginning an attempt -/

/-- `model_dump` of a policy. -/
def InputArtifactIngestPolicy.dump (policy : InputArtifactIngestPolicy) : Json :=
  .obj [("schema_version", .str "clio-relay.input-artifact-ingest-policy.v1"),
    ("max_file_count", .num policy.maxFileCount ""),
    ("max_total_bytes", .num policy.maxTotalBytes "")]

/-- The metadata of a begun attempt. -/
def begunMetadata (metadata : Dict) (stored effective : InputArtifactIngestPolicy)
    (attemptId : DurableRecordId) (now : Time) : Dict :=
  let kept := if effective ≠ stored ∧ !metadata.has "input_ingest_original_policy" then
    metadata.set "input_ingest_original_policy" stored.dump else metadata
  (kept.set "input_ingest_policy" effective.dump).set "input_ingest_attempt"
    (.obj [("schema_version", .str inputIngestAttemptSchema), ("attempt_id", .str attemptId.value),
      ("started_at", .str (Platform.isoformat now)), ("outcome", .str "running")])

/-- The job of a begun attempt. -/
def begunJob (job : RelayJob) (stored effective : InputArtifactIngestPolicy)
    (attemptId : DurableRecordId) (now : Time) : RelayJob :=
  { job with
    state := .running
    updatedAt := now
    lastError := none
    leasedBy := none
    metadata := begunMetadata job.metadata stored effective attemptId now }

/-- Begin an attempt of a queued or failed ingest job. -/
def startInputIngest (job : RelayJob) (attemptId : DurableRecordId)
    (policy : Option InputArtifactIngestPolicy) : Op RelayJob :=
  match inputArtifactIngestPolicy (job.metadata.get "input_ingest_policy") with
  | none => raise (.conflict "input ingest has no valid server quota policy")
  | some stored => do
    let effective := policy.getD stored
    assertInputIngestQuotaWith (some effective) job
    let now ← utcNow
    require (job.metadata.get "input_ingest_original_policy" == .null ||
        (inputArtifactIngestPolicy (job.metadata.get "input_ingest_original_policy")).isSome)
      (.conflict "input ingest original quota policy is invalid")
    let started := begunJob job stored effective attemptId now
    writeJob started
    let _event ← appendEventUnlocked job.jobId "input_ingest.started"
      "Input artifact ingest attempt started"
      [("attempt_id", .str attemptId.value), ("retry", .bool (job.state == .failed)),
        ("policy_changed", .bool (effective != stored))]
    pure started

/-- What `begin_input_ingest` does once the journal is replayed. -/
def beginInputIngestUnlocked (jobId attemptId : DurableRecordId)
    (policy : Option InputArtifactIngestPolicy) : Op (RelayJob × Bool) := do
  let ingest ← requireIngestJob jobId
  let job := ingest.1
  if job.state = .succeeded then pure (job, false)
  else do
    let existing ← ofExcept (inputIngestAttempt job)
    if job.state = .running then do
      require (existing.any fun attempt => attempt.attemptId == attemptId)
        (.conflict s!"input ingest already has an active attempt: {jobId}")
      pure (job, false)
    else do
      require (job.state == .queued || job.state == .failed)
        (.conflict s!"input ingest cannot begin from state {job.state.value}: {jobId}")
      let started ← startInputIngest job attemptId policy
      pure (started, true)

/-- `begin_input_ingest`. -/
def beginInputIngest (jobId attemptId : DurableRecordId)
    (policy : Option InputArtifactIngestPolicy) : Op (RelayJob × Bool) := do
  recoverPendingTransitions
  beginInputIngestUnlocked jobId attemptId policy

/-! ### Failed and abandoned attempts -/

/-- A job whose ingest ended without an artifact. -/
def failedIngest (job : RelayJob) (attempt : Dict) (error : String) (now : Time) : RelayJob :=
  { job with
    state := .failed
    updatedAt := now
    lastError := some error
    leasedBy := none
    metadata := job.metadata.set "input_ingest_attempt" (.obj attempt) }

/-- The record of a failed attempt. -/
def failedAttempt (attempt : InputIngestAttempt) (error : String) (now : Time) : Dict :=
  ((attempt.dict.set "completed_at" (.str (Platform.isoformat now))).set "outcome"
    (.str "failed")).set "error" (.str error)

/-- `bounded_error_detail(error) or ...`. -/
def ingestError (error : String) : String :=
  if Platform.boundedErrorDetail error = "" then "input artifact ingest failed"
  else Platform.boundedErrorDetail error

/-- Fail the running attempt. -/
def failAttempt (job : RelayJob) (attempt : InputIngestAttempt) (error : String) :
    Op (RelayJob × Bool) := do
  let now ← utcNow
  let failed := failedIngest job (failedAttempt attempt error now) error now
  writeJob failed
  let _event ← appendEventUnlocked job.jobId "job.failed" "Input artifact ingest failed"
    [("state", .str JobState.failed.value), ("attempt_id", .str attempt.attemptId.value),
      ("error", .str error)]
  pure (failed, true)

/-- What `fail_input_ingest` does once the journal is replayed. -/
def failInputIngestUnlocked (jobId attemptId : DurableRecordId) (error : String) :
    Op (RelayJob × Bool) := do
  let ingest ← requireIngestJob jobId
  let job := ingest.1
  let attempt ← ofExcept (inputIngestAttempt job)
  if job.state = .succeeded then pure (job, false)
  else if job.state = .failed then do
    require (attempt.any fun attempt => attempt.attemptId == attemptId)
      (.conflict s!"input ingest failed under another attempt: {jobId}")
    pure (job, false)
  else
    match attempt with
    | some attempt =>
      if job.state = .running ∧ attempt.attemptId = attemptId ∧ attempt.outcome = .running then
        failAttempt job attempt error
      else raise (.conflict s!"input ingest attempt identity changed: {jobId}")
    | none => raise (.conflict s!"input ingest attempt identity changed: {jobId}")

/-- `fail_input_ingest`. -/
def failInputIngest (jobId attemptId : DurableRecordId) (error : String) :
    Op (RelayJob × Bool) := do
  recoverPendingTransitions
  failInputIngestUnlocked jobId attemptId (ingestError error)

/-- `MAX_INPUT_INGEST_RECOVERY_BATCH`. -/
def maxInputIngestRecoveryBatch : Nat := 256

/-- The error of an abandoned attempt. -/
def abandonedError : String := "input ingest attempt ended without terminal reconciliation"

/-- The id and the start of an abandoned attempt; a job without an attempt gets an id of its
own. -/
def abandonedIdentity (job : RelayJob) : Option InputIngestAttempt → Op (String × String)
  | some attempt => pure (attempt.attemptId.value, attempt.startedAt)
  | none => do
    let uuid ← uuid4
    pure (s!"ingest_recovery_{uuid.hex}", Platform.isoformat job.updatedAt)

/-- The record of an abandoned attempt. -/
def abandonedAttempt (identity : String × String) (now : Time) : Dict :=
  [("schema_version", .str inputIngestAttemptSchema), ("attempt_id", .str identity.1),
    ("started_at", .str identity.2), ("completed_at", .str (Platform.isoformat now)),
    ("outcome", .str "abandoned"), ("error", .str abandonedError)]

/-- Fail one abandoned ingest job. -/
def abandonIngest (job : RelayJob) : Op RelayJob := do
  let now ← utcNow
  let existing ← ofExcept (inputIngestAttempt job)
  let identity ← abandonedIdentity job existing
  let failed := failedIngest job (abandonedAttempt identity now) abandonedError now
  writeJob failed
  let _event ← appendEventUnlocked job.jobId "job.failed"
    "Abandoned input artifact ingest recovered"
    [("state", .str JobState.failed.value), ("attempt_id", .str identity.1),
      ("previous_state", .str job.state.value), ("error", .str abandonedError)]
  pure failed

/-- Whether a job is an ingest of the cluster that nothing has changed since the cutoff. -/
def abandoned (cluster : String) (cutoff : Time) (job : RelayJob) : Bool :=
  job.cluster == cluster && job.kind == .inputIngest &&
    (job.state == .queued || job.state == .running) && decide (job.updatedAt ≤ cutoff)

/-- The loop of `recover_abandoned_input_ingests`. -/
def abandonFirst (cluster : String) (cutoff : Time) (limit : Nat) :
    List RelayJob → List RelayJob → Op (List RelayJob)
  | [], recovered => pure recovered
  | indexed :: rest, recovered =>
    if limit ≤ recovered.length then pure recovered
    else do
      let job ← getJob indexed.jobId
      if abandoned cluster cutoff job then do
        let failed ← abandonIngest job
        abandonFirst cluster cutoff limit rest (recovered ++ [failed])
      else abandonFirst cluster cutoff limit rest recovered

/-- The active jobs in the order of their submission. -/
def activeJobs : Op (List RelayJob) := do
  let scan ← scanMany activeJobsListed RelayJob.jobId maxActiveJobRecords
  require (!scan.2) (.conflict "active job index exceeded its safety bound")
  let keyed ← gather jobSubmissionOrder scan.1
  pure ((keyed.insertionSort submittedBefore).map Prod.snd)

/-- What `recover_abandoned_input_ingests` does once the journal is replayed. -/
def recoverAbandonedUnlocked (cluster : String) (cutoff : Time) (limit : Nat) :
    Op (List RelayJob) := do
  repairActiveJobIndex
  let active ← activeJobs
  abandonFirst cluster cutoff limit active []

/-- The cutoff of a recovery: the caller's, or five minutes ago. -/
def ingestCutoff : Option Time → Op Time
  | some staleBefore => pure staleBefore
  | none => do
    let now ← utcNow
    ofExcept (leaseExpiry now (-300))

/-- `recover_abandoned_input_ingests`. -/
def recoverAbandonedInputIngests (cluster : String) (staleBefore : Option Time) (limit : Int) :
    Op (List RelayJob) := do
  require (decide (1 ≤ limit ∧ limit ≤ (maxInputIngestRecoveryBatch : Int)))
    (.value s!"input ingest recovery limit must be between 1 and {maxInputIngestRecoveryBatch}")
  let cutoff ← ingestCutoff staleBefore
  recoverPendingTransitions
  recoverAbandonedUnlocked cluster cutoff limit.toNat

/-! ### The artifact -/

/-- `_same_input_artifact`. -/
def sameInputArtifact (existing requested : ArtifactRef) : Bool :=
  existing == { requested with sequence := existing.sequence, createdAt := existing.createdAt }

/-- The checks of `reconcile_input_artifact` on the job, for a caller with an attempt id. -/
def checkReconciledAttempt (job : RelayJob) : Option DurableRecordId → Op Unit
  | none => pure ()
  | some attemptId => do
    let attempt ← ofExcept (inputIngestAttempt job)
    require (job.state == .running && attemptRuns attempt attemptId)
      (.conflict s!"input ingest attempt identity changed before reconciliation: {job.jobId}")

/-- Whether an artifact has the content that the job announced. -/
def ingestContent (job : RelayJob) (spec : InputArtifactSpec) (artifact : ArtifactRef) : Bool :=
  artifact.jobId == job.jobId && artifact.kind == "input" &&
    artifact.sizeBytes == some spec.sizeBytes && artifact.sha256 == some spec.sha256

/-- The checks of `reconcile_input_artifact`. -/
def checkReconciliation (artifact : ArtifactRef) (attemptId : Option DurableRecordId) :
    Op (RelayJob × InputArtifactSpec) := do
  let job ← getJob artifact.jobId
  match job.ingestSpec with
  | none =>
    raise (.conflict s!"input artifact producer is not an ingest job: {artifact.jobId}")
  | some spec => do
    require (job.state == .queued || job.state == .running || job.state == .succeeded)
      (.conflict s!"input ingest job is not reconcilable from state {job.state.value}: {job.jobId}")
    checkReconciledAttempt job attemptId
    require (job.metadata.get "owner" == .str "clio-relay" &&
        (job.metadata.get "owner_session_id").str?.isSome &&
        (job.metadata.get "owner_session_generation_id").str?.isSome)
      (.conflict s!"input ingest job has no exact owner-session generation: {job.jobId}")
    require (artifact.artifactId == Platform.deterministicInputArtifactId job.jobId)
      (.conflict s!"input artifact identity changed for job: {job.jobId}")
    require (ingestContent job spec artifact &&
        artifact.metadata.get "schema_version" == .str "clio-relay.input-artifact.v1" &&
        artifact.metadata.get "logical_name" == .str spec.logicalName)
      (.conflict s!"input artifact content identity changed for job: {job.jobId}")
    pure (job, spec)

/-- The canonical record of the input artifact: the one that exists, or a new one. -/
def saveInputArtifact (artifact : ArtifactRef) : Op ArtifactRef := do
  let existing ← read (.artifact artifact.artifactId)
  require (existing.all fun found => found.artifactId == artifact.artifactId)
    (.conflict "canonical artifact identity mismatch")
  match existing with
  | none => do
    let sequence ← nextJobRecordSequence artifact.jobId JobIndex.artifactCount
    require (sequence == 1)
      (.conflict s!"input ingest job already has another artifact: {artifact.jobId}")
    let saved := { artifact with sequence := some sequence }
    putWithin (Platform.artifactFits saved) (.artifact saved.artifactId) saved
    pure saved
  | some existing => do
    require (existing.sequence == some 1 && sameInputArtifact existing artifact)
      (.conflict s!"canonical input artifact identity changed: {artifact.artifactId}")
    pure existing

/-- The names of the artifacts of a job. -/
def artifactNames (jobId : DurableRecordId) (p : Path) (_ : Content p) : Option DurableRecordId :=
  match p with
  | .artifactByJob job artifactId => if job = jobId then some artifactId else none
  | _ => none

/-- The artifact count of the job becomes one. -/
def countInputArtifact (saved : ArtifactRef) : Op Unit := do
  let index ← read (.jobIndex saved.jobId)
  match index with
  | none => raise (.conflict s!"input ingest job index is missing: {saved.jobId}")
  | some index => do
    require (decide (index.artifactCount ≤ 1))
      (.conflict s!"input ingest artifact count is invalid: {saved.jobId}")
    if index.artifactCount = 0 then
      updateJobIndex saved.jobId fun index => { index with artifactCount := 1 }
    else pure ()

/-- The copies of the input artifact, its count and its backlinks. -/
def indexInputArtifact (saved : ArtifactRef) : Op Unit := do
  let names ← boundedListing (artifactNames saved.jobId) 2 s!"input artifacts for job {saved.jobId}"
  require (names.all fun name => name == saved.artifactId)
    (.conflict s!"input ingest job has an unexpected artifact: {saved.jobId}")
  let byJob ← read (.artifactByJob saved.jobId saved.artifactId)
  require (byJob.all fun found => found == saved)
    (.conflict s!"input artifact job index changed: {saved.artifactId}")
  putWithin (Platform.artifactFits saved) (.artifactByJob saved.jobId saved.artifactId) saved
  let ordered ← read (.artifactOrder saved.jobId 1)
  require (ordered.all fun found => found == saved)
    (.conflict s!"input artifact order index changed: {saved.artifactId}")
  putWithin (Platform.artifactFits saved) (.artifactOrder saved.jobId 1) saved
  countInputArtifact saved
  initializeArtifactUserOrder saved.artifactId
  linkGatewaysForArtifact saved

/-- The loop over the event sequences. -/
def findEvent (jobId : DurableRecordId) (wanted : RelayEvent → Bool) : List Nat → Op Bool
  | [] => pure false
  | sequence :: sequences => do
    let event ← read (.event jobId sequence)
    require (event.any fun event => event.jobId == jobId && event.seq == sequence)
      (.conflict s!"input ingest event history is incomplete: {jobId}")
    if event.any wanted then pure true else findEvent jobId wanted sequences

/-- Look for an event of a job, among those its index knows. -/
def eventExists (jobId : DurableRecordId) (wanted : RelayEvent → Bool) : Op Bool := do
  let index ← read (.jobIndex jobId)
  match index with
  | none => raise (.conflict s!"input ingest job index is missing: {jobId}")
  | some index => do
    require (decide (index.latestEventSeq ≤ defaultExactRecordLimit))
      (.conflict s!"input ingest event history exceeds its reconciliation bound: {jobId}")
    findEvent jobId wanted (List.range' 1 index.latestEventSeq)

/-- The event of an input artifact. -/
def announcesArtifact (artifactId : DurableRecordId) (event : RelayEvent) : Bool :=
  event.eventType == "artifact.created" && event.payload.get "artifact_id" == .str artifactId.value

/-- `_input_artifact_event_exists_unlocked`. -/
def inputArtifactEventExists (artifact : ArtifactRef) : Op Bool :=
  eventExists artifact.jobId (announcesArtifact artifact.artifactId)

/-- The event of `reconcile_input_artifact`. -/
def announceInputArtifact (spec : InputArtifactSpec) (saved : ArtifactRef) : Op ArtifactRef := do
  let announced ← inputArtifactEventExists saved
  if announced then pure saved
  else do
    let _event ← appendEventUnlocked saved.jobId "artifact.created"
      s!"Input artifact indexed: {spec.logicalName}"
      [("artifact_id", .str saved.artifactId.value), ("uri", .str saved.uri),
        ("kind", .str "input"), ("logical_name", .str spec.logicalName)]
    pure saved

/-- What `reconcile_input_artifact` does once the journal is replayed. -/
def reconcileInputArtifactUnlocked (artifact : ArtifactRef) (attemptId : Option DurableRecordId) :
    Op ArtifactRef := do
  let ingest ← checkReconciliation artifact attemptId
  let saved ← saveInputArtifact artifact
  indexInputArtifact saved
  announceInputArtifact ingest.2 saved

/-- `reconcile_input_artifact`. -/
def reconcileInputArtifact (artifact : ArtifactRef) (attemptId : Option DurableRecordId) :
    Op ArtifactRef := do
  recoverPendingTransitions
  reconcileInputArtifactUnlocked artifact attemptId

/-! ### Completion -/

/-- The job of a completed ingest. -/
def succeededIngest (job : RelayJob) (metadata : Dict) (now : Time) : RelayJob :=
  { job with
    state := .succeeded
    updatedAt := now
    lastError := none
    leasedBy := none
    metadata }

/-- The metadata of a completed ingest. -/
def succeededMetadata (job : RelayJob) : Option InputIngestAttempt → Op Dict
  | none => pure job.metadata
  | some attempt => do
    let now ← utcNow
    pure (job.metadata.set "input_ingest_attempt" (.obj
      ((attempt.dict.set "completed_at" (.str (Platform.isoformat now))).set "outcome"
        (.str "succeeded"))))

/-- Terminalize a queued or running ingest job. -/
def succeedIngest (job : RelayJob) (attempt : Option InputIngestAttempt) : Op RelayJob := do
  let metadata ← succeededMetadata job attempt
  let now ← utcNow
  let succeeded := succeededIngest job metadata now
  writeJob succeeded
  pure succeeded

/-- `_input_ingest_succeeded_event_exists_unlocked`. -/
def inputIngestSucceededEventExists (jobId : DurableRecordId) : Op Bool :=
  eventExists jobId fun event => event.eventType == "job.succeeded"

/-- The event of `complete_input_ingest`. -/
def announceIngest (jobId : DurableRecordId) : Op Unit := do
  let announced ← inputIngestSucceededEventExists jobId
  if announced then pure ()
  else do
    let _event ← appendEventUnlocked jobId "job.succeeded" "Input artifact ingested"
      [("state", .str JobState.succeeded.value), ("error", .null)]
    pure ()

/-- The checks of `complete_input_ingest`. -/
def checkCompletion (jobId : DurableRecordId) (attemptId : Option DurableRecordId) :
    Op (RelayJob × Option InputIngestAttempt) := do
  let ingest ← requireIngestJob jobId
  let job := ingest.1
  require (job.state == .queued || job.state == .running || job.state == .succeeded)
    (.conflict s!"input ingest job has unexpected state: {job.state.value}")
  let attempt ← ofExcept (inputIngestAttempt job)
  require (attemptId.all fun attemptId => job.state == .running && attemptRuns attempt attemptId)
    (.conflict s!"input ingest attempt identity changed before completion: {jobId}")
  let artifact ← read (.artifact (Platform.deterministicInputArtifactId job.jobId))
  require (artifact.any fun artifact =>
      artifact.artifactId == Platform.deterministicInputArtifactId job.jobId &&
        ingestContent job ingest.2 artifact)
    (.conflict s!"input ingest cannot complete without its exact artifact: {jobId}")
  pure (job, attempt)

/-- What `complete_input_ingest` does once the journal is replayed. -/
def completeInputIngestUnlocked (jobId : DurableRecordId) (attemptId : Option DurableRecordId) :
    Op (RelayJob × Bool) := do
  let ingest ← checkCompletion jobId attemptId
  let changed := ingest.1.state == .queued || ingest.1.state == .running
  let job ← (if changed then succeedIngest ingest.1 ingest.2 else pure ingest.1)
  announceIngest job.jobId
  pure (job, changed)

/-- `complete_input_ingest`. -/
def completeInputIngest (jobId : DurableRecordId) (attemptId : Option DurableRecordId) :
    Op (RelayJob × Bool) := do
  recoverPendingTransitions
  completeInputIngestUnlocked jobId attemptId

end

end ClioQueue
