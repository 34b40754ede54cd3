/-
# Canonical job records

Reading a job, the execution-cleanup receipts of
`clio_relay/queue_execution_cleanup.py`, the write-ahead intent of
`clio_relay/core_queue.py` and `write_job` of `clio_relay/queue_jobs.py`: a job is
written as an intent, its canonical record, its derived indexes and the removal
of the intent, so that an interrupted write is finished by the journal replay.
-/

import ClioQueue.GatewayIndexes
import ClioQueue.Ordering
import ClioQueue.OwnerSessions

namespace ClioQueue

open Durable Durable.Prog

/-! ### Reading -/

/-- `read_optional` of a canonical job: the record must carry its file name. -/
def readJob (jobId : DurableRecordId) : Op (Option RelayJob) := do
  let found ← read (.job jobId)
  require (found.all fun job => job.jobId == jobId)
    (.conflict "canonical job identity mismatch")
  pure found

/-- `read_required_job`, `get_job`. -/
def getJob (jobId : DurableRecordId) : Op RelayJob := do
  let found ← readJob jobId
  match found with
  | none => raise (.notFound s!"job not found: {jobId}")
  | some job => pure job

/-- `read_optional` of a canonical lease. -/
def readLease (leaseId : DurableRecordId) : Op (Option Lease) := do
  let found ← read (.lease leaseId)
  require (found.all fun lease => lease.leaseId == leaseId)
    (.conflict "canonical lease identity mismatch")
  pure found

/-! ### Transition intents -/

/-- The file name of an intent. -/
def TransitionIntent.key : TransitionIntent → IntentKey
  | .leaseIndexRepair .. => .leaseIndexRepair
  | .leaseAcquire lease .. => .leaseAcquire lease.leaseId
  | .leaseSync lease .. => .leaseSync lease.leaseId
  | .leaseDelete lease .. => .leaseDelete lease.leaseId
  | .staleLeaseRecovery original target leases .. =>
    .staleLeaseRecovery original.jobId target.updatedAt
      ((leases.map Lease.leaseId).insertionSort fun a b => a.value ≤ b.value)
  | .jobSync jobId _ => .jobSync jobId
  | .taskSync _ taskId => .taskSync taskId
  | .gatewaySync sessionId => .gatewaySync sessionId

/-- `_write_transition_intent_unlocked`. -/
def writeTransitionIntent [Entropy] (intent : TransitionIntent) : Op Unit := do
  let _createdAt ← utcNow
  put (.intent intent.key) intent

section

variable [Platform] [Entropy]

/-! ### Execution cleanup -/

/-- `label_key` of a cluster. -/
def clusterLabel (cluster : String) : Except RelayError FilesystemKey := labelKey cluster "cluster"

/-- `_migrate_execution_cleanup_shard_unlocked`, on a queue that never held legacy
flat markers: the shard only needs its receipt. -/
def migrateExecutionCleanupShard (cluster : String) (shard : Fin 256) : Op Unit := do
  let label ← ofExcept (clusterLabel cluster)
  let found ← present (.cleanupMigration label shard)
  if found then pure ()
  else do
    let completedAt ← utcNow
    put (.cleanupMigration label shard) completedAt

/-- `_job_has_pending_execution_cleanup_unlocked`. -/
def jobHasPendingExecutionCleanup (cluster : String) (jobId : DurableRecordId) : Op Bool := do
  let label ← ofExcept (clusterLabel cluster)
  let migrated ← present (.cleanupMigration label (Platform.executionCleanupShard jobId))
  let pending ← listing fun p _ =>
    match p with
    | .cleanupPending l shard job task =>
      if l = label ∧ shard = Platform.executionCleanupShard jobId ∧ job = jobId then some task
      else none
    | _ => none
  pure (!migrated || !pending.isEmpty)

/-- `_job_has_pending_execution_cleanup_after_migration_unlocked`. -/
def jobHasPendingExecutionCleanupAfterMigration (cluster : String) (jobId : DurableRecordId) :
    Op Bool := do
  migrateExecutionCleanupShard cluster (Platform.executionCleanupShard jobId)
  jobHasPendingExecutionCleanup cluster jobId

/-! ### Writing -/

/-- `_sync_job_derived_unlocked`. -/
def syncJobDerived (job : RelayJob) : Op Unit := do
  syncOwnerSessionJobMembership job
  syncSchedulerSource job.jobId "job" job.metadata
  if job.state.terminal then do
    unlink (.jobActive job.jobId)
    unlink (.jobQueued job.jobId)
  else do
    putWithin (Platform.jobFits job) (.jobActive job.jobId) job
    if job.state = .queued then
      putWithin (Platform.jobFits job) (.jobQueued job.jobId) job
    else unlink (.jobQueued job.jobId)

/-- `write_job`. -/
def writeJob (job : RelayJob) : Op Unit := do
  migrateExecutionCleanupShard job.cluster (Platform.executionCleanupShard job.jobId)
  writeTransitionIntent (.jobSync job.jobId job.updatedAt)
  putWithin (Platform.jobFits job) (.job job.jobId) job
  syncJobDerived job
  unlink (.intent (.jobSync job.jobId))

end

/-! ### A sample job -/

/-- A queued job of the cluster `ares`. -/
def sampleJob : RelayJob where
  jobId := ⟨"job_1", by decide⟩
  cluster := "ares"
  kind := .jarvis
  state := .queued
  spec := .jarvisRun []
  idempotencyKey := "key"
  ownerSessionId := none
  ownerSessionGenerationId := none
  usedArtifactRefs := []
  submissionDigest := none
  createdAt := 0
  updatedAt := 0
  leasedBy := none
  attempts := 0
  lastError := none
  storageReservation := none
  metadata := []

end ClioQueue
