/-
# Scheduler cancellation state

The durable pending and disposition records of `clio_relay/queue_scheduler_cancel_state.py`.
The record of a job lies in `scheduler_cancel_pending` while cancellation work is
due and in `scheduler_cancel_dispositions` once it is complete; the hand-over
writes the second file and then unlinks the first.
-/

import ClioQueue.SchedulerCancelRecords
import ClioQueue.Transitions

namespace ClioQueue

open Durable Durable.Prog

section

variable [Platform]

/-! ### Reading and writing -/

/-- What a read makes of the document of a stored record. -/
def decodeStored : Option SchedulerCancelPending → Op (Option SchedulerCancelPending)
  | none => pure none
  | some stored =>
    ofExcept (SchedulerCancelPending.decode stored.document) >>= fun record =>
      pure (some record)

/-- `read_optional` of the pending record of a job. -/
def readSchedulerCancelPending (cluster : String) (jobId : DurableRecordId) :
    Op (Option SchedulerCancelPending) :=
  read (.schedulerCancelPending (stableRefToken [cluster]) jobId) >>= decodeStored

/-- `read_optional` of the completed record of a job. -/
def readSchedulerCancelDisposition (cluster : String) (jobId : DurableRecordId) :
    Op (Option SchedulerCancelPending) :=
  read (.schedulerCancelDisposition (stableRefToken [cluster]) jobId) >>= decodeStored

/-- `_require_scheduler_cancel_pending_unlocked`. -/
def requireSchedulerCancelPending (jobId : DurableRecordId) (cluster : String) :
    Op SchedulerCancelPending := do
  let found ← readSchedulerCancelPending cluster jobId
  match found with
  | none => raise (.conflict s!"scheduler cancellation is not pending: {jobId}")
  | some record => do
    require (record.jobId == jobId && record.cluster == cluster)
      (.conflict "scheduler cancellation identity mismatch")
    pure record

/-- `_persist_scheduler_cancel_record_unlocked`. -/
def persistSchedulerCancelRecord (record : SchedulerCancelPending) : Op SchedulerCancelPending :=
  if record.complete then do
    putWithin (Platform.schedulerCancelFits record)
      (.schedulerCancelDisposition (stableRefToken [record.cluster]) record.jobId) record
    unlink (.schedulerCancelPending (stableRefToken [record.cluster]) record.jobId)
    pure record
  else do
    putWithin (Platform.schedulerCancelFits record)
      (.schedulerCancelPending (stableRefToken [record.cluster]) record.jobId) record
    pure record

/-! ### Creating a record -/

/-- The pending cancellations of a cluster. -/
def cancelPendingListed (cluster : String) (p : Path) (_ : Content p) : Option DurableRecordId :=
  match p with
  | .schedulerCancelPending token jobId =>
    if token = stableRefToken [cluster] then some jobId else none
  | _ => none

variable [Entropy]

/-- `_ensure_scheduler_cancel_pending_unlocked`. -/
def ensureSchedulerCancelPendingUnlocked (job : RelayJob) (requestedAt : Time) (reason : String) :
    Op SchedulerCancelPending := do
  let existing ← readSchedulerCancelPending job.cluster job.jobId
  match existing with
  | some existing => do
    require (existing.jobId == job.jobId && existing.cluster == job.cluster)
      (.conflict "scheduler cancellation identity mismatch")
    pure existing
  | none => do
    let completed ← readSchedulerCancelDisposition job.cluster job.jobId
    match completed with
    | some completed => do
      require (completed.jobId == job.jobId && completed.cluster == job.cluster)
        (.conflict "scheduler cancellation disposition identity mismatch")
      pure completed
    | none => do
      let pending ← listing (cancelPendingListed job.cluster)
      require (decide (pending.length < maxActiveJobRecords))
        (.conflict "scheduler cancellation capacity reached for cluster; retry after pending cancellation work drains")
      let updatedAt ← utcNow
      let record ← ofExcept (SchedulerCancelPending.modelValidate
        { jobId := job.jobId, cluster := job.cluster, requestedAt, reason, updatedAt })
      put (.schedulerCancelPending (stableRefToken [job.cluster]) job.jobId) record
      pure record

/-- `ensure_scheduler_cancel_pending`. -/
def ensureSchedulerCancelPending (jobId : DurableRecordId) (reason : String) :
    Op SchedulerCancelPending := do
  requireIndexMigrationComplete
  let job ← getJob jobId
  let requestedAt ← utcNow
  ensureSchedulerCancelPendingUnlocked job requestedAt reason

/-! ### Identities -/

/-- `SchedulerCancelIdentityRegistration`. -/
structure SchedulerCancelIdentityRegistration where
  record : SchedulerCancelPending
  dispositionCreated : Bool

/-- The disposition of a newly registered identity. -/
def registrationCandidate (schedulerJobId : String) (provider : Option String)
    (ownershipVerified : Bool) (updatedAt : Time) : SchedulerCancelDisposition :=
  { schedulerJobId, provider
    state := if ownershipVerified then .pending else .refused
    lastError := if ownershipVerified then none else some "scheduler identity ownership unverified"
    updatedAt }

/-- `register_scheduler_cancel_identity_once`. -/
def registerSchedulerCancelIdentityOnce (jobId : DurableRecordId) (cluster schedulerJobId : String)
    (provider : Option String) (ownershipVerified : Bool) :
    Op SchedulerCancelIdentityRegistration := do
  let record ← requireSchedulerCancelPending jobId cluster
  let createdAt ← utcNow
  let candidate ← ofExcept
    (registrationCandidate schedulerJobId provider ownershipVerified createdAt).modelValidate
  match record.find schedulerJobId with
  | none => do
    let updatedAt ← utcNow
    let persisted ← persistSchedulerCancelRecord
      { record with dispositions := record.dispositions ++ [candidate], updatedAt }
    pure { record := persisted, dispositionCreated := true }
  | some existing =>
    if existing.state ≠ .refused ∨ ownershipVerified = false then
      pure { record, dispositionCreated := false }
    else do
      let replacedAt ← utcNow
      let updatedAt ← utcNow
      let persisted ← persistSchedulerCancelRecord
        { record with
          dispositions := SchedulerCancelPending.replaced
            { candidate with
              attempts := existing.attempts
              confirmationAttempts := existing.confirmationAttempts
              updatedAt := replacedAt } record.dispositions
          updatedAt }
      pure { record := persisted, dispositionCreated := false }

/-- `finalize_scheduler_cancel_identities`. -/
def finalizeSchedulerCancelIdentities (jobId : DurableRecordId) (cluster : String) :
    Op SchedulerCancelPending := do
  let record ← requireSchedulerCancelPending jobId cluster
  require (!record.dispositions.isEmpty)
    (.conflict s!"scheduler cancellation has no identities to finalize: {jobId}")
  let updatedAt ← utcNow
  persistSchedulerCancelRecord { record with identityResolution := .resolved, updatedAt }

/-- A disposition without its claims. -/
def SchedulerCancelDisposition.unclaimed (d : SchedulerCancelDisposition) :
    SchedulerCancelDisposition :=
  { d with
    attemptClaimId := none
    attemptClaimedAt := none
    attemptClaimExpiresAt := none
    confirmationClaimId := none
    confirmationClaimedAt := none
    confirmationClaimExpiresAt := none }

/-- `complete_scheduler_cancel_identity_scan`. -/
def completeSchedulerCancelIdentityScan (jobId : DurableRecordId) (cluster : String)
    (superseded : Bool) : Op SchedulerCancelPending := do
  let record ← requireSchedulerCancelPending jobId cluster
  if !record.dispositions.isEmpty ∧ superseded = false then pure record
  else do
    let updatedAt ← utcNow
    persistSchedulerCancelRecord
      { record with
        identityResolution := if superseded then .superseded else .none
        dispositions :=
          if superseded then record.dispositions.map SchedulerCancelDisposition.unclaimed
          else record.dispositions
        updatedAt }

/-! ### Due work -/

/-- The pending records of a cluster, under their names. -/
def cancelPendingRecords (cluster : String) (p : Path) (c : Content p) :
    Option (DurableRecordId × SchedulerCancelPending) :=
  match p, c with
  | .schedulerCancelPending token jobId, record =>
    if token = stableRefToken [cluster] then some (jobId, record) else none
  | _, _ => none

/-- One record of `scan_many`. -/
def readScannedRecord (entry : DurableRecordId × SchedulerCancelPending) :
    Op (List SchedulerCancelPending) := do
  let record ← ofExcept (SchedulerCancelPending.decode entry.2.document)
  require (record.jobId == entry.1)
    (.conflict "canonical job_id filename/content identity mismatch")
  pure [record]

/-- Keep a pending record unless its completed record is there. -/
def dropCompleted (record : SchedulerCancelPending) : Op (List SchedulerCancelPending) := do
  let found ← readSchedulerCancelDisposition record.cluster record.jobId
  match found with
  | none => pure [record]
  | some completed => do
    require completed.complete (.conflict "scheduler cancellation disposition is not terminal")
    unlink (.schedulerCancelPending (stableRefToken [record.cluster]) record.jobId)
    pure []

/-- `now or utc_now()`. -/
def observedNow (now : Option Time) : Op Time :=
  match now with
  | some now => pure now
  | none => utcNow

/-- `scan_due_scheduler_cancellations`. -/
def scanDueSchedulerCancellations (cluster : String) (limit : Int) (now : Option Time) :
    Op (List SchedulerCancelPending × Bool) := do
  require (decide (1 ≤ limit) && decide (limit ≤ defaultExactRecordLimit))
    (.value "scheduler cancellation batch limit must be between 1 and 1000")
  requireIndexMigrationComplete
  let found ← listing (cancelPendingRecords cluster)
  let records ← gather readScannedRecord (found.take maxActiveJobRecords)
  let active ← gather dropCompleted records
  let observedAt ← observedNow now
  let due := (active.filter fun record => schedulerCancelRecordIsDue record observedAt).mergeSort
    schedulerCancelDueBefore
  pure (due.take limit.toNat,
    decide (maxActiveJobRecords < found.length) || decide (limit < due.length))

end

end ClioQueue
