/-
# Lease lifecycle

The lease operations of `clio_relay/queue_leases.py`: renewal, release and the
two stale-recovery entry points.  The admission of new leases is in
`LeaseAdmission`.
-/

import ClioQueue.Transitions

namespace ClioQueue

open Durable Durable.Prog

/-- `now + timedelta(seconds=ttl_seconds)`, within the range of `datetime`. -/
def leaseExpiry (now : Time) (ttlSeconds : Int) : Except RelayError Time :=
  if datetimeMin ≤ now + ttlSeconds * 1000000 ∧ now + ttlSeconds * 1000000 ≤ datetimeMax then
    .ok (now + ttlSeconds * 1000000)
  else .error (.overflow "date value out of range")

/-- `Lease.new`. -/
def Lease.new [Entropy] (jobId endpointId : DurableRecordId) (ttlSeconds : Int) : Op Lease := do
  let now ← utcNow
  let expiresAt ← ofExcept (leaseExpiry now ttlSeconds)
  let leaseId ← newId "lease"
  pure { leaseId, jobId, endpointId, acquiredAt := now, expiresAt }

/-- The leases of a job, from `leases_by_job`. -/
def jobLeasesListed (jobId : DurableRecordId) (p : Path) (c : Content p) :
    Option (DurableRecordId × Lease) :=
  match p, c with
  | .leaseByJob job leaseId, lease => if job = jobId then some (leaseId, lease) else none
  | _, _ => none

section

variable [Platform] [Entropy]

/-- What `renew_lease` does once the journal is replayed. -/
def renewCanonicalLease (leaseId : DurableRecordId) (ttlSeconds : Int) : Op (Option Lease) := do
  let found ← readLease leaseId
  match found with
  | none => pure none
  | some lease => do
    let job ← getJob lease.jobId
    let fresh ← Lease.new lease.jobId lease.endpointId ttlSeconds
    let renewed : Lease := { fresh with leaseId := lease.leaseId }
    let transition ← prepareLeaseCapacityTransition [] false
    writeTransitionIntent (.leaseSync renewed lease job transition)
    applyLeaseSyncIntent renewed lease job transition s!"lease renewal {renewed.leaseId}"
    pure (some renewed)

/-- `renew_lease`. -/
def renewLease (leaseId : DurableRecordId) (ttlSeconds : Int) : Op (Option Lease) := do
  requireIndexMigrationComplete
  recoverPendingTransitions
  renewCanonicalLease leaseId ttlSeconds

/-- `recover_stale_jobs`. -/
def recoverStaleJobs (cluster : String) (maxAttempts : Int) : Op (List RelayJob) := do
  requireIndexMigrationComplete
  recoverPendingTransitions
  recoverStaleJobsUnlocked cluster maxAttempts

/-- `scan_job_leases`: the leases of a job from its index, or from all leases when it
has no index. -/
def scanJobLeases (jobId : DurableRecordId) (limit : Nat) : Op (List Lease × Bool) := do
  recoverPendingTransitions
  let indexed ← present (.jobIndex jobId)
  if indexed then do
    let scan ← scanMany (jobLeasesListed jobId) Lease.leaseId limit
    pure (scan.1.insertionSort fun a b => a.acquiredAt ≤ b.acquiredAt, scan.2)
  else do
    let scan ← scanMany leasesListed Lease.leaseId limit
    pure (scan.1.filter fun lease => lease.jobId == jobId, scan.2)

/-- The expired leases of a list, each judged by a clock reading of its own. -/
def expiredLeases (leases : List Lease) : Op (List Lease) :=
  gather (fun lease => do
    let now ← utcNow
    pure (if lease.isExpired now then [lease] else [])) leases

/-- What `recover_stale_job` does with the expired leases of its job. -/
def recoverJobFromLeases (job : RelayJob) (cluster : String) (maxAttempts : Int)
    (expired : List Lease) : Op (Option RelayJob) :=
  if expired.isEmpty then pure none
  else if !job.state.held then do
    each (fun lease => deleteLease lease (some job)) expired
    pure none
  else do
    let cleanup ← jobHasPendingExecutionCleanupAfterMigration cluster job.jobId
    if cleanup then pure none
    else do
      let observed ← jobHasSchedulerObservation job
      if observed then pure none
      else do
        let updated ← recoverExpiredLeases job expired maxAttempts
        pure (some updated)

/-- `recover_stale_job`. -/
def recoverStaleJob (jobId : DurableRecordId) (cluster : String) (maxAttempts : Int) :
    Op (Option RelayJob) := do
  require (decide (1 ≤ maxAttempts)) (.value "max_attempts must be at least 1")
  requireIndexMigrationComplete
  recoverPendingTransitions
  let job ← getJob jobId
  require (job.cluster == cluster)
    (.conflict s!"job {jobId} belongs to cluster {job.cluster}, not requested cluster {cluster}")
  let leases ← scanJobLeases jobId defaultExactRecordLimit
  require (!leases.2) (.conflict s!"job lease index exceeded its safety bound: {jobId}")
  let expired ← expiredLeases leases.1
  recoverJobFromLeases job cluster maxAttempts expired

/-- What `release_lease` does once the journal is replayed. -/
def releaseCanonicalLease (leaseId : DurableRecordId) : Op Unit := do
  let found ← readLease leaseId
  match found with
  | none => pure ()
  | some lease => deleteLease lease none

/-- `release_lease`. -/
def releaseLease (leaseId : DurableRecordId) : Op Unit := do
  recoverPendingTransitions
  releaseCanonicalLease leaseId

end

end ClioQueue
