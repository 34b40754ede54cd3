/-
# Stale-lease recovery

`clio_relay/queue_lease_recovery.py`: the deletion of a canonical lease with its
index files and its capacity transition, the intent-first recovery of a job from
its expired leases, the replay of an interrupted recovery, and the sweep over the
expiry references that admission and the recovery calls share.

A deletion is always one of two things in the source, chosen by the arguments of
`_delete_lease_unlocked`: a deletion with an intent of its own (`deleteLease`),
or one of the deletions of a recovery intent (`deleteRecoveredLease`).
-/

import ClioQueue.JobRecords
import ClioQueue.LeaseIndexes

namespace ClioQueue

open Durable Durable.Prog

/-- `MAX_BOUNDED_SCAN_RECORDS`. -/
def maxBoundedScanRecords : Nat := 10000

section

variable [Platform] [Entropy]

/-! ### Deleting a lease -/

/-- The unlinks of `_delete_lease_unlocked`. -/
def deleteLeaseFiles (lease : Lease) (identity : LeaseIndexIdentity) : Op Unit := do
  unlink (.lease lease.leaseId)
  unlink (.leaseByJob lease.jobId lease.leaseId)
  deleteLeaseOperationalIndexes identity false

/-- The identity under which `_delete_lease_unlocked` deletes: that of the lease
with its job, or the indexed one when the job is gone. -/
def deletionIdentity (lease : Lease) (job : Option RelayJob) : Op LeaseIndexIdentity :=
  match job with
  | some job => ofExcept (leaseIndexIdentity lease job)
  | none => do
    let found ← readJob lease.jobId
    match found with
    | some job => ofExcept (leaseIndexIdentity lease job)
    | none => readLeaseIndexIdentity lease.leaseId

/-- `_delete_lease_unlocked` with an intent of its own. -/
def deleteLease (lease : Lease) (job : Option RelayJob) : Op Unit := do
  let identity ← deletionIdentity lease job
  ofExcept (validateLeaseIndexIdentity lease identity)
  let found ← present (.leaseIndex (leaseIndexToken lease.leaseId))
  require found
    (.conflict s!"lease operational index is missing before deletion: {lease.leaseId}")
  let indexed ← readLeaseIndexIdentity lease.leaseId
  require (indexed == identity)
    (.conflict s!"lease operational identity changed before deletion: {lease.leaseId}")
  let transition ← prepareLeaseCapacityTransition [⟨identity.cluster, identity.jobKind, -1⟩] false
  writeTransitionIntent (.leaseDelete lease identity transition)
  deleteLeaseFiles lease identity
  let _pair ← applyLeaseCapacityTransition transition .after s!"lease deletion {lease.leaseId}"
  unlink (.intent (.leaseDelete lease.leaseId))

/-- `_delete_lease_unlocked` for a lease of a recovery intent. -/
def deleteRecoveredLease (original : RelayJob) (lease : Lease) : Op Unit := do
  let identity ← ofExcept (leaseIndexIdentity lease original)
  ofExcept (validateLeaseIndexIdentity lease identity)
  let found ← present (.leaseIndex (leaseIndexToken lease.leaseId))
  (if found then do
    let indexed ← readLeaseIndexIdentity lease.leaseId
    require (indexed == identity)
      (.conflict s!"lease operational identity changed before deletion: {lease.leaseId}")
  else pure ())
  deleteLeaseFiles lease identity

/-! ### The recovery intent -/

/-- The error of a job that exceeded its attempts. -/
def retryLimitError : String := "expired lease exceeded retry limit"

/-- The job a recovery decides: failed, or queued again. -/
def recoveredJob (job : RelayJob) (state : JobState) (updatedAt : Time) : RelayJob :=
  { job with
    state
    leasedBy := none
    updatedAt
    lastError := if state = .failed then some retryLimitError else job.lastError }

/-- The event type of a recovery. -/
def recoveryEventType (state : JobState) : String :=
  if state = .failed then "job.failed" else "job.requeued"

/-- The event message of a recovery. -/
def recoveryMessage (state : JobState) : String :=
  if state = .failed then "Job failed after expired lease retry limit"
  else "Job requeued after expired worker lease"

/-- The event payload of a recovery. -/
def recoveryPayload (original : RelayJob) (state : JobState) (leases : List Lease) : Dict :=
  [("state", .str state.value),
    ("expired_lease_ids", .arr (leases.map fun lease => .str lease.leaseId.value)),
    ("previous_state", .str original.state.value)] ++
  if state = .failed then [("error", .str retryLimitError)] else []

/-- The checks of `_apply_stale_lease_recovery_intent_unlocked` on the intent. -/
def recoveryIntentValid (original target : RelayJob) (leases : List Lease) (event : RelayEvent) :
    Bool :=
  target.jobId == original.jobId && target.cluster == original.cluster &&
    target.kind == original.kind && original.state.held &&
    (target.state == .queued || target.state == .failed) && target.leasedBy.isNone &&
    target == recoveredJob original target.state target.updatedAt &&
    event.jobId == original.jobId && event.eventType == recoveryEventType target.state &&
    event.message == recoveryMessage target.state &&
    event.payload == recoveryPayload original target.state leases && decide (1 ≤ event.seq) &&
    !leases.isEmpty && decide (leases.map Lease.leaseId).Nodup &&
    leases.all fun lease => lease.jobId == original.jobId

/-- The checks of a recovery replay on one lease. -/
def checkRecoveredLease (original : RelayJob) (current : Option RelayJob) (lease : Lease) :
    Op Unit := do
  let canonical ← readLease lease.leaseId
  require (canonical.all fun found => found == lease)
    (.conflict s!"stale recovery canonical lease changed: {lease.leaseId}")
  require (canonical.isSome || current != some original)
    (.conflict s!"stale recovery canonical lease is missing: {lease.leaseId}")
  let found ← present (.leaseIndex (leaseIndexToken lease.leaseId))
  if found then do
    let expected ← ofExcept (leaseIndexIdentity lease original)
    let indexed ← readLeaseIndexIdentity lease.leaseId
    require (indexed == expected)
      (.conflict s!"stale recovery lease index changed: {lease.leaseId}")
  else
    require canonical.isNone
      (.conflict s!"stale recovery lease index is missing: {lease.leaseId}")

/-- `_write_recovery_event_unlocked`. -/
def writeRecoveryEvent (event : RelayEvent) : Op Unit := do
  let existing ← read (.event event.jobId event.seq)
  require (existing.all fun found => found == event)
    (.conflict s!"stale recovery event sequence changed: {event.jobId}/{event.seq}")
  (if existing.isSome then pure ()
  else putWithin (Platform.eventFits event) (.event event.jobId event.seq) event)
  let index ← read (.jobIndex event.jobId)
  match index with
  | none => raise (.conflict s!"stale recovery job index is missing: {event.jobId}")
  | some index =>
    if index.latestEventSeq < event.seq then
      updateJobIndex event.jobId (JobIndex.setLatestEventSeq event.seq)
    else pure ()

/-- `_apply_stale_lease_recovery_intent_unlocked`. -/
def applyStaleLeaseRecoveryIntent (original target : RelayJob) (leases : List Lease)
    (event : RelayEvent) (transition : LeaseCapacityTransition) : Op RelayJob := do
  require (recoveryIntentValid original target leases event)
    (.conflict "stale recovery intent identity mismatch")
  let current ← readJob original.jobId
  require (current == some original || current == some target)
    (.conflict s!"stale recovery job changed after intent creation: {original.jobId}")
  each (checkRecoveredLease original current) leases
  writeJob target
  writeRecoveryEvent event
  each (deleteRecoveredLease original) leases
  let _pair ← applyLeaseCapacityTransition transition .after
    s!"stale lease recovery {original.jobId}"
  unlink (.intent (TransitionIntent.key (.staleLeaseRecovery original target leases event
    transition)))
  pure target

/-- The index checks of `_recover_expired_leases_unlocked` on one lease. -/
def checkExpiredLease (job : RelayJob) (lease : Lease) : Op Unit := do
  let expected ← ofExcept (leaseIndexIdentity lease job)
  let indexed ← readLeaseIndexIdentity lease.leaseId
  ofExcept (validateLeaseIndexIdentity lease indexed)
  require (indexed == expected)
    (.conflict s!"stale recovery lease index changed identity: {lease.leaseId}")
  requireEmptyLeaseRef indexed.identityRefPath "lease identity reference"
  requireEmptyLeaseRef indexed.endpointRefPath "lease endpoint reference"
  requireEmptyLeaseRef indexed.endpointGuardPath "lease endpoint guard"
  requireEmptyLeaseRef indexed.clusterKindRefPath "lease cluster-kind reference"
  requireEmptyLeaseRef indexed.expiryRefPath "lease expiry reference"

/-- `_recover_expired_leases_unlocked`. -/
def recoverExpiredLeases (job : RelayJob) (expired : List Lease) (maxAttempts : Int) :
    Op RelayJob := do
  require (!expired.isEmpty) (.value "stale recovery requires at least one expired lease")
  require job.state.held
    (.conflict s!"job is not recoverable from a worker lease: {job.jobId}")
  let updatedAt ← utcNow
  let updated := recoveredJob job (if maxAttempts ≤ job.attempts then .failed else .queued) updatedAt
  require (decide (expired.map Lease.leaseId).Nodup &&
      expired.all fun lease => lease.jobId == job.jobId)
    (.conflict s!"stale recovery lease identity mismatch: {job.jobId}")
  each (checkExpiredLease job) expired
  let seq ← nextEventSeq job.jobId
  let createdAt ← utcNow
  let event : RelayEvent :=
    { jobId := job.jobId, seq, eventType := recoveryEventType updated.state,
      message := recoveryMessage updated.state, createdAt,
      payload := recoveryPayload job updated.state expired }
  let transition ← prepareLeaseCapacityTransition
    [⟨job.cluster, job.kind, -(expired.length : Int)⟩] false
  writeTransitionIntent (.staleLeaseRecovery job updated expired event transition)
  applyStaleLeaseRecoveryIntent job updated expired event transition

/-! ### The sweep -/

/-- `_job_has_scheduler_observation_unlocked`. -/
def jobHasSchedulerObservation (job : RelayJob) : Op Bool := do
  let index ← present (.jobIndex job.jobId)
  require index (.conflict s!"scheduler observation index is unavailable for job: {job.jobId}")
  let protections ← boundedListing
    (fun p _ =>
      match p with
      | .schedulerProtection jobId source => if jobId = job.jobId then some source else none
      | _ => none)
    maxBoundedScanRecords s!"scheduler_protections_by_job for {job.jobId}"
  if !protections.isEmpty then pure true
  else do
    let refs ← boundedListing
      (fun p _ =>
        match p with
        | .schedulerRefs jobId source => if jobId = job.jobId then some source else none
        | _ => none)
      maxBoundedScanRecords s!"scheduler_refs_by_job for {job.jobId}"
    pure !refs.isEmpty

/-- One reference of `_due_expired_leases_unlocked`, that belongs to the cluster
and is due: the lease, if it has expired. -/
def dueExpiredLease (cluster : String) (now : Time) (token : LeaseIdentityToken) :
    Op (Option Lease) := do
  let identity ← readLeaseIndexIdentityByToken token.leaseToken (some token)
  let lease ← readLease identity.leaseId
  match lease with
  | none => raise (.conflict s!"lease expiry index is orphaned: {identity.leaseId}")
  | some lease => do
    ofExcept (validateLeaseIndexIdentity lease identity)
    require (identity.cluster == cluster && identity.jobKind == token.kind &&
        leaseEndpointToken identity.endpointId == token.endpointToken &&
        leaseJobToken identity.jobId == token.jobToken &&
        leaseExpiryKey identity.expiresAt == token.expiresKey)
      (.conflict s!"lease expiry index identity mismatch: {identity.leaseId}")
    requireEmptyLeaseRef identity.identityRefPath "lease identity reference"
    requireEmptyLeaseRef identity.endpointRefPath "lease endpoint reference"
    requireEmptyLeaseRef identity.endpointGuardPath "lease endpoint guard"
    requireEmptyLeaseRef identity.clusterKindRefPath "lease cluster-kind reference"
    pure (if lease.isExpired now then some lease else none)

/-- One turn of the loop of `_due_expired_leases_unlocked`. -/
def dueLeases (cluster : String) (now : Time) (token : LeaseIdentityToken) : Op (List Lease) :=
  if token.clusterToken ≠ leaseClusterToken cluster ∨ leaseExpiryKey now < token.expiresKey then
    pure []
  else do
    let due ← dueExpiredLease cluster now token
    pure due.toList

/-- The order of `sorted(due, key=(expires_at, lease_id))`. -/
def Lease.dueBefore (a b : Lease) : Prop :=
  a.expiresAt < b.expiresAt ∨ (a.expiresAt = b.expiresAt ∧ a.leaseId.value ≤ b.leaseId.value)

instance : DecidableRel Lease.dueBefore := fun _ _ => inferInstanceAs (Decidable (_ ∨ _))

/-- `_due_expired_leases_unlocked`, on a snapshot of the expiry references. -/
def dueExpiredLeases (cluster : String) (now : Time) (refs : List LeaseIdentityToken) :
    Op (List Lease) := do
  let due ← gather (dueLeases cluster now) refs
  pure (due.insertionSort Lease.dueBefore)

/-- Add a lease to the list of its job (`setdefault(job_id, []).append(lease)`). -/
def addToJob (lease : Lease) :
    List (DurableRecordId × List Lease) → List (DurableRecordId × List Lease)
  | [] => [(lease.jobId, [lease])]
  | (jobId, leases) :: groups =>
    if jobId = lease.jobId then (jobId, leases ++ [lease]) :: groups
    else (jobId, leases) :: addToJob lease groups

/-- `leases_by_job`: the due leases by job, in the order of their first lease. -/
def leasesByJob (leases : List Lease) : List (DurableRecordId × List Lease) :=
  leases.foldl (fun groups lease => addToJob lease groups) []

/-- What the sweep reports of one job: the recovered job, and whether an index has
changed. -/
structure JobRecovery where
  recovered : Option RelayJob
  changed : Bool
  deriving DecidableEq

/-- One job of `_recover_stale_jobs_from_expiry_refs_unlocked`. -/
def recoverJobLeases (cluster : String) (maxAttempts : Int)
    (group : DurableRecordId × List Lease) : Op JobRecovery := do
  let found ← readJob group.1
  match found with
  | none => do
    each (fun lease => deleteLease lease none) group.2
    pure ⟨none, !group.2.isEmpty⟩
  | some job => do
    require (job.cluster == cluster)
      (.conflict s!"lease expiry cluster identity mismatch: {job.jobId}/{cluster}")
    if !job.state.held then do
      each (fun lease => deleteLease lease (some job)) group.2
      pure ⟨none, !group.2.isEmpty⟩
    else do
      let cleanup ← jobHasPendingExecutionCleanupAfterMigration cluster job.jobId
      if cleanup then pure ⟨none, false⟩
      else do
        let observed ← jobHasSchedulerObservation job
        if observed then pure ⟨none, false⟩
        else do
          let updated ← recoverExpiredLeases job group.2 maxAttempts
          pure ⟨some updated, true⟩

/-- `_recover_stale_jobs_from_expiry_refs_unlocked`: the recovered jobs, and whether
an index has changed. -/
def recoverStaleJobsFromExpiryRefs (cluster : String) (maxAttempts : Int)
    (refs : List LeaseIdentityToken) : Op (List RelayJob × Bool) := do
  let now ← utcNow
  let due ← dueExpiredLeases cluster now refs
  let results ← gather (fun group => do
    let result ← recoverJobLeases cluster maxAttempts group
    pure [result]) (leasesByJob due)
  pure (results.filterMap JobRecovery.recovered, results.any JobRecovery.changed)

/-- The bounded snapshot of the expiry references that recovery starts from. -/
def expirySnapshot (overflow : String) : Op (List LeaseIdentityToken) := do
  let scan ← scanExpiryRefs maxLiveLeaseRecords
  require (!scan.2) (.conflict overflow)
  pure scan.1

/-- `_recover_stale_jobs_unlocked`. -/
def recoverStaleJobsUnlocked (cluster : String) (maxAttempts : Int) : Op (List RelayJob) := do
  let refs ← expirySnapshot "lease recovery index exceeded its safety bound"
  let recovered ← recoverStaleJobsFromExpiryRefs cluster maxAttempts refs
  pure recovered.1

/-- `_recover_stale_jobs_for_admission_unlocked`: the references, if no index has
changed since they were read. -/
def recoverStaleJobsForAdmission (cluster : String) (maxAttempts : Int) :
    Op (Option (List LeaseIdentityToken)) := do
  let refs ← expirySnapshot "lease recovery index exceeded its safety bound"
  let recovered ← recoverStaleJobsFromExpiryRefs cluster maxAttempts refs
  pure (if recovered.2 then none else some refs)

end

end ClioQueue
