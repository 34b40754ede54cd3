/-
# The transition journal

`clio_relay/queue_transitions.py`: the replay of the write-ahead intents that an
interrupted operation left, in a fixed order of kinds, and
`_reconcile_lease_acquire_intent_unlocked` of `clio_relay/queue_leases.py`, which
undoes an interrupted acquisition unless later work superseded it.

Every operation of the queue replays the journal before it does anything else.
-/

import ClioQueue.LeaseRecovery
import ClioQueue.LeaseRepair
import ClioQueue.TaskRecords

namespace ClioQueue

open Durable Durable.Prog

/-- `MAX_TRANSITION_INTENT_RECORDS`. -/
def maxTransitionIntentRecords : Nat := 10000

section

variable [Platform] [Entropy]

/-! ### Lease acquisition -/

/-- The checks of `_reconcile_lease_acquire_intent_unlocked` on the intent. -/
def acquireIntentValid (lease : Lease) (original target : RelayJob) (targetUpdatedAt : Time) :
    Bool :=
  lease.jobId == original.jobId && target.jobId == original.jobId &&
    target.cluster == original.cluster && target.kind == original.kind &&
    target.state == .leased && target.leasedBy == some lease.endpointId.value &&
    target.updatedAt == targetUpdatedAt

/-- `target_is_current`. -/
def targetIsCurrent (lease : Lease) (targetUpdatedAt : Time) (current : Option RelayJob) : Bool :=
  current.any fun job =>
    job.updatedAt == targetUpdatedAt && job.state == .leased &&
      job.leasedBy == some lease.endpointId.value

/-- `preserve_acquisition`. -/
def preserveAcquisition (lease : Lease) (targetUpdatedAt : Time) (current : Option RelayJob) :
    Bool :=
  !targetIsCurrent lease targetUpdatedAt current &&
    current.any fun job => job.state.held && job.leasedBy == some lease.endpointId.value

/-- Put the job of an interrupted acquisition back. -/
def restoreOriginalJob (original : RelayJob) : Op Unit := do
  putWithin (Platform.jobFits original) (.job original.jobId) original
  syncJobDerived original

/-- Finish or undo the lease files of an interrupted acquisition. -/
def settleAcquiredLease (lease : Lease) (identity : LeaseIndexIdentity)
    (preserved : Option RelayJob) : Op Unit :=
  match preserved with
  | some current => do
    put (.lease lease.leaseId) lease
    put (.leaseByJob lease.jobId lease.leaseId) lease
    let _identity ← syncLeaseOperationalIndexes lease current none
    pure ()
  | none => do
    unlink (.lease lease.leaseId)
    unlink (.leaseByJob lease.jobId lease.leaseId)
    deleteLeaseOperationalIndexes identity true

/-- `_reconcile_lease_acquire_intent_unlocked`. -/
def reconcileLeaseAcquireIntent (lease : Lease) (original target : RelayJob)
    (targetUpdatedAt : Time) (transition : LeaseCapacityTransition) : Op Unit := do
  require (acquireIntentValid lease original target targetUpdatedAt)
    (.conflict "lease acquisition intent identity mismatch")
  let current ← readJob lease.jobId
  (if targetIsCurrent lease targetUpdatedAt current then restoreOriginalJob original else pure ())
  let identity ← ofExcept (leaseIndexIdentity lease original)
  let preserve := preserveAcquisition lease targetUpdatedAt current
  settleAcquiredLease lease identity (if preserve then current else none)
  let _pair ← applyLeaseCapacityTransition transition (if preserve then .after else .rollback)
    s!"lease acquisition recovery {lease.leaseId}"
  unlink (.intent (.leaseAcquire lease.leaseId))

/-! ### Lease renewal and deletion -/

/-- The renewal of a lease once its intent is written, and the replay of the intent. -/
def applyLeaseSyncIntent (lease previous : Lease) (job : RelayJob)
    (transition : LeaseCapacityTransition) (label : String) : Op Unit := do
  put (.lease lease.leaseId) lease
  put (.leaseByJob lease.jobId lease.leaseId) lease
  let _identity ← syncLeaseOperationalIndexes lease job (some previous)
  let _pair ← applyLeaseCapacityTransition transition .after label
  unlink (.intent (.leaseSync lease.leaseId))

/-- The replay of a `lease_sync` intent. -/
def replayLeaseSync (lease previous : Lease) (job : RelayJob)
    (transition : LeaseCapacityTransition) : Op Unit := do
  require (lease.jobId == job.jobId && previous.leaseId == lease.leaseId)
    (.conflict "lease synchronization identity mismatch")
  applyLeaseSyncIntent lease previous job transition s!"lease synchronization {lease.leaseId}"

/-- The replay of a `lease_delete` intent. -/
def replayLeaseDelete (lease : Lease) (identity : LeaseIndexIdentity)
    (transition : LeaseCapacityTransition) : Op Unit := do
  ofExcept (validateLeaseIndexIdentity lease identity)
  deleteLeaseFiles lease identity
  let _pair ← applyLeaseCapacityTransition transition .after s!"lease deletion {lease.leaseId}"
  unlink (.intent (.leaseDelete lease.leaseId))

/-! ### Derived indexes -/

/-- The replay of a `job_sync` intent. -/
def replayJobSync (jobId : DurableRecordId) : Op Unit := do
  let job ← readJob jobId
  (match job with
    | none => pure ()
    | some job => syncJobDerived job)
  unlink (.intent (.jobSync jobId))

/-- The replay of a `task_sync` intent. -/
def replayTaskSync (taskId : DurableRecordId) : Op Unit := do
  let task ← readTask taskId
  (match task with
    | none => pure ()
    | some task => syncTaskDerived task)
  unlink (.intent (.taskSync taskId))

/-- The replay of a `gateway_sync` intent. -/
def replayGatewaySync (sessionId : DurableRecordId) : Op Unit := do
  syncGatewaySessionDerived sessionId
  unlink (.intent (.gatewaySync sessionId))

/-! ### Replay -/

/-- Replay one intent: the jobs that it recovered from stale leases. -/
def applyIntent : TransitionIntent → Op (List RelayJob)
  | .leaseIndexRepair limit target restoreComplete => do
    let _recordCount ← applyLeaseIndexRepairIntent limit target restoreComplete
    pure []
  | .leaseAcquire lease original target targetUpdatedAt transition => do
    reconcileLeaseAcquireIntent lease original target targetUpdatedAt transition
    pure []
  | .leaseSync lease previous job transition => do
    replayLeaseSync lease previous job transition
    pure []
  | .leaseDelete lease identity transition => do
    replayLeaseDelete lease identity transition
    pure []
  | .staleLeaseRecovery original target leases event transition => do
    let recovered ← applyStaleLeaseRecoveryIntent original target leases event transition
    pure [recovered]
  | .jobSync jobId _ => do
    replayJobSync jobId
    pure []
  | .taskSync _ taskId => do
    replayTaskSync taskId
    pure []
  | .gatewaySync sessionId => do
    replayGatewaySync sessionId
    pure []

/-- The pending intents. -/
def intentsListed (p : Path) (c : Content p) : Option TransitionIntent :=
  match p, c with
  | .intent _, intent => some intent
  | _, _ => none

/-- `_reconcile_transition_intents_unlocked`. -/
def reconcileTransitionIntents : Op (List RelayJob) := do
  let intents ← boundedListing intentsListed maxTransitionIntentRecords
    "queue transition intent directory"
  gather applyIntent (intents.insertionSort fun a b => a.order ≤ b.order)

/-- `_recover_pending_transitions_unlocked`. -/
def recoverPendingTransitions : Op Unit := do
  let _recovered ← reconcileTransitionIntents
  pure ()

/-- `require_index_migration_complete`. -/
def requireIndexMigrationComplete : Op Unit := do
  let state ← readIndexMigrationState
  require state.complete
    (.conflict "queue indexes require migration; run `clio-relay queue migrate-indexes` before starting workers")

/-- `repair_lease_operational_indexes`. -/
def repairLeaseOperationalIndexes (limit : Int) : Op Nat := do
  require (decide (1 ≤ limit ∧ limit ≤ (maxLiveLeaseRecords : Int)))
    (.value s!"lease index repair limit must be between 1 and {maxLiveLeaseRecords}")
  recoverPendingTransitions
  repairLeaseIndexes limit.toNat

end

end ClioQueue
