/-
# Lease index repair

The rebuild of every lease operational index and of the capacity pair from the
canonical leases: `_canonical_lease_capacity_records_unlocked` of
`clio_relay/queue_lease_capacity_state.py` and the repair intent of
`clio_relay/queue_lease_capacity_audit.py`.
-/

import ClioQueue.JobRecords
import ClioQueue.LeaseIndexes

namespace ClioQueue

open Durable Durable.Prog

/-! ### Canonical leases -/

/-- The canonical leases, with their file names. -/
def leasesListed (p : Path) (c : Content p) : Option (DurableRecordId × Lease) :=
  match p, c with
  | .lease leaseId, lease => some (leaseId, lease)
  | _, _ => none

/-- The jobs of a store. -/
def jobRecords (p : Path) (c : Content p) : Option RelayJob :=
  match p, c with
  | .job _, job => some job
  | _, _ => none

/-- `scan_many`: at most `limit` records, each under its own name, and whether there
are more. -/
def scanMany {γ : Type} (f : (p : Path) → Content p → Option (DurableRecordId × γ))
    (recordId : γ → DurableRecordId) (limit : Nat) : Op (List γ × Bool) := do
  let found ← listing f
  require ((found.take limit).all fun entry => recordId entry.2 == entry.1)
    (.conflict "canonical record identity mismatch")
  pure ((found.take limit).map Prod.snd, decide (limit < found.length))

/-- The capacity scope of a job. -/
def RelayJob.scope (job : RelayJob) : LeaseScope := (leaseClusterDigest job.cluster, job.kind)

/-- `clusters_by_token.setdefault(cluster_token, job.cluster)`: the cluster of the first lease
found with the token of the job's cluster. -/
def previousCluster (indexed : List (Lease × RelayJob)) (job : RelayJob) : String :=
  ((indexed.find? fun entry => entry.2.scope.1 == job.scope.1).map fun entry =>
    entry.2.cluster).getD job.cluster

/-- The leases that follow those found so far, each with its job. -/
def indexLeases (indexed : List (Lease × RelayJob)) : List Lease → Op (List (Lease × RelayJob))
  | [] => pure indexed
  | lease :: leases => do
    let found ← readJob lease.jobId
    match found with
    | none =>
      raise (.conflict
        s!"lease capacity rebuild cannot resolve job: {lease.leaseId}/{lease.jobId}")
    | some job => do
      require (indexed.all fun entry => entry.1.leaseId != lease.leaseId)
        (.conflict s!"lease capacity rebuild found an identity collision: {lease.leaseId}")
      require (previousCluster indexed job == job.cluster)
        (.conflict ("lease capacity rebuild found a cluster-token collision: " ++
          s!"{previousCluster indexed job}/{job.cluster}"))
      indexLeases (indexed ++ [(lease, job)]) leases

/-- `_canonical_lease_capacity_records_unlocked`: the leases with their jobs, and
their counts by scope. -/
def canonicalLeaseCapacityRecords (limit : Nat) :
    Op (List (Lease × RelayJob) × Multiset LeaseScope) := do
  let scan ← scanMany leasesListed Lease.leaseId limit
  require (!scan.2)
    (.conflict s!"lease capacity rebuild exceeded its safety bound of {limit} records")
  let indexed ← indexLeases [] scan.1
  let counts ← ofExcept (normalizeLeaseCapacityCounts
    (indexed.map fun entry => entry.2.scope : List LeaseScope))
  pure (indexed, counts)

/-! ### The repair intent -/

/-- The files of the lease operational indexes. -/
def leaseIndexFile : Path → Bool
  | .leaseIndex _ | .leaseIdentityRef _ | .leaseEndpointRef .. | .leaseEndpointGuard ..
  | .leaseClusterKindRef .. | .leaseExpiryRef _ => true
  | _ => false

/-- `_clear_lease_operational_indexes_unlocked`; its entry bound is checked on the
files, directories not being modelled. -/
def clearLeaseOperationalIndexes : Op Unit := do
  let files ← listing fun p _ => if leaseIndexFile p then some p else none
  require (decide (files.length ≤ maxLiveLeaseRecords * 8 + 10000))
    (.conflict "lease operational index repair exceeded its entry bound")
  each unlink files

/-- `read_index_migration_state`. -/
def readIndexMigrationState : Op IndexMigrationState := do
  let found ← read .migrationState
  match found with
  | none => raise (.conflict "invalid index migration state")
  | some state => pure state

/-- The migration state after a repair. -/
def IndexMigrationState.repaired (state : IndexMigrationState) (target : LeaseCapacityPair)
    (recordCount : Nat) : IndexMigrationState :=
  { state with
    leaseOperationalRepairComplete := true
    leaseCapacityComplete := true
    leaseCapacityEpoch := some target.aggregate.epochId
    leaseCapacityGeneration := target.aggregate.generation
    leaseRecordCount := recordCount }

/-- `state["complete"] = index_migration_components_complete(state)`. -/
def IndexMigrationState.settle (state : IndexMigrationState) : IndexMigrationState :=
  { state with complete := state.componentsComplete }

section

variable [Platform] [Entropy]

/-- Rebuild the index files of one lease. -/
def rebuildLeaseIndexes (entry : Lease × RelayJob) : Op Unit := do
  let _identity ← syncLeaseOperationalIndexes entry.1 entry.2 none
  pure ()

/-- `_apply_lease_index_repair_intent_unlocked`. -/
def applyLeaseIndexRepairIntent (limit : Nat) (target : LeaseCapacityPair)
    (restoreComplete : Bool) : Op Nat := do
  require (decide (1 ≤ limit ∧ limit ≤ maxLiveLeaseRecords))
    (.conflict "invalid lease index repair intent")
  let records ← canonicalLeaseCapacityRecords limit
  let target ← ofExcept
    (leaseCapacityPairFromPayload target "lease index repair capacity target")
  require (decide (target.aggregate.clusterKindCounts = records.2 ∧
      target.aggregate.globalLiveLeases = records.1.length))
    (.conflict "lease index repair capacity target disagrees with canonical leases")
  clearLeaseOperationalIndexes
  each rebuildLeaseIndexes records.1
  writeLeaseCapacityPair target
  let state ← readIndexMigrationState
  let repaired := state.repaired target records.1.length
  put .migrationState (if restoreComplete then repaired.settle else repaired)
  unlink (.intent .leaseIndexRepair)
  pure records.1.length

/-- `_prepare_lease_capacity_rebuild_intent_unlocked`, for the operator. -/
def prepareLeaseCapacityRebuildIntent (limit : Nat) : Op LeaseCapacityPair := do
  let records ← canonicalLeaseCapacityRecords limit
  let epochId ← uuid4
  let target ← newLeaseCapacityPair records.2 epochId 1
  writeTransitionIntent (.leaseIndexRepair limit target true)
  pure target

/-- What `repair_lease_operational_indexes` does once the journal is replayed. -/
def repairLeaseIndexes (limit : Nat) : Op Nat := do
  let target ← prepareLeaseCapacityRebuildIntent limit
  let recordCount ← applyLeaseIndexRepairIntent limit target true
  let capacity ← readLeaseCapacityAggregate
  let state ← readIndexMigrationState
  put .migrationState (state.repaired capacity recordCount).settle
  pure recordCount

end

end ClioQueue
