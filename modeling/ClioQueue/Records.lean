/-
# The records of the queue

The pydantic models of `clio_relay/models_*.py` that the queue's job, lease and
owner-session operations read and write, and the lease index and capacity
records of `clio_relay/queue_lease_records.py`.  Field names and defaults are
the source's; a field that no modelled operation reads or compares is left out.

Times are microseconds since the epoch; `datetime` holds the years 1 to 9999
(`datetimeMin`, `datetimeMax`).
-/

import Mathlib.Data.Multiset.Count
import Mathlib.Data.Multiset.Dedup
import Mathlib.Data.Multiset.Replicate
import ClioQueue.Identifiers
import ClioQueue.Json
import ClioQueue.Durable.Utf8
import ClioQueue.Wire.Sha256

namespace ClioQueue

/-! ### Enumerations -/

/-- `JobKind`. -/
inductive JobKind where
  | jarvis
  | remoteAgent
  | mcpCall
  | inputIngest
  deriving DecidableEq, Repr

/-- `JobKind.value`. -/
def JobKind.value : JobKind → String
  | .jarvis => "jarvis"
  | .remoteAgent => "remote_agent"
  | .mcpCall => "mcp_call"
  | .inputIngest => "input_ingest"

/-- `JobState`. -/
inductive JobState where
  | queued
  | leased
  | running
  | succeeded
  | failed
  | canceled
  deriving DecidableEq, Repr

/-- `JobState.value`. -/
def JobState.value : JobState → String
  | .queued => "queued"
  | .leased => "leased"
  | .running => "running"
  | .succeeded => "succeeded"
  | .failed => "failed"
  | .canceled => "canceled"

/-- `state in TERMINAL_STATES`. -/
def JobState.terminal : JobState → Bool
  | .succeeded | .failed | .canceled => true
  | .queued | .leased | .running => false

/-- `state in {LEASED, RUNNING}`. -/
def JobState.held : JobState → Bool
  | .leased | .running => true
  | .queued | .succeeded | .failed | .canceled => false

/-- `McpAdmissionClass`. -/
inductive McpAdmissionClass where
  | workload
  | controlQuery
  deriving DecidableEq, Repr

/-- `McpOperation`. -/
inductive McpOperation where
  | toolsCall
  | toolsList
  deriving DecidableEq, Repr

/-! ### Time -/

/-- A `datetime`, in microseconds since the epoch. -/
abbrev Time : Type := Int

/-- `datetime.min`, in UTC. -/
def datetimeMin : Time := -62135596800000000

/-- `datetime.max`, in UTC. -/
def datetimeMax : Time := 253402300799999999

/-- `uuid4().hex`: 32 lowercase hexadecimal digits. -/
structure Uuid where
  hex : String
  valid : (hex.toList.length == 32 &&
    hex.toList.all fun c => ('0' ≤ c && c ≤ '9') || ('a' ≤ c && c ≤ 'f')) = true
  deriving DecidableEq

/-! ### Jobs -/

/-- `ArtifactUse`. -/
structure ArtifactUse where
  artifactId : DurableRecordId
  sha256 : String
  provenance : Json
  deriving DecidableEq

/-- `McpCallSpec`; `options` are the fields that no admission decision reads. -/
structure McpCallSpec where
  server : String
  expectedServerArtifactDigest : Option String
  expectedRegisteredContract : Option String
  expectedJarvisCdLockBinding : Option (List (String × String))
  admissionClass : McpAdmissionClass
  operation : McpOperation
  tool : Option String
  arguments : Dict
  options : Dict
  deriving DecidableEq

/-- `InputArtifactSpec`. -/
structure InputArtifactSpec where
  logicalName : String
  sizeBytes : Nat
  sha256 : String
  deriving DecidableEq

/-- `JobSpec`. -/
inductive JobSpec where
  | jarvisRun (fields : Dict)
  | remoteAgentTask (fields : Dict)
  | mcpCall (spec : McpCallSpec)
  | inputArtifact (spec : InputArtifactSpec)
  deriving DecidableEq

/-- `StorageReservationEstimate`. -/
structure StorageReservationEstimate where
  coreBytes : Nat
  spoolBytes : Nat
  deriving DecidableEq

/-- The document `_job_idempotency_digest` hashes. -/
structure JobPayload where
  cluster : String
  kind : JobKind
  spec : JobSpec
  idempotencyKey : String
  ownerSessionId : Option String
  ownerSessionGenerationId : Option DurableRecordId
  usedArtifactRefs : List ArtifactUse
  storageReservation : Option StorageReservationEstimate
  metadata : Dict
  deriving DecidableEq

/-- A 64-character digest: of a job payload, or a text a caller supplied. -/
inductive JobDigest where
  | sha256 (payload : JobPayload)
  | text (value : String)
  deriving DecidableEq

/-- `RelayJob`. -/
structure RelayJob where
  jobId : DurableRecordId
  cluster : String
  kind : JobKind
  state : JobState
  spec : JobSpec
  idempotencyKey : String
  ownerSessionId : Option String
  ownerSessionGenerationId : Option DurableRecordId
  usedArtifactRefs : List ArtifactUse
  submissionDigest : Option JobDigest
  createdAt : Time
  updatedAt : Time
  leasedBy : Option String
  attempts : Int
  lastError : Option String
  storageReservation : Option StorageReservationEstimate
  metadata : Dict
  deriving DecidableEq

/-- `RelayEvent`. -/
structure RelayEvent where
  jobId : DurableRecordId
  seq : Nat
  eventType : String
  message : String
  createdAt : Time
  payload : Dict
  deriving DecidableEq

/-- The per-job order index (`job_indexes`). -/
structure JobIndex where
  taskCount : Nat
  artifactCount : Nat
  progressCount : Nat
  latestProgressId : Option DurableRecordId
  latestEventSeq : Nat
  deriving DecidableEq

/-- `ArtifactRef`. -/
structure ArtifactRef where
  artifactId : DurableRecordId
  jobId : DurableRecordId
  sequence : Option Nat
  uri : String
  kind : String
  sizeBytes : Option Nat
  sha256 : Option String
  createdAt : Time
  metadata : Dict
  deriving DecidableEq

/-- `ProgressRecord`; a float is kept as the JSON number it is written as. -/
structure ProgressRecord where
  progressId : DurableRecordId
  jobId : DurableRecordId
  sequence : Option Nat
  label : String
  current : Json
  total : Json
  unit : Option String
  message : Option String
  sourceEventSeq : Option Nat
  createdAt : Time
  metadata : Dict
  deriving DecidableEq

/-- `UsedArtifactRef`. -/
structure UsedArtifactRef where
  artifactId : DurableRecordId
  consumerJobId : DurableRecordId
  producerJobId : DurableRecordId
  sequence : Nat
  sha256 : String
  provenance : Json
  createdAt : Time
  deriving DecidableEq

/-- The states of an idempotency record. -/
inductive IdempotencyState where
  | reserved
  | committed
  | retired
  deriving DecidableEq, Repr

/-- An idempotency record. -/
structure IdempotencyRecord where
  state : IdempotencyState
  jobId : DurableRecordId
  idempotencyKey : String
  jobDigest : Option JobDigest
  createdAt : Time
  committedAt : Option Time
  deriving DecidableEq

/-- A global-order mapping or entry. -/
structure GlobalOrderRecord where
  recordId : DurableRecordId
  sequence : Nat
  deriving DecidableEq

/-- `JobTombstone`, the fields a retired submission is answered from. -/
structure JobTombstone where
  jobId : DurableRecordId
  cluster : String
  kind : JobKind
  finalState : JobState
  idempotencyKey : String
  jobDigest : JobDigest
  createdAt : Time
  updatedAt : Time
  attempts : Int
  lastError : Option String
  phase : String
  gcStartedAt : Time
  deriving DecidableEq

/-- `RelayTask`. -/
structure RelayTask where
  taskId : DurableRecordId
  jobId : DurableRecordId
  sequence : Option Nat
  name : String
  state : JobState
  createdAt : Time
  updatedAt : Time
  metadata : Dict
  deriving DecidableEq

/-- `TaskEventStatus`. -/
inductive TaskEventStatus where
  | planned
  | running
  | succeeded
  | warning
  | error
  | canceled
  deriving DecidableEq

/-- The text of a status. -/
def TaskEventStatus.value : TaskEventStatus → String
  | .planned => "planned"
  | .running => "running"
  | .succeeded => "succeeded"
  | .warning => "warning"
  | .error => "error"
  | .canceled => "canceled"

/-- `TaskTimelineEvent`. -/
structure TaskTimelineEvent where
  taskId : DurableRecordId
  seq : Nat
  eventType : String
  label : String
  status : TaskEventStatus
  summary : String
  detail : Option String
  artifactRefs : List DurableRecordId
  pathRefs : List String
  createdAt : Time
  metadata : Dict
  deriving DecidableEq

/-- `GatewaySessionState`. -/
inductive GatewaySessionState where
  | created
  | submitted
  | pending
  | allocated
  | starting
  | ready
  | degraded
  | failed
  | closed
  | unknown
  deriving DecidableEq, Repr

/-- `GatewaySession`; `details` are the fields that no index is derived from. -/
structure GatewaySession where
  sessionId : DurableRecordId
  cluster : String
  name : String
  state : GatewaySessionState
  schedulerJobId : Option String
  gateway : Dict
  artifacts : List String
  details : Dict
  createdAt : Time
  updatedAt : Time
  metadata : Dict
  deriving DecidableEq

/-- `OwnerSessionJobMembership`. -/
structure OwnerSessionJobMembership where
  ownerSessionId : String
  sessionGenerationId : Option DurableRecordId
  jobId : DurableRecordId
  cluster : String
  state : JobState
  createdAt : Time
  updatedAt : Time
  deriving DecidableEq

/-! ### Scheduler cancellation -/

/-- `SchedulerCancelDispositionState`. -/
inductive SchedulerCancelDispositionState where
  | pending
  | retryWait
  | cancelRequested
  | canceled
  | terminal
  | notFound
  | refused
  | exhausted
  deriving DecidableEq, Repr

/-- `SchedulerCancelDisposition`: retry and terminal evidence for one scheduler identity. -/
structure SchedulerCancelDisposition where
  schedulerJobId : String
  provider : Option String := none
  state : SchedulerCancelDispositionState := .pending
  attempts : Nat := 0
  confirmationAttempts : Nat := 0
  nextAttemptAt : Option Time := none
  lastError : Option String := none
  attemptClaimId : Option DurableRecordId := none
  attemptClaimedAt : Option Time := none
  attemptClaimExpiresAt : Option Time := none
  confirmationClaimId : Option DurableRecordId := none
  confirmationClaimedAt : Option Time := none
  confirmationClaimExpiresAt : Option Time := none
  updatedAt : Time
  deriving DecidableEq

/-- The literals of `identity_resolution`. -/
inductive IdentityResolution where
  | pending
  | resolved
  | none
  | superseded
  deriving DecidableEq, Repr

/-- `SchedulerCancelPending`: the scheduler cancellation work of one job. -/
structure SchedulerCancelPending where
  schemaVersion : String := "clio-relay.scheduler-cancel-pending.v1"
  jobId : DurableRecordId
  cluster : String
  requestedAt : Time
  reason : String
  identityResolution : IdentityResolution := .pending
  dispositions : List SchedulerCancelDisposition := []
  updatedAt : Time
  deriving DecidableEq

/-! ### Owner sessions -/

/-- The active-generation record of an owner session. -/
structure OwnerSessionActive where
  ownerSessionId : String
  sessionGenerationId : DurableRecordId
  previousSessionGenerationId : Option DurableRecordId
  mirroredRemoteAuthority : Bool
  updatedAt : Time
  deriving DecidableEq

/-- The cleanup policy attached to a closing marker. -/
structure OwnerSessionCleanupIntent where
  operationId : String
  ownerSessionId : String
  sessionGenerationId : DurableRecordId
  stopWorker : Bool
  cancelJobs : Bool
  cancelSchedulerJobs : Bool
  createdAt : Time
  deriving DecidableEq

/-- The closing marker of an owner session. -/
structure OwnerSessionClosing where
  ownerSessionId : String
  sessionGenerationId : DurableRecordId
  cleanupIntent : OwnerSessionCleanupIntent
  updatedAt : Time
  deriving DecidableEq

/-- `OwnerSessionClosure`. -/
structure OwnerSessionClosure where
  ownerSessionId : String
  sessionGenerationId : Option DurableRecordId
  coveredBySessionGenerationId : Option DurableRecordId
  coveredLegacyJobIds : List DurableRecordId
  residualResourceIds : List String
  closedAt : Time
  deriving DecidableEq

/-! ### Leases -/

/-- `Lease`. -/
structure Lease where
  leaseId : DurableRecordId
  jobId : DurableRecordId
  endpointId : DurableRecordId
  acquiredAt : Time
  expiresAt : Time
  deriving DecidableEq

/-- `Lease.is_expired`. -/
def Lease.isExpired (lease : Lease) (now : Time) : Bool := decide (lease.expiresAt ≤ now)

/-- `LeaseIndexIdentity`. -/
structure LeaseIndexIdentity where
  leaseId : DurableRecordId
  jobId : DurableRecordId
  endpointId : DurableRecordId
  cluster : String
  jobKind : JobKind
  expiresAt : Time
  deriving DecidableEq

/-- `lease_identity_token_from_parts`: the digest of the parts, kept as the parts. -/
structure LeaseIdentityToken where
  expiresKey : Int
  clusterToken : RefToken
  kind : JobKind
  endpointToken : RefToken
  jobToken : RefToken
  leaseToken : RefToken
  deriving DecidableEq

/-- `lease_index_token`. -/
def leaseIndexToken (leaseId : DurableRecordId) : RefToken :=
  stableRefToken ["lease", leaseId.value]

/-- `lease_job_token`. -/
def leaseJobToken (jobId : DurableRecordId) : RefToken := stableRefToken ["job", jobId.value]

/-- `lease_endpoint_token`. -/
def leaseEndpointToken (endpointId : DurableRecordId) : RefToken :=
  stableRefToken ["endpoint", endpointId.value]

/-- `lease_cluster_token` in the name of an index file, kept as its parts like the other tokens of
the name: they tell any two leases' files apart without it. -/
def leaseClusterToken (cluster : String) : RefToken := stableRefToken ["cluster", cluster]

/-- `lease_expiry_key`. -/
def leaseExpiryKey (value : Time) : Int := value

/-- `lease_identity_token`. -/
def leaseIdentityToken (identity : LeaseIndexIdentity) : LeaseIdentityToken where
  expiresKey := leaseExpiryKey identity.expiresAt
  clusterToken := leaseClusterToken identity.cluster
  kind := identity.jobKind
  endpointToken := leaseEndpointToken identity.endpointId
  jobToken := leaseJobToken identity.jobId
  leaseToken := leaseIndexToken identity.leaseId

/-- `lease_reference`: the lease token and the identity token. -/
def leaseReference (identity : LeaseIndexIdentity) : RefToken × LeaseIdentityToken :=
  (leaseIndexToken identity.leaseId, leaseIdentityToken identity)

@[simp]
theorem leaseIndexToken_inj {a b : DurableRecordId} :
    leaseIndexToken a = leaseIndexToken b ↔ a = b := by
  obtain ⟨a, _⟩ := a
  obtain ⟨b, _⟩ := b
  simp [leaseIndexToken]

@[simp]
theorem leaseClusterToken_inj {a b : String} :
    leaseClusterToken a = leaseClusterToken b ↔ a = b := by
  simp [leaseClusterToken]

@[simp]
theorem leaseEndpointToken_inj {a b : DurableRecordId} :
    leaseEndpointToken a = leaseEndpointToken b ↔ a = b := by
  obtain ⟨a, _⟩ := a
  obtain ⟨b, _⟩ := b
  simp [leaseEndpointToken]

@[simp]
theorem leaseJobToken_inj {a b : DurableRecordId} : leaseJobToken a = leaseJobToken b ↔ a = b := by
  obtain ⟨a, _⟩ := a
  obtain ⟨b, _⟩ := b
  simp [leaseJobToken]

/-- **An identity token determines its identity.** -/
theorem leaseIdentityToken_inj {a b : LeaseIndexIdentity} :
    leaseIdentityToken a = leaseIdentityToken b ↔ a = b := by
  constructor
  · intro h
    obtain ⟨_, _, _, _, _, _⟩ := a
    obtain ⟨_, _, _, _, _, _⟩ := b
    simp only [leaseIdentityToken, leaseExpiryKey, LeaseIdentityToken.mk.injEq,
      leaseClusterToken_inj, leaseEndpointToken_inj, leaseJobToken_inj,
      leaseIndexToken_inj] at h
    obtain ⟨rfl, rfl, rfl, rfl, rfl, rfl⟩ := h
    rfl
  · rintro rfl
    rfl

/-! ### Lease capacity -/

/-- A text of `n` lowercase hexadecimal digits. -/
structure HexText (n : Nat) where
  digits : List Char
  valid : (digits.length == n && digits.all Wire.Sha256.isHexDigit) = true
  deriving DecidableEq

/-- A token that passes `is_short_ref_token`. -/
abbrev ShortRefToken : Type := HexText 16

/-- `lease_cluster_token`, by which leases are counted: 64 bits of a digest, so that two
clusters can have the same. -/
def leaseClusterDigest (cluster : String) : ShortRefToken where
  digits := (Wire.Sha256.hexdigest
    (Durable.Utf8.encode ("cluster\x00".toList ++ cluster.toList))).take 16
  valid := by
    rw [Bool.and_eq_true, List.all_eq_true]
    refine ⟨by simp [Wire.Sha256.length_hexdigest], fun c hc => ?_⟩
    exact Wire.Sha256.isHexDigit_of_mem_hexdigest (List.mem_of_mem_take hc)

example : leaseClusterDigest "914b0cbd58db67fc" = leaseClusterDigest "dd54b7c9c9b83d90" := by
  decide +kernel

/-- A capacity scope: a cluster token and a job kind. -/
abbrev LeaseScope : Type := ShortRefToken × JobKind

/-- `LeaseCapacityAggregate`.  The sparse table `cluster_kind_counts` of positive
counts is the multiset of the scopes of the live leases: `Multiset.count` is an
entry, `Multiset.card` the sum of all entries. -/
structure LeaseCapacityAggregate where
  epochId : Uuid
  generation : Nat
  checkpointId : Uuid
  globalLiveLeases : Nat
  clusterKindCounts : Multiset LeaseScope
  deriving DecidableEq

/-- `LeaseCapacityCheckpoint`; `aggregate_document_sha256` is kept as the
document it is the digest of. -/
structure LeaseCapacityCheckpoint where
  epochId : Uuid
  generation : Nat
  checkpointId : Uuid
  aggregateDocument : LeaseCapacityAggregate
  deriving DecidableEq

/-- `LeaseCapacityPair`. -/
structure LeaseCapacityPair where
  aggregate : LeaseCapacityAggregate
  checkpoint : LeaseCapacityCheckpoint
  deriving DecidableEq

/-- The capacity transition carried by a lease intent. -/
structure LeaseCapacityTransition where
  before : LeaseCapacityPair
  after : LeaseCapacityPair
  rollback : Option LeaseCapacityPair
  deriving DecidableEq

/-- The lease parts of the index migration state; `otherComplete` stands for the
components no lease operation changes. -/
structure IndexMigrationState where
  complete : Bool
  otherComplete : Bool
  leaseOperationalRepairComplete : Bool
  leaseCapacityComplete : Bool
  leaseCapacityEpoch : Option Uuid
  leaseCapacityGeneration : Nat
  leaseRecordCount : Nat
  deriving DecidableEq

/-- `index_migration_components_complete`. -/
def IndexMigrationState.componentsComplete (state : IndexMigrationState) : Bool :=
  state.otherComplete && state.leaseOperationalRepairComplete && state.leaseCapacityComplete

/-! ### Transition intents -/

/-- The payload of a transition intent, by kind. -/
inductive TransitionIntent where
  | leaseIndexRepair (limit : Nat) (target : LeaseCapacityPair) (restoreComplete : Bool)
  | leaseAcquire (lease : Lease) (originalJob targetJob : RelayJob) (targetUpdatedAt : Time)
      (transition : LeaseCapacityTransition)
  | leaseSync (lease previousLease : Lease) (job : RelayJob)
      (transition : LeaseCapacityTransition)
  | leaseDelete (lease : Lease) (index : LeaseIndexIdentity)
      (transition : LeaseCapacityTransition)
  | staleLeaseRecovery (originalJob targetJob : RelayJob) (leases : List Lease)
      (event : RelayEvent) (transition : LeaseCapacityTransition)
  | jobSync (jobId : DurableRecordId) (updatedAt : Time)
  | taskSync (jobId taskId : DurableRecordId)
  | gatewaySync (sessionId : DurableRecordId)
  deriving DecidableEq

namespace TransitionIntent

/-- The replay order of `_reconcile_transition_intents_unlocked`. -/
def order : TransitionIntent → Nat
  | leaseIndexRepair .. => 0
  | leaseAcquire .. => 1
  | leaseSync .. => 2
  | leaseDelete .. => 3
  | staleLeaseRecovery .. => 4
  | jobSync .. => 5
  | taskSync .. => 6
  | gatewaySync .. => 7

/-- Whether the intent carries a capacity transition (or the rebuilt capacity
pair of a repair). -/
def carriesCapacity : TransitionIntent → Bool
  | leaseIndexRepair .. | leaseAcquire .. | leaseSync .. | leaseDelete ..
  | staleLeaseRecovery .. => true
  | jobSync .. | taskSync .. | gatewaySync .. => false

end TransitionIntent

end ClioQueue
