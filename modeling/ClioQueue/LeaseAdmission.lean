/-
# Lease admission

`clio_relay/queue_lease_admission.py`: the acquisition of a job by an endpoint.
Every path replays the journal, recovers stale leases, refuses a second live
lease of the endpoint, compares the occupancy with the limits and then leases
one job by `leaseJob`.
-/

import ClioQueue.Leases
import ClioQueue.Submission

namespace ClioQueue

open Durable Durable.Prog

/-! ### Lanes and limits -/

/-- `_job_matches_mcp_admission_class`. -/
def jobMatchesMcpAdmissionClass (job : RelayJob) (admissionClass : McpAdmissionClass) : Bool :=
  match job.kind, job.spec with
  | .mcpCall, .mcpCall spec => spec.admissionClass == admissionClass
  | _, _ => admissionClass == .workload

/-- `normalize_kind_concurrency`. -/
def normalizeKindConcurrency (limits : List (JobKind × Int)) :
    Except RelayError (List (JobKind × Int)) :=
  match limits.find? fun entry => decide (entry.2 < 1) with
  | some entry =>
    .error (.configuration s!"worker concurrency limit for {entry.1.value} must be at least 1")
  | none => .ok limits

/-- The MCP lane of a worker: its class, and its limit if it has one. -/
structure McpLane where
  admissionClass : McpAdmissionClass
  limit : Option Int
  deriving DecidableEq

/-! ### Active leases -/

/-- The current snapshot of the expiry references, read again unless it can be reused. -/
def currentExpiryRefs (reusable : Option (List LeaseIdentityToken)) :
    Op (List LeaseIdentityToken) :=
  match reusable with
  | some refs => pure refs
  | none => expirySnapshot "lease expiry index exceeded its safety bound"

/-- One reference of `_active_lease_for_endpoint`: its lease, if it is live. -/
def activeLease [Entropy] (endpointId : DurableRecordId) (reference : RefToken × LeaseIdentityToken) :
    Op (List Lease) := do
  let identity ← readLeaseIndexIdentityByToken reference.1 (some reference.2)
  let lease ← readLease identity.leaseId
  match lease with
  | none => raise (.conflict s!"lease endpoint index is orphaned: {identity.leaseId}")
  | some lease => do
    ofExcept (validateLeaseIndexIdentity lease identity)
    require (identity.endpointId == endpointId)
      (.conflict s!"lease endpoint index identity mismatch: {identity.leaseId}")
    requireEmptyLeaseRef identity.identityRefPath "lease identity reference"
    requireEmptyLeaseRef identity.clusterKindRefPath "lease cluster-kind reference"
    requireEmptyLeaseRef identity.expiryRefPath "lease expiry reference"
    let now ← utcNow
    pure (if lease.isExpired now then [] else [lease])

/-- `_active_lease_for_endpoint`. -/
def activeLeaseForEndpoint [Entropy] (endpointId : DurableRecordId)
    (reusable : Option (List LeaseIdentityToken)) : Op (Option Lease) := do
  let expiryRefs ← currentExpiryRefs reusable
  let scan ← scanLeaseEndpointRefs endpointId maxLiveLeaseRecords
  require (!scan.2) (.conflict "lease endpoint index exceeded its safety bound")
  let expected := (expiryRefs.filter fun token =>
    token.endpointToken == leaseEndpointToken endpointId).map fun token =>
      (token.leaseToken, token)
  require (decide expected.Nodup)
    (.conflict s!"lease expiry index duplicates endpoint identity: {endpointId}")
  require (scan.1.all expected.contains && expected.all scan.1.contains)
    (.conflict s!"lease endpoint and expiry indexes disagree: {endpointId}")
  let active ← gather (activeLease endpointId) scan.1
  require (decide (active.length ≤ 1))
    (.conflict s!"endpoint has multiple active durable leases: {endpointId}")
  pure active.head?

/-- One reference of `_active_mcp_admission_count_unlocked`: whether its job is of the
class. -/
def mcpAdmission (cluster : String) (admissionClass : McpAdmissionClass)
    (token : LeaseIdentityToken) : Op Bool := do
  let identity ← readLeaseIndexIdentityByToken token.leaseToken (some token)
  require (identity.cluster == cluster && identity.jobKind == .mcpCall &&
      leaseEndpointToken identity.endpointId == token.endpointToken &&
      leaseJobToken identity.jobId == token.jobToken &&
      leaseExpiryKey identity.expiresAt == token.expiresKey)
    (.conflict s!"lease expiry admission identity mismatch: {identity.leaseId}")
  let lease ← readLease identity.leaseId
  match lease with
  | none =>
    raise (.conflict s!"lease expiry admission index is orphaned: {identity.leaseId}")
  | some lease => do
    ofExcept (validateLeaseIndexIdentity lease identity)
    let job ← getJob identity.jobId
    require (job.cluster == cluster && job.kind == .mcpCall &&
        job.leasedBy == some identity.endpointId.value)
      (.conflict s!"active MCP admission lease changed job identity: {identity.leaseId}")
    pure (jobMatchesMcpAdmissionClass job admissionClass)

/-- The turn of the loop of `_active_mcp_admission_count_unlocked` at one reference. -/
def mcpAdmissionTurn (cluster : String) (admissionClass : McpAdmissionClass)
    (token : LeaseIdentityToken) : Op (List LeaseIdentityToken) :=
  if token.clusterToken ≠ leaseClusterToken cluster ∨ token.kind ≠ .mcpCall then pure []
  else do
    let counted ← mcpAdmission cluster admissionClass token
    pure (if counted then [token] else [])

/-- `_active_mcp_admission_count_unlocked`. -/
def activeMcpAdmissionCount (cluster : String) (admissionClass : McpAdmissionClass)
    (reusable : Option (List LeaseIdentityToken)) : Op Nat := do
  let refs ← currentExpiryRefs reusable
  let counted ← gather (mcpAdmissionTurn cluster admissionClass) refs
  pure counted.length

section

variable [Platform] [Entropy]

/-! ### Leasing one job -/

/-- The job of an acquired lease. -/
def leasedJob (job : RelayJob) (endpointId : DurableRecordId) (updatedAt : Time) : RelayJob :=
  { job with
    state := .leased
    leasedBy := some endpointId.value
    attempts := job.attempts + 1
    updatedAt }

/-- The acquisition of a lease once its intent is written. -/
def acquireLease (lease : Lease) (target : RelayJob) (transition : LeaseCapacityTransition) :
    Op Unit := do
  writeJob target
  put (.lease lease.leaseId) lease
  put (.leaseByJob lease.jobId lease.leaseId) lease
  let _identity ← syncLeaseOperationalIndexes lease target none
  let _pair ← applyLeaseCapacityTransition transition .after
    s!"lease acquisition {lease.leaseId}"
  unlink (.intent (.leaseAcquire lease.leaseId))

/-- `_lease_job_unlocked`, with the validated global total. -/
def leaseJob (job : RelayJob) (endpointId : DurableRecordId) (ttlSeconds : Int)
    (globalTotal : Nat) : Op Lease := do
  require (job.kind != .inputIngest) (.conflict "input ingest jobs are never worker-leased")
  require (decide (globalTotal < maxLiveLeaseRecords))
    (.conflict s!"active lease population reached its safety bound of {maxLiveLeaseRecords} records")
  let lease ← Lease.new job.jobId endpointId ttlSeconds
  let updatedAt ← utcNow
  let target := leasedJob job endpointId updatedAt
  let transition ← prepareLeaseCapacityTransition [⟨job.cluster, job.kind, 1⟩] true
  writeTransitionIntent (.leaseAcquire lease job target target.updatedAt transition)
  acquireLease lease target transition
  let _event ← appendEventUnlocked job.jobId "job.leased" s!"Job leased by {endpointId}"
    [("lease_id", .str lease.leaseId.value)]
  pure lease

/-! ### Acquiring the next job -/

/-- The queued-job index, with its file names. -/
def queuedJobsListed (p : Path) (c : Content p) : Option (DurableRecordId × RelayJob) :=
  match p, c with
  | .jobQueued jobId, job => some (jobId, job)
  | _, _ => none

/-- `_job_submission_order_key_unlocked`: the sequence of a job. -/
def jobSubmissionOrder (job : RelayJob) : Op (List (Nat × RelayJob)) := do
  let sequence ← ensureGlobal .jobs job.jobId
  pure [(sequence, job)]

/-- The order of `sorted(queued_jobs, key=...)`. -/
def submittedBefore (a b : Nat × RelayJob) : Prop :=
  a.1 < b.1 ∨ (a.1 = b.1 ∧ (a.2.createdAt < b.2.createdAt ∨
    (a.2.createdAt = b.2.createdAt ∧ a.2.jobId.value ≤ b.2.jobId.value)))

instance : DecidableRel submittedBefore := fun _ _ => inferInstanceAs (Decidable (_ ∨ _))

/-- The queued jobs in the order of their submission. -/
def queuedJobs : Op (List RelayJob) := do
  let scan ← scanMany queuedJobsListed RelayJob.jobId maxActiveJobRecords
  let keyed ← gather jobSubmissionOrder scan.1
  pure ((keyed.insertionSort submittedBefore).map Prod.snd)

/-- What the loop of `acquire_next_job` knows of the occupancy. -/
structure Admission where
  endpointId : DurableRecordId
  cluster : String
  ttlSeconds : Int
  limits : List (JobKind × Int)
  lane : Option McpLane
  reusable : Option (List LeaseIdentityToken)
  counts : JobKind → Nat
  globalTotal : Nat
  mcpAtLimit : Bool

/-- Whether the loop passes over a job before it looks at its limit. -/
def Admission.skips (admission : Admission) (job : RelayJob) : Bool :=
  job.cluster != admission.cluster || job.state != .queued || job.kind == .inputIngest ||
    (admission.lane.any fun lane => !jobMatchesMcpAdmissionClass job lane.admissionClass) ||
    (admission.mcpAtLimit && job.kind == .mcpCall)

/-- The occupancy a job's limit is compared with, and the limit: the workload lane counts
workload MCP leases, the control lane has no kind limit for them.  The workload count is
computed once. -/
def Admission.occupancy (admission : Admission) (workload : Option Nat) (job : RelayJob) :
    Op (Nat × Option Int × Option Nat) :=
  let limit := admission.limits.lookup job.kind
  match admission.lane, job.kind with
  | some ⟨.controlQuery, _⟩, .mcpCall => pure (admission.counts job.kind, none, workload)
  | some ⟨.workload, _⟩, .mcpCall =>
    match workload with
    | some count => pure (count, limit, workload)
    | none => do
      let count ← activeMcpAdmissionCount admission.cluster .workload admission.reusable
      pure (count, limit, some count)
  | _, _ => pure (admission.counts job.kind, limit, workload)

/-- The loop of `acquire_next_job`. -/
def Admission.leaseFirst (admission : Admission) :
    List RelayJob → Option Nat → Op (Option Lease)
  | [], _ => pure none
  | job :: jobs, workload =>
    if admission.skips job then Admission.leaseFirst admission jobs workload
    else do
      let cleanup ← jobHasPendingExecutionCleanup job.cluster job.jobId
      if cleanup then Admission.leaseFirst admission jobs workload
      else do
        let occupancy ← admission.occupancy workload job
        if occupancy.2.1.any fun limit => decide (limit ≤ (occupancy.1 : Int)) then
          Admission.leaseFirst admission jobs occupancy.2.2
        else do
          let lease ← leaseJob job admission.endpointId admission.ttlSeconds admission.globalTotal
          pure (some lease)

/-- Whether the lane has reached its own limit. -/
def laneAtLimit (cluster : String) (lane : Option McpLane)
    (reusable : Option (List LeaseIdentityToken)) : Op Bool :=
  match lane with
  | some ⟨admissionClass, some limit⟩ => do
    let count ← activeMcpAdmissionCount cluster admissionClass reusable
    pure (decide (limit ≤ (count : Int)))
  | _ => pure false

/-- The arguments of an acquisition. -/
structure AcquireArgs where
  endpointId : DurableRecordId
  cluster : String
  ttlSeconds : Int
  maxAttempts : Int
  kindConcurrency : List (JobKind × Int)
  deriving DecidableEq

/-- `acquire_next_job` after the recovery of stale leases. -/
def admitNextJob (args : AcquireArgs) (limits : List (JobKind × Int)) (lane : Option McpLane)
    (reusable : Option (List LeaseIdentityToken)) : Op (Option Lease) := do
  let active ← activeLeaseForEndpoint args.endpointId reusable
  match active with
  | some active => do
    let job ← getJob active.jobId
    require (lane.all fun lane => jobMatchesMcpAdmissionClass job lane.admissionClass)
      (.conflict s!"endpoint active lease does not match its MCP admission lane: {args.endpointId}")
    pure (some active)
  | none => do
    let snapshot ← leaseCapacitySnapshot args.cluster
    if maxLiveLeaseRecords ≤ snapshot.2 then pure none
    else do
      let mcpAtLimit ← laneAtLimit args.cluster lane reusable
      let jobs ← queuedJobs
      Admission.leaseFirst
        { endpointId := args.endpointId, cluster := args.cluster,
          ttlSeconds := args.ttlSeconds, limits, lane, reusable, counts := snapshot.1,
          globalTotal := snapshot.2, mcpAtLimit } jobs none

/-- `acquire_next_job`. -/
def acquireNextJob (args : AcquireArgs) (lane : Option McpLane) : Op (Option Lease) := do
  let limits ← ofExcept (normalizeKindConcurrency args.kindConcurrency)
  require ((lane.bind McpLane.limit).all fun limit => decide (1 ≤ limit))
    (.configuration "worker MCP admission limit must be at least 1")
  recoverPendingTransitions
  requireIndexMigrationComplete
  let reusable ← recoverStaleJobsForAdmission args.cluster args.maxAttempts
  admitNextJob args limits lane reusable

/-! ### Acquiring one exact job -/

/-- Lease a queued job unless it or its kind is not admissible. -/
def admitExactJob (args : AcquireArgs) (limits : List (JobKind × Int)) (job : RelayJob) :
    Op (Option Lease) := do
  let cleanup ← jobHasPendingExecutionCleanup job.cluster job.jobId
  if cleanup then pure none
  else do
    let snapshot ← leaseCapacitySnapshot args.cluster
    if maxLiveLeaseRecords ≤ snapshot.2 then pure none
    else if (limits.lookup job.kind).any fun limit => decide (limit ≤ (snapshot.1 job.kind : Int))
    then pure none
    else do
      let lease ← leaseJob job args.endpointId args.ttlSeconds snapshot.2
      pure (some lease)

/-- `acquire_job` after the recovery of stale leases. -/
def admitJob (jobId : DurableRecordId) (args : AcquireArgs) (limits : List (JobKind × Int))
    (reusable : Option (List LeaseIdentityToken)) : Op (Option Lease) := do
  let active ← activeLeaseForEndpoint args.endpointId reusable
  match active with
  | some active => pure (if active.jobId = jobId then some active else none)
  | none => do
    let job ← getJob jobId
    if job.cluster ≠ args.cluster ∨ job.state ≠ .queued ∨ job.kind = .inputIngest then pure none
    else admitExactJob args limits job

/-- `acquire_job`. -/
def acquireJob (jobId : DurableRecordId) (args : AcquireArgs) : Op (Option Lease) := do
  let limits ← ofExcept (normalizeKindConcurrency args.kindConcurrency)
  recoverPendingTransitions
  requireIndexMigrationComplete
  let reusable ← recoverStaleJobsForAdmission args.cluster args.maxAttempts
  admitJob jobId args limits reusable

/-- `submit_and_acquire_job` after the submission and the recovery of stale leases. -/
def admitSubmittedJob (submitted : RelayJob) (args : AcquireArgs) (limits : List (JobKind × Int))
    (reusable : Option (List LeaseIdentityToken)) : Op (RelayJob × Option Lease) := do
  let active ← activeLeaseForEndpoint args.endpointId reusable
  match active with
  | some active =>
    pure (submitted, if active.jobId = submitted.jobId then some active else none)
  | none => do
    let job ← getJob submitted.jobId
    if job.state ≠ .queued then pure (job, none)
    else do
      let lease ← admitExactJob { args with cluster := job.cluster } limits job
      match lease with
      | none => pure (job, none)
      | some lease => do
        let leased ← getJob job.jobId
        pure (leased, some lease)

/-- `submit_and_acquire_job`; the cluster is that of the submitted job. -/
def submitAndAcquireJob (job : RelayJob) (args : AcquireArgs) : Op (RelayJob × Option Lease) := do
  let limits ← ofExcept (normalizeKindConcurrency args.kindConcurrency)
  recoverPendingTransitions
  requireIndexMigrationComplete
  let submitted ← submitJob job
  require (submitted.cluster == job.cluster)
    (.conflict s!"submitted job {submitted.jobId} changed cluster identity")
  if submitted.kind = .inputIngest then pure (submitted, none)
  else do
    let reusable ← recoverStaleJobsForAdmission submitted.cluster args.maxAttempts
    admitSubmittedJob submitted args limits reusable

end

end ClioQueue
