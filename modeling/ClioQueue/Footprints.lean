/-
# Footprints

Which files the queue's writers can change, wherever they stop: the derived
indexes of jobs, tasks and gateway sessions, the order indexes and event logs, the
lineage edges and the admission records.  None of them touches a lease file or a
capacity record.
-/

import ClioQueue.Gateways
import ClioQueue.Tasks

namespace ClioQueue

open Durable Durable.Prog

/-! ### Families of files -/

/-- The memberships of owner sessions. -/
def membershipFile : Path → Prop
  | .ownerSessionJob .. => True
  | _ => False

/-- The scheduler sources of jobs and tasks, and the gateway backlinks they imply. -/
def schedulerFile : Path → Prop
  | .schedulerRefs .. | .schedulerProtection .. | .schedulerJob ..
  | .activeGatewayRefByJob .. | .activeGatewayRefBySession .. => True
  | _ => False

/-- What one scheduler id of a source changes. -/
def schedulerLink : Path → Prop
  | .schedulerJob .. | .activeGatewayRefByJob .. | .activeGatewayRefBySession .. => True
  | _ => False

theorem schedulerLink.schedulerFile {p : Path} (h : schedulerLink p) : schedulerFile p := by
  cases p <;> trivial

/-- The receipts of the execution-cleanup migration. -/
def cleanupReceipt : Path → Prop
  | .cleanupMigration .. => True
  | _ => False

/-- The copies of a job in the active and the queued index. -/
def jobCopy (jobId : DurableRecordId) : Path → Prop
  | .jobActive id | .jobQueued id => id = jobId
  | _ => False

/-- The event log of a job, and its head. -/
def eventFile (jobId : DurableRecordId) : Path → Prop
  | .event id _ | .jobIndex id => id = jobId
  | _ => False

/-- A global order. -/
def orderFile (family : GlobalFamily) : Path → Prop
  | .globalHead f | .globalById f _ | .globalEntry f _ => f = family
  | _ => False

/-- The edges between artifacts and the jobs that use them. -/
def lineageFile : Path → Prop
  | .usedArtifact .. | .artifactUser .. | .artifactUserHead _ | .artifactUserByConsumer ..
  | .artifactUserEntry .. => True
  | _ => False

/-- The per-job copies of tasks. -/
def taskCopy : Path → Prop
  | .jobIndex _ | .taskByJob .. | .taskOrder .. | .activeTask .. => True
  | _ => False

/-- The gateway backlinks and reverse references. -/
def gatewayFile : Path → Prop
  | .gatewaysBy .. | .gatewayReverseRef .. | .activeGatewayRefByJob ..
  | .activeGatewayRefBySession .. => True
  | _ => False

/-- The idempotency records. -/
def keyFile : Path → Prop
  | .idempotency _ => True
  | _ => False

/-- The records of scheduler cancellations. -/
def cancelFile : Path → Prop
  | .schedulerCancelPending .. | .schedulerCancelDisposition .. => True
  | _ => False

section

variable {A : Path → Prop}

/-! ### Orders and events -/

theorem readOnly_boundedListing {γ : Type} (f : (p : Path) → Content p → Option γ) (limit : Nat)
    (label : String) : ReadOnly (boundedListing f limit label) :=
  .bind (readOnly_listing f) fun _ => .guard <| .pure _

theorem confined_boundedListing {γ : Type} (f : (p : Path) → Content p → Option γ) (limit : Nat)
    (label : String) : Confined A (boundedListing f limit label) :=
  .ofReadOnly (readOnly_boundedListing ..)

theorem confined_readGlobalRecord (found : Option GlobalOrderRecord) :
    Confined A (readGlobalRecord found) :=
  .guard <| .pure _

theorem confined_readGlobalHead (family : GlobalFamily) : Confined A (readGlobalHead family) := by
  refine .bind (confined_read _) fun head => ?_
  rcases head with _ | _
  · exact .pure _
  · exact .guard <| .pure _

theorem confined_ensureGlobalSequence (family : GlobalFamily) (recordId : DurableRecordId)
    (sequence : Nat) :
    Confined (orderFile family) (ensureGlobalSequence family recordId sequence) := by
  refine .bind (confined_read _) fun entry => .bind (confined_readGlobalRecord entry) fun found => ?_
  rcases found with _ | _
  · exact confined_put _ rfl
  · exact .require _ _

theorem confined_ensureGlobal (family : GlobalFamily) (recordId : DurableRecordId) :
    Confined (orderFile family) (ensureGlobal family recordId) := by
  refine .bind (confined_read _) fun byId => .bind (confined_readGlobalRecord byId) fun mapping =>
    .bind (confined_readGlobalHead family) fun latest => ?_
  rcases mapping with _ | _
  · exact .guard <| .bind (confined_put _ rfl) fun _ =>
      .bind (confined_put _ rfl) fun _ =>
        .bind (confined_ensureGlobalSequence family recordId _) fun _ => .pure _
  · exact .guard <|
      .bind (confined_ensureGlobalSequence family recordId _) fun _ => .pure _

section

variable (jobId : DurableRecordId)

include jobId

theorem confined_initializeJobIndex (hp : A (.jobIndex jobId)) :
    Confined A (initializeJobIndex jobId) :=
  .bind (confined_present _) fun _ => .ite (.pure _) (confined_put _ hp)

theorem confined_updateJobIndex (update : JobIndex → JobIndex) (hp : A (.jobIndex jobId)) :
    Confined A (updateJobIndex jobId update) := by
  refine .bind (confined_read _) fun found => ?_
  rcases found with _ | _
  · exact .pure _
  · exact confined_put _ hp

theorem readOnly_nextEventSeq : ReadOnly (nextEventSeq jobId) := by
  refine .bind (readOnly_read _) fun index => ?_
  rcases index with _ | index
  all_goals
    refine .bind (.look _) fun free => ?_
    rcases free with _ | seq
    · exact .raise _
    · exact .pure _

theorem confined_nextEventSeq : Confined A (nextEventSeq jobId) :=
  .ofReadOnly (readOnly_nextEventSeq jobId)

theorem confined_appendEventUnlocked [Platform] [Entropy]
    (eventType message : String) (payload : Dict) :
    Confined (eventFile jobId) (appendEventUnlocked jobId eventType message payload) :=
  .bind (confined_nextEventSeq jobId) fun _ => .bind confined_utcNow fun _ =>
    .bind (confined_putWithin _ _ rfl) fun _ =>
      .bind (confined_updateJobIndex jobId _ rfl) fun _ => .pure _

end

/-! ### Memberships and scheduler sources -/

theorem confined_syncOwnerSessionJobMembership (job : RelayJob) :
    Confined membershipFile (syncOwnerSessionJobMembership job) := by
  refine .bind (.ofExcept _) fun identity => ?_
  rcases identity with _ | ⟨_, _⟩
  · exact .pure _
  · exact .bind (.ofExcept _) fun _ => .bind (confined_present _) fun _ =>
      .bind (.look _) fun _ => .guard <| confined_put _ trivial

theorem confined_dropSchedulerId (jobId : DurableRecordId) (sourceId schedulerId : String) :
    Confined schedulerLink (dropSchedulerId jobId sourceId schedulerId) :=
  .bind (confined_unlink trivial) fun _ => .bind (confined_boundedListing ..) fun _ =>
    .each _ fun _ _ => .bind (confined_unlink trivial) fun _ => confined_unlink trivial

theorem confined_linkActiveGatewayJob [Platform] (session : GatewaySession) (jobId : String)
    (kind : RelationKind) (key : String) (sourceId : Option String)
    (hjob : ∀ id token, A (.activeGatewayRefByJob id token))
    (hsess : ∀ id token, A (.activeGatewayRefBySession id token)) :
    Confined A (linkActiveGatewayJob session jobId kind key sourceId) :=
  .bind (.ofExcept _) fun _ => .bind (confined_putWithin _ _ (hjob _ _)) fun _ =>
    confined_putWithin _ _ (hsess _ _)

theorem confined_addSchedulerId [Platform] (jobId : DurableRecordId)
    (sourceId schedulerId : String) :
    Confined schedulerLink (addSchedulerId jobId sourceId schedulerId) :=
  .bind (confined_putWithin _ _ trivial) fun _ => .bind (confined_boundedListing ..) fun _ =>
    .each _ fun gateway _ => .ite (.pure _)
      (confined_linkActiveGatewayJob gateway _ _ _ _ (fun _ _ => trivial) fun _ _ => trivial)

theorem confined_syncSchedulerSource [Platform] (jobId : DurableRecordId) (sourceId : String)
    (metadata : Dict) : Confined schedulerFile (syncSchedulerSource jobId sourceId metadata) :=
  .bind (.ofExcept _) fun _ => .bind (confined_read _) fun _ =>
    .bind (.each _ fun _ _ => (confined_dropSchedulerId ..).mono fun _ => schedulerLink.schedulerFile) fun _ =>
      .bind (.ite (confined_putWithin _ _ trivial) (confined_unlink trivial)) fun _ =>
        .bind (.ite (confined_put _ trivial) (confined_unlink trivial)) fun _ =>
          .each _ fun _ _ => (confined_addSchedulerId ..).mono fun _ => schedulerLink.schedulerFile

/-! ### Jobs -/

/-- What is derived from a job. -/
def derivedFile (jobId : DurableRecordId) (p : Path) : Prop :=
  membershipFile p ∨ schedulerFile p ∨ jobCopy jobId p

theorem confined_syncJobDerived [Platform] (job : RelayJob) :
    Confined (derivedFile job.jobId) (syncJobDerived job) :=
  .bind ((confined_syncOwnerSessionJobMembership job).mono fun _ => .inl) fun _ =>
    .bind ((confined_syncSchedulerSource ..).mono fun _ h => .inr (.inl h)) fun _ =>
      .ite (.bind (confined_unlink (.inr (.inr rfl))) fun _ => confined_unlink (.inr (.inr rfl)))
        (.bind (confined_putWithin _ _ (.inr (.inr rfl))) fun _ =>
          .ite (confined_putWithin _ _ (.inr (.inr rfl))) (confined_unlink (.inr (.inr rfl))))

theorem confined_migrateExecutionCleanupShard [Entropy] (cluster : String) (shard : Fin 256) :
    Confined cleanupReceipt (migrateExecutionCleanupShard cluster shard) :=
  .bind (.ofExcept _) fun _ => .bind (confined_present _) fun _ =>
    .ite (.pure _) (.bind confined_utcNow fun _ => confined_put _ trivial)

theorem readOnly_jobHasPendingExecutionCleanup [Platform] (cluster : String)
    (jobId : DurableRecordId) : ReadOnly (jobHasPendingExecutionCleanup cluster jobId) :=
  .bind (.ofExcept _) fun _ => .bind (readOnly_present _) fun _ =>
    .bind (readOnly_listing _) fun _ => .pure _

theorem confined_jobHasPendingExecutionCleanupAfterMigration [Platform] [Entropy]
    (cluster : String) (jobId : DurableRecordId) :
    Confined cleanupReceipt (jobHasPendingExecutionCleanupAfterMigration cluster jobId) :=
  .bind (confined_migrateExecutionCleanupShard ..) fun _ =>
    .ofReadOnly (readOnly_jobHasPendingExecutionCleanup ..)

theorem readOnly_readJob (jobId : DurableRecordId) : ReadOnly (readJob jobId) :=
  .bind (readOnly_read _) fun _ => .guard <| .pure _

theorem confined_readJob (jobId : DurableRecordId) : Confined A (readJob jobId) :=
  .ofReadOnly (readOnly_readJob jobId)

/-! ### Reading jobs and leases -/

theorem readOnly_requireIndexMigrationComplete : ReadOnly requireIndexMigrationComplete := by
  refine .bind (.bind (readOnly_read _) fun found => ?_) fun _ => .require _ _
  rcases found with _ | _
  · exact .raise _
  · exact .pure _

theorem readOnly_getJob (jobId : DurableRecordId) : ReadOnly (getJob jobId) := by
  refine .bind (readOnly_readJob jobId) fun found => ?_
  rcases found with _ | _
  · exact .raise _
  · exact .pure _

theorem readOnly_readLease (leaseId : DurableRecordId) : ReadOnly (readLease leaseId) :=
  .bind (readOnly_read _) fun _ => .guard <| .pure _

theorem readOnly_readLeaseIndexIdentityByToken (token : RefToken)
    (identityToken : Option LeaseIdentityToken) :
    ReadOnly (readLeaseIndexIdentityByToken token identityToken) := by
  refine .bind (readOnly_read _) fun manifest => ?_
  rcases manifest with _ | _
  · exact .raise _
  · exact .guard <| .guard <|
      .guard <| .pure _

theorem readOnly_readLeaseIndexIdentity (leaseId : DurableRecordId) :
    ReadOnly (readLeaseIndexIdentity leaseId) :=
  .bind (readOnly_readLeaseIndexIdentityByToken ..) fun _ => .guard <| .pure _

theorem readOnly_requireEmptyLeaseRef (p : Path) (label : String) :
    ReadOnly (requireEmptyLeaseRef p label) :=
  .bind (readOnly_present _) fun _ => .require _ _

theorem readOnly_jobHasSchedulerObservation (job : RelayJob) :
    ReadOnly (jobHasSchedulerObservation job) :=
  .bind (readOnly_present _) fun _ => .guard <|
    .bind (readOnly_boundedListing ..) fun _ => .ite (.pure _)
      (.bind (readOnly_boundedListing ..) fun _ => .pure _)

/-! ### Reading the admission records -/

theorem readOnly_assertOwnerSessionIntakeOpen (metadata : Dict) (requireActive : Bool) :
    ReadOnly (assertOwnerSessionIntakeOpen metadata requireActive) := by
  refine .bind (.ofExcept _) fun identity => ?_
  split
  · exact .pure _
  · split
    · exact .raise _
    · refine .guard <| .bind (.ofExcept _) fun _ =>
        .bind (readOnly_read _) fun _ => .bind (.ofExcept _) fun _ => .guard <|
          .bind (.bind (.ofExcept _) fun _ => .bind (readOnly_read _) fun _ => .ofExcept _) fun _ =>
            .guard <| .guard <| ?_
      split
      · exact .pure _
      · exact .bind (.bind (.ofExcept _) fun _ => .bind (readOnly_read _) fun _ =>
          .guard <| .pure _) fun _ => .require _ _

theorem readOnly_inputIngestConsumesQuota [Platform] (job : RelayJob) (spec : InputArtifactSpec) :
    ReadOnly (inputIngestConsumesQuota job spec) := by
  refine .ite (.bind (readOnly_read _) fun artifact => ?_) (.pure _)
  rcases artifact with _ | artifact
  · exact .pure _
  · exact .guard <| .pure _

theorem readOnly_ingestMemberSize [Platform] (job : RelayJob) (owner : String)
    (generation : DurableRecordId) (membership : OwnerSessionJobMembership) :
    ReadOnly (ingestMemberSize job owner generation membership) := by
  refine .guard <| .bind (readOnly_readJob _) fun existing => ?_
  rcases existing with _ | existing
  · exact .raise _
  · refine .guard <| .ite (.pure _) ?_
    split
    · exact .ite (.pure _) (.bind (readOnly_inputIngestConsumesQuota ..) fun _ => .pure _)
    · exact .raise _

theorem readOnly_ingestQuotaUsed [Platform] (job : RelayJob) (size : Nat) (owner : String)
    (generation : DurableRecordId) (policy : InputArtifactIngestPolicy) :
    ∀ (members : List OwnerSessionJobMembership) (files bytes : Nat),
      ReadOnly (ingestQuotaUsed job size owner generation policy members files bytes)
  | [], files, bytes => .pure _
  | membership :: members, files, bytes => by
      refine .bind (readOnly_ingestMemberSize ..) fun used => ?_
      rcases used with _ | used
      · exact readOnly_ingestQuotaUsed job size owner generation policy members files bytes
      · exact .guard <| .guard <|
          readOnly_ingestQuotaUsed job size owner generation policy members _ _

theorem readOnly_assertInputIngestQuotaWith [Platform] (policy : Option InputArtifactIngestPolicy)
    (job : RelayJob) : ReadOnly (assertInputIngestQuotaWith policy job) := by
  refine .ite (.pure _) ?_
  split
  · refine .bind (.ofExcept _) fun identity => ?_
    split
    · refine .guard <| ?_
      split
      · exact .raise _
      · exact .bind (readOnly_boundedListing ..) fun _ => .bind (readOnly_ingestQuotaUsed ..) fun _ =>
          .guard <| .require _ _
    · exact .raise _
  · exact .raise _

theorem readOnly_assertInputIngestQuota [Platform] (job : RelayJob) :
    ReadOnly (assertInputIngestQuota job) :=
  readOnly_assertInputIngestQuotaWith none job

theorem readOnly_replayRetiredJob [Platform] (submitted : RelayJob) (record : IdempotencyRecord)
    (digest : JobDigest) : ReadOnly (replayRetiredJob submitted record digest) := by
  refine .bind (readOnly_read _) fun tombstone => .guard <| ?_
  rcases tombstone with _ | tombstone
  · exact .raise _
  · exact .guard <| .pure _

/-! ### Submissions -/

section

variable [Platform]

theorem confined_writeIdempotencyRecord (record : IdempotencyRecord) :
    Confined keyFile (writeIdempotencyRecord record) :=
  confined_putWithin _ _ trivial

theorem confined_settleReservedDigest (record : IdempotencyRecord) (digest : JobDigest) :
    Confined keyFile (settleReservedDigest record digest) :=
  .ite (.bind (confined_writeIdempotencyRecord _) fun _ => .pure _) (.pure _)

theorem confined_writeImmutableUseRecord {A : Path → Prop} (found : Option UsedArtifactRef)
    (record : UsedArtifactRef) {write : Op Unit} (h : Confined A write) :
    Confined A (writeImmutableUseRecord found record write) := by
  rcases found with _ | _
  · exact .guard <| h
  · exact .require _ _

theorem confined_writeConsumerMapping (record : UsedArtifactRef) :
    Confined lineageFile (writeConsumerMapping record) :=
  .bind (confined_read _) fun _ => confined_writeImmutableUseRecord _ _ (confined_put _ trivial)

theorem confined_reserveArtifactUserOrder (artifact : ArtifactRef) (use : ArtifactUse)
    (sha256 : String) (job : RelayJob) :
    Confined lineageFile (reserveArtifactUserOrder artifact use sha256 job) := by
  refine .bind (.bind (confined_present _) fun _ => .ite (.pure _) (confined_put _ trivial)) fun _ =>
    .bind (confined_read _) fun existing => ?_
  rcases existing with _ | _
  · exact .bind (.bind (confined_read _) fun _ => .pure _) fun _ => .guard <|
      .bind (confined_put _ trivial) fun _ =>
        .bind (confined_writeConsumerMapping _) fun _ => .pure _
  · exact .pure _

theorem confined_artifactUseRecord (job : RelayJob) (allocateSequences : Bool) (use : ArtifactUse)
    (artifact : ArtifactRef) (sha256 : String) :
    Confined lineageFile (artifactUseRecord job allocateSequences use artifact sha256) := by
  refine .bind (confined_read _) fun forward => .bind (confined_read _) fun reverse =>
    .bind (.bind (confined_read _) fun _ => .pure _) fun head =>
      .bind (confined_read _) fun mapping => .bind (confined_boundedListing ..) fun _ =>
        .bind (confined_boundedListing ..) fun _ => ?_
  split
  · exact .bind (.guard <| .guard <|
      .bind (confined_read _) fun _ => .require _ _) fun _ => .pure _
  · exact .guard <| .ite (.bind (confined_reserveArtifactUserOrder ..) fun _ => .pure _) (.pure _)

theorem confined_artifactUse (job : RelayJob) (allocateSequences : Bool) (use : ArtifactUse) :
    Confined lineageFile (artifactUse job allocateSequences use) := by
  refine .bind (confined_read _) fun found => ?_
  rcases found with _ | artifact
  · exact .raise _
  · refine .guard <| ?_
    rcases artifact.sha256 with _ | sha256
    · exact .raise _
    · refine .guard <| .guard <|
        .bind (confined_readJob _) fun producer => ?_
      rcases producer with _ | producer
      · exact .raise _
      · exact .bind (.ofExcept _) fun _ => confined_artifactUseRecord ..

theorem confined_artifactUseRecords (job : RelayJob) (allocateSequences : Bool) :
    Confined lineageFile (artifactUseRecords job allocateSequences) :=
  .bind (confined_boundedListing ..) fun _ => .guard <| .gather _ fun _ _ => confined_artifactUse ..

theorem confined_ensureArtifactUseIndexes (job : RelayJob) :
    Confined lineageFile (ensureArtifactUseIndexes job) := by
  refine .bind (confined_artifactUseRecords job true) fun records =>
    .each _ fun record _ => .bind (confined_writeConsumerMapping record) fun _ => ?_
  exact .bind (confined_read _) fun _ =>
    .bind (confined_writeImmutableUseRecord _ _ (confined_put _ trivial)) fun _ =>
      .bind (confined_read _) fun _ =>
        .bind (confined_writeImmutableUseRecord _ _ (confined_put _ trivial)) fun _ =>
          .bind (confined_read _) fun _ =>
            confined_writeImmutableUseRecord _ _ (confined_put _ trivial)

theorem readOnly_decodeStored (stored : Option SchedulerCancelPending) :
    ReadOnly (decodeStored stored) := by
  rcases stored with _ | stored
  · exact .pure _
  · exact .bind (.ofExcept _) fun _ => .pure _

variable [Entropy]

theorem confined_writeCommittedIdempotencyRecord (job : RelayJob) (digest : JobDigest) :
    Confined keyFile (writeCommittedIdempotencyRecord job digest) :=
  .bind confined_utcNow fun _ => confined_writeIdempotencyRecord _

theorem confined_ensureJobQueuedEvent (job : RelayJob) :
    Confined (eventFile job.jobId) (ensureJobQueuedEvent job) :=
  .bind (confined_present _) fun _ => .ite (.pure _)
    (.bind (confined_updateJobIndex _ _ rfl) fun _ =>
      .bind (confined_appendEventUnlocked ..) fun _ => .pure _)

theorem confined_ensureSchedulerCancelPending (job : RelayJob) (requestedAt : Time)
    (reason : String) :
    Confined cancelFile (ensureSchedulerCancelPendingUnlocked job requestedAt reason) := by
  have hdecode : ∀ stored, Confined cancelFile (decodeStored stored) := fun stored =>
    .ofReadOnly (readOnly_decodeStored stored)
  refine .bind (.bind (confined_read _) hdecode) fun existing => ?_
  rcases existing with _ | existing
  · refine .bind (.bind (confined_read _) hdecode) fun completed => ?_
    rcases completed with _ | completed
    · exact .bind (confined_listing _) fun _ => .guard <|
        .bind confined_utcNow fun _ => .bind (.ofExcept _) fun _ =>
          .bind (confined_put _ trivial) fun _ => .pure _
    · exact .guard <| .pure _
  · exact .guard <| .pure _

theorem confined_ensureRequestedCancellation (job : RelayJob) :
    Confined cancelFile (ensureRequestedCancellation job) := by
  unfold ensureRequestedCancellation
  rcases schedulerCancellationRequest job with _ | _
  · exact .pure _
  · exact .ite (.bind (confined_ensureSchedulerCancelPending ..) fun _ => .pure _) (.pure _)

end

/-! ### Tasks and gateway sessions -/

theorem confined_unindexGatewaySessionId (sessionId : DurableRecordId) :
    Confined gatewayFile (unindexGatewaySessionId sessionId) :=
  .bind (confined_boundedListing ..) fun _ =>
    .bind (.each _ fun _ _ => .bind (confined_unlink trivial) fun _ => confined_unlink trivial) fun _ =>
      .bind (confined_boundedListing ..) fun _ =>
        .each _ fun _ _ => .bind (confined_unlink trivial) fun _ => confined_unlink trivial

section

variable [Platform]

theorem confined_syncTaskOrder (task : RelayTask) (sequence : Nat) :
    Confined taskCopy (syncTaskOrder task sequence) :=
  .bind (confined_putWithin _ _ trivial) fun _ => .bind (confined_read _) fun _ =>
    .ite (confined_updateJobIndex _ _ trivial) (.pure _)

theorem confined_syncTaskDerived (task : RelayTask) :
    Confined (fun p => taskCopy p ∨ schedulerFile p) (syncTaskDerived task) := by
  refine .bind (confined_initializeJobIndex task.jobId (.inl trivial)) fun _ =>
    .bind (confined_putWithin _ _ (.inl trivial)) fun _ => .bind ?_ fun _ =>
      .bind (.ite (confined_unlink (.inl trivial)) (confined_putWithin _ _ (.inl trivial)))
        fun _ => (confined_syncSchedulerSource ..).mono fun _ => .inr
  rcases task.sequence with _ | sequence
  · exact .pure _
  · exact (confined_syncTaskOrder task sequence).mono fun _ => .inl

theorem confined_writeGatewayReverseRef (relation : GatewayRelation) (kind : RelationKind)
    (key : String) (session : GatewaySession) :
    Confined gatewayFile (writeGatewayReverseRef relation kind key session) :=
  .bind (confined_putWithin _ _ trivial) fun _ => confined_putWithin _ _ trivial

theorem confined_indexGatewaySession (session : GatewaySession) :
    Confined gatewayFile (indexGatewaySession session) := by
  have hlink : ∀ jobId kind key sourceId,
      Confined gatewayFile (linkActiveGatewayJob session jobId kind key sourceId) :=
    fun jobId kind key sourceId => confined_linkActiveGatewayJob session jobId kind key sourceId
      (fun _ _ => trivial) fun _ _ => trivial
  have hart : ∀ artifactId, Confined gatewayFile (indexGatewayArtifact session artifactId) := by
    refine fun artifactId => .bind (confined_writeGatewayReverseRef ..) fun _ =>
      .bind (confined_read _) fun artifact => ?_
    rcases artifact with _ | artifact
    · exact .pure _
    · exact hlink ..
  refine .ite (.pure _) (.bind (.each _ fun _ _ => hlink ..) fun _ =>
    .bind (.each _ fun _ _ => hart _) fun _ => ?_)
  rcases session.schedulerJobId with _ | _
  · exact .pure _
  · exact .ite (.pure _) (.bind (confined_writeGatewayReverseRef ..) fun _ =>
      .bind (confined_boundedListing ..) fun _ => .each _ fun _ _ => hlink ..)

theorem confined_syncGatewaySessionDerived (sessionId : DurableRecordId) :
    Confined gatewayFile (syncGatewaySessionDerived sessionId) := by
  refine .bind (confined_read _) fun session =>
    .bind (confined_unindexGatewaySessionId sessionId) fun _ => ?_
  rcases session with _ | session
  · exact .pure _
  · exact confined_indexGatewaySession session

end

end

end ClioQueue
