/-
# Every operation keeps the event logs

The public operations that append events, one after the other: the events themselves,
tasks and their timelines, artifacts and progress, submissions, state changes and
cancellations, acquisitions, stale recoveries, and the attempts of input ingests.
-/

import ClioQueue.EventLogUpkeep

namespace ClioQueue

open Durable Durable.Prog

/-! ### Files beside the logs -/

theorem copyFile.not_logFile {p : Path} (h : copyFile p) : ¬ logFile p := by
  intro hp
  cases p <;> first | exact h | exact hp

theorem orderFile.not_logFile {family : GlobalFamily} {p : Path} (h : orderFile family p) :
    ¬ logFile p := by
  intro hp
  cases p <;> first | exact h | exact hp

theorem lineageFile.not_logFile {p : Path} (h : lineageFile p) : ¬ logFile p := by
  intro hp
  cases p <;> first | exact h | exact hp

theorem keyFile.not_logFile {p : Path} (h : keyFile p) : ¬ logFile p := by
  intro hp
  cases p <;> first | exact h | exact hp

theorem cancelFile.not_logFile {p : Path} (h : cancelFile p) : ¬ logFile p := by
  intro hp
  cases p <;> first | exact h | exact hp

/-! ### Lookups of the lease operations -/

theorem readOnly_scanMany {γ : Type} (f : (p : Path) → Content p → Option (DurableRecordId × γ))
    (recordId : γ → DurableRecordId) (limit : Nat) : ReadOnly (scanMany f recordId limit) :=
  .bind (readOnly_listing _) fun _ => .guard <| .pure _

theorem readOnly_readLeaseCapacityAggregate : ReadOnly readLeaseCapacityAggregate := by
  refine .bind readOnly_readLeaseCapacityComponents fun components => ?_
  split
  · exact .bind (.ofExcept _) fun _ => .pure _
  · exact .raise _

theorem readOnly_leaseCapacitySnapshot (cluster : String) :
    ReadOnly (leaseCapacitySnapshot cluster) :=
  .bind readOnly_readLeaseCapacityAggregate fun _ => .pure _

theorem readOnly_expirySnapshot (overflow : String) : ReadOnly (expirySnapshot overflow) :=
  .bind (.bind (readOnly_listing _) fun _ => .guard <| .pure _) fun _ =>
    .guard <| .pure _

theorem readOnly_currentExpiryRefs (reusable : Option (List LeaseIdentityToken)) :
    ReadOnly (currentExpiryRefs reusable) := by
  rcases reusable with _ | _
  · exact readOnly_expirySnapshot _
  · exact .pure _

theorem readOnly_scanLeaseEndpointRefs (endpointId : DurableRecordId) (limit : Nat) :
    ReadOnly (scanLeaseEndpointRefs endpointId limit) := by
  refine .bind (readOnly_listing _) fun _ => .bind (readOnly_listing _) fun _ => ?_
  exact .ite (.pure _) (.guard <| .pure _)

theorem readOnly_mcpAdmission (cluster : String) (admissionClass : McpAdmissionClass)
    (token : LeaseIdentityToken) : ReadOnly (mcpAdmission cluster admissionClass token) := by
  refine .bind (readOnly_readLeaseIndexIdentityByToken ..) fun _ => .guard <|
    .bind (readOnly_readLease _) fun lease => ?_
  rcases lease with _ | lease
  · exact .raise _
  · exact .bind (.ofExcept _) fun _ => .bind (readOnly_getJob _) fun _ =>
      .guard <| .pure _

theorem readOnly_activeMcpAdmissionCount (cluster : String) (admissionClass : McpAdmissionClass)
    (reusable : Option (List LeaseIdentityToken)) :
    ReadOnly (activeMcpAdmissionCount cluster admissionClass reusable) :=
  .bind (readOnly_currentExpiryRefs _) fun _ => .bind (.gather _ fun _ _ => .ite (.pure _)
    (.bind (readOnly_mcpAdmission ..) fun _ => .pure _)) fun _ => .pure _

theorem readOnly_laneAtLimit (cluster : String) (lane : Option McpLane)
    (reusable : Option (List LeaseIdentityToken)) :
    ReadOnly (laneAtLimit cluster lane reusable) := by
  rcases lane with _ | ⟨_, _ | _⟩
  · exact .pure _
  · exact .pure _
  · exact .bind (readOnly_activeMcpAdmissionCount ..) fun _ => .pure _

theorem readOnly_occupancy (admission : Admission) (workload : Option Nat) (job : RelayJob) :
    ReadOnly (admission.occupancy workload job) := by
  unfold Admission.occupancy
  split
  · exact .pure _
  · rcases workload with _ | _
    · exact .bind (readOnly_activeMcpAdmissionCount ..) fun _ => .pure _
    · exact .pure _
  · exact .pure _

theorem readOnly_dueExpiredLease (cluster : String) (now : Time) (token : LeaseIdentityToken) :
    ReadOnly (dueExpiredLease cluster now token) := by
  refine .bind (readOnly_readLeaseIndexIdentityByToken ..) fun _ =>
    .bind (readOnly_readLease _) fun lease => ?_
  rcases lease with _ | lease
  · exact .raise _
  · exact .bind (.ofExcept _) fun _ => .guard <|
      .bind (readOnly_requireEmptyLeaseRef ..) fun _ =>
        .bind (readOnly_requireEmptyLeaseRef ..) fun _ =>
          .bind (readOnly_requireEmptyLeaseRef ..) fun _ =>
            .bind (readOnly_requireEmptyLeaseRef ..) fun _ => .pure _

theorem readOnly_dueExpiredLeases (cluster : String) (now : Time)
    (refs : List LeaseIdentityToken) : ReadOnly (dueExpiredLeases cluster now refs) :=
  .bind (.gather _ fun _ _ => .ite (.pure _) (.bind (readOnly_dueExpiredLease ..) fun _ => .pure _))
    fun _ => .pure _

theorem readOnly_newLeaseCapacityPair [Entropy] (counts : Multiset LeaseScope) (epochId : Uuid)
    (generation : Nat) : ReadOnly (newLeaseCapacityPair counts epochId generation) :=
  .bind (.ofExcept _) fun _ => .bind (.draw _) fun _ => .pure _

theorem readOnly_prepareLeaseCapacityTransition [Entropy] (deltas : List ScopeDelta)
    (includeRollback : Bool) :
    ReadOnly (prepareLeaseCapacityTransition deltas includeRollback) :=
  .bind readOnly_readLeaseCapacityAggregate fun _ => .bind (.ofExcept _) fun _ =>
    .bind (readOnly_newLeaseCapacityPair ..) fun _ => .ite
      (.bind (readOnly_newLeaseCapacityPair ..) fun _ => .pure _) (.pure _)

theorem readOnly_newLease [Entropy] (jobId endpointId : DurableRecordId) (ttlSeconds : Int) :
    ReadOnly (Lease.new jobId endpointId ttlSeconds) :=
  .bind readOnly_utcNow fun _ => .bind (.ofExcept _) fun _ => .bind (readOnly_newId _) fun _ =>
    .pure _

theorem readOnly_activeLeaseForEndpoint [Entropy] (endpointId : DurableRecordId)
    (reusable : Option (List LeaseIdentityToken)) :
    ReadOnly (activeLeaseForEndpoint endpointId reusable) := by
  refine .bind (readOnly_currentExpiryRefs _) fun _ =>
    .bind (readOnly_scanLeaseEndpointRefs ..) fun _ => .guard <| .guard <| .guard <|
        .bind (.gather _ fun _ _ => .bind (readOnly_readLeaseIndexIdentityByToken ..) fun _ =>
          .bind (readOnly_readLease _) fun lease => ?_) fun _ => .guard <| .pure _
  rcases lease with _ | lease
  · exact .raise _
  · exact .bind (.ofExcept _) fun _ => .guard <|
      .bind (readOnly_requireEmptyLeaseRef ..) fun _ =>
        .bind (readOnly_requireEmptyLeaseRef ..) fun _ =>
          .bind (readOnly_requireEmptyLeaseRef ..) fun _ => .bind readOnly_utcNow fun _ => .pure _

section

variable [Platform] [Entropy]

/-! ### Events, tasks, artifacts and progress -/

theorem logged_appendEvent (jobId : DurableRecordId) (eventType message : String)
    (payload : Dict) : Logged (appendEvent jobId eventType message payload) :=
  logged_appendEventUnlocked ..

omit [Platform] [Entropy] in
theorem readOnly_getTask (taskId : DurableRecordId) : ReadOnly (getTask taskId) := by
  refine .bind (.bind (readOnly_read _) fun _ => .guard <| .pure _) fun found => ?_
  rcases found with _ | _
  · exact .raise _
  · exact .pure _

omit [Platform] [Entropy] in
theorem readOnly_nextTaskEventSeq (taskId : DurableRecordId) :
    ReadOnly (nextTaskEventSeq taskId) := by
  refine .bind (readOnly_read _) fun head => ?_
  rcases head with _ | _
  · refine .bind (.look _) fun last => ?_
    rcases last with _ | last
    · exact .raise _
    · exact .pure _
  · refine .bind (.look _) fun free => ?_
    rcases free with _ | _
    · exact .raise _
    · exact .pure _

theorem logged_appendTaskEvent (event : TaskTimelineEvent) : Logged (appendTaskEvent event) :=
  .bind (.readOnly (readOnly_getTask _)) fun _ =>
    .bind (.readOnly (readOnly_nextTaskEventSeq _)) fun _ => .bind (.putWithin _ _ id) fun _ =>
      .bind (.put _ id) fun _ => .bind (logged_appendEvent ..) fun _ => .pure _

omit [Platform] [Entropy] in
theorem readOnly_nextJobRecordSequence (jobId : DurableRecordId) (count : JobIndex → Nat) :
    ReadOnly (nextJobRecordSequence jobId count) := by
  refine .bind (readOnly_read _) fun index => ?_
  rcases index with _ | index
  · exact .raise _
  · exact .pure _

theorem logged_appendTask (task : RelayTask) : Logged (appendTask task) :=
  .bind logged_recoverPendingTransitions fun _ => .bind (.readOnly (readOnly_getJob _)) fun _ =>
    .bind (.readOnly (readOnly_nextJobRecordSequence ..)) fun _ =>
      .bind (logged_writeTask _) fun _ => .bind (logged_appendEventUnlocked ..) fun _ => .pure _

theorem logged_updateTaskState (taskId : DurableRecordId) (state : JobState)
    (message : Option String) (metadata : Dict) :
    Logged (updateTaskState taskId state message metadata) :=
  .bind logged_recoverPendingTransitions fun _ => .bind (.readOnly (readOnly_getTask _)) fun _ =>
    .bind (.readOnly readOnly_utcNow) fun _ => .bind (logged_writeTask _) fun _ =>
      .bind (logged_appendEventUnlocked ..) fun _ => .pure _

theorem logged_updateTaskMetadata (taskId : DurableRecordId) (metadata : Dict) :
    Logged (updateTaskMetadata taskId metadata) :=
  .bind logged_recoverPendingTransitions fun _ => .bind (.readOnly (readOnly_getTask _)) fun _ =>
    .bind (.readOnly readOnly_utcNow) fun _ => .bind (logged_writeTask _) fun _ => .pure _

omit [Platform] [Entropy] in
theorem logged_initializeArtifactUserOrder (artifactId : DurableRecordId) :
    Logged (initializeArtifactUserOrder artifactId) :=
  .bind (.readOnly (readOnly_present _)) fun _ => .ite (.pure _) (.put _ id)

omit [Entropy] in
theorem logged_linkGatewaysForArtifact (artifact : ArtifactRef) :
    Logged (linkGatewaysForArtifact artifact) :=
  .bind (.readOnly (readOnly_boundedListing ..)) fun _ => .each _ fun _ _ => .ite (.pure _)
    (.bind (.ofExcept _) fun _ => .bind (.putWithin _ _ id) fun _ => .putWithin _ _ id)

theorem logged_appendArtifact (artifact : ArtifactRef) : Logged (appendArtifact artifact) :=
  .bind (.bind (.readOnly (readOnly_getJob _)) fun _ =>
    .bind (.readOnly (readOnly_nextJobRecordSequence ..)) fun _ => .bind (.ofExcept _) fun _ =>
      .bind (.putWithin _ _ id) fun _ => .pure _) fun _ =>
    .bind (.bind (.putWithin _ _ id) fun _ => .bind (logged_initializeArtifactUserOrder _) fun _ =>
      .bind (.putWithin _ _ id) fun _ => .bind (logged_linkGatewaysForArtifact _) fun _ =>
        logged_updateJobIndex _ fun _ => le_rfl) fun _ =>
      .bind (logged_appendEventUnlocked ..) fun _ => .pure _

theorem logged_appendProgress (progress : ProgressRecord) : Logged (appendProgress progress) :=
  .bind (.bind (.readOnly (readOnly_getJob _)) fun _ =>
    .bind (.readOnly (readOnly_nextJobRecordSequence ..)) fun _ =>
      .bind (.putWithin _ _ id) fun _ => .pure _) fun _ =>
    .bind (.bind (.putWithin _ _ id) fun _ => .bind (.putWithin _ _ id) fun _ =>
      logged_updateJobIndex _ fun _ => le_rfl) fun _ =>
      .bind (logged_appendEventUnlocked ..) fun _ => .pure _

/-! ### Submissions -/

omit [Entropy] in
theorem logged_admitNewJob (job : RelayJob) : Logged (admitNewJob job) :=
  .confined (confined_admitNewJob job) fun _ => copyFile.not_logFile

theorem logged_createJob (job : RelayJob) (digest : JobDigest) : Logged (createJob job digest) :=
  .bind (.confined (confined_ensureGlobal ..) fun _ => orderFile.not_logFile) fun _ =>
    .bind (.initializeJobIndex _) fun _ =>
      .bind (.confined (confined_ensureArtifactUseIndexes job) fun _ => lineageFile.not_logFile)
        fun _ => .bind (logged_writeJob job) fun _ =>
          .bind (.confined (confined_writeCommittedIdempotencyRecord ..)
            fun _ => keyFile.not_logFile) fun _ =>
            .bind (logged_appendEventUnlocked ..) fun _ => .pure _

theorem logged_resumeJob (existing : RelayJob) (state : IdempotencyState) (job : RelayJob)
    (digest : JobDigest) : Logged (resumeJob existing state job digest) :=
  .guard <| .bind (.confined (confined_ensureGlobal ..) fun _ => orderFile.not_logFile) fun _ =>
      .bind (.initializeJobIndex _) fun _ =>
        .bind (.confined (confined_ensureArtifactUseIndexes _) fun _ => lineageFile.not_logFile)
          fun _ => .bind (logged_writeJob existing) fun _ =>
            .bind (.confined (confined_ensureRequestedCancellation _) fun _ => cancelFile.not_logFile)
              fun _ => .bind (logged_ensureJobQueuedEvent existing) fun _ =>
                .bind (.ite (.confined (confined_writeCommittedIdempotencyRecord ..)
                  fun _ => keyFile.not_logFile) (.pure _)) fun _ => .pure _

theorem logged_resubmit (job : RelayJob) (record : IdempotencyRecord) (digest : JobDigest) :
    Logged (resubmit job record digest) := by
  refine .bind (.confined (confined_settleReservedDigest ..) fun _ => keyFile.not_logFile) fun _ =>
    .guard <| .ite (.readOnly (readOnly_replayRetiredJob ..))
      (.bind (.readOnly (readOnly_readJob _)) fun existing => ?_)
  rcases existing with _ | existing
  · exact .guard <| .bind (logged_admitNewJob job) fun _ =>
      logged_createJob job digest
  · exact logged_resumeJob ..

theorem logged_submitJob (job : RelayJob) : Logged (submitJob job) := by
  refine .bind (.ofExcept _) fun _ => .bind (.readOnly readOnly_requireIndexMigrationComplete)
    fun _ => .bind logged_recoverPendingTransitions fun _ =>
      .bind (.readOnly (readOnly_read _)) fun found => .guard <|
        .bind (.ofExcept _) fun prepared => ?_
  rcases found with _ | _
  · exact .bind (.readOnly (readOnly_artifactUseRecords prepared)) fun _ =>
      .bind (logged_admitNewJob prepared) fun _ => .bind (.readOnly readOnly_utcNow) fun _ =>
        .bind (.confined (confined_writeIdempotencyRecord _) fun _ => keyFile.not_logFile)
          fun _ => logged_createJob ..
  · exact logged_resubmit ..

/-! ### State changes and cancellations -/

theorem logged_updateJobMetadata (jobId : DurableRecordId) (metadata : Dict) :
    Logged (updateJobMetadata jobId metadata) :=
  .bind logged_recoverPendingTransitions fun _ => .bind (.readOnly (readOnly_getJob _)) fun _ =>
    .bind (.ite (.ofExcept _) (.pure _)) fun _ => .bind (.readOnly readOnly_utcNow) fun _ =>
      .bind (logged_writeJob _) fun _ => .pure _

theorem logged_updateJobState (jobId : DurableRecordId) (state : JobState)
    (update : StateUpdate) : Logged (updateJobState jobId state update) :=
  .bind (.ofExcept _) fun _ => .bind logged_recoverPendingTransitions fun _ =>
    .bind (.readOnly (readOnly_getJob _)) fun _ => .guard <|
      .bind (.readOnly readOnly_utcNow) fun _ => .bind (logged_writeJob _) fun _ =>
        .bind (logged_appendEventUnlocked ..) fun _ => .pure _

theorem logged_requestCancellation (job : RelayJob) (cancelScheduler : Bool) :
    Logged (requestCancellation job cancelScheduler) :=
  .bind (.readOnly readOnly_utcNow) fun _ =>
    .bind (.ite (.bind (.confined (confined_ensureSchedulerCancelPending ..)
      fun _ => cancelFile.not_logFile) fun _ => .pure _) (.pure _)) fun _ =>
      .bind (logged_writeJob _) fun _ => .bind (logged_appendEventUnlocked ..) fun _ =>
        .bind (.ite (.bind (logged_appendEventUnlocked ..) fun _ => .pure _) (.pure _))
          fun _ => .pure _

theorem logged_cancelJobIfActive (jobId : DurableRecordId) (cancelScheduler : Bool)
    (expectedState : Option JobState) (expectedUpdatedAt : Option Time) :
    Logged (cancelJobIfActive jobId cancelScheduler expectedState expectedUpdatedAt) :=
  .bind logged_recoverPendingTransitions fun _ => .bind (.readOnly (readOnly_getJob _)) fun _ =>
    .ite (.pure _) (.bind (logged_requestCancellation ..) fun _ => .pure _)

theorem logged_acknowledgeJobCancellation (jobId : DurableRecordId) :
    Logged (acknowledgeJobCancellation jobId) := by
  refine .bind logged_recoverPendingTransitions fun _ => .bind (.readOnly (readOnly_getJob _))
    fun job => .ite (.pure _) (.guard <| ?_)
  rcases (job.metadata.get "cancellation_request").obj? with _ | _
  · exact .raise _
  · exact .bind (.readOnly readOnly_utcNow) fun _ => .bind (logged_writeJob _) fun _ =>
      .bind (logged_appendEventUnlocked ..) fun _ => .pure _

/-! ### Leases -/

omit [Platform] in
theorem logged_deleteLease (lease : Lease) (job : Option RelayJob) :
    Logged (deleteLease lease job) := by
  have hident : ReadOnly (deletionIdentity lease job) := by
    rcases job with _ | job
    · refine .bind (readOnly_readJob _) fun found => ?_
      rcases found with _ | job
      · exact readOnly_readLeaseIndexIdentity _
      · exact .ofExcept _
    · exact .ofExcept _
  exact .bind (.readOnly hident) fun _ => .bind (.ofExcept _) fun _ =>
    .bind (.readOnly (readOnly_present _)) fun _ => .guard <|
      .bind (.readOnly (readOnly_readLeaseIndexIdentity _)) fun _ => .guard <|
        .bind (.readOnly (readOnly_prepareLeaseCapacityTransition ..)) fun _ =>
          .bind (.putIntent fun _ => trivial) fun _ =>
            .bind (.confined (confined_deleteLeaseFiles ..) fun _ => leasingFile.not_logFile)
              fun _ => .bind (logged_applyLeaseCapacityTransition ..) fun _ => .unlinkIntent _

theorem grows_startRecovery (original target : RelayJob) (leases : List Lease)
    (event : RelayEvent) (transition : LeaseCapacityTransition) {s : Store} {v : Supply}
    (hs : LogOk s) (hbelow : EventsBelow s event.jobId event.seq) :
    Grows LogOk LogGrows
      (writeTransitionIntent (.staleLeaseRecovery original target leases event transition) >>=
        fun _ => applyStaleLeaseRecoveryIntent original target leases event transition) s v := by
  have hintent := grows_writeTransitionIntent (v := v) hs
    (show TransitionIntent.Pinned s (.staleLeaseRecovery original target leases event transition)
      from hbelow)
  refine hintent.bind LogGrows.trans fun _ _ => ?_
  obtain ⟨hok, hgrow⟩ := hintent.store
  exact grows_applyStaleLeaseRecoveryIntent _ _ _ _ _ hok (hbelow.grow hgrow)

/-- **A recovery pins the sequence it is going to use**: nothing is written between the
allocation and the intent. -/
theorem logged_recoverExpiredLeases (job : RelayJob) (expired : List Lease) (maxAttempts : Int) :
    Logged (recoverExpiredLeases job expired maxAttempts) := by
  refine .guard <| .guard <| .bind (.readOnly readOnly_utcNow) fun updatedAt => .guard <|
      .bind (.readOnly (.each _ fun _ _ => readOnly_checkExpiredLease ..)) fun _ => ?_
  refine ⟨fun s v hs => ?_⟩
  refine ((Logged.readOnly (readOnly_nextEventSeq job.jobId)).maintains s v hs).bind_wp
    LogGrows.trans ?_
  refine wp_nextEventSeq_logOk hs (fun seq hseq hbelow hfree => ?_) fun _ => trivial
  refine grows_readOnly readOnly_utcNow hs fun createdAt w => ?_
  refine grows_readOnly (readOnly_prepareLeaseCapacityTransition ..) hs fun transition w => ?_
  exact grows_startRecovery job _ expired _ transition hs hbelow

section

variable (cluster : String) (maxAttempts : Int)

include cluster maxAttempts

theorem logged_recoverJobLeases
    (group : DurableRecordId × List Lease) : Logged (recoverJobLeases cluster maxAttempts group) := by
  refine .bind (.readOnly (readOnly_readJob _)) fun found => ?_
  rcases found with _ | _
  · exact .bind (.each _ fun _ _ => logged_deleteLease ..) fun _ => .pure _
  · exact .guard <| .ite
      (.bind (.each _ fun _ _ => logged_deleteLease ..) fun _ => .pure _)
      (.bind (.confined (confined_jobHasPendingExecutionCleanupAfterMigration ..)
        fun _ => cleanupReceipt.not_logFile) fun _ => .ite (.pure _)
          (.bind (.readOnly (readOnly_jobHasSchedulerObservation _)) fun _ => .ite (.pure _)
            (.bind (logged_recoverExpiredLeases ..) fun _ => .pure _)))

theorem logged_recoverStaleJobsFromExpiryRefs (refs : List LeaseIdentityToken) :
    Logged (recoverStaleJobsFromExpiryRefs cluster maxAttempts refs) :=
  .bind (.readOnly readOnly_utcNow) fun _ => .bind (.readOnly (readOnly_dueExpiredLeases ..))
    fun _ => .bind (.gather _ fun _ _ => .bind (logged_recoverJobLeases ..) fun _ => .pure _)
      fun _ => .pure _

theorem logged_recoverStaleJobsForAdmission :
    Logged (recoverStaleJobsForAdmission cluster maxAttempts) :=
  .bind (.readOnly (readOnly_expirySnapshot _)) fun _ =>
    .bind (logged_recoverStaleJobsFromExpiryRefs ..) fun _ => .pure _

theorem logged_recoverStaleJobs :
    Logged (recoverStaleJobs cluster maxAttempts) :=
  .bind (.readOnly readOnly_requireIndexMigrationComplete) fun _ =>
    .bind logged_recoverPendingTransitions fun _ =>
      .bind (.readOnly (readOnly_expirySnapshot _)) fun _ =>
        .bind (logged_recoverStaleJobsFromExpiryRefs ..) fun _ => .pure _

end

theorem logged_scanJobLeases (jobId : DurableRecordId) (limit : Nat) :
    Logged (scanJobLeases jobId limit) :=
  .bind logged_recoverPendingTransitions fun _ => .bind (.readOnly (readOnly_present _)) fun _ =>
    .ite (.bind (.readOnly (readOnly_scanMany ..)) fun _ => .pure _)
      (.bind (.readOnly (readOnly_scanMany ..)) fun _ => .pure _)

theorem logged_recoverStaleJob (jobId : DurableRecordId) (cluster : String) (maxAttempts : Int) :
    Logged (recoverStaleJob jobId cluster maxAttempts) :=
  .guard <| .bind (.readOnly readOnly_requireIndexMigrationComplete) fun _ =>
    .bind logged_recoverPendingTransitions fun _ => .bind (.readOnly (readOnly_getJob _)) fun _ =>
      .guard <| .bind (logged_scanJobLeases ..) fun _ =>
        .guard <|
          .bind (.readOnly (.gather _ fun _ _ => .bind readOnly_utcNow fun _ => .pure _)) fun _ =>
            .ite (.pure _) (.ite (.bind (.each _ fun _ _ => logged_deleteLease ..) fun _ => .pure _)
              (.bind (.confined (confined_jobHasPendingExecutionCleanupAfterMigration ..)
                fun _ => cleanupReceipt.not_logFile) fun _ => .ite (.pure _)
                  (.bind (.readOnly (readOnly_jobHasSchedulerObservation _)) fun _ => .ite (.pure _)
                    (.bind (logged_recoverExpiredLeases ..) fun _ => .pure _))))

theorem logged_renewLease (leaseId : DurableRecordId) (ttlSeconds : Int) :
    Logged (renewLease leaseId ttlSeconds) := by
  refine .bind (.readOnly readOnly_requireIndexMigrationComplete) fun _ =>
    .bind logged_recoverPendingTransitions fun _ => .bind (.readOnly (readOnly_readLease _))
      fun found => ?_
  rcases found with _ | _
  · exact .pure _
  · exact .bind (.readOnly (readOnly_getJob _)) fun _ => .bind (.readOnly (readOnly_newLease ..))
      fun _ => .bind (.readOnly (readOnly_prepareLeaseCapacityTransition ..)) fun _ =>
        .bind (.putIntent fun _ => trivial) fun _ =>
          .bind (logged_applyLeaseSyncIntent ..) fun _ => .pure _

theorem logged_releaseLease (leaseId : DurableRecordId) : Logged (releaseLease leaseId) := by
  refine .bind logged_recoverPendingTransitions fun _ => .bind (.readOnly (readOnly_readLease _))
    fun found => ?_
  rcases found with _ | _
  · exact .pure _
  · exact logged_deleteLease ..

theorem logged_repairLeaseOperationalIndexes (limit : Int) :
    Logged (repairLeaseOperationalIndexes limit) :=
  .guard <| .bind logged_recoverPendingTransitions fun _ =>
    .bind (.bind (.readOnly (readOnly_canonicalLeaseCapacityRecords _)) fun _ =>
      .bind (.readOnly (.draw _)) fun _ => .bind (.readOnly (readOnly_newLeaseCapacityPair ..))
        fun _ => .bind (.putIntent fun _ => trivial) fun _ => .pure _) fun _ =>
      .bind (logged_applyLeaseIndexRepairIntent ..) fun _ =>
        .bind (.readOnly readOnly_readLeaseCapacityAggregate) fun _ =>
          .bind (.readOnly readOnly_readIndexMigrationState) fun _ =>
            .bind (.put _ id) fun _ => .pure _

/-! ### Acquisition -/

theorem logged_leaseJob (job : RelayJob) (endpointId : DurableRecordId) (ttlSeconds : Int)
    (globalTotal : Nat) : Logged (leaseJob job endpointId ttlSeconds globalTotal) :=
  .guard <| .guard <|
    .bind (.readOnly (readOnly_newLease ..)) fun _ => .bind (.readOnly readOnly_utcNow) fun _ =>
      .bind (.readOnly (readOnly_prepareLeaseCapacityTransition ..)) fun _ =>
        .bind (.putIntent fun _ => trivial) fun _ =>
          .bind (.bind (logged_writeJob _) fun _ => .bind (.put _ id) fun _ =>
            .bind (.put _ id) fun _ => .bind (logged_syncLeaseOperationalIndexes ..) fun _ =>
              .bind (logged_applyLeaseCapacityTransition ..) fun _ => .unlinkIntent _) fun _ =>
            .bind (logged_appendEventUnlocked ..) fun _ => .pure _

theorem logged_leaseFirst (admission : Admission) :
    ∀ (jobs : List RelayJob) (workload : Option Nat), Logged (admission.leaseFirst jobs workload)
  | [], _ => .pure _
  | _ :: jobs, workload =>
    .ite (logged_leaseFirst admission jobs workload)
      (.bind (.readOnly (readOnly_jobHasPendingExecutionCleanup ..)) fun _ =>
        .ite (logged_leaseFirst admission jobs workload)
          (.bind (.readOnly (readOnly_occupancy ..)) fun _ =>
            .ite (logged_leaseFirst admission jobs _)
              (.bind (logged_leaseJob ..) fun _ => .pure _)))

omit [Platform] [Entropy] in
theorem logged_jobSubmissionOrder (job : RelayJob) : Logged (jobSubmissionOrder job) :=
  .bind (.confined (confined_ensureGlobal ..) fun _ => orderFile.not_logFile) fun _ => .pure _

omit [Platform] [Entropy] in
theorem logged_queuedJobs : Logged queuedJobs :=
  .bind (.readOnly (readOnly_scanMany ..)) fun _ =>
    .bind (.gather _ fun _ _ => logged_jobSubmissionOrder _) fun _ => .pure _

theorem logged_acquireNextJob (args : AcquireArgs) (lane : Option McpLane) :
    Logged (acquireNextJob args lane) := by
  refine .bind (.ofExcept _) fun _ => .guard <| .bind logged_recoverPendingTransitions fun _ =>
      .bind (.readOnly readOnly_requireIndexMigrationComplete) fun _ =>
        .bind (logged_recoverStaleJobsForAdmission ..) fun _ =>
          .bind (.readOnly (readOnly_activeLeaseForEndpoint ..)) fun active => ?_
  rcases active with _ | active
  · exact .bind (.readOnly (readOnly_leaseCapacitySnapshot _)) fun _ => .ite (.pure _)
      (.bind (.readOnly (readOnly_laneAtLimit ..)) fun _ => .bind logged_queuedJobs fun _ =>
        logged_leaseFirst _ _ _)
  · exact .bind (.readOnly (readOnly_getJob _)) fun _ => .guard <| .pure _

theorem logged_admitExactJob (args : AcquireArgs) (limits : List (JobKind × Int))
    (job : RelayJob) : Logged (admitExactJob args limits job) :=
  .bind (.readOnly (readOnly_jobHasPendingExecutionCleanup ..)) fun _ => .ite (.pure _)
    (.bind (.readOnly (readOnly_leaseCapacitySnapshot _)) fun _ => .ite (.pure _)
      (.ite (.pure _) (.bind (logged_leaseJob ..) fun _ => .pure _)))

theorem logged_acquireJob (jobId : DurableRecordId) (args : AcquireArgs) :
    Logged (acquireJob jobId args) := by
  refine .bind (.ofExcept _) fun _ => .bind logged_recoverPendingTransitions fun _ =>
    .bind (.readOnly readOnly_requireIndexMigrationComplete) fun _ =>
      .bind (logged_recoverStaleJobsForAdmission ..) fun _ =>
        .bind (.readOnly (readOnly_activeLeaseForEndpoint ..)) fun active => ?_
  rcases active with _ | active
  · exact .bind (.readOnly (readOnly_getJob _)) fun _ => .ite (.pure _) (logged_admitExactJob ..)
  · exact .pure _

theorem logged_submitAndAcquireJob (job : RelayJob) (args : AcquireArgs) :
    Logged (submitAndAcquireJob job args) := by
  refine .bind (.ofExcept _) fun _ => .bind logged_recoverPendingTransitions fun _ =>
    .bind (.readOnly readOnly_requireIndexMigrationComplete) fun _ =>
      .bind (logged_submitJob job) fun submitted => .guard <|
        .ite (.pure _) (.bind (logged_recoverStaleJobsForAdmission ..) fun _ =>
          .bind (.readOnly (readOnly_activeLeaseForEndpoint ..)) fun active => ?_)
  rcases active with _ | active
  · refine .bind (.readOnly (readOnly_getJob _)) fun found => .ite (.pure _)
      (.bind (logged_admitExactJob ..) fun lease => ?_)
    rcases lease with _ | lease
    · exact .pure _
    · exact .bind (.readOnly (readOnly_getJob _)) fun _ => .pure _
  · exact .pure _

/-! ### Input ingest -/

omit [Platform] [Entropy] in
theorem readOnly_requireIngestJob (jobId : DurableRecordId) :
    ReadOnly (requireIngestJob jobId) := by
  refine .bind (readOnly_getJob _) fun job => ?_
  rcases job.ingestSpec with _ | _
  · exact .raise _
  · exact .pure _

theorem logged_startInputIngest (job : RelayJob) (attemptId : DurableRecordId)
    (policy : Option InputArtifactIngestPolicy) :
    Logged (startInputIngest job attemptId policy) := by
  unfold startInputIngest
  rcases inputArtifactIngestPolicy (job.metadata.get "input_ingest_policy") with _ | _
  · exact .raise _
  · exact .bind (.readOnly (readOnly_assertInputIngestQuotaWith ..)) fun _ =>
      .bind (.readOnly readOnly_utcNow) fun _ => .guard <|
        .bind (logged_writeJob _) fun _ => .bind (logged_appendEventUnlocked ..) fun _ => .pure _

theorem logged_beginInputIngest (jobId attemptId : DurableRecordId)
    (policy : Option InputArtifactIngestPolicy) :
    Logged (beginInputIngest jobId attemptId policy) :=
  .bind logged_recoverPendingTransitions fun _ =>
    .bind (.readOnly (readOnly_requireIngestJob _)) fun _ => .ite (.pure _)
      (.bind (.ofExcept _) fun _ => .ite (.guard <| .pure _)
        (.guard <| .bind (logged_startInputIngest ..) fun _ => .pure _))

theorem logged_failInputIngest (jobId attemptId : DurableRecordId) (error : String) :
    Logged (failInputIngest jobId attemptId error) := by
  refine .bind logged_recoverPendingTransitions fun _ =>
    .bind (.readOnly (readOnly_requireIngestJob _)) fun _ => .bind (.ofExcept _) fun attempt =>
      .ite (.pure _) (.ite (.guard <| .pure _) ?_)
  rcases attempt with _ | attempt
  · exact .raise _
  · exact .ite (.bind (.readOnly readOnly_utcNow) fun _ => .bind (logged_writeJob _) fun _ =>
      .bind (logged_appendEventUnlocked ..) fun _ => .pure _) (.raise _)

theorem readOnly_abandonedIdentity (job : RelayJob) (existing : Option InputIngestAttempt) :
    ReadOnly (abandonedIdentity job existing) := by
  rcases existing with _ | _
  · exact .bind (.draw _) fun _ => .pure _
  · exact .pure _

theorem logged_abandonIngest (job : RelayJob) : Logged (abandonIngest job) := by
  refine .bind (.readOnly readOnly_utcNow) fun _ => .bind (.ofExcept _) fun existing =>
    .bind ?_ fun _ => .bind (logged_writeJob _) fun _ =>
      .bind (logged_appendEventUnlocked ..) fun _ => .pure _
  exact .readOnly (readOnly_abandonedIdentity ..)

theorem logged_abandonFirst (cluster : String) (cutoff : Time) (limit : Nat) :
    ∀ jobs recovered, Logged (abandonFirst cluster cutoff limit jobs recovered)
  | [], _ => .pure _
  | _ :: rest, recovered =>
    .ite (.pure _) (.bind (.readOnly (readOnly_getJob _)) fun _ => .ite
      (.bind (logged_abandonIngest _) fun _ => logged_abandonFirst cluster cutoff limit rest _)
      (logged_abandonFirst cluster cutoff limit rest recovered))

omit [Platform] in
theorem readOnly_ingestCutoff (staleBefore : Option Time) :
    ReadOnly (ingestCutoff staleBefore) := by
  rcases staleBefore with _ | staleBefore
  · exact .bind readOnly_utcNow fun _ => .ofExcept _
  · exact .pure _

omit [Platform] [Entropy] in
theorem confined_activeJobs : Confined (orderFile .jobs) activeJobs :=
  .bind (.ofReadOnly (readOnly_scanMany ..)) fun _ => .guard <|
    .bind (.gather _ fun _ _ => .bind (confined_ensureGlobal ..) fun _ => .pure _) fun _ => .pure _

theorem logged_recoverAbandonedInputIngests (cluster : String) (staleBefore : Option Time)
    (limit : Int) : Logged (recoverAbandonedInputIngests cluster staleBefore limit) :=
  .guard <| .bind (.readOnly (readOnly_ingestCutoff _)) fun _ =>
    .bind logged_recoverPendingTransitions fun _ =>
      .bind (.confined confined_repairActiveJobIndex fun _ => copyFile.not_logFile) fun _ =>
        .bind (.confined confined_activeJobs fun _ => orderFile.not_logFile) fun _ =>
          logged_abandonFirst _ _ _ _ _

omit [Entropy] in
theorem readOnly_checkReconciliation (artifact : ArtifactRef) (attemptId : Option DurableRecordId) :
    ReadOnly (checkReconciliation artifact attemptId) := by
  refine .bind (readOnly_getJob _) fun job => ?_
  rcases job.ingestSpec with _ | _
  · exact .raise _
  · refine .guard <| .bind ?_ fun _ => .guard <|
      .guard <| .guard <| .pure _
    rcases attemptId with _ | attemptId
    · exact .pure _
    · exact .bind (.ofExcept _) fun _ => .require _ _

omit [Platform] [Entropy] in
theorem readOnly_findEvent (jobId : DurableRecordId) (wanted : RelayEvent → Bool) :
    ∀ sequences, ReadOnly (findEvent jobId wanted sequences)
  | [] => .pure _
  | _ :: sequences =>
    .bind (readOnly_read _) fun _ => .guard <| .ite (.pure _)
      (readOnly_findEvent jobId wanted sequences)

omit [Platform] [Entropy] in
theorem readOnly_eventExists (jobId : DurableRecordId) (wanted : RelayEvent → Bool) :
    ReadOnly (eventExists jobId wanted) := by
  refine .bind (readOnly_read _) fun index => ?_
  rcases index with _ | index
  · exact .raise _
  · exact .guard <| readOnly_findEvent ..

omit [Entropy] in
theorem logged_saveInputArtifact (artifact : ArtifactRef) : Logged (saveInputArtifact artifact) := by
  refine .bind (.readOnly (readOnly_read _)) fun existing => .guard <| ?_
  rcases existing with _ | existing
  · exact .bind (.readOnly (readOnly_nextJobRecordSequence ..)) fun _ =>
      .guard <| .bind (.putWithin _ _ id) fun _ => .pure _
  · exact .guard <| .pure _

omit [Entropy] in
theorem logged_indexInputArtifact (saved : ArtifactRef) : Logged (indexInputArtifact saved) := by
  refine .bind (.readOnly (readOnly_boundedListing ..)) fun _ => .guard <|
    .bind (.readOnly (readOnly_read _)) fun _ => .guard <|
      .bind (.putWithin _ _ id) fun _ => .bind (.readOnly (readOnly_read _)) fun _ =>
        .guard <| .bind (.putWithin _ _ id) fun _ =>
          .bind (.bind (.readOnly (readOnly_read _)) fun index => ?_) fun _ =>
            .bind (logged_initializeArtifactUserOrder _) fun _ => logged_linkGatewaysForArtifact _
  rcases index with _ | index
  · exact .raise _
  · exact .guard <| .ite (logged_updateJobIndex _ fun _ => le_rfl) (.pure _)

theorem logged_reconcileInputArtifact (artifact : ArtifactRef)
    (attemptId : Option DurableRecordId) : Logged (reconcileInputArtifact artifact attemptId) :=
  .bind logged_recoverPendingTransitions fun _ =>
    .bind (.readOnly (readOnly_checkReconciliation ..)) fun _ =>
      .bind (logged_saveInputArtifact _) fun _ => .bind (logged_indexInputArtifact _) fun _ =>
        .bind (.readOnly (readOnly_eventExists ..)) fun _ => .ite (.pure _)
          (.bind (logged_appendEventUnlocked ..) fun _ => .pure _)

omit [Entropy] in
theorem readOnly_checkCompletion (jobId : DurableRecordId) (attemptId : Option DurableRecordId) :
    ReadOnly (checkCompletion jobId attemptId) :=
  .bind (readOnly_requireIngestJob _) fun _ => .guard <|
    .bind (.ofExcept _) fun _ => .guard <| .bind (readOnly_read _) fun _ =>
      .guard <| .pure _

theorem logged_succeedIngest (job : RelayJob) (attempt : Option InputIngestAttempt) :
    Logged (succeedIngest job attempt) := by
  refine .bind ?_ fun _ => .bind (.readOnly readOnly_utcNow) fun _ =>
    .bind (logged_writeJob _) fun _ => .pure _
  rcases attempt with _ | attempt
  · exact .pure _
  · exact .bind (.readOnly readOnly_utcNow) fun _ => .pure _

theorem logged_completeInputIngest (jobId : DurableRecordId)
    (attemptId : Option DurableRecordId) : Logged (completeInputIngest jobId attemptId) :=
  .bind logged_recoverPendingTransitions fun _ =>
    .bind (.readOnly (readOnly_checkCompletion ..)) fun _ =>
      .bind (.ite (logged_succeedIngest ..) (.pure _)) fun _ =>
        .bind (.bind (.readOnly (readOnly_eventExists ..)) fun _ => .ite (.pure _)
          (.bind (logged_appendEventUnlocked ..) fun _ => .pure _)) fun _ => .pure _

end

end ClioQueue
