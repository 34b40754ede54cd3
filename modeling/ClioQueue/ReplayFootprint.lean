/-
# What a replay can touch

Every operation replays the journal before it does anything else, on behalf of
whichever process stopped.  The replay writes jobs, leases and the indexes derived
from jobs, tasks and gateway sessions; it never writes a canonical task or gateway
session, an artifact, a global order, a lineage edge, or a record of an owner
session, a submission or a cancellation.
-/

import ClioQueue.Footprints

namespace ClioQueue

variable {p : Path}

open Durable Durable.Prog

/-- The files of the leases: the canonical records, their indexes and the capacity. -/
def leasingFile : Path → Prop
  | .lease _ | .leaseByJob .. | .leaseIndex _ | .leaseIdentityRef _ | .leaseEndpointRef ..
  | .leaseEndpointGuard .. | .leaseClusterKindRef .. | .leaseExpiryRef _ => True
  | .capacityAggregate | .capacityCheckpoint => True
  | _ => False

/-- The files that the replay of an intent can change. -/
def replayFile : Path → Prop
  | .job _ | .jobActive _ | .jobQueued _ | .jobIndex _ | .event .. => True
  | .lease _ | .leaseByJob .. | .leaseIndex _ | .leaseIdentityRef _ | .leaseEndpointRef ..
  | .leaseEndpointGuard .. | .leaseClusterKindRef .. | .leaseExpiryRef _ => True
  | .capacityAggregate | .capacityCheckpoint | .intent _ | .migrationState => True
  | .ownerSessionJob .. | .schedulerRefs .. | .schedulerProtection .. | .schedulerJob .. => True
  | .taskByJob .. | .taskOrder .. | .activeTask .. => True
  | .gatewaysBy .. | .gatewayReverseRef .. | .activeGatewayRefByJob ..
  | .activeGatewayRefBySession .. => True
  | .cleanupMigration .. => True
  | _ => False

/-- Those of them that are no canonical jobs. -/
def replaySyncFile : Path → Prop
  | .job _ => False
  | p => replayFile p

/-- The intents whose replay writes a canonical job. -/
def TransitionIntent.writesJob : TransitionIntent → Bool
  | .leaseAcquire .. | .staleLeaseRecovery .. => true
  | _ => false

theorem replaySyncFile.replayFile (h : replaySyncFile p) : replayFile p := by
  cases p <;> first | exact h.elim | exact h

theorem derivedFile.replaySyncFile {jobId : DurableRecordId} (h : derivedFile jobId p) :
    replaySyncFile p := by
  rcases h with h | h | h
  all_goals
    cases p <;> trivial

theorem schedulerFile.replaySyncFile (h : schedulerFile p) : replaySyncFile p := by
  cases p <;> trivial

theorem taskCopy.replaySyncFile (h : taskCopy p) : replaySyncFile p := by
  cases p <;> trivial

theorem gatewayFile.replaySyncFile (h : gatewayFile p) : replaySyncFile p := by
  cases p <;> trivial

theorem cleanupReceipt.replayFile (h : cleanupReceipt p) : replayFile p := by
  cases p <;> trivial

theorem leasingFile.replaySyncFile (h : leasingFile p) : replaySyncFile p := by
  cases p <;> trivial

theorem leaseIndexFile.leasingFile (h : leaseIndexFile p = true) : leasingFile p := by
  cases p <;> trivial

section

variable [Platform] [Entropy]

/-! ### Leases -/

omit [Platform] [Entropy] in
theorem confined_unlinkLeaseRefs (identity : LeaseIndexIdentity) :
    Confined leasingFile (unlinkLeaseRefs identity) :=
  .bind (confined_unlink trivial) fun _ => .bind (confined_unlink trivial) fun _ =>
    .bind (confined_unlink trivial) fun _ => .bind (confined_unlink trivial) fun _ =>
      confined_unlink trivial

omit [Platform] [Entropy] in
theorem confined_writeLeaseRefs (identity : LeaseIndexIdentity) :
    Confined leasingFile (writeLeaseRefs identity) :=
  .bind (confined_put _ trivial) fun _ => .bind (confined_put _ trivial) fun _ =>
    .bind (confined_put _ trivial) fun _ => .bind (confined_put _ trivial) fun _ =>
      confined_put _ trivial

omit [Entropy] in
theorem confined_writeLeaseIndexIdentity (identity : LeaseIndexIdentity) :
    Confined leasingFile (writeLeaseIndexIdentity identity) :=
  .bind (confined_present _) fun _ => .ite
    (.bind (.ofReadOnly (readOnly_readLeaseIndexIdentityByToken ..)) fun _ =>
      .guard <| confined_putWithin _ _ trivial)
    (confined_putWithin _ _ trivial)

omit [Entropy] in
theorem confined_syncLeaseOperationalIndexes (lease : Lease) (job : RelayJob)
    (previousLease : Option Lease) :
    Confined leasingFile (syncLeaseOperationalIndexes lease job previousLease) := by
  refine .bind (.ofExcept _) fun identity => ?_
  rcases previousLease with _ | previousLease
  · exact .bind (confined_writeLeaseIndexIdentity _) fun _ =>
      .bind (confined_writeLeaseRefs _) fun _ => .pure _
  · exact .bind (.ofExcept _) fun _ => .guard <|
      .bind (.ite (.pure _) (confined_unlinkLeaseRefs _)) fun _ =>
        .bind (confined_writeLeaseIndexIdentity _) fun _ =>
          .bind (confined_writeLeaseRefs _) fun _ => .pure _

section

omit [Platform] [Entropy]

theorem confined_deleteLeaseOperationalIndexes (identity : LeaseIndexIdentity)
    (allowForeignManifest : Bool) :
    Confined leasingFile (deleteLeaseOperationalIndexes identity allowForeignManifest) :=
  .bind (confined_present _) fun _ => .ite
    (.bind (.ofReadOnly (readOnly_readLeaseIndexIdentityByToken ..)) fun _ => .ite
      (.bind (confined_unlinkLeaseRefs _) fun _ => confined_unlink trivial)
      (.guard <| confined_unlinkLeaseRefs _))
    (confined_unlinkLeaseRefs _)

theorem confined_deleteLeaseFiles (lease : Lease) (identity : LeaseIndexIdentity) :
    Confined leasingFile (deleteLeaseFiles lease identity) :=
  .bind (confined_unlink trivial) fun _ => .bind (confined_unlink trivial) fun _ =>
    confined_deleteLeaseOperationalIndexes _ _

theorem confined_writeLeaseCapacityPair (pair : LeaseCapacityPair) :
    Confined leasingFile (writeLeaseCapacityPair pair) :=
  .bind (.ofExcept _) fun _ => .bind (confined_put _ trivial) fun _ => confined_put _ trivial

theorem readOnly_readLeaseCapacityComponents : ReadOnly readLeaseCapacityComponents := by
  refine .bind (readOnly_read _) fun aggregate => .bind (readOnly_read _) fun checkpoint => ?_
  rcases aggregate with _ | _
  · exact .pure _
  · exact .bind (.ofExcept _) fun _ => .pure _

theorem confined_applyLeaseCapacityTransition (transition : LeaseCapacityTransition)
    (target : TransitionTarget) (label : String) :
    Confined leasingFile (applyLeaseCapacityTransition transition target label) := by
  refine .bind (.ofExcept _) fun pairs => ?_
  rcases transition.select target with _ | _
  · exact .raise _
  · exact .bind (.ofReadOnly readOnly_readLeaseCapacityComponents) fun _ =>
      .guard <| .guard <| .guard <| .bind (confined_writeLeaseCapacityPair _) fun _ => .pure _

end

/-! ### Repair -/

section

omit [Platform] [Entropy]

theorem readOnly_indexLeases (indexed : List (Lease × RelayJob)) (leases : List Lease) :
    ReadOnly (indexLeases indexed leases) := by
  induction leases generalizing indexed with
  | nil => exact .pure _
  | cons lease leases ih =>
    refine .bind (readOnly_readJob _) fun found => ?_
    rcases found with _ | _
    · exact .raise _
    · exact .guard <| .guard <| ih _

theorem readOnly_canonicalLeaseCapacityRecords (limit : Nat) :
    ReadOnly (canonicalLeaseCapacityRecords limit) := by
  have hscan : ReadOnly (scanMany leasesListed Lease.leaseId limit) :=
    .bind (readOnly_listing _) fun _ => .guard <| .pure _
  exact .bind hscan fun _ => .guard <| .bind (readOnly_indexLeases ..) fun _ =>
    .bind (.ofExcept _) fun _ => .pure _

theorem confined_clearLeaseOperationalIndexes :
    Confined leasingFile clearLeaseOperationalIndexes := by
  refine ⟨fun s v => ?_⟩
  unfold clearLeaseOperationalIndexes listing
  rw [wp_bind, wp_look, wp_bind, wp_require]
  refine ⟨fun _ => ?_, fun _ => Files.Agree.refl _ s⟩
  refine (Confined.each _ fun p hp => confined_unlink ?_).within s v
  obtain ⟨q, c, -, hq⟩ := Files.mem_collect.1 hp
  split at hq
  · next hfile =>
      cases hq
      exact leaseIndexFile.leasingFile hfile
  · cases hq

theorem readOnly_readIndexMigrationState : ReadOnly readIndexMigrationState := by
  refine .bind (readOnly_read _) fun found => ?_
  rcases found with _ | _
  · exact .raise _
  · exact .pure _

end

omit [Entropy] in
theorem confined_applyLeaseIndexRepairIntent (limit : Nat) (target : LeaseCapacityPair)
    (restoreComplete : Bool) :
    Confined replaySyncFile (applyLeaseIndexRepairIntent limit target restoreComplete) :=
  .guard <| .bind (.ofReadOnly (readOnly_canonicalLeaseCapacityRecords limit)) fun _ =>
      .bind (.ofExcept _) fun _ => .guard <|
        .bind (confined_clearLeaseOperationalIndexes.mono fun _ => leasingFile.replaySyncFile) fun _ =>
          .bind (.each _ fun _ _ => .bind ((confined_syncLeaseOperationalIndexes ..).mono
            fun _ => leasingFile.replaySyncFile) fun _ => .pure _) fun _ =>
            .bind ((confined_writeLeaseCapacityPair _).mono fun _ => leasingFile.replaySyncFile) fun _ =>
              .bind (.ofReadOnly readOnly_readIndexMigrationState) fun _ =>
                .bind (confined_put _ trivial) fun _ =>
                  .bind (confined_unlink trivial) fun _ => .pure _

/-! ### Jobs -/

omit [Entropy] in
theorem confined_syncJobDerived_replay (job : RelayJob) :
    Confined replaySyncFile (syncJobDerived job) :=
  (confined_syncJobDerived job).mono fun _ => derivedFile.replaySyncFile

theorem confined_writeJob (job : RelayJob) : Confined replayFile (writeJob job) :=
  .bind ((confined_migrateExecutionCleanupShard ..).mono fun _ => cleanupReceipt.replayFile)
    fun _ => .bind (.bind confined_utcNow fun _ => confined_put _ trivial) fun _ =>
      .bind (confined_putWithin _ _ trivial) fun _ =>
        .bind ((confined_syncJobDerived_replay job).mono fun _ => replaySyncFile.replayFile)
          fun _ => confined_unlink trivial

omit [Entropy] in
theorem confined_writeRecoveryEvent (event : RelayEvent) :
    Confined replaySyncFile (writeRecoveryEvent event) := by
  refine .bind (confined_read _) fun existing => .guard <|
    .bind (.ite (.pure _) (confined_putWithin _ _ trivial)) fun _ =>
      .bind (confined_read _) fun index => ?_
  rcases index with _ | index
  · exact .raise _
  · exact .ite (confined_updateJobIndex _ _ trivial) (.pure _)

omit [Platform] [Entropy] in
theorem readOnly_checkRecoveredLease (original : RelayJob) (current : Option RelayJob)
    (lease : Lease) : ReadOnly (checkRecoveredLease original current lease) :=
  .bind (readOnly_readLease _) fun _ => .guard <| .guard <| .bind (readOnly_present _) fun _ => .ite
      (.bind (.ofExcept _) fun _ => .bind (readOnly_readLeaseIndexIdentity _) fun _ => .require _ _)
      (.require _ _)

omit [Platform] [Entropy] in
theorem confined_deleteRecoveredLease_replay (original : RelayJob) (lease : Lease) :
    Confined leasingFile (deleteRecoveredLease original lease) :=
  .bind (.ofExcept _) fun _ => .bind (.ofExcept _) fun _ => .bind (confined_present _) fun _ =>
    .bind (.ite (.bind (.ofReadOnly (readOnly_readLeaseIndexIdentity _)) fun _ => .require _ _)
      (.pure _)) fun _ => confined_deleteLeaseFiles _ _

theorem confined_applyStaleLeaseRecoveryIntent (original target : RelayJob) (leases : List Lease)
    (event : RelayEvent) (transition : LeaseCapacityTransition) :
    Confined replayFile (applyStaleLeaseRecoveryIntent original target leases event transition) :=
  .guard <| .bind (confined_readJob _) fun _ => .guard <|
    .bind (.each _ fun _ _ => .ofReadOnly (readOnly_checkRecoveredLease ..)) fun _ =>
      .bind (confined_writeJob _) fun _ =>
        .mono (fun _ => replaySyncFile.replayFile) <|
          .bind (confined_writeRecoveryEvent _) fun _ =>
            .bind (.each _ fun _ _ => (confined_deleteRecoveredLease_replay ..).mono
              fun _ => leasingFile.replaySyncFile) fun _ =>
              .bind ((confined_applyLeaseCapacityTransition ..).mono
                fun _ => leasingFile.replaySyncFile) fun _ =>
                .bind (confined_unlink trivial) fun _ => .pure _

/-! ### The replay -/

section

omit [Entropy]

/-- The leases of an interrupted acquisition. -/
theorem confined_settleAcquiredLease (lease : Lease) (identity : LeaseIndexIdentity)
    (preserved : Option RelayJob) :
    Confined leasingFile (settleAcquiredLease lease identity preserved) := by
  rcases preserved with _ | _
  · exact .bind (confined_unlink trivial) fun _ => .bind (confined_unlink trivial) fun _ =>
      confined_deleteLeaseOperationalIndexes _ _
  · exact .bind (confined_put _ trivial) fun _ => .bind (confined_put _ trivial) fun _ =>
      .bind (confined_syncLeaseOperationalIndexes ..) fun _ => .pure _

theorem confined_reconcileLeaseAcquireIntent (lease : Lease) (original target : RelayJob)
    (targetUpdatedAt : Time) (transition : LeaseCapacityTransition) :
    Confined replayFile
      (reconcileLeaseAcquireIntent lease original target targetUpdatedAt transition) := by
  have hrestore : Confined replayFile (restoreOriginalJob original) :=
    .bind (confined_putWithin _ _ trivial) fun _ =>
      (confined_syncJobDerived_replay original).mono fun _ => replaySyncFile.replayFile
  exact .guard <| .bind (confined_readJob _) fun _ => .bind (.ite hrestore (.pure _)) fun _ =>
    .mono (fun _ => replaySyncFile.replayFile) <| .bind (.ofExcept _) fun _ =>
      .bind ((confined_settleAcquiredLease ..).mono fun _ => leasingFile.replaySyncFile) fun _ =>
        .bind ((confined_applyLeaseCapacityTransition ..).mono fun _ => leasingFile.replaySyncFile)
          fun _ => confined_unlink trivial

theorem confined_replayJobSync (jobId : DurableRecordId) :
    Confined replaySyncFile (replayJobSync jobId) := by
  refine .bind (confined_readJob _) fun job => .bind ?_ fun _ => confined_unlink trivial
  rcases job with _ | job
  · exact .pure _
  · exact confined_syncJobDerived_replay job

theorem confined_replayTaskSync (taskId : DurableRecordId) :
    Confined replaySyncFile (replayTaskSync taskId) := by
  refine .bind (.bind (confined_read _) fun _ => .guard <| .pure _)
    fun task => .bind ?_ fun _ => confined_unlink trivial
  rcases task with _ | task
  · exact .pure _
  · refine (confined_syncTaskDerived task).mono fun p hp => ?_
    exact hp.elim taskCopy.replaySyncFile schedulerFile.replaySyncFile

end

/-- The replay of an intent that writes no canonical job. -/
theorem confined_applyIntent_sync {I : TransitionIntent} (hI : I.writesJob = false) :
    Confined replaySyncFile (applyIntent I) := by
  cases I with
  | leaseIndexRepair =>
    exact .bind (confined_applyLeaseIndexRepairIntent ..) fun _ => .pure _
  | leaseAcquire => cases hI
  | leaseSync =>
    exact .bind (.guard <| .bind (confined_put _ trivial) fun _ =>
      .bind (confined_put _ trivial) fun _ =>
        .bind ((confined_syncLeaseOperationalIndexes ..).mono fun _ => leasingFile.replaySyncFile)
          fun _ => .bind ((confined_applyLeaseCapacityTransition ..).mono
            fun _ => leasingFile.replaySyncFile) fun _ => confined_unlink trivial) fun _ => .pure _
  | leaseDelete =>
    exact .bind (.bind (.ofExcept _) fun _ => .bind ((confined_deleteLeaseFiles ..).mono
      fun _ => leasingFile.replaySyncFile) fun _ =>
        .bind ((confined_applyLeaseCapacityTransition ..).mono fun _ => leasingFile.replaySyncFile)
          fun _ => confined_unlink trivial) fun _ => .pure _
  | staleLeaseRecovery => cases hI
  | jobSync jobId => exact .bind (confined_replayJobSync jobId) fun _ => .pure _
  | taskSync jobId taskId => exact .bind (confined_replayTaskSync taskId) fun _ => .pure _
  | gatewaySync sessionId =>
    refine .bind (.bind ?_ fun _ => confined_unlink trivial) fun _ => .pure _
    exact (confined_syncGatewaySessionDerived sessionId).mono fun _ => gatewayFile.replaySyncFile

theorem confined_applyIntent (I : TransitionIntent) : Confined replayFile (applyIntent I) := by
  rcases hI : I.writesJob with _ | _
  · exact (confined_applyIntent_sync hI).mono fun _ => replaySyncFile.replayFile
  · cases I with
    | leaseAcquire =>
      exact .bind (confined_reconcileLeaseAcquireIntent ..) fun _ => .pure _
    | staleLeaseRecovery =>
      exact .bind (confined_applyStaleLeaseRecoveryIntent ..) fun _ => .pure _
    | _ => cases hI

/-- **The replay of the journal** touches replayed files only. -/
theorem confined_recoverPendingTransitions : Confined replayFile recoverPendingTransitions :=
  .bind (.bind (confined_boundedListing ..) fun _ => .gather _ fun _ _ => confined_applyIntent _)
    fun _ => .pure _

end

end ClioQueue
