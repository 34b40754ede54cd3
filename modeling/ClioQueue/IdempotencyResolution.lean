/-
# Resolving an idempotent submission without writing

`resolve_idempotent_submission` of `clio_relay/queue_idempotency.py`, the read-only
copy of the case analysis that `submit_job` makes over the record of a key: storage
admission asks it whether a submission is going to create a job.

`submit_job` is its decision followed by what it does about it
(`submitJob_decides`).  The two analyses agree on every record but one: a
reservation without a digest is adopted by `submit_job` and refused by the resolver
(`resolution_agrees_iff`).
-/

import ClioQueue.LeaseRuns
import ClioQueue.SubmissionStages

namespace ClioQueue

open Durable Durable.Prog

/-! ### The resolver -/

/-- The `state` of an `IdempotentSubmissionResolution`. -/
inductive ResolutionState where
  | new
  | reserved
  | existing
  | retired
  deriving DecidableEq, Repr

/-- `IdempotentSubmissionResolution`. -/
structure IdempotentSubmissionResolution where
  state : ResolutionState
  canonicalJobId : DurableRecordId
  existingJob : Option RelayJob
  deriving DecidableEq

section

variable [Platform] [Entropy]

/-- The error of a key that was used for another job. -/
def reusedKey (job : RelayJob) : RelayError :=
  .conflict s!"idempotency key was reused with a different or invalid job payload: {job.idempotencyKey}"

/-- `resolve_idempotent_submission` once the record carries the digest of the job. -/
def resolveTarget (submitted : RelayJob) (record : IdempotencyRecord) (digest : JobDigest) :
    Op IdempotentSubmissionResolution :=
  if record.state = .retired then do
    let retired ← replayRetiredJob submitted record digest
    pure ⟨.retired, record.jobId, some retired⟩
  else do
    let existing ← readJob record.jobId
    match existing with
    | some existing => do
      require (existing.idempotencyKey == submitted.idempotencyKey &&
          existing.submissionDigest.all (· == digest))
        (.conflict s!"idempotency target identity mismatch: {record.jobId}")
      pure ⟨.existing, record.jobId, some existing⟩
    | none => do
      require (record.state == .reserved)
        (.conflict s!"idempotency key points to missing job: {submitted.idempotencyKey}")
      pure ⟨.reserved, record.jobId, none⟩

/-- `resolve_idempotent_submission` of a key that has a record. -/
def resolveRecord (job : RelayJob) (record : IdempotencyRecord) :
    Op IdempotentSubmissionResolution := do
  require (record.idempotencyKey == job.idempotencyKey) (reusedKey job)
  let prepared ← ofExcept (prepareOwnedJarvisRunSubmission { job with jobId := record.jobId })
  let digest := jobIdempotencyDigest prepared
  require (prepared.submissionDigest.all (· == digest))
    (.conflict "submitted job carries a mismatched submission_digest")
  require (record.jobDigest == some digest) (reusedKey job)
  resolveTarget { prepared with submissionDigest := some digest } record digest

/-- What `resolve_idempotent_submission` does under the lock. -/
def resolveUnlocked (job : RelayJob) : Op IdempotentSubmissionResolution := do
  let found ← read (.idempotency job.idempotencyKey)
  match found with
  | none => do
    let prepared ← ofExcept (prepareOwnedJarvisRunSubmission job)
    require (prepared.submissionDigest.all (· == jobIdempotencyDigest prepared))
      (.conflict "submitted job carries a mismatched submission_digest")
    pure ⟨.new, prepared.jobId, none⟩
  | some record => resolveRecord job record

/-- `resolve_idempotent_submission`. -/
def resolveIdempotentSubmission (job : RelayJob) : Op IdempotentSubmissionResolution := do
  ofExcept (validateNewOwnerSessionMetadata job.metadata)
  requireIndexMigrationComplete
  resolveUnlocked job

/-! ### The decision of a submission -/

/-- What a submission has decided about its key: create a job under it, which may be reserved
already, answer with the job that exists, or with the projection of a tombstone. -/
inductive SubmissionDecision where
  | create (job : RelayJob) (reserved : Bool)
  | resume (existing : RelayJob) (state : IdempotencyState) (job : RelayJob)
  | replay (retired : RelayJob)

/-- The decision once the record carries the digest of the job. -/
def decideTarget (job : RelayJob) (record : IdempotencyRecord) (digest : JobDigest) :
    Op SubmissionDecision :=
  if record.state = .retired then do
    let retired ← replayRetiredJob job record digest
    pure (.replay retired)
  else do
    let existing ← readJob record.jobId
    match existing with
    | some existing => do
      require (existing.idempotencyKey == job.idempotencyKey &&
          existing.submissionDigest.all (· == digest))
        (.conflict s!"idempotency target identity mismatch: {existing.jobId}")
      pure (.resume existing record.state job)
    | none => do
      require (record.state == .reserved)
        (.conflict s!"idempotency key points to missing job: {job.idempotencyKey}")
      pure (.create job true)

/-- The decision over a record: the part of `resubmit` that can refuse the identity of a
job. -/
def decideRecord (job : RelayJob) (record : IdempotencyRecord) (digest : JobDigest) :
    Op SubmissionDecision := do
  let recorded ← settleReservedDigest record digest
  require (recorded == some digest)
    (.conflict s!"idempotency key was reused with a different job payload: {job.idempotencyKey}")
  decideTarget job record digest

/-- The decision of a submission once the journal is replayed. -/
def decideUnlocked (job : RelayJob) : Op SubmissionDecision := do
  let found ← read (.idempotency job.idempotencyKey)
  require (found.all fun record => record.idempotencyKey == job.idempotencyKey)
    (.conflict s!"invalid idempotency record for key: {job.idempotencyKey}")
  let prepared ← ofExcept (preparedSubmission job found)
  match found with
  | none => pure (.create prepared false)
  | some record => decideRecord prepared record (jobIdempotencyDigest prepared)

/-- `submit_job` up to its decision. -/
def decideSubmission (job : RelayJob) : Op SubmissionDecision := do
  ofExcept (validateNewOwnerSessionMetadata job.metadata)
  requireIndexMigrationComplete
  recoverPendingTransitions
  decideUnlocked job

/-- `submit_job` after its decision. -/
def performSubmission : SubmissionDecision → Op RelayJob
  | .create job reserved =>
    if reserved then do
      admitNewJob job
      createJob job (jobIdempotencyDigest job)
    else submitNew job (jobIdempotencyDigest job)
  | .resume existing state job => resumeJob existing state job (jobIdempotencyDigest job)
  | .replay retired => pure retired

omit [Platform] [Entropy] in
theorem require_bind_require {α : Type} (b : Bool) (e : RelayError) (m : Op α) :
    (require b e >>= fun _ => require b e >>= fun _ => m) = require b e >>= fun _ => m := by
  cases b <;> rfl

/-- A submission over a record is its decision and what follows. -/
theorem resubmit_decides (job : RelayJob) (record : IdempotencyRecord) :
    resubmit job record (jobIdempotencyDigest job) =
      decideRecord job record (jobIdempotencyDigest job) >>= performSubmission := by
  unfold resubmit decideRecord decideTarget
  simp only [bind_assoc]
  congr 1
  funext recorded
  congr 1
  funext _
  by_cases hretd : record.state = .retired
  · rw [if_pos hretd, if_pos hretd]
    simp only [bind_assoc, pure_bind, performSubmission, bind_pure]
  · rw [if_neg hretd, if_neg hretd]
    simp only [bind_assoc]
    congr 1
    funext existing
    rcases existing with _ | existing
    · simp only [bind_assoc, pure_bind, performSubmission, if_true]
    · simp only [bind_assoc, pure_bind, performSubmission, resumeJob]
      rw [require_bind_require]

/-- **A submission is its decision and what it does about it.** -/
theorem submitJob_decides (job : RelayJob) :
    submitJob job = decideSubmission job >>= performSubmission := by
  unfold submitJob decideSubmission submitJobUnlocked decideUnlocked
  simp only [bind_assoc]
  congr 1
  funext _
  congr 1
  funext _
  congr 1
  funext _
  congr 1
  funext found
  congr 1
  funext _
  congr 1
  funext prepared
  rcases found with _ | record
  · simp only [pure_bind, performSubmission, Bool.false_eq_true, if_false]
  · exact resubmit_decides prepared record

end

/-! ### The replay keeps identities -/

/-- What an idempotent submission compares of a stored job, with its name. -/
def RelayJob.identity (job : RelayJob) : DurableRecordId × String × Option JobDigest :=
  (job.jobId, job.idempotencyKey, job.submissionDigest)

/-- The same jobs exist in two stores, under the same identities. -/
def SameIdentities (s t : Store) : Prop :=
  ∀ id, (t.read (.job id)).map RelayJob.identity = (s.read (.job id)).map RelayJob.identity

/-- A pending acquisition would put its job back under the identity that it has. -/
def KeepsIdentity (s : Store) : TransitionIntent → Prop
  | .leaseAcquire _ original _ _ _ =>
    ∀ found, s.read (.job original.jobId) = some found → found.identity = original.identity
  | _ => True

/-- So would every pending intent. -/
def IntentsKeepIdentity (s : Store) : Prop :=
  ∀ key I, s.read (.intent key) = some I → KeepsIdentity s I

/-- The files that are no canonical jobs. -/
def besideJobs (p : Path) : Prop := ∀ id, p ≠ .job id

theorem replaySyncFile.besideJobs {p : Path} (h : replaySyncFile p) : besideJobs p := by
  rintro _ rfl
  exact h

namespace SameIdentities

variable {s t u : Store} {job found : RelayJob}

theorem refl (s : Store) : SameIdentities s s := fun _ => rfl

theorem trans (h : SameIdentities s t) (h' : SameIdentities t u) : SameIdentities s u :=
  fun id => (h' id).trans (h id)

theorem of_agree (h : Files.Agree besideJobs s t) : SameIdentities s t :=
  fun id => by rw [h _ fun hp => hp id rfl]

/-- A job is replaced by one of its identity. -/
theorem of_write (hread : s.read (.job job.jobId) = some found)
    (hsame : found.identity = job.identity) : SameIdentities s (s.write (.job job.jobId) job) := by
  intro id
  by_cases hid : id = job.jobId
  · subst hid
    rw [Files.read_write_self, hread]
    simp only [Option.map_some, hsame]
  · rw [Files.read_write_ne _ (by simpa using hid)]

/-- Where a record was found, one of its identity is. -/
theorem origin (h : SameIdentities s t) {id : DurableRecordId} (hread : t.read (.job id) = some found) :
    ∃ old, s.read (.job id) = some old ∧ old.identity = found.identity := by
  have hid := h id
  rw [hread, Option.map_some] at hid
  obtain ⟨old, hold, heq⟩ := Option.map_eq_some_iff.1 hid.symm
  exact ⟨old, hold, heq⟩

/-- What is said of the identity of a job is said of it in both stores. -/
theorem forall_identity (h : SameIdentities s t) {id : DurableRecordId}
    (p : DurableRecordId → String → Option JobDigest → Prop) :
    (∀ job, t.read (.job id) = some job → p job.jobId job.idempotencyKey job.submissionDigest) ↔
      ∀ job, s.read (.job id) = some job →
        p job.jobId job.idempotencyKey job.submissionDigest := by
  have hid := h id
  rcases hs : s.read (.job id) with _ | _
  · rw [hs, Option.map_none, Option.map_eq_none_iff] at hid
    rw [hid]
  · rw [hs, Option.map_some, Option.map_eq_some_iff] at hid
    obtain ⟨_, hnew, hident⟩ := hid
    simp only [RelayJob.identity, Prod.mk.injEq] at hident
    rw [hnew]
    simp only [Option.some.injEq, forall_eq', hident]

end SameIdentities

section

variable {s t : Store} {v : Supply} {P : LeaseTable → Prop}

/-! ### The replay -/

variable [Platform] [Entropy] {transition : LeaseCapacityTransition} {original target : RelayJob}

omit [Platform] [Entropy] in
/-- What writes no canonical job keeps the identities. -/
theorem leaves_beside {α : Type} {m : Op α} (hm : Confined replaySyncFile m)
    (h : SameIdentities s t) : Leaves (SameIdentities s) m t v := by
  refine wp_mono (hm.within t v) (fun x hx => ?_) (fun _ x _ hx => ?_) fun _ x _ hx => ?_
  all_goals exact h.trans (.of_agree (hx.mono fun _ => replaySyncFile.besideJobs))

omit [Entropy] in
/-- **The replay of an acquisition** puts its job back under the identity that it has. -/
theorem wp_reconcileLeaseAcquireIntent_identities {lease : Lease} {updatedAt : Time}
    (hkeep : KeepsIdentity s (.leaseAcquire lease original target updatedAt transition))
    (h : SameIdentities s t) :
    Leaves (SameIdentities s)
      (reconcileLeaseAcquireIntent lease original target updatedAt transition) t v := by
  unfold reconcileLeaseAcquireIntent
  refine wp_require_then (fun hval => ?_) fun _ => h
  have hname : lease.jobId = original.jobId := by
    simp only [acquireIntentValid, Bool.and_eq_true, beq_iff_eq] at hval
    tauto
  unfold readJob
  rw [wp_bind, wp_bind, read_eq_look, wp_look]
  refine wp_require_then (fun _ => (wp_pure _).2 ?_) fun _ => h
  -- The rest of the replay is beside the canonical jobs.
  have hrest : ∀ (u : Store) (w : Supply), SameIdentities s u → Leaves (SameIdentities s) (do
      let identity ← ofExcept (leaseIndexIdentity lease original)
      let preserve := preserveAcquisition lease updatedAt (t.read (.job lease.jobId))
      settleAcquiredLease lease identity (if preserve then t.read (.job lease.jobId) else none)
      let _pair ← applyLeaseCapacityTransition transition (if preserve then .after else .rollback)
        s!"lease acquisition recovery {lease.leaseId}"
      unlink (.intent (.leaseAcquire lease.leaseId))) u w := by
    intro u w hu
    exact leaves_beside (.bind (.ofExcept _) fun _ =>
      .bind ((confined_settleAcquiredLease ..).mono fun _ => leasingFile.replaySyncFile) fun _ =>
        .bind ((confined_applyLeaseCapacityTransition ..).mono fun _ => leasingFile.replaySyncFile)
          fun _ => confined_unlink trivial) hu
  rw [wp_bind]
  refine wp_cases (fun hcur => ?_) fun _ => (wp_pure _).2 (hrest t v h)
  -- The record that is replaced has the identity of the one that is put back.
  have hput : SameIdentities s (t.write (.job original.jobId) original) := by
    rcases hread : t.read (.job lease.jobId) with _ | _
    · rw [hread] at hcur
      cases hcur
    · rw [hname] at hread
      obtain ⟨old, hold, hsame⟩ := h.origin hread
      exact h.trans (.of_write hread (hsame.symm.trans (hkeep old hold)))
  unfold restoreOriginalJob
  refine wp_putWithin_then (fun _ => ⟨hput, ?_⟩) fun _ => h
  exact wp_imp (leaves_beside (confined_syncJobDerived_replay original) hput)
    fun _ x w hx => hrest x w hx

/-- **The replay of a recovery** writes a job of the identity that it has. -/
theorem wp_applyStaleLeaseRecoveryIntent_identities {leases : List Lease} {event : RelayEvent}
    (h : SameIdentities s t) :
    Leaves (SameIdentities s)
      (applyStaleLeaseRecoveryIntent original target leases event transition) t v := by
  unfold applyStaleLeaseRecoveryIntent
  refine wp_require_then (fun hval => ?_) fun _ => h
  have htgt : target.jobId = original.jobId ∧
      target = recoveredJob original target.state target.updatedAt := by
    simp only [recoveryIntentValid, Bool.and_eq_true, beq_iff_eq] at hval
    tauto
  have hident : target.identity = original.identity := by
    rw [htgt.2]
    rfl
  unfold readJob
  rw [wp_bind, wp_bind, read_eq_look, wp_look]
  refine wp_require_then (fun _ => (wp_pure _).2 ?_) fun _ => h
  refine wp_require_then (fun hcur => ?_) fun _ => h
  have hsame : ∃ found, t.read (.job target.jobId) = some found ∧
      found.identity = target.identity := by
    rw [htgt.1]
    simp only [Bool.or_eq_true, beq_iff_eq] at hcur
    rcases hcur with hread | hread
    · exact ⟨_, hread, hident.symm⟩
    · exact ⟨_, hread, rfl⟩
  obtain ⟨found, hread, hfound⟩ := hsame
  rw [wp_bind]
  refine (Prog.ReadOnly.each _ fun _ _ => readOnly_checkRecoveredLease ..).wp (fun _ w => ?_)
    fun _ _ => h
  -- The job is written once; what follows is beside the canonical jobs.
  have hput : ∀ u, JobWriting target t u → SameIdentities t u := by
    intro u hu id
    by_cases hid : id = target.jobId
    · subst hid
      rcases hu.canonical with ⟨hjob, -⟩ | ⟨hjob, -⟩
      · rw [hjob]
      · rw [hjob, hread, Option.map_some, Option.map_some, hfound]
    · rw [hu.agree _ (jobWriteFile.not_job hid)]
  have hwritten : ∀ u, JobWritten target t u → SameIdentities t u := by
    intro u hu id
    by_cases hid : id = target.jobId
    · subst hid
      rw [hu.canonical, hread, Option.map_some, Option.map_some, hfound]
    · rw [hu.agree _ (jobWriteFile.not_job hid)]
  rw [wp_bind]
  refine wp_writeJob (fun u hu => h.trans (hput u hu)) (fun u hu => h.trans (hwritten u hu))
    (fun u w hu => ?_) fun err u w _ hu => ?_
  · exact leaves_beside (.bind (confined_writeRecoveryEvent event) fun _ =>
      .bind (.each _ fun _ _ => (confined_deleteRecoveredLease_replay ..).mono
        fun _ => leasingFile.replaySyncFile) fun _ =>
        .bind ((confined_applyLeaseCapacityTransition ..).mono fun _ => leasingFile.replaySyncFile)
          fun _ => .bind (confined_unlink trivial) fun _ => .pure _) (h.trans (hwritten u hu))
  · rcases hu with rfl | hu
    · exact h
    · exact h.trans (hput u hu)

/-- **The replay of the journal keeps the identity of every job.** -/
theorem wp_recoverPendingTransitions_identities (hs : IntentsKeepIdentity s) :
    Leaves (SameIdentities s) recoverPendingTransitions s v := by
  have happly : ∀ I, KeepsIdentity s I → ∀ t w, SameIdentities s t →
      Leaves (SameIdentities s) (applyIntent I) t w := by
    intro I hI t w ht
    cases I with
    | leaseAcquire =>
      exact (wp_bind _ _).2 (wp_imp (wp_reconcileLeaseAcquireIntent_identities hI ht)
        fun _ _ _ h => (wp_pure _).2 h)
    | staleLeaseRecovery =>
      exact (wp_bind _ _).2 (wp_imp (wp_applyStaleLeaseRecoveryIntent_identities ht)
        fun _ _ _ h => (wp_pure _).2 h)
    | _ => exact leaves_beside (confined_applyIntent_sync rfl) ht
  unfold Leaves recoverPendingTransitions reconcileTransitionIntents boundedListing
  rw [wp_bind, wp_bind, wp_bind, wp_listing]
  refine wp_require_then (fun _ => (wp_pure _).2 ?_) fun _ => .refl s
  have hloop := wp_gather (C := SameIdentities s) (E := fun _ t _ => SameIdentities s t)
    (fun rest _ t _ => SameIdentities s t ∧ ∀ I ∈ rest, KeepsIdentity s I) applyIntent
    (fun I rest _ t w h => wp_imp (happly I (h.2 I (.head _)) t w h.1)
      fun _ _ _ ht => ⟨ht, fun J hJ => h.2 J (.tail _ hJ)⟩)
    ((s.collect intentsListed).insertionSort fun a b => a.order ≤ b.order) [] s v
    ⟨.refl s, fun I hI => ?_⟩
  · exact wp_imp hloop fun _ _ _ h => (wp_pure _).2 h.1
  · obtain ⟨p, c, hread, hlist⟩ := Files.mem_collect.1 ((List.perm_insertionSort _ _).mem_iff.1 hI)
    cases p <;> cases hlist
    exact hs _ _ hread

end

/-! ### Agreement -/

/-- The resolver foretells a decision of `submit_job`: the canonical id, and whether the job is
created, answered from its record or from its tombstone. -/
def Foretells (resolution : IdempotentSubmissionResolution) : SubmissionDecision → Prop
  | .create job reserved =>
    resolution.canonicalJobId = job.jobId ∧
      resolution.state = if reserved then .reserved else .new
  | .resume existing _ _ =>
    resolution.canonicalJobId = existing.jobId ∧ resolution.state = .existing
  | .replay retired =>
    resolution.canonicalJobId = retired.jobId ∧ resolution.state = .retired ∧
      resolution.existingJob = some retired

/-- Resolver and submission agree: both refuse, or the first foretells what the second decides. -/
def AgreeOn : Except RelayError IdempotentSubmissionResolution →
    Except RelayError SubmissionDecision → Prop
  | .ok resolution, .ok decision => Foretells resolution decision
  | .error _, .error _ => True
  | _, _ => False

theorem AgreeOn.toBool {resolved : Except RelayError IdempotentSubmissionResolution}
    {decided : Except RelayError SubmissionDecision} (h : AgreeOn resolved decided) :
    resolved.toBool = decided.toBool := by
  cases resolved <;> cases decided <;> first | rfl | exact h.elim

section

variable [Platform] {s t : Store} {v w : Supply} {job : RelayJob} {record : IdempotencyRecord}
  {digest : JobDigest}

omit [Platform] in
theorem answer_readJob {α : Type} (id : DurableRecordId) (k : Option RelayJob → Op α) :
    (readJob id >>= k).answer s v =
      if (s.read (.job id)).all (fun job => job.jobId == id) then (k (s.read (.job id))).answer s v
      else .error (.conflict "canonical job identity mismatch") := by
  unfold readJob
  simp only [read_eq_look, bind_assoc, answer_look, answer_require, pure_bind]

/-- **The two analyses of a record that carries the digest.** -/
theorem agreeOn_target (hid : job.jobId = record.jobId)
    (htombstone : t.read (.jobTombstone record.jobId) = s.read (.jobTombstone record.jobId))
    (hst : SameIdentities s t) :
    AgreeOn ((resolveTarget job record digest).answer s v)
      ((decideTarget job record digest).answer t w) := by
  unfold resolveTarget decideTarget
  by_cases hretd : record.state = .retired
  · rw [if_pos hretd, if_pos hretd]
    unfold replayRetiredJob
    simp only [read_eq_look, bind_assoc, answer_look, answer_require, htombstone]
    by_cases hname : (s.read (.jobTombstone record.jobId)).all
        (fun tombstone => tombstone.jobId == record.jobId) = true
    · rw [if_pos hname, if_pos hname]
      rcases hread : s.read (.jobTombstone record.jobId) with _ | tombstone
      · exact trivial
      · simp only [bind_assoc, answer_require, pure_bind, answer_pure]
        split_ifs
        · rw [hread, Option.all_some, beq_iff_eq] at hname
          exact ⟨hname.symm, rfl, rfl⟩
        · trivial
    · rw [if_neg hname, if_neg hname]
      trivial
  · rw [if_neg hretd, if_neg hretd, answer_readJob, answer_readJob]
    have hsame := hst record.jobId
    rcases hread : s.read (.job record.jobId) with _ | _
    · rw [hread, Option.map_none, Option.map_eq_none_iff] at hsame
      rw [hsame]
      simp only [Option.all_none, if_true, answer_require, answer_pure]
      split_ifs
      · exact ⟨hid.symm, rfl⟩
      · trivial
    · rw [hread, Option.map_some, Option.map_eq_some_iff] at hsame
      obtain ⟨_, hfound, hident⟩ := hsame
      simp only [RelayJob.identity, Prod.mk.injEq] at hident
      obtain ⟨hname, hkey, hdig⟩ := hident
      rw [hfound]
      simp only [Option.all_some, hname, answer_require, answer_pure, hkey, hdig]
      split_ifs with hnamed
      · exact ⟨(beq_iff_eq.1 hnamed).symm.trans hname.symm, rfl⟩
      · trivial
      · trivial

variable [Entropy]

/-- A submission would adopt the reservation of its key: the record is a reservation without a
digest, the record with the digest can be written, and nothing else about the identity of the job
is wrong. -/
def AdoptsReservation (job : RelayJob) (s : Store) : Prop :=
  validateNewOwnerSessionMetadata job.metadata = .ok () ∧
    (∃ state, s.read .migrationState = some state ∧ state.complete = true) ∧
    ∃ record prepared, s.read (.idempotency job.idempotencyKey) = some record ∧
      record.state = .reserved ∧ record.jobDigest = none ∧
      record.idempotencyKey = job.idempotencyKey ∧
      preparedSubmission job (some record) = .ok prepared ∧
      Platform.idempotencyFits { record with jobDigest := some (jobIdempotencyDigest prepared) } =
        true ∧
      ∀ existing, s.read (.job record.jobId) = some existing →
        existing.jobId = record.jobId ∧ existing.idempotencyKey = prepared.idempotencyKey ∧
          existing.submissionDigest.all (· == jobIdempotencyDigest prepared) = true

omit [Entropy] in
/-- A record that has its digest is not adopted. -/
theorem not_adoptsReservation
    (h : (s.read (.idempotency job.idempotencyKey)).all (fun record => record.jobDigest.isSome) =
      true) : ¬ AdoptsReservation job s := by
  rintro ⟨-, -, record, _, hread, -, hdig, -⟩
  rw [hread, Option.all_some, hdig] at h
  cases h

/-- The job under the id of its key. -/
def canonicalSubmission (job : RelayJob) : Option IdempotencyRecord → RelayJob
  | none => job
  | some record => { job with jobId := record.jobId }

section

omit [Entropy]

theorem preparedSubmission_error {found : Option IdempotencyRecord} {e : RelayError}
    (h : prepareOwnedJarvisRunSubmission (canonicalSubmission job found) = .error e) :
    preparedSubmission job found = .error e := by
  cases found <;> (unfold canonicalSubmission at h; simp only [preparedSubmission, h]; rfl)

/-- A submission prepares the job as the resolver does. -/
theorem preparedSubmission_ok {found : Option IdempotencyRecord} {prepared : RelayJob}
    (h : prepareOwnedJarvisRunSubmission (canonicalSubmission job found) = .ok prepared) :
    preparedSubmission job found =
      if prepared.submissionDigest.all (· == jobIdempotencyDigest prepared) then
        .ok { prepared with submissionDigest := some (jobIdempotencyDigest prepared) }
      else .error (.conflict "submitted job carries a mismatched submission_digest") := by
  cases found <;> (unfold canonicalSubmission at h; simp only [preparedSubmission, h]; rfl)

/-- The decision over a record that has its digest. -/
theorem answer_decideRecord (hrec : ¬ (record.jobDigest = none ∧ record.state = .reserved)) :
    (decideRecord job record digest).answer t w =
      if record.jobDigest = some digest then (decideTarget job record digest).answer t w
      else .error (.conflict
        s!"idempotency key was reused with a different job payload: {job.idempotencyKey}") := by
  have hkeep : (record.jobDigest.isNone && record.state == .reserved) = false := by
    simpa [Option.isNone_iff_eq_none] using hrec
  unfold decideRecord settleReservedDigest
  rw [hkeep, if_neg (by simp)]
  simp only [pure_bind, answer_require, beq_iff_eq]

/-- The decision over a reservation without a digest. -/
theorem answer_decideRecord_adopts (hdig : record.jobDigest = none)
    (hstate : record.state = .reserved) :
    (∃ decision, (decideRecord job record digest).answer t w = .ok decision) ↔
      Platform.idempotencyFits { record with jobDigest := some digest } = true ∧
      ∀ existing, t.read (.job record.jobId) = some existing →
        existing.jobId = record.jobId ∧ existing.idempotencyKey = job.idempotencyKey ∧
          existing.submissionDigest.all (· == digest) = true := by
  have hne : ¬ record.state = .retired := by
    rw [hstate]
    simp
  have hread : (t.write (.idempotency record.idempotencyKey)
      { record with jobDigest := some digest }).read (.job record.jobId) =
        t.read (.job record.jobId) := Files.read_write_ne _
  unfold decideRecord settleReservedDigest writeIdempotencyRecord putWithin
  rw [if_pos (by simp [hdig, hstate])]
  simp only [bind_assoc, answer_require]
  by_cases hfits : Platform.idempotencyFits { record with jobDigest := some digest } = true
  · rw [if_pos hfits]
    simp only [put, answer_durably, pure_bind, answer_require, beq_self_eq_true, if_true]
    unfold decideTarget
    rw [if_neg hne, answer_readJob]
    simp only [hfits, true_and]
    rw [hread]
    rcases t.read (.job record.jobId) with _ | existing
    · simp only [Option.all_none, if_true, answer_require, hstate, beq_self_eq_true, answer_pure]
      refine ⟨fun _ existing h => ?_, fun _ => ⟨_, rfl⟩⟩
      cases h
    · simp only [Option.all_some, answer_require, answer_pure, Option.some.injEq, forall_eq']
      split_ifs <;> simp_all
  · rw [if_neg hfits]
    simp [hfits]

/-- **Resolver and submission agree** on every record but a reservation that the submission
adopts. -/
theorem agreeOn_unlocked
    (hkey : t.read (.idempotency job.idempotencyKey) = s.read (.idempotency job.idempotencyKey))
    (htombstone : ∀ id, t.read (.jobTombstone id) = s.read (.jobTombstone id))
    (hst : SameIdentities s t) :
    AgreeOn ((resolveUnlocked job).answer s v) ((decideUnlocked job).answer t w) ↔
      ¬ ∃ record prepared, s.read (.idempotency job.idempotencyKey) = some record ∧
        record.state = .reserved ∧ record.jobDigest = none ∧
        record.idempotencyKey = job.idempotencyKey ∧
        preparedSubmission job (some record) = .ok prepared ∧
        Platform.idempotencyFits
          { record with jobDigest := some (jobIdempotencyDigest prepared) } = true ∧
        ∀ existing, s.read (.job record.jobId) = some existing →
          existing.jobId = record.jobId ∧ existing.idempotencyKey = prepared.idempotencyKey ∧
            existing.submissionDigest.all (· == jobIdempotencyDigest prepared) = true := by
  unfold resolveUnlocked decideUnlocked
  simp only [read_eq_look, answer_look, answer_require, hkey]
  rcases hfound : s.read (.idempotency job.idempotencyKey) with _ | record
  · -- A key without a record: both create, or both refuse to prepare the job.
    simp only [Option.all_none, if_true, false_and, exists_false, not_false_iff, iff_true,
      reduceCtorEq]
    rcases hprep : prepareOwnedJarvisRunSubmission job with e | prepared
    · have href : preparedSubmission job none = .error e := preparedSubmission_error hprep
      rw [href]
      trivial
    · have hsub : preparedSubmission job none = _ := preparedSubmission_ok hprep
      rw [hsub]
      simp only [answer_ofExcept_ok, answer_require]
      split_ifs
      · exact ⟨rfl, rfl⟩
      · trivial
  unfold resolveRecord
  rw [Option.all_some, answer_require]
  by_cases hname : record.idempotencyKey = job.idempotencyKey
  swap
  · rw [if_neg (by simpa using hname), if_neg (by simpa using hname)]
    refine iff_of_true trivial ?_
    rintro ⟨found, prepared, hread, -, -, hkey', -⟩
    cases hread
    exact hname hkey'
  rw [if_pos (by simpa using hname), if_pos (by simpa using hname)]
  rcases hprep : prepareOwnedJarvisRunSubmission { job with jobId := record.jobId } with
    e | prepared
  · have href : preparedSubmission job (some record) = .error e :=
      preparedSubmission_error hprep
    rw [href]
    refine iff_of_true trivial ?_
    rintro ⟨found, prepared, hread, -, -, -, hprep', -⟩
    cases hread
    rw [href] at hprep'
    cases hprep'
  have hsub : preparedSubmission job (some record) = _ := preparedSubmission_ok hprep
  simp only [answer_ofExcept_ok, answer_require]
  by_cases hdig : prepared.submissionDigest.all (· == jobIdempotencyDigest prepared) = true
  swap
  · rw [if_neg hdig] at hsub
    rw [if_neg hdig, hsub]
    refine iff_of_true trivial ?_
    rintro ⟨found, prepared', hread, -, -, -, hprep', -⟩
    cases hread
    rw [hsub] at hprep'
    cases hprep'
  rw [if_pos hdig] at hsub
  rw [if_pos hdig, hsub, answer_ofExcept_ok]
  have hid : prepared.jobId = record.jobId := prepareOwnedJarvisRunSubmission_jobId hprep
  obtain ⟨submitted, heq⟩ : ∃ submitted, submitted = { prepared with
    submissionDigest := some (jobIdempotencyDigest prepared) } := ⟨_, rfl⟩
  have hsame : jobIdempotencyDigest prepared = jobIdempotencyDigest submitted := by rw [heq]; rfl
  have hid' : submitted.jobId = record.jobId := by rw [heq, ← hid]
  rw [← heq] at hsub ⊢
  rw [hsame]
  by_cases hadopt : record.jobDigest = none ∧ record.state = .reserved
  · -- A reservation without a digest: the resolver refuses it, and the submission goes on
    -- unless something else is wrong.
    have hadopts : (∃ decision, (decideRecord submitted record
        (jobIdempotencyDigest submitted)).answer t w = .ok decision) ↔ _ :=
      answer_decideRecord_adopts hadopt.1 hadopt.2
    have hexist : (∀ existing, t.read (.job record.jobId) = some existing →
        existing.jobId = record.jobId ∧ existing.idempotencyKey = submitted.idempotencyKey ∧
          existing.submissionDigest.all (· == jobIdempotencyDigest submitted) = true) ↔
        ∀ existing, s.read (.job record.jobId) = some existing →
          existing.jobId = record.jobId ∧ existing.idempotencyKey = submitted.idempotencyKey ∧
            existing.submissionDigest.all (· == jobIdempotencyDigest submitted) = true :=
      hst.forall_identity fun id key digest => id = record.jobId ∧
        key = submitted.idempotencyKey ∧ digest.all (· == jobIdempotencyDigest submitted) = true
    rw [if_neg (by rw [hadopt.1]; simp)]
    rcases hdecide : (decideRecord submitted record (jobIdempotencyDigest submitted)).answer t w
      with e | decision
    · refine iff_of_true trivial ?_
      rintro ⟨found, prepared', hread, -, -, -, hprep', hfits, hrest⟩
      cases hread
      cases hsub.symm.trans hprep'
      obtain ⟨decision, hok⟩ := hadopts.2 ⟨hfits, hexist.2 hrest⟩
      rw [hdecide] at hok
      cases hok
    · obtain ⟨hfits, hrest⟩ := hadopts.1 ⟨decision, hdecide⟩
      exact iff_of_false id fun hnot => hnot ⟨record, submitted, rfl, hadopt.2, hadopt.1, hname,
        hsub, hfits, hexist.1 hrest⟩
  · -- Both compare the digest and go on in the same way.
    have hagree : AgreeOn ((if (record.jobDigest == some (jobIdempotencyDigest submitted)) = true
          then (resolveTarget submitted record (jobIdempotencyDigest submitted)).answer s v
          else .error (reusedKey job)))
        ((decideRecord submitted record (jobIdempotencyDigest submitted)).answer t w) := by
      rw [answer_decideRecord hadopt]
      simp only [beq_iff_eq]
      split_ifs
      · exact agreeOn_target hid' (htombstone _) hst
      · trivial
    refine iff_of_true hagree ?_
    rintro ⟨found, prepared', hread, hstate, hnone, -⟩
    cases hread
    exact hadopt ⟨hnone, hstate⟩

end

/-- What `submit_job` returns for its decision. -/
def SubmissionDecision.Answered (found : RelayJob) (t : Store) : SubmissionDecision → Prop
  | .create job _ => found = job ∧ t.read (.job job.jobId) = some job
  | .resume existing _ _ => found = existing
  | .replay retired => found = retired

/-- A created job is returned and stands in its file at the end; the writes after its record leave
it. -/
theorem wp_createJob_record (job : RelayJob) (digest : JobDigest) :
    wp (createJob job digest) (fun _ => True)
      (fun found t _ => found = job ∧ t.read (.job job.jobId) = some job)
      (fun _ _ _ => True) s v := by
  unfold createJob
  refine wp_then (wp_trivial _) fun _ t w _ => ?_
  refine wp_then (wp_trivial _) fun _ t w _ => ?_
  refine wp_then (wp_trivial _) fun _ t w _ => ?_
  rw [wp_bind]
  refine wp_writeJob (fun _ _ => trivial) (fun _ _ => trivial) (fun u w hu => ?_)
    fun _ _ _ _ _ => trivial
  have hrest : Confined besideJobs (writeCommittedIdempotencyRecord job digest >>= fun _ =>
      appendEventUnlocked job.jobId "job.queued" "Job queued" [] >>= fun _ => pure job) :=
    .bind ((confined_writeCommittedIdempotencyRecord job digest).mono fun p hp => by
      rintro id rfl
      exact hp) fun _ => .bind ((confined_appendEventUnlocked ..).mono fun p hp => by
        rintro id rfl
        exact hp) fun _ => .pure _
  have hret : wp (writeCommittedIdempotencyRecord job digest >>= fun _ =>
      appendEventUnlocked job.jobId "job.queued" "Job queued" [] >>= fun _ => pure job)
      (fun _ => True) (fun found _ _ => found = job) (fun _ _ _ => True) u w := by
    refine wp_then (wp_trivial _) fun _ x w _ => ?_
    exact wp_then (wp_trivial _) fun _ y w _ => (wp_pure _).2 rfl
  refine wp_mono (wp_and hret (hrest.within u w)) (fun _ _ => trivial)
    (fun found x _ hx => ⟨hx.1, ?_⟩) fun _ _ _ _ => trivial
  rw [hx.2 _ fun hp => hp _ rfl, hu.canonical]

/-- **What is performed is what was decided.** -/
theorem wp_performSubmission (decision : SubmissionDecision) :
    wp (performSubmission decision) (fun _ => True)
      (fun found t _ => decision.Answered found t) (fun _ _ _ => True) s v := by
  cases decision with
  | create job reserved =>
    rcases reserved with _ | _
    · simp only [performSubmission, Bool.false_eq_true, if_false, submitNew]
      refine wp_then (wp_trivial _) fun _ t w _ => ?_
      refine wp_then (wp_trivial _) fun _ t w _ => ?_
      rw [wp_bind, wp_utcNow]
      exact wp_then (wp_trivial _) fun _ t w _ => wp_createJob_record job _
    · simp only [performSubmission, if_true]
      exact wp_then (wp_trivial _) fun _ t w _ => wp_createJob_record job _
  | resume =>
    unfold performSubmission resumeJob
    repeat refine wp_then (wp_trivial _) fun _ t w _ => ?_
    exact (wp_pure _).2 rfl
  | replay => exact (wp_pure _).2 rfl

/-- **The resolver agrees with `submit_job`** on every job under every record, except the
reservation that the submission adopts and the resolver refuses. -/
theorem resolution_agrees_iff (hs : IntentsKeepIdentity s)
    (hreplay : recoverPendingTransitions.answer s v = .ok ()) (job : RelayJob) :
    (AgreeOn ((resolveIdempotentSubmission job).answer s v) ((decideSubmission job).answer s v) ↔
        ¬ AdoptsReservation job s) ∧
      (∀ e, (decideSubmission job).answer s v = .error e → (submitJob job).answer s v = .error e) ∧
      ∀ decision, (decideSubmission job).answer s v = .ok decision →
        Prog.wp (submitJob job) (fun _ => True) (fun found t _ => decision.Answered found t)
          (fun _ _ _ => True) s v := by
  refine ⟨?_, fun e hdecide => ?_, fun decision hdecide => ?_⟩
  · unfold resolveIdempotentSubmission decideSubmission AdoptsReservation
      requireIndexMigrationComplete readIndexMigrationState
    rcases hmeta : validateNewOwnerSessionMetadata job.metadata with e | u
    · exact iff_of_true trivial fun h => by cases h.1
    simp only [answer_ofExcept_ok, read_eq_look, bind_assoc, answer_look]
    rcases hstate : s.read .migrationState with _ | state
    · refine iff_of_true trivial ?_
      rintro ⟨-, ⟨state, hread, -⟩, -⟩
      cases hread
    simp only [pure_bind, answer_require]
    by_cases hcomp : state.complete = true
    swap
    · rw [if_neg hcomp, if_neg hcomp]
      refine iff_of_true trivial ?_
      rintro ⟨-, ⟨found, hread, hfound⟩, -⟩
      cases hread
      exact hcomp hfound
    rw [if_pos hcomp, if_pos hcomp, answer_bind_ok hreplay]
    have hreplayed := wp_store (confined_recoverPendingTransitions.within s v)
    rw [agreeOn_unlocked (hreplayed _ id) (fun _ => hreplayed _ id)
      (wp_store (wp_recoverPendingTransitions_identities hs))]
    simp only [Option.some.injEq, exists_eq_left', hcomp, true_and]
  · rw [submitJob_decides]
    exact answer_bind_error hdecide
  · rw [submitJob_decides, wp_bind]
    refine wp_mono (wp_answer hdecide) (fun _ h => h) (fun _ t w ht => ?_) fun _ _ _ h => h.elim
    rw [ht]
    exact wp_performSubmission decision

end

/-! ### A run -/

/-- **In a ledger every pending intent keeps identities.**  An acquisition is pending while its job
is the one it started from or the one it leads to, and both have one identity. -/
theorem Ledger.intentsKeepIdentity {P : LeaseTable → Prop} {s : Store} (h : Ledger P s) :
    IntentsKeepIdentity s := by
  intro key I hread
  cases I with
  | leaseAcquire lease original =>
    cases h with
    | rest hbooks hquiet =>
      obtain ⟨rfl, -⟩ := hbooks.intents key _ hread
      rw [hquiet _ rfl] at hread
      cases hread
    | @torn T I hbooks halone h =>
      obtain ⟨hkey, -⟩ := hbooks.intents key _ hread
      by_cases hsame : key = I.key
      · rw [hsame, h.intent] at hread
        cases hread
        cases h with
        | acquire hA _ hcur =>
          intro found hfound
          rcases hcur with hcur | hcur
          · cases hfound.symm.trans hcur
            rfl
          · cases hfound.symm.trans hcur
            rw [hA.target]
            rfl
      · rw [halone key (by rw [← hkey]; rfl) hsame] at hread
        cases hread
  | _ => trivial

/-- So in every state of a run. -/
theorem intentsKeepIdentity_of_run [Platform] {s₀ s : Store} (h₀ : FreshQueue s₀)
    (hrun : Relation.ReflTransGen LeaseCall.Step s₀ s) : IntentsKeepIdentity s :=
  (ledger_of_run h₀ hrun).intentsKeepIdentity

theorem intents_sampleSubmitted : IntentsKeepIdentity sampleSubmitted :=
  @intentsKeepIdentity_of_run samplePlatform _ _ freshQueue_sampleQueue
    (.single (LeaseCall.step_stopped trivial (by decide +kernel) fun _ => by decide +kernel))

theorem replay_sampleSubmitted :
    (@recoverPendingTransitions samplePlatform sampleEntropy).answer sampleSubmitted sampleSupply =
      .ok () := by
  decide +kernel

theorem digest_sampleSubmitted :
    (sampleSubmitted.read (.idempotency sampleJob.idempotencyKey)).all
      (fun record => record.jobDigest.isSome) = true := by
  decide +kernel

/-- A submitted job answers its own submission. -/
theorem resolution_agrees_iff_sample :
    AgreeOn
      ((@resolveIdempotentSubmission samplePlatform sampleJob).answer sampleSubmitted sampleSupply)
      ((@decideSubmission samplePlatform sampleEntropy sampleJob).answer sampleSubmitted
        sampleSupply) := by
  have hagree := (@resolution_agrees_iff samplePlatform sampleSubmitted sampleSupply sampleEntropy
    intents_sampleSubmitted replay_sampleSubmitted sampleJob).1
  rw [hagree]
  exact @not_adoptsReservation samplePlatform _ _ digest_sampleSubmitted

/-- A key that was reserved before reservations carried a digest. -/
def sampleUndigested : Store :=
  sampleQueue.write (.idempotency sampleJob.idempotencyKey)
    { state := .reserved, jobId := sampleJob.jobId, idempotencyKey := sampleJob.idempotencyKey,
      jobDigest := none, createdAt := 0, committedAt := none }

theorem refused_sampleUndigested :
    ((@resolveIdempotentSubmission samplePlatform sampleJob).answer sampleUndigested
      sampleSupply).toBool = false := by
  decide +kernel

theorem decided_sampleUndigested :
    ((@decideSubmission samplePlatform sampleEntropy sampleJob).answer sampleUndigested
      sampleSupply).toBool = true := by
  decide +kernel

theorem submitted_sampleUndigested :
    ((((@submitJob samplePlatform sampleEntropy sampleJob).answer sampleUndigested
      sampleSupply).toOption.map RelayJob.jobId).any
        fun id => decide (id = sampleJob.jobId)) = true := by
  decide +kernel

/-- **The resolver refuses what the submission adopts.** -/
theorem adopted_reservation_refused :
    ((@submitJob samplePlatform sampleEntropy sampleJob).answer sampleUndigested
      sampleSupply).toOption.map RelayJob.jobId = some sampleJob.jobId ∧
    ¬ AgreeOn
      ((@resolveIdempotentSubmission samplePlatform sampleJob).answer sampleUndigested sampleSupply)
      ((@decideSubmission samplePlatform sampleEntropy sampleJob).answer sampleUndigested
        sampleSupply) := by
  constructor
  · obtain ⟨_, hid, hsample⟩ := (Option.any_eq_true _ _).1 submitted_sampleUndigested
    exact hid.trans (congrArg some (of_decide_eq_true hsample))
  · intro hagree
    have hsame := hagree.toBool
    rw [refused_sampleUndigested, decided_sampleUndigested] at hsame
    exact Bool.false_ne_true hsame

end ClioQueue
