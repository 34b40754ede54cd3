/-
# Submissions and job updates, whatever they keep

The control flow of the operations that write a job, proved once for every
invariant.  `JobUpkeep` adds two building blocks to `Upkeep`: `write_job`, for the
records that these operations write (`JobRewrite`), and the repair of the active
index before a submission.
-/

import ClioQueue.LeaseUpkeep

namespace ClioQueue

open Durable Durable.Prog

/-- The job records that an operation may write: the record of a new job, the canonical record
again, or a changed record of the same job.  `A` restricts the changes. -/
inductive JobRewrite (A : RelayJob → RelayJob → Prop) (s : Store) (job : RelayJob) : Prop
  | fresh (hnew : s.read (.job job.jobId) = none)
      (hidx : (s.read (.jobIndex job.jobId)).isSome)
  | same (hread : s.read (.job job.jobId) = some job)
  | change {old : RelayJob} (hread : s.read (.job job.jobId) = some old)
      (hcl : job.cluster = old.cluster) (hkind : job.kind = old.kind)
      (hspec : job.spec = old.spec) (hA : A old job)

/-- The copies of jobs. -/
def copyFile : Path → Prop
  | .jobActive _ | .jobQueued _ => True
  | _ => False

/-- **What an invariant offers the operations that write a job.** -/
structure JobUpkeep [Platform] [Entropy] (A : RelayJob → RelayJob → Prop)
    (R : LeaseTable → Store → Prop) (C F : Store → Prop) (limits : List (JobKind × Int))
    (lane : Option McpLane) : Prop extends Upkeep R C F limits lane where
  write : ∀ {T s v job}, R T s → JobRewrite A s job →
    Prog.wp (writeJob job) C (fun _ t _ => R T t) (fun _ t _ => F t) s v
  refresh : ∀ {T s v}, R T s → Prog.wp repairActiveJobIndex C
    (fun _ t _ => R T t ∧ Files.Agree copyFile s t) (fun _ t _ => F t) s v

/-- The job id of a submission under a key without a record is not in use. -/
def FreshJob (s : Store) (job : RelayJob) : Prop :=
  s.read (.idempotency job.idempotencyKey) = none → s.read (.job job.jobId) = none

/-- The replay adds no job and touches no idempotency record. -/
theorem FreshJob.replayed {s t : Store} {job : RelayJob} (h : FreshJob s job) (ht : NoNew s t) :
    FreshJob t job := by
  intro hkey
  rw [ht.keys] at hkey
  exact ht.jobs _ (h hkey)

/-! ### What a submission prepares -/

section

variable [Platform]

theorem prepareOwnedJarvisRunSubmission_jobId {job prepared : RelayJob}
    (h : prepareOwnedJarvisRunSubmission job = .ok prepared) : prepared.jobId = job.jobId := by
  unfold prepareOwnedJarvisRunSubmission at h
  split at h
  · split at h
    · cases h
      rfl
    · split at h
      · cases h
      · simp only at h
        split at h
        · cases h
          rfl
        · split at h
          · cases h
          · split at h
            · cases h
              rfl
            · cases h
  · cases h
    rfl

theorem preparedSubmission_jobId {job prepared : RelayJob} {existing : Option IdempotencyRecord}
    (h : preparedSubmission job existing = .ok prepared) :
    prepared.jobId = (existing.map IdempotencyRecord.jobId).getD job.jobId := by
  simp only [preparedSubmission, bind, Except.bind, pure, Except.pure] at h
  split at h
  · cases h
  · next canonical hcanon =>
      split at h
      · cases h
        have hid := prepareOwnedJarvisRunSubmission_jobId hcanon
        rcases existing with _ | _
        · exact hid
        · exact hid
      · cases h

end

namespace JobUpkeep

variable [Platform] [Entropy] {A : RelayJob → RelayJob → Prop} {R : LeaseTable → Store → Prop}
  {C F : Store → Prop} {limits : List (JobKind × Int)} {lane : Option McpLane} {T : LeaseTable}
  {s : Store} {v : Supply} {digest : JobDigest} {job : RelayJob} {Q : Post RelayJob}

/-! ### Admission of a new job -/

/-- The capacity check repairs the active index first. -/
theorem wp_ensureActiveJobCapacity {Q : Post Unit} (h : JobUpkeep A R C F limits lane) (hR : R T s)
    (hQ : ∀ t w, R T t → Files.Agree copyFile s t → Q () t w) :
    wp (ensureActiveJobCapacity job) C Q (fun _ t _ => F t) s v := by
  unfold ensureActiveJobCapacity
  refine wp_cases (fun _ => (wp_pure _).2 (hQ s v hR (.refl _ s))) fun _ => ?_
  rw [wp_bind, wp_listing, wp_bind, wp_mapError]
  refine wp_imp (h.refresh hR) fun _ t w ht => ?_
  rw [wp_bind, wp_listing, wp_require]
  exact ⟨fun _ => hQ t w ht.1 ht.2, fun _ => h.ends ht.1⟩

theorem wp_admitNewJob {Q : Post Unit} (h : JobUpkeep A R C F limits lane)
    (hR : R T s) (hQ : ∀ t w, R T t → Files.Agree copyFile s t → Q () t w) :
    wp (admitNewJob job) C Q (fun _ t _ => F t) s v := by
  unfold admitNewJob
  rw [wp_bind]
  refine h.wp_readOnly hR (readOnly_assertOwnerSessionIntakeOpen ..) fun _ w => ?_
  rw [wp_bind]
  refine h.wp_readOnly hR (readOnly_assertInputIngestQuota job) fun _ w => ?_
  exact h.wp_ensureActiveJobCapacity hR hQ

/-! ### Creating and resuming a job -/

omit [Platform] [Entropy] in
theorem wp_initializeJobIndex {jobId : DurableRecordId} {Q : Post Unit}
    {E : Post RelayError} (hC : ∀ t, Quiet s t → C t)
    (hQ : ∀ t, Quiet s t → (t.read (.jobIndex jobId)).isSome → Q () t v) :
    wp (initializeJobIndex jobId) C Q E s v := by
  unfold initializeJobIndex
  rw [wp_bind, wp_present]
  refine wp_cases (fun hsome => (wp_pure _).2 (hQ s (.refl s) hsome)) fun _ => ?_
  have hquiet : Quiet s (s.write (.jobIndex jobId) emptyJobIndex) := .write id s _
  exact wp_put.2 ⟨hC _ hquiet, hQ _ hquiet (by rw [Files.read_write_self]; rfl)⟩

section

variable (h : JobUpkeep A R C F limits lane) (hR : R T s)

include h hR

/-- The writes of a submission before its job record. -/
theorem wp_beforeJob {β : Type} {k : Op β} {Q : Post β}
    (hk : ∀ t w, R T t → Quiet s t → (t.read (.jobIndex job.jobId)).isSome → wp k C Q (fun _ t _ => F t) t w) :
    wp (ensureGlobal .jobs job.jobId >>= fun _ => initializeJobIndex job.jobId >>= fun _ =>
      ensureArtifactUseIndexes job >>= fun _ => k) C Q (fun _ t _ => F t) s v := by
  rw [wp_bind]
  refine h.wp_quiet hR (quiet_ensureGlobal ..) fun _ t w hR₁ ht => ?_
  rw [wp_bind]
  refine wp_initializeJobIndex (fun u hu => h.trail (h.quiet hR₁ hu)) fun u hu hidx => ?_
  rw [wp_bind]
  refine h.wp_quiet (h.quiet hR₁ hu) (quiet_ensureArtifactUseIndexes job) fun _ x w hR₂ hx => ?_
  exact hk x w hR₂ ((ht.trans hu).trans hx) (hx.indexes _ hidx)

/-- **The creation of a job.** -/
theorem wp_createJob (hnew : s.read (.job job.jobId) = none) (hQ : ∀ t w, R T t → Q job t w) :
    wp (createJob job digest) C Q (fun _ t _ => F t) s v := by
  unfold createJob
  refine h.wp_beforeJob hR fun t w hR₁ ht hidx => ?_
  rw [wp_bind]
  have hrewrite : JobRewrite A t job := .fresh (by rw [ht.same (.job job.jobId) trivial, hnew]) hidx
  refine wp_imp (h.write hR₁ hrewrite) fun _ u w hR₂ => ?_
  rw [wp_bind]
  refine h.wp_quiet hR₂ (quiet_writeCommittedIdempotencyRecord ..) fun _ x w hR₃ _ => ?_
  rw [wp_bind]
  refine h.wp_quiet hR₃ (quiet_appendEventUnlocked ..) fun _ y w hR₄ _ => ?_
  exact (wp_pure _).2 (hQ y w hR₄)

/-- **A repeated submission** writes the job again as it stands. -/
theorem wp_resumeJob {existing : RelayJob} {state : IdempotencyState}
    (hread : s.read (.job existing.jobId) = some existing) (hQ : ∀ t w, R T t → Q existing t w) :
    wp (resumeJob existing state job digest) C Q (fun _ t _ => F t) s v := by
  unfold resumeJob
  refine wp_require_then (fun _ => ?_) fun _ => h.ends hR
  refine h.wp_beforeJob hR fun t w hR₁ ht hidx => ?_
  rw [wp_bind]
  have hrewrite : JobRewrite A t existing :=
    .same (by rw [ht.same (.job existing.jobId) trivial, hread])
  refine wp_imp (h.write hR₁ hrewrite) fun _ u w hR₂ => ?_
  rw [wp_bind]
  refine h.wp_quiet hR₂ (quiet_ensureRequestedCancellation ..) fun _ x w hR₃ _ => ?_
  rw [wp_bind]
  refine h.wp_quiet hR₃ (quiet_ensureJobQueuedEvent ..) fun _ y w hR₄ _ => ?_
  rw [wp_bind]
  have hquiet : Quietly (if state = .reserved then writeCommittedIdempotencyRecord existing digest
      else pure ()) := .ite (quiet_writeCommittedIdempotencyRecord ..) (.pure ())
  refine h.wp_quiet hR₄ hquiet fun _ z w hR₅ _ => ?_
  exact (wp_pure _).2 (hQ z w hR₅)

end

/-! ### Submission -/

section

variable (h : JobUpkeep A R C F limits lane)

include h

/-- A new job is submitted under its own id, and each stop keeps the table. -/
theorem wp_submitNew (hR : R T s)
    (hnew : s.read (.job job.jobId) = none) (hQ : ∀ t w, R T t → Q job t w) :
    wp (submitNew job digest) C Q (fun _ t _ => F t) s v := by
  unfold submitNew
  rw [wp_bind]
  refine h.wp_quiet hR (quiet_artifactUseRecords ..) fun _ t w hR₁ ht => ?_
  rw [wp_bind]
  refine h.wp_admitNewJob hR₁ fun u w hR₂ hu => ?_
  rw [wp_bind]
  refine h.wp_readOnly hR₂ readOnly_utcNow fun _ w => ?_
  rw [wp_bind]
  refine h.wp_quiet hR₂ (quiet_writeIdempotencyRecord ..) fun _ x w hR₃ hx => ?_
  have hnew₁ : t.read (.job job.jobId) = none := by rw [ht.same (.job job.jobId) trivial, hnew]
  have hnew₂ : u.read (.job job.jobId) = none := by rw [hu (.job job.jobId) id, hnew₁]
  exact h.wp_createJob hR₃ (by rw [hx.same (.job job.jobId) trivial, hnew₂]) hQ

/-- Submitting a job again, whatever is recorded of the first time, keeps the table. -/
theorem wp_resubmit {record : IdempotencyRecord} (hR : R T s)
    (hid : job.jobId = record.jobId) (hQ : ∀ a t w, R T t → Q a t w) :
    wp (resubmit job record digest) C Q (fun _ t _ => F t) s v := by
  unfold resubmit
  rw [wp_bind]
  refine h.wp_quiet hR (.ofConfined keyFile.not_watched (fun _ => id) (confined_settleReservedDigest ..)) fun _ t w hR₁ ht => ?_
  refine wp_require_then (fun _ => ?_) fun _ => h.ends hR₁
  refine wp_cases (fun _ => h.wp_readOnly hR₁ (readOnly_replayRetiredJob ..) fun a w => hQ a t w hR₁)
    fun _ => ?_
  have hjobs := (h.settled hR₁).books.jobs
  rw [wp_bind]
  refine wp_readJob hjobs ?_
  rcases hread : t.read (.job record.jobId) with _ | existing
  · refine wp_require_then (fun _ => ?_) fun _ => h.ends hR₁
    rw [wp_bind]
    refine h.wp_admitNewJob hR₁ fun u w hR₂ hu => ?_
    have hnew : u.read (.job job.jobId) = none := by rw [hu (.job job.jobId) id, hid, hread]
    exact h.wp_createJob hR₂ hnew fun u w => hQ job u w
  · have hname : existing.jobId = record.jobId := hjobs.named _ _ hread
    exact h.wp_resumeJob hR₁ (by rw [hname, hread]) fun u w => hQ existing u w

/-- **A submission after the replay.** -/
theorem wp_submitJobUnlocked (hR : R T s)
    (hfresh : FreshJob s job) (hQ : ∀ a t w, R T t → Q a t w) :
    wp (submitJobUnlocked job) C Q (fun _ t _ => F t) s v := by
  unfold submitJobUnlocked
  rw [wp_bind, read_eq_look, wp_look]
  refine wp_require_then (fun _ => ?_) fun _ => h.ends hR
  refine wp_ofExcept_then (fun prepared hprep => ?_) fun _ _ => h.ends hR
  have hid := preparedSubmission_jobId hprep
  rcases hfound : s.read (.idempotency job.idempotencyKey) with _ | _
  · rw [hfound] at hid
    exact h.wp_submitNew hR (by rw [hid]; exact hfresh hfound) fun t w => hQ prepared t w
  · rw [hfound] at hid
    exact h.wp_resubmit hR hid hQ

/-- **`submit_job`.** -/
theorem wp_submitJob (hF : F s) (hids : FreshLeaseIds s) (hfresh : FreshJob s job) :
    wp (submitJob job) C (fun _ t _ => F t) (fun _ t _ => F t) s v := by
  unfold submitJob
  refine wp_ofExcept_then (fun _ _ => ?_) fun _ _ => hF
  rw [wp_bind]
  refine readOnly_requireIndexMigrationComplete.wp (fun _ w => ?_) fun _ _ => hF
  rw [wp_bind]
  refine h.wp_recoverPendingTransitions hF hids fun T t w hR hnew => ?_
  exact h.wp_submitJobUnlocked hR (hfresh.replayed hnew) fun _ _ _ hR' => h.ends hR'

/-- The submission inside `submit_and_acquire_job`, whose own replay finds nothing to do. -/
theorem wp_submitJob_settled (hR : R T s)
    (hfresh : FreshJob s job) (hQ : ∀ a t w, R T t → Q a t w) :
    wp (submitJob job) C Q (fun _ t _ => F t) s v := by
  unfold submitJob
  refine wp_ofExcept_then (fun _ _ => ?_) fun _ _ => h.ends hR
  rw [wp_bind]
  refine h.wp_readOnly hR readOnly_requireIndexMigrationComplete fun _ w => ?_
  rw [wp_bind]
  exact Upkeep.wp_recoverPendingTransitions_settled (h.settled hR)
    (h.wp_submitJobUnlocked hR hfresh hQ)

end

/-- **`submit_and_acquire_job`.** -/
theorem wp_submitAndAcquireJob {args : AcquireArgs}
    (h : JobUpkeep A R C F args.kindConcurrency none) (hF : F s) (hids : FreshLeaseIds s)
    (hfresh : FreshJob s job) :
    wp (submitAndAcquireJob job args) C (fun _ t _ => F t) (fun _ t _ => F t) s v := by
  unfold submitAndAcquireJob
  refine wp_ofExcept_then (fun limits hlim => ?_) fun _ _ => hF
  rw [Upkeep.normalizeKindConcurrency_ok hlim, wp_bind]
  refine h.wp_recoverPendingTransitions hF hids fun T t w hR hnew => ?_
  rw [wp_bind]
  refine h.wp_readOnly hR readOnly_requireIndexMigrationComplete fun _ w => ?_
  rw [wp_bind]
  refine h.wp_submitJob_settled hR (hfresh.replayed hnew) fun submitted t w hR => ?_
  refine wp_require_then (fun _ => ?_) fun _ => h.ends hR
  refine wp_cases (fun _ => (wp_pure _).2 (h.ends hR)) fun _ => ?_
  rw [wp_bind]
  refine h.wp_recoverStaleJobsForAdmission hR fun reusable T' u w hR' hreuse => ?_
  have hsettled := h.settled hR'
  unfold admitSubmittedJob
  rw [wp_bind]
  refine hsettled.atRest.wp_activeLeaseForEndpoint hsettled.books.backed.named (h.clusters hR')
    hreuse (fun w hidle => ?_) (fun lease w _ => (wp_pure _).2 (h.ends hR'))
    fun _ _ _ => h.ends hR'
  simp only [wp_bind]
  refine wp_getJob hsettled.books.jobs (fun found hfound => ?_) fun _ _ => h.ends hR'
  have hname := hsettled.books.jobs.named _ _ hfound
  refine wp_cases (fun _ => (wp_pure _).2 (h.ends hR')) fun hqueued => ?_
  rw [wp_bind]
  refine h.wp_admitExactJob hR' hidle ⟨by rw [hname]; exact hfound, not_not.1 hqueued⟩ rfl
    (fun w => (wp_pure _).2 (h.ends hR')) fun lease t w ht => ?_
  rw [wp_bind]
  exact (readOnly_getJob found.jobId).wp (fun _ _ => (wp_pure _).2 ht) fun _ _ => ht

/-! ### Updates of one job -/

end JobUpkeep

end ClioQueue
