/-
# The stages of a submission

`submit_job` is always the same walk: admit the job, reserve its key, place it in
the global order, initialize its index, link the artifacts it uses, write its
record, commit its key and append its first event; a repeated submission takes the
same walk over the job that exists.  `SubmissionRule` says what an invariant has to
offer at each stage, and `SubmissionRule.wp_submitJob` puts the stages together once
for every invariant.

The stages are also confined: each of them touches its own family of files only.
-/

import ClioQueue.JobUpkeep
import ClioQueue.ReplayFootprint

namespace ClioQueue

open Durable Durable.Prog

/-! ### Admission and lookups -/

section

variable [Platform]

theorem confined_repairActiveJobIndex : Confined copyFile repairActiveJobIndex := by
  refine .bind (confined_boundedListing ..) fun _ => .each _ fun entry _ => ?_
  refine .bind (confined_readJob _) fun canonical => ?_
  rcases canonical with _ | _
  · exact .bind (confined_unlink trivial) fun _ => confined_unlink trivial
  · exact .ite (.bind (confined_unlink trivial) fun _ => confined_unlink trivial)
      (.bind (confined_putWithin _ _ trivial) fun _ =>
        .ite (confined_putWithin _ _ trivial) (confined_unlink trivial))

theorem confined_admitNewJob (job : RelayJob) : Confined copyFile (admitNewJob job) :=
  .bind (.ofReadOnly (readOnly_assertOwnerSessionIntakeOpen ..)) fun _ =>
    .bind (.ofReadOnly (readOnly_assertInputIngestQuota job)) fun _ =>
      .ite (.pure _) (.bind (confined_listing _) fun _ =>
        .bind (.mapError _ confined_repairActiveJobIndex) fun _ =>
          .bind (confined_listing _) fun _ => .require _ _)

/-- Without allocation the uses of a job are only looked up. -/
theorem readOnly_artifactUseRecords (job : RelayJob) : ReadOnly (artifactUseRecords job false) := by
  refine .bind (readOnly_boundedListing ..) fun _ => .guard <|
    .gather _ fun use _ => .bind (readOnly_read _) fun found => ?_
  rcases found with _ | artifact
  · exact .raise _
  · refine .guard <| ?_
    rcases artifact.sha256 with _ | sha256
    · exact .raise _
    · refine .guard <| .guard <|
        .bind (readOnly_readJob _) fun producer => ?_
      rcases producer with _ | producer
      · exact .raise _
      · refine .bind (.ofExcept _) fun _ => .bind (readOnly_read _) fun forward =>
          .bind (readOnly_read _) fun reverse =>
            .bind (.bind (readOnly_read _) fun _ => .pure _) fun head =>
              .bind (readOnly_read _) fun mapping => .bind (readOnly_boundedListing ..)
                fun _ => .bind (readOnly_boundedListing ..) fun _ => ?_
        split
        · exact .bind (.guard <| .guard <|
            .bind (readOnly_read _) fun _ => .require _ _) fun _ => .pure _
        · exact .guard <| .pure _

variable [Entropy]

/-! ### The rule -/

/-- **What an invariant offers the stages of a submission.**  `I` holds after every durable write;
`B` of a job that may be admitted, `A` once it is admitted, `P` once it is placed and `L` once it
is linked. -/
structure SubmissionRule (I : Store → Prop) (B A P L : RelayJob → Store → Prop) : Prop where
  existing : ∀ {s job}, I s → s.read (.job job.jobId) = some job → A job s
  settle : ∀ {s v job} record digest, I s → B job s →
    s.read (.idempotency record.idempotencyKey) = some record →
    Prog.wp (settleReservedDigest record digest) I (fun _ t _ => I t ∧ B job t)
      (fun _ t _ => I t) s v
  admits : ∀ {s v job}, I s → B job s →
    Prog.wp (admitNewJob job) I (fun _ t _ => I t ∧ A job t) (fun _ t _ => I t) s v
  reserve : ∀ {s v job record}, I s → A job s → record.jobId = job.jobId →
    record.state = .reserved → Prog.wp (writeIdempotencyRecord record) I
      (fun _ t _ => I t ∧ A job t) (fun _ t _ => I t) s v
  place : ∀ {s v job}, I s → A job s →
    Prog.wp (ensureGlobal .jobs job.jobId) I (fun _ t _ => I t ∧ P job t) (fun _ t _ => I t) s v
  index : ∀ {s v job}, I s → P job s →
    Prog.wp (initializeJobIndex job.jobId) I (fun _ t _ => I t ∧ P job t) (fun _ t _ => I t) s v
  link : ∀ {s v job}, I s → P job s →
    Prog.wp (ensureArtifactUseIndexes job) I (fun _ t _ => I t ∧ L job t) (fun _ t _ => I t) s v
  write : ∀ {s v job}, I s → L job s →
    Prog.wp (writeJob job) I (fun _ t _ => I t ∧ L job t) (fun _ t _ => I t) s v
  cancel : ∀ {s v job}, I s → L job s →
    Prog.wp (ensureRequestedCancellation job) I (fun _ t _ => I t ∧ L job t) (fun _ t _ => I t) s v
  commit : ∀ {s v job} digest, I s → L job s →
    Prog.wp (writeCommittedIdempotencyRecord job digest) I (fun _ t _ => I t ∧ L job t)
      (fun _ t _ => I t) s v
  event : ∀ {s v job}, I s → L job s →
    Prog.wp (appendEventUnlocked job.jobId "job.queued" "Job queued" []) I
      (fun _ t _ => I t ∧ L job t) (fun _ t _ => I t) s v
  queued : ∀ {s v job}, I s → L job s →
    Prog.wp (ensureJobQueuedEvent job) I (fun _ t _ => I t ∧ L job t) (fun _ t _ => I t) s v

/-- What a submission has returned: a job that is linked, or the answer of a retired key. -/
def Submitted (I : Store → Prop) (L : RelayJob → Store → Prop) (job : RelayJob) (t : Store) :
    Prop :=
  I t ∧ (L job t ∨ ∃ key record, t.read (.idempotency key) = some record ∧ record.state = .retired)

namespace SubmissionRule

variable {I : Store → Prop} {B A P L : RelayJob → Store → Prop} {s : Store} {v : Supply}
  {job : RelayJob}

section

variable (h : SubmissionRule I B A P L) (hI : I s)

include h hI

theorem wp_beforeRecord {β : Type} {k : Op β} {Q : Post β} (hA : A job s)
    (hk : ∀ t w, I t → L job t → wp k I Q (fun _ t _ => I t) t w) :
    wp (ensureGlobal .jobs job.jobId >>= fun _ => initializeJobIndex job.jobId >>= fun _ =>
      ensureArtifactUseIndexes job >>= fun _ => k) I Q (fun _ t _ => I t) s v := by
  refine wp_then (h.place hI hA) fun _ t w ht => ?_
  refine wp_then (h.index ht.1 ht.2) fun _ u w hu => ?_
  exact wp_then (h.link hu.1 hu.2) fun _ x w hx => hk x w hx.1 hx.2

theorem wp_createJob (hA : A job s) (digest : JobDigest) :
    wp (createJob job digest) I (fun found t _ => Submitted I L found t)
      (fun _ t _ => I t) s v := by
  refine h.wp_beforeRecord hI hA fun t w hI₁ hL₁ => ?_
  refine wp_then (h.write hI₁ hL₁) fun _ u w hu => ?_
  refine wp_then (h.commit digest hu.1 hu.2) fun _ x w hx => ?_
  refine wp_then (h.event hx.1 hx.2) fun _ y w hy => ?_
  exact (wp_pure _).2 ⟨hy.1, .inl hy.2⟩

/-- Resuming a submission finishes what the first call left, and returns a job that is linked or the
answer of a retired key. -/
theorem wp_resumeJob {existing : RelayJob}
    (hA : A existing s) (state : IdempotencyState) (digest : JobDigest) :
    wp (resumeJob existing state job digest) I (fun found t _ => Submitted I L found t)
      (fun _ t _ => I t) s v := by
  unfold resumeJob
  refine wp_require_then (fun _ => ?_) fun _ => hI
  refine h.wp_beforeRecord hI hA fun t w hI₁ hL₁ => ?_
  refine wp_then (h.write hI₁ hL₁) fun _ u w hu => ?_
  refine wp_then (h.cancel hu.1 hu.2) fun _ x w hx => ?_
  refine wp_then (h.queued hx.1 hx.2) fun _ y w hy => ?_
  rw [wp_bind]
  refine wp_cases (fun _ => ?_) fun _ => ?_
  · refine wp_imp (h.commit digest hy.1 hy.2) fun _ z w hz => ?_
    exact (wp_pure _).2 ⟨hz.1, .inl hz.2⟩
  · exact (wp_pure _).2 ((wp_pure _).2 ⟨hy.1, .inl hy.2⟩)

theorem wp_submitNew (hB : B job s) (digest : JobDigest) :
    wp (submitNew job digest) I (fun found t _ => Submitted I L found t)
      (fun _ t _ => I t) s v := by
  unfold submitNew
  rw [wp_bind]
  refine (readOnly_artifactUseRecords job).wp (fun _ w => ?_) fun _ _ => hI
  refine wp_then (h.admits hI hB) fun _ t w ht => ?_
  rw [wp_bind, wp_utcNow]
  refine wp_then (h.reserve ht.1 ht.2 rfl rfl) fun _ u w hu => ?_
  exact h.wp_createJob hu.1 hu.2 digest

/-- A submission under a key with a record. -/
theorem wp_resubmit {record : IdempotencyRecord} (hB : B job s)
    (hrec : s.read (.idempotency record.idempotencyKey) = some record) (digest : JobDigest) :
    wp (resubmit job record digest) I (fun found t _ => Submitted I L found t)
      (fun _ t _ => I t) s v := by
  unfold resubmit
  rw [wp_bind]
  have hkept : wp (settleReservedDigest record digest) (fun _ => True)
      (fun _ t _ => record.state = .retired → t.read (.idempotency record.idempotencyKey) =
        some record) (fun _ _ _ => True) s v := by
    unfold settleReservedDigest
    refine wp_cases (fun hresv => ?_) fun _ => (wp_pure _).2 fun _ => hrec
    rw [Bool.and_eq_true, beq_iff_eq] at hresv
    rw [wp_bind]
    refine (confined_writeIdempotencyRecord _).wp (fun _ _ => trivial) (fun _ t w _ => ?_)
      fun _ _ _ _ => trivial
    refine (wp_pure _).2 fun hretd => ?_
    rw [hresv.2] at hretd
    cases hretd
  refine wp_mono (wp_and (h.settle record digest hI hB hrec) hkept) (fun _ h => h.1)
    (fun _ t w ht => ?_) fun _ _ _ h => h.1
  obtain ⟨⟨hI₁, hB₁⟩, hkept⟩ := ht
  refine wp_require_then (fun _ => ?_) fun _ => hI₁
  refine wp_cases (fun hretd => ?_) fun _ => ?_
  · exact (readOnly_replayRetiredJob ..).wp
      (fun _ _ => ⟨hI₁, .inr ⟨_, record, hkept hretd, hretd⟩⟩) fun _ _ => hI₁
  · rw [wp_bind]
    unfold readJob
    rw [wp_bind, read_eq_look, wp_look]
    refine wp_require_then (fun hnamed => (wp_pure _).2 ?_) fun _ => hI₁
    rcases hread : t.read (.job record.jobId) with _ | existing
    · refine wp_require_then (fun _ => ?_) fun _ => hI₁
      refine wp_then (h.admits hI₁ hB₁) fun _ u w hu => ?_
      exact h.wp_createJob hu.1 hu.2 digest
    · rw [hread, Option.all_some, beq_iff_eq] at hnamed
      rw [← hnamed] at hread
      exact h.wp_resumeJob hI₁ (h.existing hI₁ hread) record.state digest

/-- **A submission after the replay.** -/
theorem wp_submitJobUnlocked
    (hB : ∀ prepared, preparedSubmission job (s.read (.idempotency job.idempotencyKey)) =
      .ok prepared → B prepared s) :
    wp (submitJobUnlocked job) I (fun found t _ => Submitted I L found t)
      (fun _ t _ => I t) s v := by
  unfold submitJobUnlocked
  rw [wp_bind, read_eq_look, wp_look]
  refine wp_require_then (fun hkey => ?_) fun _ => hI
  refine wp_ofExcept_then (fun prepared hprep => ?_) fun _ _ => hI
  have hadm := hB prepared hprep
  rcases hfound : s.read (.idempotency job.idempotencyKey) with _ | _
  · exact h.wp_submitNew hI hadm _
  · rw [hfound, Option.all_some, beq_iff_eq] at hkey
    exact h.wp_resubmit hI hadm (by rw [hkey]; exact hfound) _

/-- **`submit_job`**, for every invariant that keeps the stages. -/
theorem wp_submitJob (hrepl : ∀ w, wp recoverPendingTransitions I
      (fun _ t _ => I t ∧ ∀ prepared, preparedSubmission job
        (t.read (.idempotency job.idempotencyKey)) = .ok prepared → B prepared t)
      (fun _ t _ => I t) s w) :
    wp (submitJob job) I (fun found t _ => Submitted I L found t) (fun _ t _ => I t) s v := by
  unfold submitJob
  refine wp_ofExcept_then (fun _ _ => ?_) fun _ _ => hI
  rw [wp_bind]
  refine readOnly_requireIndexMigrationComplete.wp (fun _ w => ?_) fun _ _ => hI
  exact wp_then (hrepl w) fun _ t w ht => h.wp_submitJobUnlocked ht.1 ht.2

end

end SubmissionRule

end

end ClioQueue
