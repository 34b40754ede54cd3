/-
# What the checks of an ingest have found

Each check of an ingest call only reads: it raises, or it returns and the job, the
attempt and the artifact are as the call needs them.  The calls that follow are about
these facts, never about the checks again.
-/

import ClioQueue.EventLogOperations

namespace ClioQueue

open Durable Durable.Prog

section

variable [Platform] {C : Store → Prop} {E : Post RelayError} {s : Store}
  {v : Supply} {jobId : DurableRecordId}
  {artifact : ArtifactRef} {attemptId : Option DurableRecordId}
  {Q : Post RelayJob}

/-- The attempt of the job that is running. -/
def RelayJob.RunsAttempt (job : RelayJob) (attemptId : DurableRecordId) : Prop :=
  job.state = .running ∧
    ∃ attempt, inputIngestAttempt job = .ok attempt ∧ attemptRuns attempt attemptId = true

omit [Platform] in
/-- A job that is read is under its own name. -/
theorem wp_getJob_found (hQ : ∀ job, s.read (.job jobId) = some job → job.jobId = jobId → Q job s v)
    (hE : ∀ err, E err s v) : wp (getJob jobId) C Q E s v := by
  unfold getJob readJob
  rw [wp_bind, wp_bind, read_eq_look, wp_look]
  refine wp_require_then (fun hnamed => (wp_pure _).2 ?_) fun _ => hE _
  rcases hread : s.read (.job jobId) with _ | job
  · exact (wp_raise _).2 (hE _)
  · rw [hread, Option.all_some, beq_iff_eq] at hnamed
    exact (wp_pure _).2 (hQ job hread hnamed)

omit [Platform] in
theorem wp_requireIngestJob {Q : Post (RelayJob × InputArtifactSpec)}
    (hQ : ∀ job spec, s.read (.job jobId) = some job → job.jobId = jobId →
      job.ingestSpec = some spec → Q (job, spec) s v)
    (hE : ∀ err, E err s v) : wp (requireIngestJob jobId) C Q E s v := by
  unfold requireIngestJob
  rw [wp_bind]
  refine wp_getJob_found (fun job hread hid => ?_) hE
  rcases hspec : job.ingestSpec with _ | spec
  · exact (wp_raise _).2 (hE _)
  · exact (wp_pure _).2 (hQ job spec hread hid hspec)

/-- The job of a reconciliation. -/
structure Reconcilable (s : Store) (artifact : ArtifactRef) (attemptId : Option DurableRecordId)
    (job : RelayJob) (spec : InputArtifactSpec) : Prop where
  read : s.read (.job artifact.jobId) = some job
  named : job.jobId = artifact.jobId
  ingest : job.ingestSpec = some spec
  state : ¬ (job.state = .failed ∨ job.state = .canceled)
  attempt : ∀ id, attemptId = some id → job.RunsAttempt id
  artifactId : artifact.artifactId = Platform.deterministicInputArtifactId job.jobId

theorem wp_checkReconciledAttempt {job : RelayJob} (hE : ∀ err, E err s v) :
    wp (checkReconciledAttempt job attemptId) C (fun _ t w => t = s ∧ w = v ∧
      ∀ id, attemptId = some id → job.RunsAttempt id) E s v := by
  unfold checkReconciledAttempt
  rcases attemptId with _ | attemptId
  · exact (wp_pure _).2 ⟨rfl, rfl, nofun⟩
  · refine wp_ofExcept_then (fun attempt hatt => ?_) fun _ _ => hE _
    rw [wp_require]
    refine ⟨fun hruns => ⟨rfl, rfl, ?_⟩, fun _ => hE _⟩
    rw [Bool.and_eq_true, beq_iff_eq] at hruns
    rintro id ⟨⟩
    exact ⟨hruns.1, attempt, hatt, hruns.2⟩

/-- The checks of `reconcile_input_artifact`. -/
theorem wp_checkReconciliation {Q : Post (RelayJob × InputArtifactSpec)}
    (hQ : ∀ job spec, Reconcilable s artifact attemptId job spec → Q (job, spec) s v)
    (hE : ∀ err, E err s v) : wp (checkReconciliation artifact attemptId) C Q E s v := by
  unfold checkReconciliation
  rw [wp_bind]
  refine wp_getJob_found (fun job hread hid => ?_) hE
  rcases hspec : job.ingestSpec with _ | spec
  · exact (wp_raise _).2 (hE _)
  · simp only
    refine wp_require_then (fun hst => ?_) fun _ => hE _
    have hst : ¬ (job.state = .failed ∨ job.state = .canceled) := by
      rintro (h | h) <;> rw [h] at hst <;> cases hst
    refine wp_then (wp_checkReconciledAttempt hE) ?_
    rintro - _ _ ⟨rfl, rfl, hatt⟩
    refine wp_require_then (fun _ => ?_) fun _ => hE _
    refine wp_require_then (fun hart => ?_) fun _ => hE _
    refine wp_require_then (fun _ => (wp_pure _).2 (hQ job spec ?_)) fun _ => hE _
    exact ⟨hread, hid, hspec, hst, hatt, beq_iff_eq.1 hart⟩

/-- An artifact that is there must have the same id and job and is returned; one that is not there
is written by a single write. -/
theorem wp_saveInputArtifact {Q : Post ArtifactRef}
    (hexist : ∀ saved, s.read (.artifact artifact.artifactId) = some saved → saved.artifactId = artifact.artifactId → saved.jobId = artifact.jobId → Q saved s v)
    (hnew : ∀ saved, saved.artifactId = artifact.artifactId → saved.jobId = artifact.jobId → s.read (.artifact artifact.artifactId) = none → C (s.write (.artifact saved.artifactId) saved) ∧ Q saved (s.write (.artifact saved.artifactId) saved) v)
    (hE : ∀ err, E err s v) : wp (saveInputArtifact artifact) C Q E s v := by
  unfold saveInputArtifact
  rw [wp_bind, read_eq_look, wp_look]
  refine wp_require_then (fun _ => ?_) fun _ => hE _
  rcases hread : s.read (.artifact artifact.artifactId) with _ | saved
  · simp only
    unfold nextJobRecordSequence
    rw [wp_bind, wp_bind, read_eq_look, wp_look]
    rcases s.read (.jobIndex artifact.jobId) with _ | index
    · exact (wp_raise _).2 (hE _)
    · refine (wp_pure _).2 ?_
      refine wp_require_then (fun _ => ?_) fun _ => hE _
      refine wp_putWithin_then (fun _ => ?_) fun _ => hE _
      obtain ⟨hC, hQ⟩ := hnew { artifact with sequence := some (index.artifactCount + 1) } rfl rfl
        hread
      exact ⟨hC, (wp_pure _).2 hQ⟩
  · simp only
    refine wp_require_then (fun hsame => (wp_pure _).2 ?_) fun _ => hE _
    rw [Bool.and_eq_true] at hsame
    have hequal := eq_of_beq (a := saved) hsame.2
    exact hexist saved hread (congrArg ArtifactRef.artifactId hequal :)
      (congrArg ArtifactRef.jobId hequal :)

/-- The job of a completion. -/
structure Completable (s : Store) (jobId : DurableRecordId) (attemptId : Option DurableRecordId)
    (job : RelayJob) (attempt : Option InputIngestAttempt) : Prop where
  read : s.read (.job jobId) = some job
  named : job.jobId = jobId
  state : ¬ (job.state = .failed ∨ job.state = .canceled)
  found : inputIngestAttempt job = .ok attempt
  runs : ∀ id, attemptId = some id → job.RunsAttempt id

/-- The checks of `complete_input_ingest`. -/
theorem wp_checkCompletion {Q : Post (RelayJob × Option InputIngestAttempt)}
    (hQ : ∀ job attempt, Completable s jobId attemptId job attempt → Q (job, attempt) s v)
    (hE : ∀ err, E err s v) : wp (checkCompletion jobId attemptId) C Q E s v := by
  unfold checkCompletion
  rw [wp_bind]
  refine wp_requireIngestJob (fun job spec hread hid hspec => ?_) hE
  simp only
  refine wp_require_then (fun hst => ?_) fun _ => hE _
  have hst : ¬ (job.state = .failed ∨ job.state = .canceled) := by
    rintro (h | h) <;> rw [h] at hst <;> cases hst
  refine wp_ofExcept_then (fun attempt hatt => ?_) fun _ _ => hE _
  refine wp_require_then (fun hruns => ?_) fun _ => hE _
  rw [wp_bind, read_eq_look, wp_look]
  refine wp_require_then (fun _ => (wp_pure _).2 (hQ job attempt ⟨hread, hid, hst, hatt, ?_⟩))
    fun _ => hE _
  rintro _ rfl
  rw [Option.all_some, Bool.and_eq_true, beq_iff_eq] at hruns
  exact ⟨hruns.1, attempt, hatt, hruns.2⟩

/-- What `begin_input_ingest` has found: nothing to do, or an attempt to start. -/
theorem wp_beginInputIngestUnlocked [Entropy] {Q : Post (RelayJob × Bool)}
    {attemptId : DurableRecordId} {policy : Option InputArtifactIngestPolicy}
    (hnothing : ∀ job, s.read (.job jobId) = some job → Q (job, false) s v)
    (hstart : ∀ job spec, s.read (.job jobId) = some job → job.jobId = jobId →
      job.ingestSpec = some spec → job.state = .queued ∨ job.state = .failed →
      wp (startInputIngest job attemptId policy) C (fun started => Q (started, true)) E s v)
    (hE : ∀ err, E err s v) :
    wp (beginInputIngestUnlocked jobId attemptId policy) C Q E s v := by
  unfold beginInputIngestUnlocked
  rw [wp_bind]
  refine wp_requireIngestJob (fun job spec hread hid hspec => ?_) hE
  simp only
  refine wp_cases (fun _ => (wp_pure _).2 (hnothing job hread)) fun _ => ?_
  refine wp_ofExcept_then (fun existing _ => ?_) fun _ _ => hE _
  rw [wp_ite]
  constructor
  · intro _
    exact wp_require_then (fun _ => (wp_pure _).2 (hnothing job hread)) fun _ => hE _
  · intro _
    refine wp_require_then (fun hst => ?_) fun _ => hE _
    rw [Bool.or_eq_true, beq_iff_eq, beq_iff_eq] at hst
    exact wp_then (hstart job spec hread hid hspec hst) fun _ _ _ h => (wp_pure _).2 h

/-- What `fail_input_ingest` has found: nothing to do, or its attempt running. -/
theorem wp_failInputIngestUnlocked [Entropy] {Q : Post (RelayJob × Bool)}
    {attemptId : DurableRecordId} {error : String}
    (hnothing : ∀ job, s.read (.job jobId) = some job → Q (job, false) s v)
    (hfail : ∀ job spec attempt, s.read (.job jobId) = some job → job.jobId = jobId →
      job.ingestSpec = some spec → job.state = .running → inputIngestAttempt job = .ok (some attempt) →
      attempt.attemptId = attemptId → attempt.outcome = .running →
      wp (failAttempt job attempt error) C Q E s v)
    (hE : ∀ err, E err s v) :
    wp (failInputIngestUnlocked jobId attemptId error) C Q E s v := by
  unfold failInputIngestUnlocked
  rw [wp_bind]
  refine wp_requireIngestJob (fun job spec hread hid hspec => ?_) hE
  simp only
  refine wp_ofExcept_then (fun attempt hatt => ?_) fun _ _ => hE _
  refine wp_cases (fun _ => (wp_pure _).2 (hnothing job hread)) fun _ => ?_
  rw [wp_ite]
  constructor
  · intro _
    exact wp_require_then (fun _ => (wp_pure _).2 (hnothing job hread)) fun _ => hE _
  · intro _
    rcases attempt with _ | attempt
    · exact (wp_raise _).2 (hE _)
    · simp only
      refine wp_cases (fun hruns => ?_) fun _ => (wp_raise _).2 (hE _)
      exact hfail job spec attempt hread hid hspec hruns.1 hatt hruns.2.1 hruns.2.2

/-- The job of a completion, but for the write: only its attempt record is another. -/
theorem wp_succeedIngest [Entropy] {job : RelayJob} {attempt : Option InputIngestAttempt}
    (h : ∀ metadata now w, metadata = job.metadata ∨ (∃ value, metadata = job.metadata.set "input_ingest_attempt" value) → wp (writeJob (succeededIngest job metadata now) >>= fun _ => pure (succeededIngest job metadata now)) C Q E s w) :
    wp (succeedIngest job attempt) C Q E s v := by
  unfold succeedIngest
  rw [wp_bind]
  rcases attempt with _ | attempt
  · refine (wp_pure _).2 ?_
    rw [wp_bind, wp_utcNow]
    exact h job.metadata _ _ (.inl rfl)
  · unfold succeededMetadata
    rw [wp_bind, wp_utcNow, wp_pure, wp_bind, wp_utcNow]
    exact h _ _ _ (.inr ⟨_, rfl⟩)

end

end ClioQueue
