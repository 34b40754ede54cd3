/-
# The quota of a generation along runs

`IngestOk` is what the calls keep as long as every ingest job of the generation carries
the policy: the journal only holds job synchronisations, every producer is a member of
the generation or has its synchronisation pending, and the quota holds.  A job may be
written when it fits (`Fits`): a submission and the begin of an attempt check for room,
and every other call only takes a share away.

A call that writes a job with another policy ends the period that the quota is about;
from there on a job of the generation is astray (`Stray`).
-/

import Mathlib
import ClioQueue.GlobalPaging
import ClioQueue.IngestQuota
import ClioQueue.IngestSteps

namespace ClioQueue

open Durable Durable.Prog Durable.Files

/-! ### The invariant -/

/-- The files that the quota depends on. -/
def ingestFile : Path → Prop
  | .job _ | .artifact _ | .ownerSessionJob .. | .intent _ => True
  | _ => False

theorem cleanupReceipt.not_ingestFile (p : Path) (h : cleanupReceipt p) : ¬ ingestFile p := by
  cases p <;> first | exact h.elim | exact id

theorem keyFile.not_ingestFile (p : Path) (h : keyFile p) : ¬ ingestFile p := by
  cases p <;> first | exact h.elim | exact id

theorem copyFile.not_ingestFile (p : Path) (h : copyFile p) : ¬ ingestFile p := by
  cases p <;> first | exact h.elim | exact id

theorem orderFile.not_ingestFile {family : GlobalFamily} (p : Path) (h : orderFile family p) :
    ¬ ingestFile p := by
  cases p <;> first | exact h.elim | exact id

theorem lineageFile.not_ingestFile (p : Path) (h : lineageFile p) : ¬ ingestFile p := by
  cases p <;> first | exact h.elim | exact id

theorem cancelFile.not_ingestFile (p : Path) (h : cancelFile p) : ¬ ingestFile p := by
  cases p <;> first | exact h.elim | exact id

theorem eventFile.not_ingestFile {jobId : DurableRecordId} (p : Path) (h : eventFile jobId p) :
    ¬ ingestFile p := by
  cases p <;> first | exact h.elim | exact id

/-- A program that works beside the files of the quota. -/
theorem wp_besideIngest {α : Type} {A : Path → Prop} {m : Op α} {C : Store → Prop}
    {Q : Post α} {E : Post RelayError} {s : Store}
    {v : Supply} (hm : Confined A m)
    (hA : ∀ p, A p → ¬ ingestFile p)
    (hC : ∀ t, (∀ p, ingestFile p → t.read p = s.read p) → C t)
    (hQ : ∀ a t w, (∀ p, ingestFile p → t.read p = s.read p) → Q a t w)
    (hE : ∀ err t w, (∀ p, ingestFile p → t.read p = s.read p) → E err t w) :
    wp m C Q E s v := by
  have hkept : ∀ t, Agree A s t → ∀ p, ingestFile p → t.read p = s.read p :=
    fun t ht p hp => ht p fun hAp => hA p hAp hp
  exact hm.wp (fun t ht => hC t (hkept t ht)) (fun a t w ht => hQ a t w (hkept t ht))
    fun err t w ht => hE err t w (hkept t ht)

/-- An ingest job of the generation has the policy. -/
def Carries (owner : String) (generation : DurableRecordId) (policy : InputArtifactIngestPolicy)
    (job : RelayJob) : Prop :=
  job.ingestSpec.isSome = true → OfGeneration owner generation job → job.ingestPolicy = some policy

/-- Every ingest job of the generation has the policy. -/
def Carried (owner : String) (generation : DurableRecordId) (policy : InputArtifactIngestPolicy)
    (s : Store) : Prop :=
  ∀ id job, s.read (.job id) = some job → Carries owner generation policy job

section

variable [Platform]

/-- **The quota and what it rests on.** -/
structure IngestOk (owner : String) (generation : DurableRecordId)
    (policy : InputArtifactIngestPolicy) (s : Store) : Prop where
  named : ∀ id job, s.read (.job id) = some job → job.jobId = id
  intents : ∀ key I, s.read (.intent key) = some I →
    ∃ id at', key = .jobSync id ∧ I = .jobSync id at'
  member : ∀ id job, s.read (.job id) = some job → job.ingestSpec.isSome = true →
    OfGeneration owner generation job →
    (s.read (.intent (.jobSync id))).isSome = true ∨ Listed owner generation id s
  carried : Carried owner generation policy s
  quota : QuotaHolds owner generation policy s

/-- The quota, or a job with another policy. -/
def QuotaKept (owner : String) (generation : DurableRecordId)
    (policy : InputArtifactIngestPolicy) (s : Store) : Prop :=
  IngestOk owner generation policy s ∨ ¬ Carried owner generation policy s

/-- A job with another policy, which writing this job leaves. -/
def Stray (owner : String) (generation : DurableRecordId) (policy : InputArtifactIngestPolicy)
    (job : RelayJob) (s : Store) : Prop :=
  ∃ id other, s.read (.job id) = some other ∧ ¬ Carries owner generation policy other ∧
    (id = job.jobId → other = job)

/-- The job may be written. -/
def FitsQuota (owner : String) (generation : DurableRecordId) (policy : InputArtifactIngestPolicy)
    (job : RelayJob) (s : Store) : Prop :=
  IngestOk owner generation policy s ∧ (Carries owner generation policy job →
      QuotaHolds owner generation policy (s.write (.job job.jobId) job)) ∨
    Stray owner generation policy job s

end

section

variable [Platform] {owner : String} {generation : DurableRecordId}
  {policy : InputArtifactIngestPolicy} {s t : Store} {v : Supply} {job : RelayJob} {old : RelayJob}

section

omit [Platform]

theorem Carried.congr (hst : ∀ id, t.read (.job id) = s.read (.job id)) :
    Carried owner generation policy t ↔ Carried owner generation policy s := by
  unfold Carried
  simp only [hst]

theorem Stray.not_carried (h : Stray owner generation policy job s) :
    ¬ Carried owner generation policy s := by
  obtain ⟨id, other, hread, hother, -⟩ := h
  exact fun hcarried => hother (hcarried id other hread)

theorem Stray.frame (h : Stray owner generation policy job s)
    (hst : ∀ id, t.read (.job id) = s.read (.job id)) : Stray owner generation policy job t := by
  obtain ⟨id, other, hread, hother⟩ := h
  exact ⟨id, other, (hst id).trans hread, hother⟩

end

/-- The quota depends on jobs, artifacts, memberships and intents only. -/
theorem IngestOk.frame (hs : IngestOk owner generation policy s)
    (hst : ∀ p, ingestFile p → t.read p = s.read p) : IngestOk owner generation policy t := by
  have hjob : ∀ id, t.read (.job id) = s.read (.job id) := fun id => hst (.job id) trivial
  have hintent : ∀ key, t.read (.intent key) = s.read (.intent key) :=
    fun key => hst (.intent key) trivial
  refine ⟨fun id job hread => hs.named id job (hjob id ▸ hread),
    fun key I hread => hs.intents key I (hintent key ▸ hread), fun id job hread hspec hof => ?_,
    (Carried.congr hjob).2 hs.carried, ?_⟩
  · rw [hintent]
    refine (hs.member id job (hjob id ▸ hread) hspec hof).imp_right fun hlist => ?_
    refine hlist.frame fun p hp => hst p ?_
    cases p <;> first | exact hp.elim | trivial
  · exact hs.quota.of_subset (ingestShares_congr hjob fun id => hst (.artifact id) trivial).subset

/-- The shares of a job that is written depend on the other jobs and the artifacts only. -/
theorem QuotaHolds.write_congr (h : QuotaHolds owner generation policy
      (s.write (.job job.jobId) job)) (hjob : ∀ id, t.read (.job id) = s.read (.job id))
    (hart : ∀ id, t.read (.artifact id) = s.read (.artifact id)) :
    QuotaHolds owner generation policy (t.write (.job job.jobId) job) := by
  refine h.of_subset (ingestShares_congr (fun id => ?_) fun id => ?_).subset
  · by_cases heq : id = job.jobId
    · subst heq
      rw [read_write_self, read_write_self]
    · rw [read_write_ne _ (by simpa using heq), read_write_ne _ (by simpa using heq)]
      exact hjob id
  · rw [read_write_ne _, read_write_ne _]
    exact hart id

theorem FitsQuota.quotaKept (h : FitsQuota owner generation policy job s) :
    QuotaKept owner generation policy s :=
  h.imp And.left Stray.not_carried

theorem FitsQuota.frame (h : FitsQuota owner generation policy job s)
    (hst : ∀ p, ingestFile p → t.read p = s.read p) : FitsQuota owner generation policy job t := by
  have hjob : ∀ id, t.read (.job id) = s.read (.job id) := fun id => hst (.job id) trivial
  have hart : ∀ id, t.read (.artifact id) = s.read (.artifact id) :=
    fun id => hst (.artifact id) trivial
  exact h.imp (fun h => ⟨h.1.frame hst, fun hcarries => (h.2 hcarries).write_congr hjob hart⟩)
    fun h => h.frame hjob

/-- The shares of a store are those of the store with a job written again. -/
theorem IngestOk.quota_write (hs : IngestOk owner generation policy s)
    (hread : s.read (.job job.jobId) = some job) :
    QuotaHolds owner generation policy (s.write (.job job.jobId) job) := by
  refine hs.quota.of_subset (ingestShares_congr (fun id => ?_) fun id => ?_).subset
  · by_cases heq : id = job.jobId
    · subst heq
      rw [read_write_self, hread]
    · exact read_write_ne _ (by simpa using heq)
  · exact read_write_ne _

/-- A job that exists may be written again. -/
theorem FitsQuota.existing (hs : QuotaKept owner generation policy s)
    (hread : s.read (.job job.jobId) = some job) : FitsQuota owner generation policy job s := by
  rcases hs with hs | hs
  · exact .inl ⟨hs, fun _ => hs.quota_write hread⟩
  · unfold Carried at hs
    push Not at hs
    obtain ⟨id, other, hother, hnot⟩ := hs
    refine .inr ⟨id, other, hother, hnot, ?_⟩
    rintro rfl
    rw [hread] at hother
    cases hother
    rfl

/-- **A job for which there is room.** -/
theorem FitsQuota.of_room (hs : IngestOk owner generation policy s)
    (hroom : Room owner generation policy s job) : FitsQuota owner generation policy job s := by
  refine .inl ⟨hs, fun _ => ?_⟩
  by_cases hshare : ∃ size, ingestShare owner generation s job = some size
  · obtain ⟨size, hshare⟩ := hshare
    obtain ⟨spec, hspec, hof, -, rfl⟩ := ingestShare_eq_some.1 hshare
    obtain ⟨hcnt, hbytes⟩ := hroom spec hspec hof
    refine QuotaHolds.of_room hcnt hbytes fun e he => ?_
    rcases mem_ingestShares_write.1 he with ⟨hid, hsize⟩ | ⟨hne, hmem⟩
    · rw [hshare] at hsize
      exact Finset.mem_insert.2 (.inl (Prod.ext hid (Option.some.inj hsize).symm))
    · exact Finset.mem_insert_of_mem (Finset.mem_filter.2 ⟨hmem, hne⟩)
  · refine hs.quota.of_subset fun e he => ?_
    rcases mem_ingestShares_write.1 he with ⟨-, hsize⟩ | ⟨-, hmem⟩
    · exact absurd ⟨_, hsize⟩ hshare
    · exact hmem

/-- What of a job the quota depends on, its state apart. -/
structure SameIngest (old job : RelayJob) : Prop where
  named : job.jobId = old.jobId
  spec : job.ingestSpec = old.ingestSpec
  owner : job.metadata.get "owner_session_id" = old.metadata.get "owner_session_id"
  generation : job.metadata.get "owner_session_generation_id" =
    old.metadata.get "owner_session_generation_id"
  policy : job.metadata.get "input_ingest_policy" = old.metadata.get "input_ingest_policy"

section

omit [Platform]

theorem SameIngest.ofGeneration (h : SameIngest old job) :
    OfGeneration owner generation job ↔ OfGeneration owner generation old := by
  unfold OfGeneration
  rw [h.owner, h.generation]

theorem SameIngest.carries (h : SameIngest old job) (hold : Carries owner generation policy old) :
    Carries owner generation policy job := by
  intro hspec hof
  rw [h.spec] at hspec
  have hpol := hold hspec (h.ofGeneration.1 hof)
  unfold RelayJob.ingestPolicy at hpol ⊢
  rwa [h.policy]

/-- Only the state, the attempt or the cancellation request changes. -/
theorem SameIngest.of_set {key : String} {value : Json} (hnamed : job.jobId = old.jobId)
    (hkind : job.kind = old.kind) (hspec : job.spec = old.spec)
    (hmeta : job.metadata = old.metadata.set key value)
    (hkey : key ≠ "owner_session_id" ∧ key ≠ "owner_session_generation_id" ∧ key ≠ "input_ingest_policy") :
    SameIngest old job := by
  refine ⟨hnamed, ?_, ?_, ?_, ?_⟩
  · unfold RelayJob.ingestSpec
    rw [hkind, hspec]
  · rw [hmeta, Dict.get_set, if_neg hkey.1.symm]
  · rw [hmeta, Dict.get_set, if_neg hkey.2.1.symm]
  · rw [hmeta, Dict.get_set, if_neg hkey.2.2.symm]

end

/-- **A job whose share was already taken** takes no other. -/
theorem IngestOk.quota_change (hs : IngestOk owner generation policy s)
    (hread : s.read (.job old.jobId) = some old) (hsame : SameIngest old job)
    (hstate : ¬ (old.state = .failed ∨ old.state = .canceled)) :
    QuotaHolds owner generation policy (s.write (.job job.jobId) job) := by
  refine hs.quota.of_subset fun e he => ?_
  rcases mem_ingestShares_write.1 he with ⟨hid, hsize⟩ | ⟨-, hmem⟩
  · obtain ⟨spec, hspec', hof', -, hsize⟩ := ingestShare_eq_some.1 hsize
    rw [hsame.named] at hid
    exact mem_ingestShares.2 ⟨old, hid ▸ hread, ingestShare_eq_some.2
      ⟨spec, hsame.spec ▸ hspec', hsame.ofGeneration.1 hof', fun h => absurd h hstate, hsize⟩⟩
  · exact hmem

/-! ### Writing a job -/

section

variable (hs : IngestOk owner generation policy s)

include hs

theorem IngestOk.journal (jobId : DurableRecordId) (at' : Time) :
    IngestOk owner generation policy (s.write (.intent (.jobSync jobId)) (.jobSync jobId at')) := by
  have hjob : ∀ id, (s.write (.intent (.jobSync jobId)) (.jobSync jobId at')).read (.job id) =
      s.read (.job id) := fun id => read_write_ne _
  have hart : ∀ id, (s.write (.intent (.jobSync jobId)) (.jobSync jobId at')).read
      (.artifact id) = s.read (.artifact id) := fun id => read_write_ne _
  refine ⟨fun id job hread => hs.named id job (hjob id ▸ hread), fun key I hread => ?_,
    fun id job hread hspec hof => ?_, (Carried.congr hjob).2 hs.carried,
    hs.quota.of_subset (ingestShares_congr hjob hart).subset⟩
  · by_cases heq : key = .jobSync jobId
    · subst heq
      rw [read_write_self] at hread
      cases hread
      exact ⟨jobId, at', rfl, rfl⟩
    · rw [read_write_ne _ (by simpa using heq)] at hread
      exact hs.intents key I hread
  · by_cases heq : id = jobId
    · subst heq
      rw [read_write_self]
      exact .inl rfl
    · rw [read_write_ne _ (by simpa using heq)]
      refine (hs.member id job (hjob id ▸ hread) hspec hof).imp_right fun hlist => ?_
      exact hlist.frame fun p hp => read_write_ne _ (by rintro rfl; exact hp)

/-- The record of a job, under its intent. -/
theorem IngestOk.recorded (hpend : (s.read (.intent (.jobSync job.jobId))).isSome = true)
    (hcarries : Carries owner generation policy job)
    (hquota : QuotaHolds owner generation policy (s.write (.job job.jobId) job)) :
    IngestOk owner generation policy (s.write (.job job.jobId) job) := by
  have hread : ∀ id found, (s.write (.job job.jobId) job).read (.job id) = some found →
      id = job.jobId ∧ found = job ∨ s.read (.job id) = some found := by
    intro id found hfound
    by_cases heq : id = job.jobId
    · subst heq
      rw [read_write_self] at hfound
      cases hfound
      exact .inl ⟨rfl, rfl⟩
    · rw [read_write_ne _ (by simpa using heq)] at hfound
      exact .inr hfound
  have hintent : ∀ key, (s.write (.job job.jobId) job).read (.intent key) = s.read (.intent key) :=
    fun key => read_write_ne _
  refine ⟨fun id found hfound => ?_, fun key I hI => hs.intents key I (hintent key ▸ hI),
    fun id found hfound hspec hof => ?_, fun id found hfound => ?_, hquota⟩
  · rcases hread id found hfound with ⟨hid, hnew⟩ | hold
    · rw [hnew, hid]
    · exact hs.named id found hold
  · rw [hintent]
    rcases hread id found hfound with ⟨hid, -⟩ | hold
    · rw [hid]
      exact .inl hpend
    · refine (hs.member id found hold hspec hof).imp_right fun hlist => ?_
      exact hlist.frame fun p hp => read_write_ne _ (by rintro rfl; exact hp)
  · rcases hread id found hfound with ⟨-, hnew⟩ | hold
    · rw [hnew]
      exact hcarries
    · exact hs.carried id found hold

/-- Deriving the indexes of a job keeps the quota, since no member of a generation is lost. -/
theorem IngestOk.enrolling (ht : Enrolling job s t) : IngestOk owner generation policy t := by
  have hkept : ∀ p, ¬ derivedFile job.jobId p → t.read p = s.read p := ht.agree
  have hjob : ∀ id, t.read (.job id) = s.read (.job id) := fun id => hkept _ (by
    rintro (h | h | h) <;> exact h)
  have hart : ∀ id, t.read (.artifact id) = s.read (.artifact id) := fun id => hkept _ (by
    rintro (h | h | h) <;> exact h)
  have hintent : ∀ key, t.read (.intent key) = s.read (.intent key) := fun key => hkept _ (by
    rintro (h | h | h) <;> exact h)
  refine ⟨fun id job hread => hs.named id job (hjob id ▸ hread),
    fun key I hread => hs.intents key I (hintent key ▸ hread), fun id found hread hspec hof => ?_,
    (Carried.congr hjob).2 hs.carried,
    hs.quota.of_subset (ingestShares_congr hjob hart).subset⟩
  rw [hintent]
  exact (hs.member id found (hjob id ▸ hread) hspec hof).imp_right (ht.kept owner generation id)

/-- Removing the intent of a job whose indexes are derived. -/
theorem IngestOk.unlinked {jobId : DurableRecordId}
    (hlist : ∀ job, s.read (.job jobId) = some job → OfGeneration owner generation job →
      Listed owner generation jobId s) :
    IngestOk owner generation policy (s.unlink (.intent (.jobSync jobId))) := by
  have hkept : ∀ p, p ≠ .intent (.jobSync jobId) →
      (s.unlink (.intent (.jobSync jobId))).read p = s.read p := fun p hp =>
    read_unlink_ne hp
  have hjob : ∀ id, (s.unlink (.intent (.jobSync jobId))).read (.job id) = s.read (.job id) :=
    fun id => hkept _ (by simp)
  have hmember : ∀ id, Listed owner generation id s →
      Listed owner generation id (s.unlink (.intent (.jobSync jobId))) := fun id h =>
    h.frame fun p hp => hkept p (by rintro rfl; exact hp)
  refine ⟨fun id job hread => hs.named id job (hjob id ▸ hread), fun key I hread => ?_,
    fun id found hread hspec hof => ?_, (Carried.congr hjob).2 hs.carried,
    hs.quota.of_subset (ingestShares_congr hjob fun id => hkept _ (by simp)).subset⟩
  · by_cases heq : key = .jobSync jobId
    · subst heq
      rw [read_unlink_self] at hread
      cases hread
    · rw [hkept _ (by simpa using heq)] at hread
      exact hs.intents key I hread
  · rw [hjob] at hread
    by_cases heq : id = jobId
    · subst heq
      exact .inr (hmember id (hlist found hread hof))
    · rw [hkept _ (by simpa using heq)]
      exact (hs.member id found hread hspec hof).imp_right (hmember id)

end

end

section

variable [Platform] [Entropy] {owner : String} {generation : DurableRecordId}
  {policy : InputArtifactIngestPolicy} {s t : Store} {v : Supply} {job : RelayJob}

/-- Writing this job leaves the other job with another policy as it is. -/
theorem Stray.wp_writeJob (hs : Stray owner generation policy job s) :
    Leaves (Stray owner generation policy job) (writeJob job) s v := by
  have hstep : ∀ t, Agree (jobWriteFile job.jobId) s t →
      (t.read (.job job.jobId) = s.read (.job job.jobId) ∨ t.read (.job job.jobId) = some job) →
      Stray owner generation policy job t := by
    intro t hagree hjob
    obtain ⟨id, other, hread, hnot, hsame⟩ := hs
    refine ⟨id, other, ?_, hnot, hsame⟩
    by_cases heq : id = job.jobId
    · subst heq
      rcases hjob with hold | hnew
      · exact hold.trans hread
      · rw [hnew, hsame rfl]
    · rw [hagree (.job id) ?_, hread]
      rintro (h | (h | h | h) | h | h)
      · exact h
      · exact h
      · exact h
      · exact h
      · exact heq (by simpa using h)
      · cases h
  refine ClioQueue.wp_writeJob (fun t ht => hstep t ht.agree (ht.canonical.imp And.left And.left))
    (fun t ht => hstep t ht.agree (.inr ht.canonical))
    (fun t w ht => hstep t ht.agree (.inr ht.canonical)) ?_
  rintro _ t w - (rfl | ht)
  · exact hs
  · exact hstep t ht.agree (ht.canonical.imp And.left And.left)

section

variable (hs : IngestOk owner generation policy s)

include hs

/-- The intent of a job write is journalled first. -/
theorem IngestOk.wp_journal {β : Type} {k : Op β} {C : Store → Prop}
    {Q : Post β} {E : Post RelayError}
    (hC : ∀ t, IngestOk owner generation policy t → C t)
    (hE : ∀ err t w, IngestOk owner generation policy t → E err t w)
    (hk : ∀ m w, IngestOk owner generation policy m →
      (m.read (.intent (.jobSync job.jobId))).isSome = true →
      (∀ id, m.read (.job id) = s.read (.job id)) →
      (∀ id, m.read (.artifact id) = s.read (.artifact id)) → wp k C Q E m w) :
    wp (migrateExecutionCleanupShard job.cluster (Platform.executionCleanupShard job.jobId) >>=
      fun _ => writeTransitionIntent (.jobSync job.jobId job.updatedAt) >>= fun _ => k) C Q E s v := by
  unfold writeTransitionIntent
  rw [wp_bind]
  refine wp_besideIngest (confined_migrateExecutionCleanupShard ..) cleanupReceipt.not_ingestFile
    (fun t ht => hC t (hs.frame ht)) (fun _ t w ht => ?_) fun err t w ht => hE err t w (hs.frame ht)
  rw [wp_bind, wp_bind, wp_utcNow, wp_put]
  have hs₁ := (hs.frame ht).journal job.jobId job.updatedAt
  refine ⟨hC _ hs₁, hk _ _ hs₁ ?_ (fun id => ?_) fun id => ?_⟩
  · exact congrArg Option.isSome (read_write_self ..)
  · exact (read_write_ne _ (by simp [TransitionIntent.key])).trans (ht (.job id) trivial)
  · exact (read_write_ne _ (by simp [TransitionIntent.key])).trans (ht (.artifact id) trivial)

/-- **A job that the quota has room for is written.** -/
theorem IngestOk.wp_writeJob (hcarries : Carries owner generation policy job)
    (hquota : QuotaHolds owner generation policy (s.write (.job job.jobId) job)) :
    wp (writeJob job) (IngestOk owner generation policy)
      (fun _ t _ => IngestOk owner generation policy t ∧ t.read (.job job.jobId) = some job)
      (fun _ t _ => IngestOk owner generation policy t) s v := by
  refine hs.wp_journal (fun _ h => h) (fun _ _ _ h => h) fun m w hm hpend hjob hart => ?_
  refine wp_putWithin_then (fun _ => ?_) fun _ => hm
  have hs₂ := hm.recorded hpend hcarries (hquota.write_congr hjob hart)
  refine ⟨hs₂, ?_⟩
  have hread : (m.write (.job job.jobId) job).read (.job job.jobId) = some job :=
    read_write_self ..
  generalize m.write (.job job.jobId) job = n at hs₂ hread ⊢
  rw [wp_bind]
  refine wp_syncJobDerived_enrolling (fun u hu => hs₂.enrolling hu)
    (fun u w hu hlist => ?_) fun err u w hu => hs₂.enrolling hu
  have hread₁ : u.read (.job job.jobId) = some job := by
    rw [hu.agree (.job job.jobId) (by rintro (h | h | h) <;> exact h), hread]
  have hend : IngestOk owner generation policy (u.unlink (.intent (.jobSync job.jobId))) := by
    refine (hs₂.enrolling hu).unlinked fun found hfound hof => ?_
    rw [hread₁] at hfound
    cases hfound
    exact hlist owner generation hof
  refine wp_unlink.2 ⟨hend, hend, ?_⟩
  rw [read_unlink_ne]
  exact hread₁

/-- A job with another policy is written. -/
theorem IngestOk.wp_writeJob_astray (hnot : ¬ Carries owner generation policy job) :
    wp (writeJob job) (QuotaKept owner generation policy)
      (fun _ t _ => Stray owner generation policy job t)
      (fun _ t _ => QuotaKept owner generation policy t) s v := by
  refine hs.wp_journal (fun _ h => .inl h) (fun _ _ _ h => .inl h) fun m w hm _ _ _ => ?_
  refine wp_putWithin_then (fun _ => ?_) fun _ => .inl hm
  have hstray : Stray owner generation policy job (m.write (.job job.jobId) job) :=
    ⟨job.jobId, job, read_write_self .., hnot, fun _ => rfl⟩
  refine ⟨.inr hstray.not_carried, ?_⟩
  have hrest : Confined (fun p => derivedFile job.jobId p ∨ p = .intent (.jobSync job.jobId))
      (syncJobDerived job >>= fun _ => unlink (.intent (.jobSync job.jobId))) :=
    .bind ((confined_syncJobDerived job).mono fun _ => .inl) fun _ => confined_unlink (.inr rfl)
  have hkept : ∀ u, Agree (fun p => derivedFile job.jobId p ∨
      p = .intent (.jobSync job.jobId)) (m.write (.job job.jobId) job) u →
      Stray owner generation policy job u := fun u hu => hstray.frame fun id => hu _ (by
    rintro ((h | h | h) | h)
    · exact h
    · exact h
    · exact h
    · cases h)
  exact hrest.wp (fun u hu => .inr (hkept u hu).not_carried) (fun _ u w hu => hkept u hu)
    fun err u w hu => .inr (hkept u hu).not_carried

end

/-- **A job that fits is written.** -/
theorem FitsQuota.wp_writeJob (hfits : FitsQuota owner generation policy job s) :
    wp (writeJob job) (QuotaKept owner generation policy)
      (fun _ t _ => FitsQuota owner generation policy job t)
      (fun _ t _ => QuotaKept owner generation policy t) s v := by
  rcases hfits with ⟨hs, hquota⟩ | hstray
  · by_cases hcarries : Carries owner generation policy job
    · exact wp_mono (hs.wp_writeJob hcarries (hquota hcarries)) (fun _ h => .inl h)
        (fun _ _ _ h => .existing (.inl h.1) h.2) fun _ _ _ h => .inl h
    · exact wp_imp (hs.wp_writeJob_astray hcarries) fun _ _ _ h => .inr h
  · exact wp_mono hstray.wp_writeJob (fun _ h => .inr h.not_carried)
      (fun _ _ _ h => .inr h) fun _ _ _ h => .inr h.not_carried

/-! ### The replay -/

omit [Entropy] in
/-- Replaying the sync of a job keeps the quota, removes that intent and adds none. -/
theorem IngestOk.wp_replayJobSync {jobId : DurableRecordId}
    (hs : IngestOk owner generation policy s) :
    wp (replayJobSync jobId) (IngestOk owner generation policy)
      (fun _ t _ => IngestOk owner generation policy t ∧
        t.read (.intent (.jobSync jobId)) = none ∧
        ∀ key I, t.read (.intent key) = some I → s.read (.intent key) = some I)
      (fun _ t _ => IngestOk owner generation policy t) s v := by
  have hend : ∀ t w, IngestOk owner generation policy t →
      (∀ key, t.read (.intent key) = s.read (.intent key)) →
      (∀ job, t.read (.job jobId) = some job → OfGeneration owner generation job →
        Listed owner generation jobId t) →
      wp (unlink (.intent (.jobSync jobId))) (IngestOk owner generation policy)
        (fun _ t _ => IngestOk owner generation policy t ∧
          t.read (.intent (.jobSync jobId)) = none ∧
          ∀ key I, t.read (.intent key) = some I → s.read (.intent key) = some I)
        (fun _ t _ => IngestOk owner generation policy t) t w := by
    intro t w ht hintents hlist
    have hunlinked := ht.unlinked hlist
    refine wp_unlink.2 ⟨hunlinked, hunlinked, read_unlink_self .., fun key I hread => ?_⟩
    by_cases heq : key = .jobSync jobId
    · subst heq
      rw [read_unlink_self] at hread
      cases hread
    · rwa [read_unlink_ne (by simpa using heq), hintents] at hread
  unfold replayJobSync readJob
  rw [wp_bind, wp_bind, read_eq_look, wp_look]
  refine wp_require_then (fun _ => (wp_pure _).2 ?_) fun _ => hs
  rcases hread : s.read (.job jobId) with _ | job
  · rw [wp_bind, wp_pure]
    refine hend s v hs (fun _ => rfl) fun job hjob => ?_
    rw [hread] at hjob
    cases hjob
  · have hid := hs.named jobId job hread
    rw [wp_bind]
    refine wp_syncJobDerived_enrolling (fun t ht => hs.enrolling ht) (fun t w ht hlist => ?_)
      fun err t w ht => hs.enrolling ht
    refine hend t w (hs.enrolling ht) (fun key => ht.agree _ (by rintro (h | h | h) <;> exact h))
      fun found hfound hof => ?_
    rw [ht.agree (.job jobId) (by rintro (h | h | h) <;> exact h), hread] at hfound
    cases hfound
    rw [← hid]
    exact hlist owner generation hof

/-- **The replay** leaves no intent behind. -/
theorem IngestOk.wp_replay (hs : IngestOk owner generation policy s) :
    wp recoverPendingTransitions (QuotaKept owner generation policy)
      (fun _ t _ => IngestOk owner generation policy t ∧ ∀ key, t.read (.intent key) = none)
      (fun _ t _ => QuotaKept owner generation policy t) s v := by
  unfold recoverPendingTransitions reconcileTransitionIntents
  rw [wp_bind, wp_bind]
  refine wp_boundedListing (fun _ => ?_) fun _ _ => .inl hs
  have hsync : ∀ I ∈ s.collect intentsListed, ∃ id at', I = .jobSync id at' := by
    intro I hI
    obtain ⟨p, c, hread, hc⟩ := Files.mem_collect.1 hI
    cases p <;> cases hc
    obtain ⟨id, at', -, rfl⟩ := hs.intents _ _ hread
    exact ⟨id, at', rfl⟩
  -- The intents that are still there are among those that are still to be replayed.
  refine wp_mono (wp_gather (fun (rest : List TransitionIntent) _ t _ =>
      IngestOk owner generation policy t ∧ (∀ I ∈ rest, ∃ id at', I = .jobSync id at') ∧
        ∀ key I, t.read (.intent key) = some I → I ∈ rest) applyIntent ?_ _ [] s v ⟨hs, ?_, ?_⟩)
    (fun _ h => .inl h) (fun _ t w ht => ?_) fun _ _ _ h => .inl h
  · rintro I rest _ t w ⟨ht, hrest, hleft⟩
    obtain ⟨id, at', rfl⟩ := hrest I (.head _)
    show wp (replayJobSync id >>= fun _ => pure []) _ _ _ t w
    refine wp_then ht.wp_replayJobSync ?_
    rintro - u w ⟨hu, hgone, hold⟩
    refine (wp_pure _).2 ⟨hu, fun I hI => hrest I (.tail _ hI), fun key I hI => ?_⟩
    rcases List.mem_cons.1 (hleft key I (hold key I hI)) with rfl | hin
    · obtain ⟨_, _, rfl, heq⟩ := hu.intents key _ hI
      cases heq
      rw [hgone] at hI
      cases hI
    · exact hin
  · exact fun I hI => hsync I ((List.mem_insertionSort _).1 hI)
  · intro key I hI
    exact (List.mem_insertionSort _).2 (Files.mem_collect.2 ⟨_, I, hI, rfl⟩)
  · refine (wp_pure _).2 ⟨ht.1, fun key => ?_⟩
    rcases hread : t.read (.intent key) with _ | I
    · rfl
    · cases ht.2.2 key I hread

/-! ### Submissions -/

section

omit [Entropy]

/-- Once the journal is replayed every producer is a member. -/
theorem IngestOk.listed (hs : IngestOk owner generation policy s)
    (hquiet : ∀ key, s.read (.intent key) = none) (id : DurableRecordId) (found : RelayJob)
    (hread : s.read (.job id) = some found) (hspec : found.ingestSpec.isSome = true)
    (hof : OfGeneration owner generation found) : Listed owner generation id s := by
  rcases hs.member id found hread hspec hof with hpend | hlist
  · rw [hquiet] at hpend
    cases hpend
  · exact hlist

/-- A stage of a submission that works beside the files of the quota. -/
theorem FitsQuota.wp_beside {α : Type} {A : Path → Prop} {m : Op α} (hm : Confined A m)
    (hA : ∀ p, A p → ¬ ingestFile p) (hfits : FitsQuota owner generation policy job s) :
    wp m (QuotaKept owner generation policy)
      (fun _ t _ => QuotaKept owner generation policy t ∧ FitsQuota owner generation policy job t)
      (fun _ t _ => QuotaKept owner generation policy t) s v :=
  wp_besideIngest hm hA (fun _ ht => (hfits.frame ht).quotaKept)
    (fun _ _ _ ht => ⟨(hfits.frame ht).quotaKept, hfits.frame ht⟩)
    fun _ _ _ ht => (hfits.frame ht).quotaKept

/-- **A job that does not exist yet is admitted** when there is room for it. -/
theorem IngestOk.wp_admitNewJob (hs : IngestOk owner generation policy s)
    (hquiet : ∀ key, s.read (.intent key) = none) :
    wp (admitNewJob job) (QuotaKept owner generation policy)
      (fun _ t _ => QuotaKept owner generation policy t ∧ FitsQuota owner generation policy job t)
      (fun _ t _ => QuotaKept owner generation policy t) s v := by
  have hcap : Confined copyFile (ensureActiveJobCapacity job) :=
    .ite (.pure _) (.bind (confined_listing _) fun _ =>
      .bind (.mapError _ confined_repairActiveJobIndex) fun _ =>
        .bind (confined_listing _) fun _ => .require _ _)
  unfold admitNewJob
  rw [wp_bind]
  refine (readOnly_assertOwnerSessionIntakeOpen ..).wp (fun _ w => ?_) fun _ _ => .inl hs
  rw [wp_bind]
  unfold assertInputIngestQuota
  by_cases hcarries : Carries owner generation policy job
  · refine wp_assertInputIngestQuotaWith hs.named (hs.listed hquiet) hcarries (fun w hroom => ?_)
      fun _ _ => .inl hs
    exact (FitsQuota.of_room hs hroom).wp_beside hcap copyFile.not_ingestFile
  · refine (readOnly_assertInputIngestQuotaWith ..).wp (fun _ w => ?_) fun _ _ => .inl hs
    have hfits : FitsQuota owner generation policy job s :=
      .inl ⟨hs, fun h => absurd h hcarries⟩
    exact hfits.wp_beside hcap copyFile.not_ingestFile

end

/-- **A submission keeps the quota.** -/
theorem QuotaKept.submissionRule (owner : String) (generation : DurableRecordId)
    (policy : InputArtifactIngestPolicy) :
    SubmissionRule (QuotaKept owner generation policy)
      (fun _ s => IngestOk owner generation policy s ∧ ∀ key, s.read (.intent key) = none)
      (FitsQuota owner generation policy) (FitsQuota owner generation policy)
      (FitsQuota owner generation policy) where
  existing hs hread := .existing hs hread
  settle record digest _ hB _ := by
    have hkept : ∀ t : Store, (∀ p, ingestFile p → t.read p = _) →
        IngestOk owner generation policy t ∧ ∀ key, t.read (.intent key) = none := fun t ht =>
      ⟨hB.1.frame ht, fun key => (ht (.intent key) trivial).trans (hB.2 key)⟩
    exact wp_besideIngest (confined_settleReservedDigest record digest) keyFile.not_ingestFile
      (fun t ht => .inl (hkept t ht).1) (fun _ t _ ht => ⟨.inl (hkept t ht).1, hkept t ht⟩)
      fun _ t _ ht => .inl (hkept t ht).1
  admits _ hB := hB.1.wp_admitNewJob hB.2
  reserve _ hfits _ _ :=
    hfits.wp_beside (confined_writeIdempotencyRecord _) keyFile.not_ingestFile
  place _ hfits := hfits.wp_beside (confined_ensureGlobal ..) orderFile.not_ingestFile
  index _ hfits :=
    hfits.wp_beside (confined_initializeJobIndex (A := eventFile _) _ rfl) eventFile.not_ingestFile
  link _ hfits :=
    hfits.wp_beside (confined_ensureArtifactUseIndexes _) lineageFile.not_ingestFile
  write _ hfits := wp_imp hfits.wp_writeJob fun _ _ _ h => ⟨h.quotaKept, h⟩
  cancel _ hfits :=
    hfits.wp_beside (confined_ensureRequestedCancellation _) cancelFile.not_ingestFile
  commit digest _ hfits :=
    hfits.wp_beside (confined_writeCommittedIdempotencyRecord _ digest) keyFile.not_ingestFile
  event _ hfits := hfits.wp_beside (confined_appendEventUnlocked ..) eventFile.not_ingestFile
  queued _ hfits := hfits.wp_beside (confined_ensureJobQueuedEvent _) eventFile.not_ingestFile

/-- **`submit_job`.** -/
theorem IngestOk.wp_submitJob (hs : IngestOk owner generation policy s) (job : RelayJob) :
    Leaves (QuotaKept owner generation policy) (submitJob job) s v := by
  refine wp_imp ((QuotaKept.submissionRule owner generation policy).wp_submitJob (.inl hs)
    fun w => ?_)
    fun _ _ _ h => h.1
  exact wp_imp hs.wp_replay fun _ t w ht => ⟨.inl ht.1, fun _ _ => ht⟩

/-! ### Attempts -/

omit [Entropy] in
/-- A program that works beside the files of the quota. -/
theorem IngestOk.wp_beside {α : Type} {A : Path → Prop} {m : Op α} (hm : Confined A m)
    (hA : ∀ p, A p → ¬ ingestFile p) (hs : IngestOk owner generation policy s) :
    Leaves (IngestOk owner generation policy) m s v :=
  wp_besideIngest hm hA (fun _ ht => hs.frame ht) (fun _ _ _ ht => hs.frame ht)
    fun _ _ _ ht => hs.frame ht

/-- **A job that keeps its share is changed**, and what follows works beside the quota. -/
theorem IngestOk.wp_change {α : Type} {k : Op α} {A : Path → Prop} {old : RelayJob}
    (hs : IngestOk owner generation policy s) (hread : s.read (.job old.jobId) = some old)
    (hsame : SameIngest old job) (hstate : ¬ (old.state = .failed ∨ old.state = .canceled))
    (hk : Confined A k) (hA : ∀ p, A p → ¬ ingestFile p) :
    Leaves (IngestOk owner generation policy) (writeJob job >>= fun _ => k) s v := by
  refine wp_then (hs.wp_writeJob (hsame.carries (hs.carried _ old hread))
    (hs.quota_change hread hsame hstate)) fun _ t w ht => ?_
  exact ht.1.wp_beside hk hA

omit [Platform] [Entropy] in
/-- A dumped policy can only be read as itself. -/
theorem InputArtifactIngestPolicy.of_dump {effective : InputArtifactIngestPolicy}
    (h : inputArtifactIngestPolicy effective.dump = some policy) : effective = policy := by
  unfold inputArtifactIngestPolicy at h
  have hcnt : Json.int? (Dict.get [("schema_version",
      .str "clio-relay.input-artifact-ingest-policy.v1"), ("max_file_count",
        .num effective.maxFileCount ""), ("max_total_bytes", .num effective.maxTotalBytes "")]
      "max_file_count") = some (effective.maxFileCount : Int) := rfl
  have hbytes : Json.int? (Dict.get [("schema_version",
      .str "clio-relay.input-artifact-ingest-policy.v1"), ("max_file_count",
        .num effective.maxFileCount ""), ("max_total_bytes", .num effective.maxTotalBytes "")]
      "max_total_bytes") = some (effective.maxTotalBytes : Int) := rfl
  simp only [InputArtifactIngestPolicy.dump, Json.obj?, Option.bind_eq_bind, Option.bind_some,
    hcnt, hbytes] at h
  split at h
  · exact Option.some.inj h
  · cases h

omit [Entropy] in
theorem ingestPolicy_begunJob (stored effective : InputArtifactIngestPolicy)
    (attemptId : DurableRecordId) (now : Time) :
    (begunJob job stored effective attemptId now).ingestPolicy =
      inputArtifactIngestPolicy effective.dump := by
  unfold RelayJob.ingestPolicy begunJob begunMetadata
  simp [Dict.get_set]

omit [Entropy] in
/-- Beginning an ingest does not change the generation of its job. -/
theorem ofGeneration_begunJob (stored effective : InputArtifactIngestPolicy)
    (attemptId : DurableRecordId) (now : Time) :
    OfGeneration owner generation (begunJob job stored effective attemptId now) ↔
      OfGeneration owner generation job := by
  have hget : ∀ key, key ≠ "input_ingest_attempt" → key ≠ "input_ingest_policy" →
      key ≠ "input_ingest_original_policy" →
      (begunJob job stored effective attemptId now).metadata.get key = job.metadata.get key := by
    intro key hatt hpol horiginal
    show (begunMetadata job.metadata stored effective attemptId now).get key = _
    unfold begunMetadata
    simp only
    rw [Dict.get_set, if_neg hatt, Dict.get_set, if_neg hpol]
    split
    · rw [Dict.get_set, if_neg horiginal]
    · rfl
  unfold OfGeneration
  rw [hget _ (by decide) (by decide) (by decide), hget _ (by decide) (by decide) (by decide)]

section

variable (hs : IngestOk owner generation policy s)

include hs

/-- **`begin_input_ingest`** asks for room before the job takes a share again. -/
theorem IngestOk.wp_beginInputIngest
    (jobId attemptId : DurableRecordId) (given : Option InputArtifactIngestPolicy) :
    Leaves (QuotaKept owner generation policy) (beginInputIngest jobId attemptId given) s v := by
  unfold beginInputIngest
  refine wp_then hs.wp_replay ?_
  rintro - t w ⟨ht, hquiet⟩
  refine wp_beginInputIngestUnlocked (fun _ _ => .inl ht) (fun job spec hread hid hspec _ => ?_)
    fun _ => .inl ht
  unfold startInputIngest
  cases hstored : inputArtifactIngestPolicy (job.metadata.get "input_ingest_policy") with
  | none => exact (wp_raise _).2 (.inl ht)
  | some stored =>
    simp only
    have hroom : wp (assertInputIngestQuotaWith (some (given.getD stored)) job)
        (QuotaKept owner generation policy) (fun _ u _ => u = t ∧ ∀ now, FitsQuota owner
          generation policy (begunJob job stored (given.getD stored) attemptId now) u)
        (fun _ u _ => QuotaKept owner generation policy u) t w := by
      by_cases hsame : OfGeneration owner generation job → given.getD stored = policy
      · refine wp_assertInputIngestQuotaWith ht.named (ht.listed hquiet)
          (fun _ hof => by rw [hsame hof]; rfl) (fun w hroom => ⟨rfl, fun now => ?_⟩)
          fun _ _ => .inl ht
        refine .of_room ht fun spec' hspec' hof => ?_
        exact hroom spec' hspec' ((ofGeneration_begunJob ..).1 hof)
      · refine (readOnly_assertInputIngestQuotaWith ..).wp (fun _ w => ⟨rfl, fun now => ?_⟩)
          fun _ _ => .inl ht
        refine .inl ⟨ht, fun hcarries => absurd (fun hof => ?_) hsame⟩
        have hingest : (begunJob job stored (given.getD stored) attemptId now).ingestSpec =
          some spec := hspec
        have hpol := hcarries (by rw [hingest]; rfl) ((ofGeneration_begunJob ..).2 hof)
        rw [ingestPolicy_begunJob] at hpol
        exact InputArtifactIngestPolicy.of_dump hpol
    refine wp_then hroom ?_
    rintro - u w ⟨rfl, hfits⟩
    rw [wp_bind, wp_utcNow]
    refine wp_require_then (fun _ => ?_) fun _ => .inl ht
    refine wp_then (hfits _).wp_writeJob fun _ u w hu => ?_
    exact wp_then (hu.wp_beside (confined_appendEventUnlocked ..) eventFile.not_ingestFile)
      fun _ _ _ h => (wp_pure _).2 h.1

/-- **`fail_input_ingest`.** -/
theorem IngestOk.wp_failInputIngest (jobId attemptId : DurableRecordId) (error : String) :
    Leaves (QuotaKept owner generation policy) (failInputIngest jobId attemptId error) s v := by
  unfold failInputIngest
  refine wp_then hs.wp_replay ?_
  rintro - t w ⟨ht, -⟩
  refine wp_failInputIngestUnlocked (fun _ _ => .inl ht)
    (fun job spec attempt hread hid hspec hstate _ _ _ => ?_) fun _ => .inl ht
  unfold failAttempt
  rw [wp_bind, wp_utcNow]
  simp only
  have hev : Confined (eventFile job.jobId) (appendEventUnlocked job.jobId "job.failed"
      "Input artifact ingest failed" [("state", .str JobState.failed.value),
        ("attempt_id", .str attempt.attemptId.value), ("error", .str (ingestError error))] >>=
      fun _ => pure (failedIngest job (failedAttempt attempt (ingestError error)
        (Entropy.clock w.ticks)) (ingestError error) (Entropy.clock w.ticks), true)) :=
    .bind (confined_appendEventUnlocked ..) fun _ => .pure _
  have hread : t.read (.job job.jobId) = some job := by rw [hid]; exact hread
  have hsame : SameIngest job (failedIngest job (failedAttempt attempt (ingestError error)
      (Entropy.clock w.ticks)) (ingestError error) (Entropy.clock w.ticks)) :=
    .of_set rfl rfl rfl rfl (by decide)
  exact wp_mono (ht.wp_change hread hsame (by rw [hstate]; decide) hev
    eventFile.not_ingestFile) (fun _ h => .inl h) (fun _ _ _ h => .inl h) fun _ _ _ h => .inl h

/-- Abandoning the ingest of a job that is neither failed nor canceled keeps the quota, wherever it
stops. -/
theorem IngestOk.wp_abandonIngest (hread : s.read (.job job.jobId) = some job)
    (hstate : ¬ (job.state = .failed ∨ job.state = .canceled)) :
    Leaves (IngestOk owner generation policy) (abandonIngest job) s v := by
  unfold Leaves abandonIngest
  rw [wp_bind, wp_utcNow]
  refine wp_ofExcept_then (fun existing _ => ?_) fun _ _ => hs
  rw [wp_bind]
  refine (readOnly_abandonedIdentity job existing).wp (fun identity w => ?_) fun _ _ => hs
  have hsame : SameIngest job (failedIngest job (abandonedAttempt identity
      (Entropy.clock v.ticks)) abandonedError (Entropy.clock v.ticks)) :=
    .of_set rfl rfl rfl rfl (by decide)
  refine hs.wp_change hread hsame hstate (A := eventFile job.jobId) ?_ eventFile.not_ingestFile
  exact .bind (confined_appendEventUnlocked ..) fun _ => .pure _

end

/-- Abandoning stale ingests, one job after the other, keeps the quota; by induction on the jobs
that are still to be looked at. -/
theorem IngestOk.wp_abandonFirst (cluster : String) (cutoff : Time) (limit : Nat) :
    ∀ (jobs recovered : List RelayJob) (s : Store) (v : Supply),
      IngestOk owner generation policy s →
      Leaves (IngestOk owner generation policy)
        (abandonFirst cluster cutoff limit jobs recovered) s v
  | [], _, _, _, hs => (wp_pure _).2 hs
  | indexed :: rest, recovered, s, v, hs => by
      unfold Leaves abandonFirst
      refine wp_cases (fun _ => (wp_pure _).2 hs) fun _ => ?_
      rw [wp_bind]
      refine wp_getJob_found (fun job hread hid => ?_) fun _ => hs
      refine wp_cases (fun habandoned => ?_)
        fun _ => wp_abandonFirst cluster cutoff limit rest _ s v hs
      have hstate : ¬ (job.state = .failed ∨ job.state = .canceled) := by
        rintro (h | h) <;> simp [abandoned, h] at habandoned
      have hread : s.read (.job job.jobId) = some job := by rw [hid]; exact hread
      exact wp_then (hs.wp_abandonIngest hread hstate)
        fun _ t w ht => wp_abandonFirst cluster cutoff limit rest _ t w ht

/-- **`recover_abandoned_input_ingests`.** -/
theorem IngestOk.wp_recoverAbandonedInputIngests (hs : IngestOk owner generation policy s)
    (cluster : String) (staleBefore : Option Time) (limit : Int) :
    Leaves (QuotaKept owner generation policy)
      (recoverAbandonedInputIngests cluster staleBefore limit) s v := by
  unfold recoverAbandonedInputIngests
  refine wp_require_then (fun _ => ?_) fun _ => .inl hs
  rw [wp_bind]
  refine (readOnly_ingestCutoff staleBefore).wp (fun cutoff w => ?_) fun _ _ => .inl hs
  refine wp_then hs.wp_replay ?_
  rintro - t w ⟨ht, -⟩
  unfold recoverAbandonedUnlocked
  rw [wp_bind]
  refine wp_mono (ht.wp_beside confined_repairActiveJobIndex copyFile.not_ingestFile)
    (fun _ h => .inl h) (fun _ u w hu => ?_) fun _ _ _ h => .inl h
  rw [wp_bind]
  refine wp_mono (hu.wp_beside confined_activeJobs orderFile.not_ingestFile)
    (fun _ h => .inl h) (fun active x w hx => ?_) fun _ _ _ h => .inl h
  exact wp_mono (IngestOk.wp_abandonFirst _ _ _ active [] x w hx) (fun _ h => .inl h)
    (fun _ _ _ h => .inl h) fun _ _ _ h => .inl h

omit [Entropy] in
theorem SameIngest.cancellationRequested (requestedAt : Time) (cancelScheduler : Bool) :
    SameIngest job (cancellationRequested job requestedAt cancelScheduler) := by
  unfold ClioQueue.cancellationRequested
  simp only
  split
  all_goals exact .of_set rfl rfl rfl rfl (by decide)

/-- **`cancel_job_if_active`.** -/
theorem IngestOk.wp_cancelJobIfActive (hs : IngestOk owner generation policy s)
    (jobId : DurableRecordId) (cancelScheduler : Bool) (expectedState : Option JobState)
    (expectedUpdatedAt : Option Time) :
    Leaves (QuotaKept owner generation policy)
      (cancelJobIfActive jobId cancelScheduler expectedState expectedUpdatedAt) s v := by
  unfold cancelJobIfActive
  refine wp_then hs.wp_replay ?_
  rintro - t w ⟨ht, -⟩
  unfold cancelIfActiveUnlocked
  rw [wp_bind]
  refine wp_getJob_found (fun job hread hid => ?_) fun _ => .inl ht
  refine wp_cases (fun _ => (wp_pure _).2 (.inl ht)) fun hactive => ?_
  have hstate : ¬ (job.state = .failed ∨ job.state = .canceled) := by
    rintro (h | h) <;> simp [h, JobState.terminal] at hactive
  have hpend : Confined cancelFile (if cancelScheduler then do
      let _pending ←
        ensureSchedulerCancelPendingUnlocked job (Entropy.clock w.ticks) "operator_request"
      pure ()
    else pure ()) :=
    .ite (.bind (confined_ensureSchedulerCancelPending ..) fun _ => .pure _) (.pure _)
  unfold requestCancellation
  rw [wp_bind, wp_bind, wp_utcNow]
  simp only
  rw [wp_bind]
  refine wp_besideIngest hpend cancelFile.not_ingestFile (fun _ hu => .inl (ht.frame hu))
    (fun _ u x hu => ?_) fun _ _ _ hu => .inl (ht.frame hu)
  have hread : u.read (.job job.jobId) = some job := by
    rw [hid, hu (.job jobId) trivial]
    exact hread
  refine wp_mono ((ht.frame hu).wp_change hread
    (.cancellationRequested (Entropy.clock w.ticks) cancelScheduler) hstate
    (A := eventFile job.jobId) ?_ eventFile.not_ingestFile) (fun _ h => .inl h)
    (fun _ _ _ h => (wp_pure _).2 (.inl h)) fun _ _ _ h => .inl h
  exact .bind (confined_appendEventUnlocked ..) fun _ =>
    .bind (.ite (.bind (confined_appendEventUnlocked ..) fun _ => .pure _) (.pure _)) fun _ =>
      .pure _

/-! ### The artifact -/

omit [Entropy] in
/-- **The artifact of a job that consumes** gives nobody a share. -/
theorem IngestOk.artifact {saved : ArtifactRef} (hs : IngestOk owner generation policy s)
    (hread : s.read (.job saved.jobId) = some job)
    (hstate : ¬ (job.state = .failed ∨ job.state = .canceled)) :
    IngestOk owner generation policy (s.write (.artifact saved.artifactId) saved) := by
  have hkept : ∀ p, (∀ id, p ≠ .artifact id) →
      (s.write (.artifact saved.artifactId) saved).read p = s.read p := fun p hp =>
    read_write_ne _ (hp _)
  have hjob : ∀ id, (s.write (.artifact saved.artifactId) saved).read (.job id) =
      s.read (.job id) := fun id => hkept _ (by simp)
  refine ⟨fun id job hread => hs.named id job (hjob id ▸ hread), fun key I hI => ?_,
    fun id found hfound hspec hof => ?_, (Carried.congr hjob).2 hs.carried,
    hs.quota.of_subset fun e he => ?_⟩
  · rw [hkept _ (by simp)] at hI
    exact hs.intents key I hI
  · rw [hkept _ (by simp)]
    refine (hs.member id found (hjob id ▸ hfound) hspec hof).imp_right fun hlist => ?_
    exact hlist.frame fun p hp => hkept p (by rintro id rfl; exact hp)
  · obtain ⟨other, hother, hshare⟩ := mem_ingestShares.1 he
    rw [hjob] at hother
    obtain ⟨spec, hspec, hof, hconsumes, hsize⟩ := ingestShare_eq_some.1 hshare
    refine mem_ingestShares.2 ⟨other, hother, ingestShare_eq_some.2
      ⟨spec, hspec, hof, fun hended => ?_, hsize⟩⟩
    obtain ⟨found, hfound, howns⟩ := hconsumes hended
    by_cases heq : Platform.deterministicInputArtifactId other.jobId = saved.artifactId
    · -- The new artifact names the job that reconciles, which has not ended.
      rw [heq, read_write_self] at hfound
      cases hfound
      have hname : saved.jobId = other.jobId := by
        simp only [ownsArtifact, Bool.and_eq_true, beq_iff_eq] at howns
        exact howns.1.1.1.1.1.2
      rw [hname, hs.named e.1 other hother, hother] at hread
      cases hread
      exact absurd hended hstate
    · rw [read_write_ne _ (by simpa using heq)] at hfound
      exact ⟨found, hfound, howns⟩

omit [Entropy] in
/-- The copies of an input artifact are beside the quota. -/
theorem confined_indexInputArtifact (saved : ArtifactRef) :
    Confined (fun p => ¬ ingestFile p) (indexInputArtifact saved) := by
  refine .bind (confined_boundedListing ..) fun _ => .guard <|
    .bind (confined_read _) fun _ => .guard <|
      .bind (confined_putWithin _ _ id) fun _ => .bind (confined_read _) fun _ =>
        .guard <| .bind (confined_putWithin _ _ id) fun _ =>
          .bind (.bind (confined_read _) fun index => ?_) fun _ =>
            .bind (.bind (confined_present _) fun _ => .ite (.pure _) (confined_put _ id))
              fun _ => .bind (confined_boundedListing ..) fun _ => .each _ fun _ _ => .ite (.pure _)
                (.bind (.ofExcept _) fun _ => .bind (confined_putWithin _ _ id) fun _ =>
                  confined_putWithin _ _ id)
  rcases index with _ | index
  · exact .raise _
  · exact .guard <| .ite (confined_updateJobIndex _ _ id) (.pure _)

/-- **`reconcile_input_artifact`.** -/
theorem IngestOk.wp_reconcileInputArtifact (hs : IngestOk owner generation policy s)
    (artifact : ArtifactRef) (attemptId : Option DurableRecordId) :
    Leaves (QuotaKept owner generation policy) (reconcileInputArtifact artifact attemptId) s v := by
  unfold reconcileInputArtifact
  refine wp_then hs.wp_replay ?_
  rintro - t w ⟨ht, -⟩
  unfold reconcileInputArtifactUnlocked
  rw [wp_bind]
  refine wp_checkReconciliation (fun job spec hjob => ?_) fun _ => .inl ht
  have hrest : ∀ saved u x, IngestOk owner generation policy u →
      Leaves (QuotaKept owner generation policy)
        (indexInputArtifact saved >>= fun _ => announceInputArtifact spec saved) u x := by
    intro saved u x hu
    have hcopies : Confined (fun p => ¬ ingestFile p)
        (indexInputArtifact saved >>= fun _ => announceInputArtifact spec saved) := by
      refine .bind (confined_indexInputArtifact saved) fun _ =>
        .bind (.ofReadOnly (readOnly_eventExists ..)) fun _ => .ite (.pure _) (.bind ?_ fun _ =>
          .pure _)
      exact (confined_appendEventUnlocked ..).mono eventFile.not_ingestFile
    exact wp_mono (hu.wp_beside hcopies fun _ h => h) (fun _ h => .inl h)
      (fun _ _ _ h => .inl h) fun _ _ _ h => .inl h
  rw [wp_bind]
  refine wp_saveInputArtifact (fun saved _ _ _ => hrest saved t w ht)
    (fun saved _ hname _ => ?_) fun _ => .inl ht
  have hsaved : IngestOk owner generation policy (t.write (.artifact saved.artifactId) saved) :=
    ht.artifact (by rw [hname]; exact hjob.read) hjob.state
  exact ⟨.inl hsaved, hrest saved _ w hsaved⟩

/-- **`complete_input_ingest`.** -/
theorem IngestOk.wp_completeInputIngest (hs : IngestOk owner generation policy s)
    (jobId : DurableRecordId) (attemptId : Option DurableRecordId) :
    Leaves (QuotaKept owner generation policy) (completeInputIngest jobId attemptId) s v := by
  have hann : ∀ id changed (job : RelayJob), Confined (eventFile id)
      (announceIngest id >>= fun _ => (pure (job, changed) : Op (RelayJob × Bool))) :=
    fun id changed job => .bind (.bind (.ofReadOnly (readOnly_eventExists ..)) fun _ =>
      .ite (.pure _) (.bind (confined_appendEventUnlocked ..) fun _ => .pure _)) fun _ => .pure _
  unfold completeInputIngest
  refine wp_then hs.wp_replay ?_
  rintro - t w ⟨ht, -⟩
  unfold completeInputIngestUnlocked
  rw [wp_bind]
  refine wp_checkCompletion (fun job attempt hjob => ?_) fun _ => .inl ht
  simp only
  rw [wp_bind, wp_ite]
  have hread : t.read (.job job.jobId) = some job := by rw [hjob.named]; exact hjob.read
  have hrest : ∀ found u x, IngestOk owner generation policy u →
      Leaves (QuotaKept owner generation policy) (announceIngest found.jobId >>= fun _ =>
          (pure (found, job.state == .queued || job.state == .running) : Op (RelayJob × Bool))) u x := by
    intro found u x hu
    exact wp_mono (hu.wp_beside (hann found.jobId _ found) eventFile.not_ingestFile)
      (fun _ h => .inl h) (fun _ _ _ h => .inl h) fun _ _ _ h => .inl h
  refine ⟨fun _ => wp_succeedIngest fun metadata now x hmeta => ?_, fun _ =>
    (wp_pure _).2 (hrest job t w ht)⟩
  have hsame : SameIngest job (succeededIngest job metadata now) := by
    rcases hmeta with rfl | ⟨_, rfl⟩
    · exact ⟨rfl, rfl, rfl, rfl, rfl⟩
    · exact .of_set rfl rfl rfl rfl (by decide)
  rw [wp_bind]
  refine wp_mono (ht.wp_writeJob (hsame.carries (ht.carried _ job hread))
    (ht.quota_change hread hsame hjob.state)) (fun _ h => .inl h) (fun _ u y hu => ?_)
    fun _ _ _ h => .inl h
  exact (wp_pure _).2 (hrest _ u y hu.1)

end

/-! ### Runs -/

/-- The calls that a generation's ingests consist of. -/
inductive IngestCall where
  | submitJob (job : RelayJob)
  | beginInputIngest (jobId attemptId : DurableRecordId)
      (policy : Option InputArtifactIngestPolicy)
  | failInputIngest (jobId attemptId : DurableRecordId) (error : String)
  | reconcileInputArtifact (artifact : ArtifactRef) (attemptId : Option DurableRecordId)
  | completeInputIngest (jobId : DurableRecordId) (attemptId : Option DurableRecordId)
  | recoverAbandonedInputIngests (cluster : String) (staleBefore : Option Time) (limit : Int)
  | cancelJobIfActive (jobId : DurableRecordId) (cancelScheduler : Bool)
      (expectedState : Option JobState) (expectedUpdatedAt : Option Time)
  | replay

/-- The program of a call, its result dropped. -/
def IngestCall.prog [Platform] [Entropy] : IngestCall → Op Unit
  | .submitJob job => ClioQueue.submitJob job >>= fun _ => pure ()
  | .beginInputIngest jobId attemptId policy =>
    ClioQueue.beginInputIngest jobId attemptId policy >>= fun _ => pure ()
  | .failInputIngest jobId attemptId error =>
    ClioQueue.failInputIngest jobId attemptId error >>= fun _ => pure ()
  | .reconcileInputArtifact artifact attemptId =>
    ClioQueue.reconcileInputArtifact artifact attemptId >>= fun _ => pure ()
  | .completeInputIngest jobId attemptId =>
    ClioQueue.completeInputIngest jobId attemptId >>= fun _ => pure ()
  | .recoverAbandonedInputIngests cluster staleBefore limit =>
    ClioQueue.recoverAbandonedInputIngests cluster staleBefore limit >>= fun _ => pure ()
  | .cancelJobIfActive jobId cancelScheduler expectedState expectedUpdatedAt =>
    ClioQueue.cancelJobIfActive jobId cancelScheduler expectedState expectedUpdatedAt >>=
      fun _ => pure ()
  | .replay => recoverPendingTransitions

section

variable [Platform] {owner : String} {generation : DurableRecordId}
  {policy : InputArtifactIngestPolicy} {s t : Store}

/-- A call, stopped after one of its durable writes or run to its end. -/
def IngestCall.Step (s t : Store) : Prop :=
  ∃ (_ : Entropy) (call : IngestCall) (v : Supply), t ∈ call.prog.halts s v

/-- A step after which every ingest job of the generation carries the policy. -/
def IngestCall.CarriedStep (owner : String) (generation : DurableRecordId)
    (policy : InputArtifactIngestPolicy) (s t : Store) : Prop :=
  IngestCall.Step s t ∧ Carried owner generation policy t

/-- What one call leaves, wherever it stops. -/
theorem IngestOk.step (hs : IngestOk owner generation policy s) (h : IngestCall.Step s t) :
    QuotaKept owner generation policy t := by
  obtain ⟨_, call, v, ht⟩ := h
  refine wp_halts ?_ (.inl hs) t ht
  cases call with
  | submitJob job =>
    show wp (ClioQueue.submitJob job >>= fun _ => pure ()) _ _ _ s v
    exact wp_then (hs.wp_submitJob job) fun _ _ _ h => (wp_pure _).2 h
  | beginInputIngest jobId attemptId given =>
    show wp (ClioQueue.beginInputIngest jobId attemptId given >>= fun _ => pure ()) _ _ _ s v
    exact wp_then (hs.wp_beginInputIngest jobId attemptId given) fun _ _ _ h => (wp_pure _).2 h
  | failInputIngest jobId attemptId error =>
    show wp (ClioQueue.failInputIngest jobId attemptId error >>= fun _ => pure ()) _ _ _ s v
    exact wp_then (hs.wp_failInputIngest jobId attemptId error) fun _ _ _ h => (wp_pure _).2 h
  | reconcileInputArtifact artifact attemptId =>
    show wp (ClioQueue.reconcileInputArtifact artifact attemptId >>= fun _ => pure ()) _ _ _ s v
    exact wp_then (hs.wp_reconcileInputArtifact artifact attemptId) fun _ _ _ h => (wp_pure _).2 h
  | completeInputIngest jobId attemptId =>
    show wp (ClioQueue.completeInputIngest jobId attemptId >>= fun _ => pure ()) _ _ _ s v
    exact wp_then (hs.wp_completeInputIngest jobId attemptId) fun _ _ _ h => (wp_pure _).2 h
  | recoverAbandonedInputIngests cluster staleBefore limit =>
    show wp (ClioQueue.recoverAbandonedInputIngests cluster staleBefore limit >>=
      fun _ => pure ()) _ _ _ s v
    exact wp_then (hs.wp_recoverAbandonedInputIngests cluster staleBefore limit)
      fun _ _ _ h => (wp_pure _).2 h
  | cancelJobIfActive jobId cancelScheduler expectedState expectedUpdatedAt =>
    show wp (ClioQueue.cancelJobIfActive jobId cancelScheduler expectedState
      expectedUpdatedAt >>= fun _ => pure ()) _ _ _ s v
    exact wp_then (hs.wp_cancelJobIfActive jobId cancelScheduler expectedState
      expectedUpdatedAt) fun _ _ _ h => (wp_pure _).2 h
  | replay =>
    exact wp_imp hs.wp_replay fun _ _ _ h => .inl h.1

/-- An initialized queue has no members, so it keeps every quota. -/
theorem InitializedQueue.ingestOk (h : InitializedQueue s) :
    IngestOk owner generation policy s := by
  have hnone : ∀ id, s.read (.job id) = none := fun id => h.empty _ (fun h => h) (by simp)
  have hnothing : ∀ {β : Prop} {id job}, s.read (.job id) = some job → β := by
    intro β id job hread
    rw [hnone] at hread
    cases hread
  have hshares : ingestShares owner generation s = ∅ := by
    refine Finset.eq_empty_of_forall_notMem fun e he => ?_
    obtain ⟨job, hread, -⟩ := mem_ingestShares.1 he
    exact hnothing hread
  refine ⟨fun _ _ => hnothing, fun key I hI => ?_, fun _ _ => hnothing, fun _ _ => hnothing, ?_⟩
  · rw [h.empty (.intent key) (fun h => h) (by simp)] at hI
    cases hI
  · unfold QuotaHolds
    rw [hshares]
    exact ⟨Nat.zero_le _, Nat.zero_le _⟩

/-- **The quota of a generation holds in every store of a run** in which all of its ingest jobs
carry one policy: the jobs that consume are at most as many as the policy's files, and their sizes
are at most its bytes. -/
theorem ingest_quota_holds {s₀ : Store} (hinit : InitializedQueue s₀)
    (hrun : Relation.ReflTransGen (IngestCall.CarriedStep owner generation policy) s₀ t) :
    QuotaHolds owner generation policy t := by
  have hok : IngestOk owner generation policy t := by
    induction hrun with
    | refl => exact hinit.ingestOk
    | tail _ hstep ih => exact (ih.step hstep.1).resolve_right (not_not.2 hstep.2)
  exact hok.quota

end

/-! ### A sample run -/

/-- Two files, a hundred bytes. -/
def samplePolicy : InputArtifactIngestPolicy := ⟨2, 100⟩

/-- An ingest of sixty bytes. -/
def sampleIngest (jobId : DurableRecordId) : RelayJob :=
  { sampleJob with
    jobId
    kind := .inputIngest
    spec := .inputArtifact ⟨"input.dat", 60, "00"⟩
    idempotencyKey := jobId.value
    metadata := [("owner", .str "clio-relay"), ("owner_session_id", .str "session"),
      ("owner_session_generation_id", .str "generation"),
      ("input_ingest_policy", samplePolicy.dump)] }

theorem sampleIngest_job : isDurableRecordId "job_1" = true := by decide

theorem sampleIngest_attempt : isDurableRecordId "attempt_1" = true := by decide

/-- The first ingest fails, the second takes its share, and the first may not begin again. -/
def sampleIngestCalls : List IngestCall :=
  [.submitJob (sampleIngest ⟨"job_1", sampleIngest_job⟩),
    .beginInputIngest ⟨"job_1", sampleIngest_job⟩ ⟨"attempt_1", sampleIngest_attempt⟩ none,
    .failInputIngest ⟨"job_1", sampleIngest_job⟩ ⟨"attempt_1", sampleIngest_attempt⟩ "no space",
    .submitJob (sampleIngest ⟨"job_2", by decide⟩),
    .beginInputIngest ⟨"job_1", sampleIngest_job⟩ ⟨"attempt_2", by decide⟩ none]

/-- The store after the first calls. -/
def sampleIngestStore (calls : Nat) : Store :=
  (sampleIngestCalls.take calls).foldl (fun s call =>
    ((@IngestCall.prog samplePlatform sampleEntropy call).run s sampleSupply).store)
    sampleInitialized

instance (owner : String) (generation : DurableRecordId) (policy : InputArtifactIngestPolicy) :
    DecidablePred (Carries owner generation policy) :=
  fun _ => inferInstanceAs (Decidable (_ → _ → _))

/-- One ingest consumes at the end, the second one. -/
theorem ingest_quota_holds_sample :
    @ingestShares samplePlatform "session" ⟨"generation", by decide⟩ (sampleIngestStore 5) =
        {(⟨"job_2", by decide⟩, 60)} ∧
      @QuotaHolds samplePlatform "session" ⟨"generation", by decide⟩ samplePolicy
        (sampleIngestStore 5) := by
  let := samplePlatform
  have hstep : ∀ n, (hn : n < sampleIngestCalls.length) →
      IngestCall.Step (sampleIngestStore n) (sampleIngestStore (n + 1)) := by
    intro n hn
    refine ⟨sampleEntropy, sampleIngestCalls.get ⟨n, hn⟩, sampleSupply, ?_⟩
    have hnext : sampleIngestStore (n + 1) = ((@IngestCall.prog samplePlatform sampleEntropy
        (sampleIngestCalls.get ⟨n, hn⟩)).run (sampleIngestStore n) sampleSupply).store := by
      unfold sampleIngestStore
      rw [List.take_add_one, List.foldl_append, List.getElem?_eq_getElem hn]
      rfl
    rw [hnext]
    simp [halts]
  have hcarried : ∀ n, n < 6 → ∀ job ∈ (sampleIngestStore n).collect jobRecords,
      Carries "session" ⟨"generation", by decide⟩ samplePolicy job := by
    decide +kernel
  have hrun : ∀ n, n ≤ 5 → Relation.ReflTransGen (IngestCall.CarriedStep "session"
      ⟨"generation", by decide⟩ samplePolicy) sampleInitialized (sampleIngestStore n) := by
    intro n
    induction n with
    | zero => exact fun _ => .refl
    | succ n ih =>
      intro hn
      exact (ih (by omega)).tail ⟨hstep n hn, fun _ job hread =>
        hcarried (n + 1) (by omega) job (Files.mem_collect.2 ⟨_, job, hread, rfl⟩)⟩
  exact ⟨by decide +kernel, ingest_quota_holds initializedQueue_sample (hrun 5 le_rfl)⟩

end ClioQueue
