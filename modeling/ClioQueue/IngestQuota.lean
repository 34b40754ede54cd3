/-
# The quota of an owner-session generation

The share of an ingest job is its size while it can still create its artifact or owns it.
The shares of a generation are not counted anywhere: `_assert_input_ingest_quota_unlocked`
recomputes them from the memberships of the generation, so they are bounded as long as
every producer is a member or is about to become one (`IngestOk.member`) and nothing
starts to consume without the check (`Fits`).
-/

import Mathlib.Algebra.BigOperators.Group.Finset.Basic
import Mathlib.Algebra.Order.BigOperators.Group.Finset
import Mathlib.Algebra.Order.BigOperators.Group.List
import ClioQueue.EventLogOperations

namespace ClioQueue

variable {generation jobId : DurableRecordId} {owner : String}

open Durable Durable.Prog Durable.Files

/-! ### Shares -/

/-- The job belongs to the owner-session generation. -/
def OfGeneration (owner : String) (generation : DurableRecordId) (job : RelayJob) : Prop :=
  job.metadata.get "owner_session_id" = .str owner ∧
    job.metadata.get "owner_session_generation_id" = .str generation.value

instance (owner : String) (generation : DurableRecordId) :
    DecidablePred (OfGeneration owner generation) :=
  fun _ => inferInstanceAs (Decidable (_ ∧ _))

/-- The policy that an ingest job carries. -/
def RelayJob.ingestPolicy (job : RelayJob) : Option InputArtifactIngestPolicy :=
  inputArtifactIngestPolicy (job.metadata.get "input_ingest_policy")

section

variable [Platform]

/-- The size that a job of the generation takes of the quota. -/
def ingestShare (owner : String) (generation : DurableRecordId) (s : Store) (job : RelayJob) :
    Option Nat :=
  match job.ingestSpec with
  | none => none
  | some spec =>
    if OfGeneration owner generation job ∧
        (peek (inputIngestConsumesQuota job spec) s).toOption = some true then
      some spec.sizeBytes
    else none

/-- The jobs of the generation that consume, with their sizes. -/
def ingestShares (owner : String) (generation : DurableRecordId) (s : Store) :
    Finset (DurableRecordId × Nat) :=
  (s.collect fun p c =>
    match p, c with
    | .job jobId, job => (ingestShare owner generation s job).map fun size => (jobId, size)
    | _, _ => none).toFinset

theorem mem_ingestShares {owner : String} {generation : DurableRecordId} {s : Store}
    {e : DurableRecordId × Nat} : e ∈ ingestShares owner generation s ↔
      ∃ job, s.read (.job e.1) = some job ∧ ingestShare owner generation s job = some e.2 := by
  unfold ingestShares
  rw [List.mem_toFinset, mem_collect]
  constructor
  · rintro ⟨p, c, hread, hc⟩
    cases p with
    | job =>
      obtain ⟨_, hsize, rfl⟩ := Option.map_eq_some_iff.1 hc
      exact ⟨c, hread, hsize⟩
    | _ => cases hc
  · rintro ⟨job, hread, hsize⟩
    exact ⟨.job e.1, job, hread, Option.map_eq_some_iff.2 ⟨e.2, hsize, rfl⟩⟩

/-- **The quota holds**: as many files and bytes as the policy allows. -/
def QuotaHolds (owner : String) (generation : DurableRecordId)
    (policy : InputArtifactIngestPolicy) (s : Store) : Prop :=
  (ingestShares owner generation s).card ≤ policy.maxFileCount ∧
    ∑ e ∈ ingestShares owner generation s, e.2 ≤ policy.maxTotalBytes

end

/-! ### What a job consumes -/

/-- The artifact of a terminal job is its own. -/
def ownsArtifact [Platform] (job : RelayJob) (spec : InputArtifactSpec) (artifact : ArtifactRef) :
    Bool :=
  artifact.artifactId == Platform.deterministicInputArtifactId job.jobId &&
    artifact.jobId == job.jobId && artifact.kind == "input" &&
    artifact.sizeBytes == some spec.sizeBytes && artifact.sha256 == some spec.sha256 &&
    artifact.metadata.get "schema_version" == .str "clio-relay.input-artifact.v1" &&
    artifact.metadata.get "logical_name" == .str spec.logicalName

section

variable [Platform] {owner : String} {generation : DurableRecordId}
  {policy : InputArtifactIngestPolicy} {s t : Store} {job : RelayJob} {spec : InputArtifactSpec}

omit [Platform] in
theorem peek_read {α : Type} {p : Path} (f : Option (Content p) → Op α) :
    peek (read p >>= f) s = peek (f (s.read p)) s := rfl

/-- `_input_ingest_consumes_quota_unlocked`, as a condition on the store. -/
theorem consumes_iff : (peek (inputIngestConsumesQuota job spec) s).toOption = some true ↔
    ((job.state = .failed ∨ job.state = .canceled) →
      ∃ artifact, s.read (.artifact (Platform.deterministicInputArtifactId job.jobId)) =
        some artifact ∧ ownsArtifact job spec artifact = true) := by
  unfold inputIngestConsumesQuota
  by_cases hstate : job.state = .failed ∨ job.state = .canceled
  · rw [if_pos hstate]
    dsimp only
    rw [peek_read]
    rcases s.read (.artifact (Platform.deterministicInputArtifactId job.jobId)) with _ | artifact
    · simp [peek, Prog.run, pure, Except.toOption, hstate]
    · simp only [hstate, true_implies, Option.some.injEq, exists_eq_left']
      show (peek (require (ownsArtifact job spec artifact) _ >>= fun _ => pure true)
        s).toOption = some true ↔ _
      rcases ownsArtifact job spec artifact with _ | _
      · exact ⟨by rintro ⟨⟩, by rintro ⟨⟩⟩
      · exact ⟨fun _ => rfl, fun _ => rfl⟩
  · rw [if_neg hstate]
    simp [hstate, peek, Prog.run, pure, Except.toOption]

theorem ingestShare_eq_some {size : Nat} : ingestShare owner generation s job = some size ↔
    ∃ spec, job.ingestSpec = some spec ∧ OfGeneration owner generation job ∧
      ((job.state = .failed ∨ job.state = .canceled) →
        ∃ artifact, s.read (.artifact (Platform.deterministicInputArtifactId job.jobId)) =
          some artifact ∧ ownsArtifact job spec artifact = true) ∧ spec.sizeBytes = size := by
  unfold ingestShare
  rcases hspec : job.ingestSpec with _ | spec
  · simp
  · simp only [consumes_iff, Option.some.injEq, exists_eq_left', Option.ite_none_right_eq_some]
    tauto

/-! ### Keeping the quota -/

theorem QuotaHolds.of_subset (h : QuotaHolds owner generation policy s)
    (hsub : ingestShares owner generation t ⊆ ingestShares owner generation s) :
    QuotaHolds owner generation policy t :=
  ⟨(Finset.card_le_card hsub).trans h.1, (Finset.sum_le_sum_of_subset hsub).trans h.2⟩

/-- The shares of the other jobs. -/
def otherShares (owner : String) (generation : DurableRecordId) (s : Store)
    (jobId : DurableRecordId) : Finset (DurableRecordId × Nat) :=
  (ingestShares owner generation s).filter fun e => e.1 ≠ jobId

/-- **A share that the others leave room for.** -/
theorem QuotaHolds.of_room {jobId : DurableRecordId} {size : Nat}
    (hcount : (otherShares owner generation s jobId).card + 1 ≤ policy.maxFileCount)
    (hbytes : ∑ e ∈ otherShares owner generation s jobId, e.2 + size ≤ policy.maxTotalBytes)
    (hsub : ingestShares owner generation t ⊆
      insert (jobId, size) (otherShares owner generation s jobId)) :
    QuotaHolds owner generation policy t := by
  have hnew : (jobId, size) ∉ otherShares owner generation s jobId := by
    simp [otherShares]
  constructor
  · refine (Finset.card_le_card hsub).trans ?_
    rw [Finset.card_insert_of_notMem hnew]
    exact hcount
  · refine (Finset.sum_le_sum_of_subset hsub).trans ?_
    rw [Finset.sum_insert hnew, add_comm]
    exact hbytes

/-- The shares depend on the jobs and their artifacts only. -/
theorem ingestShares_congr (hjob : ∀ id, t.read (.job id) = s.read (.job id))
    (hart : ∀ id, t.read (.artifact id) = s.read (.artifact id)) :
    ingestShares owner generation t = ingestShares owner generation s := by
  ext e
  simp only [mem_ingestShares, ingestShare_eq_some, hjob, hart]

theorem ingestShare_write {p : Path} {c : Content p} (hp : ∀ id, p ≠ .artifact id) :
    ingestShare owner generation (s.write p c) job = ingestShare owner generation s job := by
  have hread : ∀ id, (s.write p c).read (.artifact id) = s.read (.artifact id) :=
    fun id => read_write_ne _ (Ne.symm (hp id))
  refine Option.ext fun size => ?_
  rw [ingestShare_eq_some, ingestShare_eq_some]
  simp only [hread]

theorem mem_ingestShares_write {e : DurableRecordId × Nat} :
    e ∈ ingestShares owner generation (s.write (.job job.jobId) job) ↔
      (e.1 = job.jobId ∧ ingestShare owner generation s job = some e.2) ∨
        (e.1 ≠ job.jobId ∧ e ∈ ingestShares owner generation s) := by
  rw [mem_ingestShares, mem_ingestShares]
  simp only [ingestShare_write (p := .job job.jobId) (c := job) (fun id => by simp)]
  by_cases hid : e.1 = job.jobId
  · rw [hid, read_write_self]
    simp
  · rw [read_write_ne _ (by simpa using hid)]
    simp [hid]

end

/-! ### Members of a generation -/

/-- The generation lists the job. -/
def Listed (owner : String) (generation jobId : DurableRecordId) (s : Store) : Prop :=
  ∃ membership, s.read (membershipPath owner (some generation) jobId) = some membership ∧
    membership.ownerSessionId = owner ∧ membership.sessionGenerationId = some generation ∧
    membership.jobId = jobId

theorem Listed.frame {s t : Store} (h : Listed owner generation jobId s)
    (hst : ∀ p, membershipFile p → t.read p = s.read p) : Listed owner generation jobId t := by
  obtain ⟨membership, hread, hfields⟩ := h
  have hfile : membershipFile (membershipPath owner (some generation) jobId) := trivial
  exact ⟨membership, (hst _ hfile).trans hread, hfields⟩

theorem membershipPath_inj {owner' : String} {generation' : DurableRecordId}
    {jobId' : DurableRecordId}
    (h : membershipPath owner (some generation) jobId = membershipPath owner' (some generation') jobId') :
    owner = owner' ∧ generation = generation' ∧ jobId = jobId' := by
  obtain ⟨g, _⟩ := generation
  obtain ⟨_, _⟩ := generation'
  obtain ⟨i, _⟩ := jobId
  obtain ⟨_, _⟩ := jobId'
  simp only [membershipPath, Option.map_some, Path.ownerSessionJob.injEq, stableRefToken_inj,
    List.cons.injEq, and_true, Option.some.injEq] at h
  obtain ⟨rfl, rfl, rfl⟩ := h
  exact ⟨rfl, rfl, rfl⟩

/-- A job of a generation has that owner and generation as its identity, however the metadata is
read. -/
theorem OfGeneration.identity {job : RelayJob} {allowLegacy : Bool}
    {identity : Option (String × Option DurableRecordId)} (h : OfGeneration owner generation job)
    (hident : ownerSessionIdentity job.metadata allowLegacy = .ok identity) :
    identity = some (owner, some generation) := by
  have hval : validateDurableRecordId generation.value = .ok generation := by
    simp [validateDurableRecordId, generation.valid]
  unfold ownerSessionIdentity at hident
  rw [h.1, h.2] at hident
  simp only [Json.nonemptyStr?] at hident
  split at hident
  · cases hident
  · next found hfound =>
      have howner : found = owner := by
        split at hfound
        · cases hfound
        · exact (Option.some.inj hfound).symm
      subst howner
      split at hident
      · cases hident
      · simp only [Json.str?, hval] at hident
        cases hident
        rfl

/-- The indexes of a job are being derived: no member is lost. -/
structure Enrolling (job : RelayJob) (s t : Store) : Prop where
  agree : Agree (derivedFile job.jobId) s t
  kept : ∀ owner generation id, Listed owner generation id s → Listed owner generation id t

section

variable [Platform] {C : Store → Prop} {Q : Post Unit}
  {E : Post RelayError} {s t u : Store} {v : Supply} {job : RelayJob}

section

omit [Platform]

theorem Enrolling.refl (job : RelayJob) (s : Store) : Enrolling job s s :=
  ⟨Agree.refl _ s, fun _ _ _ h => h⟩

/-- Recording the membership of a job loses no member of any generation, and its own generation
lists the job from then on. -/
theorem Enrolling.membership {owner : String} {generation : Option DurableRecordId}
    {membership : OwnerSessionJobMembership}
    (h : ownerSessionJobMembership job owner generation = .ok membership) :
    Enrolling job s (s.write (membershipPath owner generation job.jobId) membership) ∧
      ∀ g, generation = some g → Listed owner g job.jobId
        (s.write (membershipPath owner generation job.jobId) membership) := by
  have hfields : membership.ownerSessionId = owner ∧
      membership.sessionGenerationId = generation ∧ membership.jobId = job.jobId := by
    unfold ownerSessionJobMembership at h
    split at h
    · cases h
      exact ⟨rfl, rfl, rfl⟩
    · cases h
  have hnew : ∀ g, generation = some g → Listed owner g job.jobId
      (s.write (membershipPath owner generation job.jobId) membership) := by
    rintro g rfl
    exact ⟨membership, read_write_self .., hfields⟩
  have hfile : derivedFile job.jobId (membershipPath owner generation job.jobId) := .inl trivial
  refine ⟨⟨agree_write hfile s membership, fun owner' g' id hlist => ?_⟩, hnew⟩
  by_cases heq : membershipPath owner' (some g') id = membershipPath owner generation job.jobId
  · rcases generation with _ | g
    · exact absurd heq (by simp [membershipPath])
    · obtain ⟨rfl, rfl, rfl⟩ := membershipPath_inj heq
      exact hnew _ rfl
  · obtain ⟨found, hfound, hfields⟩ := hlist
    exact ⟨found, (read_write_ne _ heq).trans hfound, hfields⟩

theorem Enrolling.rest (h : Enrolling job s t)
    (hu : Agree (fun p => schedulerFile p ∨ jobCopy job.jobId p) t u) :
    Enrolling job s u := by
  refine ⟨h.agree.trans (hu.mono fun p hp => .inr hp), fun owner generation id hs =>
    (h.kept owner generation id hs).frame fun p hp => hu p fun hor => ?_⟩
  rcases hor with hor | hor
  all_goals
    cases p <;> first | exact hp | exact hor

end

/-- **Deriving the indexes of a job** makes it a member of its generation. -/
theorem wp_syncJobDerived_enrolling (hC : ∀ t, Enrolling job s t → C t)
    (hQ : ∀ t w, Enrolling job s t → (∀ owner generation, OfGeneration owner generation job →
        Listed owner generation job.jobId t) → Q () t w)
    (hE : ∀ err t w, Enrolling job s t → E err t w) :
    wp (syncJobDerived job) C Q E s v := by
  have hmemb : wp (syncOwnerSessionJobMembership job) C (fun _ t _ => Enrolling job s t ∧
      ∀ owner generation, OfGeneration owner generation job →
        Listed owner generation job.jobId t) E s v := by
    unfold syncOwnerSessionJobMembership
    refine wp_ofExcept_then (fun identity hident => ?_) fun err _ => hE err s v (.refl job s)
    rcases identity with _ | ⟨owner, generation⟩
    · refine (wp_pure _).2 ⟨.refl job s, fun owner generation hof => ?_⟩
      exact absurd (hof.identity hident) (by simp)
    · refine wp_ofExcept_then (fun membership hmemb => ?_) fun err _ =>
        hE err s v (.refl job s)
      obtain ⟨hkept, hnew⟩ := Enrolling.membership (s := s) hmemb
      unfold membershipPresent membershipCount
      rw [wp_bind, wp_present, wp_bind, wp_look]
      refine wp_require_then (fun _ => wp_put.2 ⟨hC _ hkept, hkept, fun owner' generation' hof => ?_⟩)
        fun _ => hE _ s v (.refl job s)
      have hident' := hof.identity hident
      cases hident'
      exact hnew _ rfl
  unfold syncJobDerived
  refine wp_then hmemb ?_
  rintro - t w ⟨ht, hlist⟩
  refine Confined.wp (A := fun p => schedulerFile p ∨ jobCopy job.jobId p) ?_
    (fun u hu => hC u (ht.rest hu)) (fun _ u w hu => hQ u w (ht.rest hu) ?_)
    fun err u w hu => hE err u w (ht.rest hu)
  · exact .bind ((confined_syncSchedulerSource ..).mono fun _ => .inl) fun _ => .ite
      (.bind (confined_unlink (.inr rfl)) fun _ => confined_unlink (.inr rfl))
      (.bind (confined_putWithin _ _ (.inr rfl)) fun _ =>
        .ite (confined_putWithin _ _ (.inr rfl)) (confined_unlink (.inr rfl)))
  · intro owner generation hof
    have hsame : Enrolling job t u := (Enrolling.refl job t).rest hu
    exact hsame.kept owner generation _ (hlist owner generation hof)

end

/-! ### The check -/

theorem sum_toFinset_le {α : Type} [DecidableEq α] (f : α → Nat) (l : List α) :
    ∑ x ∈ l.toFinset, f x ≤ (l.map f).sum := by
  induction l with
  | nil => simp
  | cons x l =>
    rw [List.toFinset_cons, List.map_cons, List.sum_cons]
    by_cases hmem : x ∈ l.toFinset
    · rw [Finset.insert_eq_of_mem hmem]
      omega
    · rw [Finset.sum_insert hmem]
      omega

section

variable [Platform] {owner : String} {generation : DurableRecordId}
  {policy : InputArtifactIngestPolicy} {s : Store} {v : Supply} {job : RelayJob}
  {C : Store → Prop} {E : Post RelayError}

/-- The job of a member takes this share, and is not the job that asks. -/
def TakesShare (owner : String) (generation : DurableRecordId) (s : Store) (job : RelayJob)
    (membership : OwnerSessionJobMembership) (size : Nat) : Prop :=
  ∃ existing, s.read (.job membership.jobId) = some existing ∧ existing.jobId ≠ job.jobId ∧
    ingestShare owner generation s existing = some size

/-- An ingest that has not failed and is not canceled takes its share of the quota, and a failed one
does while its artifact is there. -/
theorem wp_inputIngestConsumesQuota {Q : Post Bool} {spec : InputArtifactSpec}
    (hQ : ∀ consumes, (consumes = true ↔ ((job.state = .failed ∨ job.state = .canceled) →
      ∃ artifact, s.read (.artifact (Platform.deterministicInputArtifactId job.jobId)) =
        some artifact ∧ ownsArtifact job spec artifact = true)) → Q consumes s v)
    (hE : ∀ err, E err s v) : wp (inputIngestConsumesQuota job spec) C Q E s v := by
  unfold inputIngestConsumesQuota
  refine wp_cases (fun hstate => ?_) fun hstate => (wp_pure _).2 (hQ true ?_)
  · dsimp only
    rw [wp_bind, read_eq_look, wp_look]
    cases hread : s.read (.artifact (Platform.deterministicInputArtifactId job.jobId)) with
    | none => exact (wp_pure _).2 (hQ false (by simp [hread, hstate]))
    | some artifact =>
      show wp (require (ownsArtifact job spec artifact) _ >>= fun _ => pure true) _ _ _ s v
      refine wp_require_then (fun howns => (wp_pure _).2 (hQ true ?_)) fun _ => hE _
      simp [hread, howns]
  · simp [hstate]

/-- A member of the generation is counted with the size of its ingest, as long as that ingest takes
its share of the quota. -/
theorem wp_ingestMemberSize {Q : Post (Option Nat)} {membership : OwnerSessionJobMembership}
    (hQ : ∀ used w, (∀ size, TakesShare owner generation s job membership size → used = some size) →
      Q used s w) (hE : ∀ err w, E err s w) :
    wp (ingestMemberSize job owner generation membership) C Q E s v := by
  unfold ingestMemberSize readJob
  refine wp_require_then (fun _ => ?_) fun _ => hE _ _
  rw [wp_bind, wp_bind, read_eq_look, wp_look]
  refine wp_require_then (fun _ => (wp_pure _).2 ?_) fun _ => hE _ _
  rcases hread : s.read (.job membership.jobId) with _ | existing
  · exact (wp_raise _).2 (hE _ _)
  · have hcnt : ∀ size, TakesShare owner generation s job membership size →
        existing.jobId ≠ job.jobId ∧ ingestShare owner generation s existing = some size := by
      rintro size ⟨_, hfound, hne, hshare⟩
      rw [hread] at hfound
      cases hfound
      exact ⟨hne, hshare⟩
    refine wp_require_then (fun _ => ?_) fun _ => hE _ _
    refine wp_cases (fun hkind => (wp_pure _).2 (hQ _ _ fun size hsize => ?_)) fun hkind => ?_
    · obtain ⟨spec, hspec, -⟩ := ingestShare_eq_some.1 (hcnt size hsize).2
      exact absurd hspec (by simp [RelayJob.ingestSpec, hkind])
    have hkind : existing.kind = .inputIngest := not_not.1 hkind
    cases hspec : existing.spec with
    | inputArtifact spec =>
      have hingest : existing.ingestSpec = some spec := by
        simp [RelayJob.ingestSpec, hkind, hspec]
      rw [wp_ite]
      refine ⟨fun hown => (wp_pure _).2 (hQ _ _ fun size hsize =>
        absurd hown (hcnt size hsize).1), fun _ => ?_⟩
      rw [wp_bind]
      refine wp_inputIngestConsumesQuota (fun consumes hconsumes => ?_) fun _ => hE _ _
      refine (wp_pure _).2 (hQ _ _ fun size hsize => ?_)
      obtain ⟨_, hspec', -, hstate, rfl⟩ :=
        ingestShare_eq_some.1 (hcnt size hsize).2
      rw [hingest] at hspec'
      cases hspec'
      rw [if_pos (hconsumes.2 hstate)]
    | _ => exact (wp_raise _).2 (hE _ _)

/-- **The loop of the check** counts every member that takes a share. -/
theorem wp_ingestQuotaUsed {Q : Post (Nat × Nat)} {size : Nat} (hE : ∀ err w, E err s w) :
    ∀ (members : List OwnerSessionJobMembership) (files bytes : Nat) (v : Supply),
      (∀ (shares : List (DurableRecordId × Nat)) (w : Supply),
        (∀ membership ∈ members, ∀ used, TakesShare owner generation s job membership used →
          (membership.jobId, used) ∈ shares) →
        Q (files + shares.length, bytes + (shares.map Prod.snd).sum) s w) →
      wp (ingestQuotaUsed job size owner generation policy members files bytes) C Q E s v
  | [], files, bytes, v, hQ => (wp_pure _).2 (hQ [] v (by simp))
  | membership :: members, files, bytes, v, hQ => by
      unfold ingestQuotaUsed
      rw [wp_bind]
      refine wp_ingestMemberSize (fun used w hused => ?_) hE
      rcases used with _ | used
      · refine wp_ingestQuotaUsed hE members files bytes w fun shares w hshares => ?_
        refine hQ shares w fun other hother taken htaken => ?_
        rcases List.mem_cons.1 hother with rfl | hother
        · cases hused taken htaken
        · exact hshares other hother taken htaken
      · simp only
        refine wp_require_then (fun _ => ?_) fun _ => hE _ _
        refine wp_require_then (fun _ => ?_) fun _ => hE _ _
        refine wp_ingestQuotaUsed hE members _ _ w fun shares w hshares => ?_
        have hnext := hQ ((membership.jobId, used) :: shares) w fun other hother taken htaken => by
          rcases List.mem_cons.1 hother with rfl | hother
          · cases hused taken htaken
            exact .head _
          · exact .tail _ (hshares other hother taken htaken)
        rw [List.length_cons, List.map_cons, List.sum_cons] at hnext
        rwa [Nat.add_assoc, Nat.add_comm 1, Nat.add_assoc]

/-- The others leave room for the job. -/
def Room (owner : String) (generation : DurableRecordId) (policy : InputArtifactIngestPolicy)
    (s : Store) (job : RelayJob) : Prop :=
  ∀ spec, job.ingestSpec = some spec → OfGeneration owner generation job →
    (otherShares owner generation s job.jobId).card + 1 ≤ policy.maxFileCount ∧
      ∑ e ∈ otherShares owner generation s job.jobId, e.2 + spec.sizeBytes ≤ policy.maxTotalBytes

/-- **`_assert_input_ingest_quota_unlocked`** finds room, once every producer is a member. -/
theorem wp_assertInputIngestQuotaWith {Q : Post Unit} {given : Option InputArtifactIngestPolicy}
    (hnamed : ∀ id found, s.read (.job id) = some found → found.jobId = id)
    (hlist : ∀ id found, s.read (.job id) = some found → found.ingestSpec.isSome = true →
      OfGeneration owner generation found → Listed owner generation id s)
    (hpol : job.ingestSpec.isSome = true → OfGeneration owner generation job →
      given.or job.ingestPolicy = some policy)
    (hQ : ∀ w, Room owner generation policy s job → Q () s w) (hE : ∀ err w, E err s w) :
    wp (assertInputIngestQuotaWith given job) C Q E s v := by
  unfold assertInputIngestQuotaWith
  refine wp_cases (fun hkind => (wp_pure _).2 (hQ v fun spec hspec => ?_)) fun hkind => ?_
  · exact absurd hspec (by simp [RelayJob.ingestSpec, hkind])
  have hkind : job.kind = .inputIngest := not_not.1 hkind
  cases hspec : job.spec with
  | inputArtifact spec =>
    have hingest : job.ingestSpec = some spec := by simp [RelayJob.ingestSpec, hkind, hspec]
    refine wp_ofExcept_then (fun identity hident => ?_) fun _ _ => hE _ _
    rcases identity with _ | ⟨_, _ | _⟩
    · exact (wp_raise _).2 (hE _ _)
    · exact (wp_raise _).2 (hE _ _)
    refine wp_require_then (fun _ => ?_) fun _ => hE _ _
    cases hfound : given.or (inputArtifactIngestPolicy (job.metadata.get "input_ingest_policy"))
      with
    | none => exact (wp_raise _).2 (hE _ _)
    | some found =>
      simp only
      rw [wp_bind]
      refine wp_boundedListing (fun _ => ?_) fun _ _ => hE _ _
      rw [wp_bind]
      refine wp_ingestQuotaUsed hE _ 0 0 v fun shares w hshares => ?_
      refine wp_require_then (fun hfiles => ?_) fun _ => hE _ _
      rw [wp_require]
      refine ⟨fun hbytes => hQ w fun spec' hspec' hof => ?_, fun _ => hE _ _⟩
      rw [hingest] at hspec'
      cases hspec'
      cases hof.identity hident
      have hsame := hpol (by rw [hingest]; rfl) hof
      unfold RelayJob.ingestPolicy at hsame
      rw [hfound] at hsame
      cases hsame
      rw [decide_eq_true_iff] at hfiles hbytes
      have hsub : otherShares owner generation s job.jobId ⊆ shares.toFinset := by
        intro e he
        obtain ⟨hmem, hne⟩ := Finset.mem_filter.1 he
        obtain ⟨other, hread, hshare⟩ := mem_ingestShares.1 hmem
        obtain ⟨spec', hspec', hof', -⟩ := ingestShare_eq_some.1 hshare
        obtain ⟨membership, hmemb, -, -, hid⟩ :=
          hlist e.1 other hread (by rw [hspec']; rfl) hof'
        have hcoll : membership ∈ s.collect (membersListed owner generation) := by
          refine Files.mem_collect.2 ⟨_, membership, hmemb, ?_⟩
          simp [membersListed, membershipPath]
        have hcnt : TakesShare owner generation s job membership e.2 := by
          refine ⟨other, hid ▸ hread, ?_, hshare⟩
          rw [hnamed e.1 other hread]
          exact hne
        have hin := hshares membership hcoll e.2 hcnt
        rw [hid] at hin
        exact List.mem_toFinset.2 hin
      have hcard := (Finset.card_le_card hsub).trans (List.toFinset_card_le shares)
      have hsum := (Finset.sum_le_sum_of_subset (f := Prod.snd) hsub).trans
        (sum_toFinset_le Prod.snd shares)
      constructor
      · omega
      · omega
  | _ => exact (wp_raise _).2 (hE _ _)

end

end ClioQueue
